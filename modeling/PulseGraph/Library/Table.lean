/-
# Keyed tables

A table is a list of rows in insertion order, each under a key, no key twice:
the uniqueness is a field of the structure, so a table with two rows under one
key cannot be built.  The operations are the statements of a relational store:
`find?` (a read by primary key), `insert` (an insert that does nothing on a
conflict), `upsert` (an insert that updates on a conflict), `update` (an update
of every row a condition selects, written as a map on the values, so that keys
never move), `delete`, and `push` (an insert under a generated key).

Every operation has one lemma about `find?`; sums and counts over the rows have
one lemma each for a changed row and for a new one.
-/

import Mathlib.Algebra.Order.BigOperators.Group.List
import Mathlib.Data.List.Nodup
import Mathlib.Data.List.TakeWhile
import Mathlib.Tactic.Ring

namespace Library

/-- Rows under distinct keys, in insertion order. -/
structure Table (κ ρ : Type*) where
  rows : List (κ × ρ)
  nodup : (rows.map Prod.fst).Nodup

namespace Table

variable {κ ρ : Type*}

/-- The table with no rows. -/
def empty : Table κ ρ := ⟨[], List.nodup_nil⟩

/-- Rewrite every value, given its key. -/
def update (t : Table κ ρ) (f : κ → ρ → ρ) : Table κ ρ :=
  ⟨t.rows.map fun r => (r.1, f r.1 r.2), by
    have h : (t.rows.map fun r => (r.1, f r.1 r.2)).map Prod.fst = t.rows.map Prod.fst := by
      simp [Function.comp_def]
    exact h ▸ t.nodup⟩

/-- Keep the rows a condition selects. -/
def filter (t : Table κ ρ) (p : κ → ρ → Bool) : Table κ ρ :=
  ⟨t.rows.filter fun r => p r.1 r.2, (List.filter_sublist.map Prod.fst).nodup t.nodup⟩

/-- Remove the rows a condition selects. -/
def delete (t : Table κ ρ) (p : κ → ρ → Bool) : Table κ ρ := t.filter fun k r => !p k r

/-- The values with their keys that a condition selects, in insertion order. -/
def select (t : Table κ ρ) (p : κ → ρ → Bool) : List (κ × ρ) := t.rows.filter fun r => p r.1 r.2

/-- The sum of a quantity over the rows. -/
def sum (t : Table κ ρ) (f : κ → ρ → ℕ) : ℕ := (t.rows.map fun r => f r.1 r.2).sum

/-- The number of rows a condition selects. -/
def count (t : Table κ ρ) (p : κ → ρ → Bool) : ℕ := t.rows.countP fun r => p r.1 r.2

theorem update_id (t : Table κ ρ) : t.update (fun _ r => r) = t := by
  unfold update
  congr
  exact List.map_id _

theorem update_update (t : Table κ ρ) (f g : κ → ρ → ρ) :
    (t.update f).update g = t.update fun k r => g k (f k r) := by
  unfold update
  simp only [List.map_map]
  rfl

/-- The rows a condition selects of a rewritten table. -/
theorem select_update (t : Table κ ρ) (f : κ → ρ → ρ) (p : κ → ρ → Bool) :
    (t.update f).select p = (t.select fun k r => p k (f k r)).map fun r => (r.1, f r.1 r.2) :=
  List.filter_map

section Find

variable [DecidableEq κ]

/-- The value under a key. -/
def find? (t : Table κ ρ) (k : κ) : Option ρ := (t.rows.find? fun r => r.1 = k).map Prod.snd

/-- Append a row unless its key is taken. -/
def insert (t : Table κ ρ) (k : κ) (r : ρ) : Table κ ρ :=
  if h : k ∈ t.rows.map Prod.fst then t
  else ⟨t.rows ++ [(k, r)], by
    simpa [List.nodup_append] using ⟨t.nodup, fun a b hab hak => h (by simp [← hak]; exact ⟨b, hab⟩)⟩⟩

/-- Append a row, or rewrite the row already under its key. -/
def upsert (t : Table κ ρ) (k : κ) (r : ρ) (f : ρ → ρ) : Table κ ρ :=
  if k ∈ t.rows.map Prod.fst then t.update fun k' v => if k' = k then f v else v
  else t.insert k r

/-- Rewrite the one row under a key. -/
def modify (t : Table κ ρ) (k : κ) (f : ρ → ρ) : Table κ ρ :=
  t.update fun k' v => if k' = k then f v else v

end Find

/-- The greatest of some numbers is at least each of them. -/
theorem le_foldr_max {l : List ℕ} {k : ℕ} (hk : k ∈ l) : k ≤ l.foldr max 0 := by
  induction l with
  | nil => simp at hk
  | cons a l ih =>
      rcases List.mem_cons.1 hk with rfl | hk
      · exact le_max_left _ _
      · exact (ih hk).trans (le_max_right _ _)

/-- The greatest of some numbers is one of them. -/
theorem foldr_max_mem {l : List ℕ} (h : l ≠ []) : l.foldr max 0 ∈ l := by
  induction l with
  | nil => exact absurd rfl h
  | cons a l ih =>
      rw [List.foldr_cons]
      rcases eq_or_ne l [] with rfl | hl
      · simp
      · rcases le_total a (l.foldr max 0) with hle | hle
        · rw [max_eq_right hle]
          exact List.mem_cons_of_mem _ (ih hl)
        · rw [max_eq_left hle]
          exact List.mem_cons_self

/-- The key an automatically numbered insert takes: one more than every key. -/
def nextKey (t : Table ℕ ρ) : ℕ := (t.rows.map Prod.fst).foldr max 0 + 1

/-- Insert under the next key. -/
def push (t : Table ℕ ρ) (r : ρ) : Table ℕ ρ := t.insert t.nextKey r

/-- Insert several rows, one after the other. -/
def pushAll (t : Table ℕ ρ) (rs : List ρ) : Table ℕ ρ := rs.foldl push t

/-! ## Reads after writes -/

section FindLemmas

variable [DecidableEq κ] {t : Table κ ρ} {k k' : κ} {r : ρ}

@[simp] theorem find?_empty (k : κ) : (empty : Table κ ρ).find? k = none := rfl

/-- A key is read back exactly when its row is there. -/
theorem find?_eq_some_iff : t.find? k = some r ↔ (k, r) ∈ t.rows := by
  constructor
  · intro h
    obtain ⟨⟨k₁, r₁⟩, hf, rfl⟩ := Option.map_eq_some_iff.1 h
    have hk : k₁ = k := by simpa using List.find?_some hf
    exact hk ▸ List.mem_of_find?_eq_some hf
  · intro h
    have hs : ((t.rows.find? fun r => r.1 = k)).isSome := by
      rw [List.find?_isSome]; exact ⟨(k, r), h, by simp⟩
    obtain ⟨⟨k₁, r₁⟩, hf⟩ := Option.isSome_iff_exists.1 hs
    have hk : k₁ = k := by simpa using List.find?_some hf
    have hr : (k₁, r₁) = (k, r) :=
      List.inj_on_of_nodup_map t.nodup (List.mem_of_find?_eq_some hf) h hk
    rw [find?, hf]
    exact congrArg (some ·.2) hr

/-- A key is unread exactly when no row is under it. -/
theorem find?_eq_none_iff : t.find? k = none ↔ k ∉ t.rows.map Prod.fst := by
  rw [find?, Option.map_eq_none_iff, List.find?_eq_none]
  constructor
  · intro h hk
    obtain ⟨x, hx, hxk⟩ := List.mem_map.1 hk
    exact h x hx (by simpa using hxk)
  · intro h x hx hxk
    exact h (List.mem_map.2 ⟨x, hx, by simpa using hxk⟩)

theorem mem_keys_iff : k ∈ t.rows.map Prod.fst ↔ ∃ r, t.find? k = some r := by
  rw [← Option.isSome_iff_exists, ← Option.ne_none_iff_isSome, ne_eq, find?_eq_none_iff, not_not]

@[simp] theorem find?_update (f : κ → ρ → ρ) : (t.update f).find? k = (t.find? k).map (f k) := by
  cases h : t.find? k with
  | none =>
      rw [find?_eq_none_iff] at h
      rw [Option.map_none, find?_eq_none_iff]
      simpa [update, Function.comp_def] using h
  | some r =>
      rw [Option.map_some, find?_eq_some_iff]
      exact List.mem_map.2 ⟨(k, r), find?_eq_some_iff.1 h, rfl⟩

@[simp] theorem find?_filter (p : κ → ρ → Bool) :
    (t.filter p).find? k = (t.find? k).filter (p k) := by
  ext r
  rw [find?_eq_some_iff, Option.filter_eq_some_iff, find?_eq_some_iff]
  exact List.mem_filter

@[simp] theorem find?_delete (p : κ → ρ → Bool) :
    (t.delete p).find? k = (t.find? k).filter fun r => !p k r := find?_filter _

theorem find?_modify (f : ρ → ρ) :
    (t.modify k f).find? k' = if k' = k then (t.find? k).map f else t.find? k' := by
  rw [modify, find?_update]
  split_ifs with h
  · rw [h]
  · exact Option.map_id_fun' ▸ rfl

theorem insert_of_find?_none (h : t.find? k = none) :
    (t.insert k r).rows = t.rows ++ [(k, r)] := by
  rw [insert, dif_neg (find?_eq_none_iff.1 h)]

theorem insert_of_find?_some {v : ρ} (h : t.find? k = some v) : t.insert k r = t := by
  rw [insert, dif_pos (mem_keys_iff.2 ⟨v, h⟩)]

theorem find?_insert :
    (t.insert k r).find? k' = if k' = k then some ((t.find? k).getD r) else t.find? k' := by
  cases h : t.find? k with
  | some v =>
      rw [insert_of_find?_some h]
      split_ifs with hk
      · rw [hk, h]; rfl
      · rfl
  | none =>
      ext v
      rw [find?_eq_some_iff, insert_of_find?_none h, List.mem_append, ← find?_eq_some_iff]
      split_ifs with hk
      · subst hk; simp [h, eq_comm]
      · simp [hk]

/-- An upsert reads back the new row where the key was free, and the rewritten
row where it was taken. -/
theorem find?_upsert (f : ρ → ρ) :
    (t.upsert k r f).find? k' =
      if k' = k then some (((t.find? k).map f).getD r) else t.find? k' := by
  rw [upsert]
  cases h : t.find? k with
  | some v =>
      rw [if_pos (mem_keys_iff.2 ⟨v, h⟩)]
      exact (find?_modify f).trans (by rw [h]; rfl)
  | none =>
      rw [if_neg (find?_eq_none_iff.1 h), find?_insert, h]
      rfl

/-- An upsert of a value that does not depend on the row it replaces. -/
theorem find?_upsert_const :
    (t.upsert k r fun _ => r).find? k' = if k' = k then some r else t.find? k' := by
  rw [find?_upsert]
  cases t.find? k <;> rfl

end FindLemmas

/-! ## One row among the others -/

section Others

variable [DecidableEq κ] {t : Table κ ρ} {k : κ} {r v : ρ} {f : ρ → ρ}

/-- A row with the rows before it and the others. -/
theorem rows_split (h : t.find? k = some v) : ∃ after,
    t.rows = (t.rows.takeWhile fun x => x.1 ≠ k) ++ (k, v) :: after ∧
      (t.rows.takeWhile fun x => x.1 ≠ k) ++ after = t.rows.filter fun x => x.1 ≠ k := by
  obtain ⟨before, after, hrows⟩ := List.append_of_mem (find?_eq_some_iff.1 h)
  have hnodup := t.nodup
  rw [hrows, List.map_append, List.map_cons] at hnodup
  obtain ⟨-, hafter, hdisj⟩ := List.nodup_append.1 hnodup
  have hb : ∀ x ∈ before, decide (x.1 ≠ k) = true := fun x hx =>
    decide_eq_true (hdisj x.1 (List.mem_map_of_mem hx) k List.mem_cons_self)
  have ha : ∀ x ∈ after, decide (x.1 ≠ k) = true := fun x hx =>
    decide_eq_true fun he => (List.nodup_cons.1 hafter).1 (List.mem_map.2 ⟨x, hx, he⟩)
  have hbefore : (t.rows.takeWhile fun x => x.1 ≠ k) = before := by
    rw [hrows, List.takeWhile_append_of_pos hb, List.takeWhile_cons_of_neg (by simp), List.append_nil]
  refine ⟨after, by rw [hbefore, hrows], ?_⟩
  rw [hbefore, hrows, List.filter_append, List.filter_cons_of_neg (by simp), List.filter_eq_self.2 hb,
    List.filter_eq_self.2 ha]

/-- Rewriting a row leaves the others as they stand. -/
theorem filter_rows_modify :
    ((t.modify k f).rows.filter fun x => x.1 ≠ k) = t.rows.filter fun x => x.1 ≠ k := by
  unfold modify update
  dsimp only
  rw [List.filter_map]
  refine (List.map_congr_left fun x hx => ?_).trans (List.map_id _)
  have hne : x.1 ≠ k := by simpa using (List.mem_filter.1 hx).2
  rw [if_neg hne]
  rfl

/-- And those before it. -/
theorem takeWhile_rows_modify :
    ((t.modify k f).rows.takeWhile fun x => x.1 ≠ k) = t.rows.takeWhile fun x => x.1 ≠ k := by
  unfold modify update
  dsimp only
  rw [List.takeWhile_map]
  refine (List.map_congr_left fun x hx => ?_).trans (List.map_id _)
  have hne : x.1 ≠ k := by simpa using List.mem_takeWhile_imp hx
  rw [if_neg hne]
  rfl

/-- A row that is written leaves the others as they stand. -/
theorem filter_rows_upsert :
    ((t.upsert k r f).rows.filter fun x => x.1 ≠ k) = t.rows.filter fun x => x.1 ≠ k := by
  unfold upsert
  split_ifs with h
  · exact filter_rows_modify
  · rw [insert_of_find?_none (find?_eq_none_iff.2 h), List.filter_append]
    simp

/-- And those before it, which are all where it is new. -/
theorem takeWhile_rows_upsert :
    ((t.upsert k r f).rows.takeWhile fun x => x.1 ≠ k) = t.rows.takeWhile fun x => x.1 ≠ k := by
  unfold upsert
  split_ifs with h
  · exact takeWhile_rows_modify
  · have hall : ∀ x ∈ t.rows, decide (x.1 ≠ k) = true := fun x hx =>
      decide_eq_true fun he => h (List.mem_map.2 ⟨x, hx, he⟩)
    rw [insert_of_find?_none (find?_eq_none_iff.2 h), List.takeWhile_append_of_pos hall,
      List.takeWhile_cons_of_neg (by simp), List.append_nil, List.takeWhile_eq_self_iff.2 hall]

/-- The keys of a table a row is written to. -/
theorem keys_upsert : ∃ extra, (t.upsert k r f).rows.map Prod.fst = t.rows.map Prod.fst ++ extra := by
  unfold upsert
  split_ifs with h
  · exact ⟨[], by simp [update, Function.comp_def]⟩
  · exact ⟨[k], by rw [insert_of_find?_none (find?_eq_none_iff.2 h), List.map_append]; rfl⟩

/-- **Where rows are rewritten or appended**, the old rows stand first, each as it was rewritten. -/
theorem rows_append_of_keys {t' : Table κ ρ} {extra : List κ} {g : κ → ρ → ρ}
    (hkeys : t'.rows.map Prod.fst = t.rows.map Prod.fst ++ extra)
    (hg : ∀ k v, t.find? k = some v → t'.find? k = some (g k v)) :
    ∃ new, t'.rows = (t.update g).rows ++ new ∧ ∀ x ∈ new, t.find? x.1 = none ∧ t'.find? x.1 = some x.2 := by
  obtain ⟨old, new, hrows, hold, hnew⟩ := List.map_eq_append_iff.1 hkeys
  have hread : ∀ x ∈ old, t'.find? x.1 = some x.2 := fun x hx =>
    find?_eq_some_iff.2 (hrows ▸ List.mem_append_left _ hx)
  have hvalues : old = (t.update g).rows := by
    refine List.ext_getElem? fun n => ?_
    have hat : (old.map Prod.fst)[n]? = (t.rows.map Prod.fst)[n]? := by rw [hold]
    rw [List.getElem?_map, List.getElem?_map] at hat
    rw [update, List.getElem?_map]
    cases hx : old[n]? with
    | none =>
        rw [hx, Option.map_none, eq_comm, Option.map_eq_none_iff] at hat
        rw [hat, Option.map_none]
    | some x =>
        rw [hx, Option.map_some, eq_comm, Option.map_eq_some_iff] at hat
        obtain ⟨y, hy, hkey⟩ := hat
        have hvalue := hg y.1 y.2 (find?_eq_some_iff.2 (List.mem_of_getElem? hy))
        rw [hkey, hread x (List.mem_of_getElem? hx)] at hvalue
        rw [hy, Option.map_some]
        exact congrArg some (Prod.ext hkey.symm (hkey ▸ Option.some.inj hvalue))
  refine ⟨new, hvalues ▸ hrows, fun x hx => ⟨?_, find?_eq_some_iff.2 (hrows ▸ List.mem_append_right _ hx)⟩⟩
  have hnodup := t'.nodup
  rw [hkeys] at hnodup
  rw [find?_eq_none_iff]
  exact fun hmem => (List.nodup_append.1 hnodup).2.2 _ hmem _ (hnew ▸ List.mem_map_of_mem hx) rfl

end Others

/-! ## Generated keys -/

section Push

variable {t : Table ℕ ρ} {k : ℕ} {r v : ρ}

theorem lt_nextKey (h : t.find? k = some v) : k < t.nextKey :=
  Nat.lt_succ_of_le (le_foldr_max (mem_keys_iff.2 ⟨v, h⟩))

@[simp] theorem find?_nextKey : t.find? t.nextKey = none := by
  cases h : t.find? t.nextKey with
  | none => rfl
  | some v => exact absurd (lt_nextKey h) (lt_irrefl _)

theorem find?_push : (t.push r).find? k = if k = t.nextKey then some r else t.find? k := by
  rw [push, find?_insert, find?_nextKey]; rfl

/-- A pushed row leaves the rows before it alone. -/
theorem find?_push_of_some (h : t.find? k = some v) : (t.push r).find? k = some v := by
  rw [find?_push, if_neg (lt_nextKey h).ne, h]

@[simp] theorem pushAll_nil : t.pushAll [] = t := rfl

@[simp] theorem pushAll_cons (rs : List ρ) : t.pushAll (r :: rs) = (t.push r).pushAll rs := rfl

/-- Pushed rows leave the rows before them alone. -/
theorem find?_pushAll_of_some {rs : List ρ} (h : t.find? k = some v) :
    (t.pushAll rs).find? k = some v := by
  induction rs generalizing t with
  | nil => exact h
  | cons r rs ih => exact ih (find?_push_of_some h)

/-- A row read after pushing was there before, or is one of the pushed rows under
a key that was free. -/
theorem find?_pushAll {rs : List ρ} (h : (t.pushAll rs).find? k = some v) :
    t.find? k = some v ∨ t.find? k = none ∧ v ∈ rs := by
  induction rs generalizing t with
  | nil => exact .inl h
  | cons r rs ih =>
      rcases ih h with h | ⟨h, hv⟩
      · rw [find?_push] at h
        split_ifs at h with hk
        · obtain rfl := Option.some.inj h
          exact .inr ⟨hk ▸ find?_nextKey, List.mem_cons_self⟩
        · exact .inl h
      · rw [find?_push] at h
        split_ifs at h
        exact .inr ⟨h, List.mem_cons_of_mem _ hv⟩

/-- Every pushed row can be read. -/
theorem exists_find?_pushAll {rs : List ρ} (hr : r ∈ rs) :
    ∃ k, t.find? k = none ∧ (t.pushAll rs).find? k = some r := by
  induction rs generalizing t with
  | nil => simp at hr
  | cons x xs ih =>
      rcases List.mem_cons.1 hr with rfl | hr
      · have hpush : (t.push r).find? t.nextKey = some r := by rw [find?_push, if_pos rfl]
        refine ⟨t.nextKey, find?_nextKey, ?_⟩
        rw [pushAll_cons]
        exact find?_pushAll_of_some hpush
      · obtain ⟨k, hk, hx⟩ := ih (t := t.push x) hr
        refine ⟨k, ?_, hx⟩
        rw [find?_push] at hk
        split_ifs at hk
        exact hk

end Push

/-! ## Sums and counts -/

section Sums

variable [DecidableEq κ] {t : Table κ ρ} {k : κ} {r v : ρ}

omit [DecidableEq κ] in
/-- Rewriting values without touching the summed quantity keeps the sum. -/
theorem sum_update {g : κ → ρ → ℕ} {f : κ → ρ → ρ} (h : ∀ k r, g k (f k r) = g k r) :
    (t.update f).sum g = t.sum g := by
  simp [sum, update, Function.comp_def, h]

/-- A new row adds its own quantity. -/
theorem sum_insert {g : κ → ρ → ℕ} (h : t.find? k = none) :
    (t.insert k r).sum g = t.sum g + g k r := by
  simp [sum, insert_of_find?_none h]

/-- A rewritten row moves the sum by the change of its quantity. -/
theorem sum_modify {g : κ → ρ → ℕ} (h : t.find? k = some v) (f : ρ → ρ) :
    (t.modify k f).sum g + g k v = t.sum g + g k (f v) := by
  obtain ⟨rows, hnd⟩ := t
  rw [find?_eq_some_iff] at h
  simp only [sum, modify, update, List.map_map] at h ⊢
  induction rows with
  | nil => simp at h
  | cons x xs ih =>
      obtain ⟨hx, hxs⟩ := List.nodup_cons.1 (by simpa using hnd : ((x :: xs).map Prod.fst).Nodup)
      rcases List.mem_cons.1 h with rfl | hmem
      · have hrest : ∀ y ∈ xs, ((fun r => g r.1 r.2) ∘ fun r : κ × ρ =>
            (r.1, if r.1 = k then f r.2 else r.2)) y = g y.1 y.2 := by
          intro y hy
          have hne : y.1 ≠ k := fun he => hx (List.mem_map.2 ⟨y, hy, he⟩)
          simp [hne]
        rw [List.map_cons, List.map_cons, List.sum_cons, List.sum_cons, List.map_congr_left hrest]
        simp
        omega
      · have hne : x.1 ≠ k := fun he => hx (he ▸ List.mem_map.2 ⟨_, hmem, rfl⟩)
        have := ih hxs hmem
        simp only [List.map_cons, List.sum_cons, Function.comp_apply, if_neg hne]
        omega

omit [DecidableEq κ] in
/-- The count of a condition is the sum of its indicator. -/
theorem count_eq_sum (t : Table κ ρ) (p : κ → ρ → Bool) :
    t.count p = t.sum fun k r => if p k r then 1 else 0 := by
  simp only [count, sum, List.countP_eq_length_filter]
  induction t.rows with
  | nil => rfl
  | cons x xs ih => simp only [List.filter_cons, List.map_cons, List.sum_cons]; split_ifs <;> simp [ih]; omega

theorem mem_select {p : κ → ρ → Bool} :
    (k, r) ∈ t.select p ↔ t.find? k = some r ∧ p k r = true := by
  rw [select, List.mem_filter, ← find?_eq_some_iff]

omit [DecidableEq κ] in
/-- The keys of selected rows are distinct. -/
theorem nodup_select (t : Table κ ρ) (p : κ → ρ → Bool) :
    ((t.select p).map Prod.fst).Nodup :=
  (List.filter_sublist.map Prod.fst).nodup t.nodup

/-- A count is monotone in the keys that meet the condition. -/
theorem count_le {t' : Table κ ρ} {p q : κ → ρ → Bool}
    (h : ∀ k r, t.find? k = some r → p k r = true → ∃ r', t'.find? k = some r' ∧ q k r' = true) :
    t.count p ≤ t'.count q := by
  have hsub : (t.select p).map Prod.fst ⊆ (t'.select q).map Prod.fst := by
    intro k hk
    obtain ⟨⟨k, r⟩, hr, rfl⟩ := List.mem_map.1 hk
    obtain ⟨hf, hp⟩ := mem_select.1 hr
    obtain ⟨r', hf', hq⟩ := h k r hf hp
    exact List.mem_map.2 ⟨(k, r'), mem_select.2 ⟨hf', hq⟩, rfl⟩
  have hlen := (List.subperm_of_subset (nodup_select t p) hsub).length_le
  rw [List.length_map, List.length_map] at hlen
  rw [count, count, List.countP_eq_length_filter, List.countP_eq_length_filter]
  exact hlen

/-- Two keys that meet a condition are counted twice. -/
theorem two_le_count {p : κ → ρ → Bool} {k₁ k₂ : κ} {r₁ r₂ : ρ} (hne : k₁ ≠ k₂)
    (h₁ : t.find? k₁ = some r₁) (hp₁ : p k₁ r₁ = true) (h₂ : t.find? k₂ = some r₂)
    (hp₂ : p k₂ r₂ = true) : 2 ≤ t.count p := by
  have hsub : [(k₁, r₁), (k₂, r₂)] ⊆ t.select p := by
    intro x hx
    rcases List.mem_cons.1 hx with rfl | hx
    · exact mem_select.2 ⟨h₁, hp₁⟩
    · obtain rfl := List.mem_singleton.1 hx
      exact mem_select.2 ⟨h₂, hp₂⟩
  have hnd : [(k₁, r₁), (k₂, r₂)].Nodup := by simp [hne]
  have hlen := (List.subperm_of_subset hnd hsub).length_le
  rw [count, List.countP_eq_length_filter]
  exact hlen

/-- A rewrite makes the rows of `l` meet the condition, and leaves the others as they stand to it. -/
theorem count_update {f : κ → ρ → ρ} {p l : κ → ρ → Bool}
    (hnew : ∀ k r, t.find? k = some r → l k r = true → p k r = false ∧ p k (f k r) = true)
    (hold : ∀ k r, l k r = false → p k (f k r) = p k r) : (t.update f).count p = t.count p + t.count l := by
  have hrows : ∀ rows : List (κ × ρ), (∀ x ∈ rows, x ∈ t.rows) →
      (rows.map fun r => (r.1, f r.1 r.2)).countP (fun r => p r.1 r.2) =
        rows.countP (fun r => p r.1 r.2) + rows.countP fun r => l r.1 r.2 := by
    intro rows hsub
    induction rows with
    | nil => rfl
    | cons x rows ih =>
        have hx := hsub x List.mem_cons_self
        rw [List.map_cons, List.countP_cons, List.countP_cons, List.countP_cons,
          ih fun y hy => hsub y (List.mem_cons_of_mem _ hy)]
        cases hl : l x.1 x.2 with
        | true =>
            obtain ⟨hwas, his⟩ := hnew _ _ (find?_eq_some_iff.2 hx) hl
            simp only [hwas, his, Bool.false_eq_true, if_true, if_false]
            omega
        | false =>
            simp only [hold _ _ hl, Bool.false_eq_true, if_false]
            omega
  exact hrows t.rows fun x hx => hx

/-- A sum reads the rows through their keys alone. -/
theorem sum_congr {t' : Table κ ρ} {g g' : κ → ρ → ℕ}
    (h : ∀ k, (t.find? k).map (g k) = (t'.find? k).map (g' k)) : t.sum g = t'.sum g' := by
  have hkeys : ∀ (t : Table κ ρ) (g : κ → ρ → ℕ),
      t.sum g = ((t.rows.map Prod.fst).map fun k => ((t.find? k).map (g k)).getD 0).sum := by
    intro t g
    rw [sum, List.map_map]
    refine congrArg List.sum (List.map_congr_left fun x hx => ?_)
    have hx : t.find? x.1 = some x.2 := find?_eq_some_iff.2 hx
    rw [Function.comp_apply, hx]
    rfl
  have hperm : (t.rows.map Prod.fst).Perm (t'.rows.map Prod.fst) := by
    refine (List.perm_ext_iff_of_nodup t.nodup t'.nodup).2 fun k => ?_
    have hk := congrArg Option.isSome (h k)
    rw [Option.isSome_map, Option.isSome_map] at hk
    rw [mem_keys_iff, mem_keys_iff, ← Option.isSome_iff_exists, ← Option.isSome_iff_exists, hk]
  rw [hkeys t g, hkeys t' g', (hperm.map _).sum_eq]
  exact congrArg List.sum (List.map_congr_left fun k _ => by rw [h k])

/-- A table that gains one row gains its quantity. -/
theorem sum_of_new {t' : Table κ ρ} {g : κ → ρ → ℕ} (hk : t.find? k = none)
    (hk' : t'.find? k = some r)
    (hne : ∀ k' ≠ k, (t'.find? k').map (g k') = (t.find? k').map (g k')) :
    t'.sum g = t.sum g + g k r := by
  rw [← sum_insert hk]
  refine sum_congr fun k' => ?_
  rw [find?_insert]
  by_cases h : k' = k
  · rw [if_pos h, h, hk', hk]; rfl
  · rw [if_neg h, hne k' h]

/-- A table in which one row changed moves by the change of its quantity. -/
theorem sum_of_changed {t' : Table κ ρ} {g : κ → ρ → ℕ} (hk : t.find? k = some v)
    (hk' : t'.find? k = some r)
    (hne : ∀ k' ≠ k, (t'.find? k').map (g k') = (t.find? k').map (g k')) :
    t'.sum g + g k v = t.sum g + g k r := by
  rw [← sum_modify hk fun _ => r]
  refine congrArg (· + g k v) (sum_congr fun k' => ?_)
  rw [find?_modify]
  by_cases h : k' = k
  · rw [if_pos h, h, hk', hk]; rfl
  · rw [if_neg h, hne k' h]

end Sums

end Table
end Library
