/-
# Deadline queues with lazy deletion

A queue holds at most one deadline for each key.  The heap is never searched:
giving a key a new deadline leaves the obsolete entry where it is and numbers the
new one with the key's next generation, and `active` says which entry of a key
counts.  An obsolete entry is thrown away when it reaches the top.

The heap is a list in the order of its entries, so its first entry is the one a
binary heap has on top.  Two facts are fields of the structure: the heap is in
order, and every active deadline has its entry.

To its users a queue is the partial map `deadline` from keys to deadlines:
`deadline_push`, `deadline_cancel` and `deadline_popDue` say what the operations
do to it, `mem_popDue` what is popped, `next_eq_some` what is next.  A generation starts over when its key has
been popped, so an obsolete entry can come to agree with an active one; it then
agrees on the deadline too, and is popped in its place.
-/

import PulseGraph.Library.Table
import Mathlib.Data.Finset.Card
import Mathlib.Data.List.Sort
import Mathlib.Data.List.TakeWhile

namespace Library

/-- One entry of the heap. -/
structure HeapEntry (κ δ : Type*) where
  deadline : δ
  sequence : ℕ
  key : κ
  generation : ℕ

namespace HeapEntry

variable {κ δ : Type*} [LinearOrder δ]

/-- The order of the heap: by deadline, entries with one deadline by age. -/
def le (a b : HeapEntry κ δ) : Prop :=
  a.deadline < b.deadline ∨ a.deadline = b.deadline ∧ a.sequence ≤ b.sequence

instance : DecidableRel (le (κ := κ) (δ := δ)) := fun a b =>
  inferInstanceAs (Decidable (a.deadline < b.deadline ∨
    a.deadline = b.deadline ∧ a.sequence ≤ b.sequence))

instance : Std.Total (le (κ := κ) (δ := δ)) where
  total a b := by
    rcases lt_trichotomy a.deadline b.deadline with h | h | h
    · exact .inl (.inl h)
    · rcases le_total a.sequence b.sequence with hs | hs
      · exact .inl (.inr ⟨h, hs⟩)
      · exact .inr (.inr ⟨h.symm, hs⟩)
    · exact .inr (.inl h)

instance : IsTrans (HeapEntry κ δ) le where
  trans a b c := by
    rintro (hab | ⟨hab, hs⟩) (hbc | ⟨hbc, ht⟩)
    · exact .inl (hab.trans hbc)
    · exact .inl (hbc ▸ hab)
    · exact .inl (hab ▸ hbc)
    · exact .inr ⟨hab.trans hbc, hs.trans ht⟩

theorem le.deadline_le {a b : HeapEntry κ δ} (h : a.le b) : a.deadline ≤ b.deadline := by
  rcases h with h | ⟨h, -⟩
  · exact h.le
  · exact h.le

end HeapEntry

/-- Every active deadline has its entry. -/
def Backed {κ δ : Type*} [DecidableEq κ] (heap : List (HeapEntry κ δ)) (active : Table κ (δ × ℕ)) :
    Prop :=
  ∀ k d g, active.find? k = some (d, g) →
    ∃ e ∈ heap, e.key = k ∧ e.deadline = d ∧ e.generation = g

/-- At most one deadline for each key. -/
structure LazyQueue (κ δ : Type*) [DecidableEq κ] [LinearOrder δ] where
  heap : List (HeapEntry κ δ)
  active : Table κ (δ × ℕ)
  sequence : ℕ
  sorted : heap.Pairwise HeapEntry.le
  backed : Backed heap active

/-! ## The active deadlines and their entries -/

namespace Backed

variable {κ δ : Type*} [DecidableEq κ] {heap : List (HeapEntry κ δ)} {active : Table κ (δ × ℕ)}
  {e : HeapEntry κ δ}

/-- Fewer active deadlines need fewer entries. -/
theorem delete (h : Backed heap active) (p : κ → δ × ℕ → Bool) : Backed heap (active.delete p) := by
  intro k d g hk
  rw [Table.find?_delete, Option.filter_eq_some_iff] at hk
  exact h k d g hk.1

/-- The entry of a deadline that is popped is not needed any more. -/
theorem tail_of_active (h : Backed (e :: heap) active) :
    Backed heap (active.delete fun k _ => k = e.key) := by
  intro k d g hk
  obtain ⟨e', he', hkey, hrest⟩ := h.delete _ k d g hk
  rcases List.mem_cons.1 he' with rfl | he'
  · rw [Table.find?_delete, Option.filter_eq_some_iff] at hk
    simp [hkey] at hk
  · exact ⟨e', he', hkey, hrest⟩

/-- An obsolete entry is not needed. -/
theorem tail_of_stale (h : Backed (e :: heap) active)
    (ha : active.find? e.key ≠ some (e.deadline, e.generation)) : Backed heap active := by
  intro k d g hk
  obtain ⟨e', he', rfl, rfl, rfl⟩ := h k d g hk
  rcases List.mem_cons.1 he' with rfl | he'
  · exact absurd hk ha
  · exact ⟨e', he', rfl, rfl, rfl⟩

/-- Nor are the obsolete entries at the top. -/
theorem dropWhile_stale [DecidableEq δ] (h : Backed heap active) :
    Backed (heap.dropWhile fun e => active.find? e.key ≠ some (e.deadline, e.generation)) active := by
  induction heap with
  | nil => exact h
  | cons e heap ih =>
      by_cases ha : active.find? e.key = some (e.deadline, e.generation)
      · rwa [List.dropWhile_cons_of_neg (by simpa using ha)]
      · rw [List.dropWhile_cons_of_pos (by simpa using ha)]
        exact ih (h.tail_of_stale ha)

/-- No active deadline is earlier than the top of the heap. -/
theorem le_of_top [LinearOrder δ] (h : Backed (e :: heap) active)
    (hs : (e :: heap).Pairwise HeapEntry.le) {k : κ} {v : δ × ℕ} (hk : active.find? k = some v) :
    e.deadline ≤ v.1 := by
  obtain ⟨e', he', -, hv, -⟩ := h k v.1 v.2 hk
  rw [← hv]
  rcases List.mem_cons.1 he' with rfl | he'
  · exact le_rfl
  · exact ((List.pairwise_cons.1 hs).1 e' he').deadline_le

/-- An empty heap backs nothing. -/
theorem find?_eq_none (h : Backed [] active) (k : κ) : active.find? k = none := by
  cases hf : active.find? k with
  | none => rfl
  | some v => simpa using h k v.1 v.2 hf

end Backed

/-! ## The operations -/

namespace LazyQueue

variable {κ δ : Type*} [DecidableEq κ] [LinearOrder δ]

/-- No deadlines. -/
def empty : LazyQueue κ δ := ⟨[], Table.empty, 0, List.Pairwise.nil, by intro k d g h; simp at h⟩

/-- The deadline of a key. -/
def deadline (q : LazyQueue κ δ) (k : κ) : Option δ := (q.active.find? k).map Prod.fst

/-- The generation of a key's next entry. -/
def nextGeneration (q : LazyQueue κ δ) (k : κ) : ℕ :=
  match q.active.find? k with
  | none => 1
  | some previous => previous.2 + 1

/-- Give a key a deadline, in place of the one it has. -/
def push (q : LazyQueue κ δ) (k : κ) (d : δ) : LazyQueue κ δ where
  heap := q.heap.orderedInsert HeapEntry.le ⟨d, q.sequence, k, q.nextGeneration k⟩
  active := q.active.upsert k (d, q.nextGeneration k) fun _ => (d, q.nextGeneration k)
  sequence := q.sequence + 1
  sorted := q.sorted.orderedInsert _ _
  backed := by
    intro k' d' g' h
    rw [Table.find?_upsert_const] at h
    split_ifs at h with hk
    · obtain ⟨rfl, rfl⟩ := Prod.mk.inj (Option.some.inj h)
      exact ⟨_, (List.mem_orderedInsert _).2 (.inl rfl), hk.symm, rfl, rfl⟩
    · obtain ⟨e, he, hrest⟩ := q.backed k' d' g' h
      exact ⟨e, (List.mem_orderedInsert _).2 (.inr he), hrest⟩

/-- Take a key's deadline away. -/
def cancel (q : LazyQueue κ δ) (k : κ) : LazyQueue κ δ :=
  { q with active := q.active.delete fun k' _ => k' = k, backed := q.backed.delete _ }

/-- What the entries at the top that are due leave: the keys popped with their
deadlines, the heap and the active deadlines. -/
def popLoop (now : δ) : List (HeapEntry κ δ) → Table κ (δ × ℕ) →
    List (κ × δ) × List (HeapEntry κ δ) × Table κ (δ × ℕ)
  | [], active => ([], [], active)
  | e :: heap, active =>
      if e.deadline ≤ now then
        if active.find? e.key = some (e.deadline, e.generation) then
          let (due, rest) := popLoop now heap (active.delete fun k _ => k = e.key)
          ((e.key, e.deadline) :: due, rest)
        else popLoop now heap active
      else ([], e :: heap, active)

/-! ## The loop -/

section Loop

variable {now : δ} {heap : List (HeapEntry κ δ)} {active : Table κ (δ × ℕ)} {e : HeapEntry κ δ}

/-- An active entry at the top is popped. -/
theorem popLoop_of_active (hd : e.deadline ≤ now)
    (ha : active.find? e.key = some (e.deadline, e.generation)) :
    popLoop now (e :: heap) active =
      ((e.key, e.deadline) :: (popLoop now heap (active.delete fun k _ => k = e.key)).1,
        (popLoop now heap (active.delete fun k _ => k = e.key)).2) := by
  rw [popLoop, if_pos hd, if_pos ha]

/-- An obsolete one is thrown away. -/
theorem popLoop_of_stale (hd : e.deadline ≤ now)
    (ha : active.find? e.key ≠ some (e.deadline, e.generation)) :
    popLoop now (e :: heap) active = popLoop now heap active := by
  rw [popLoop, if_pos hd, if_neg ha]

/-- One that is not due stops the loop. -/
theorem popLoop_of_lt (hd : now < e.deadline) :
    popLoop now (e :: heap) active = ([], e :: heap, active) := by
  rw [popLoop, if_neg (not_le.2 hd)]

/-- The loop takes the entries that are due off the top. -/
theorem popLoop_heap (now : δ) (heap : List (HeapEntry κ δ)) (active : Table κ (δ × ℕ)) :
    (popLoop now heap active).2.1 = heap.dropWhile fun e => e.deadline ≤ now := by
  induction heap generalizing active with
  | nil => rfl
  | cons e heap ih =>
      rcases le_or_gt e.deadline now with hd | hd
      · rw [List.dropWhile_cons_of_pos (by simpa using hd)]
        by_cases ha : active.find? e.key = some (e.deadline, e.generation)
        · rw [popLoop_of_active hd ha]
          exact ih _
        · rw [popLoop_of_stale hd ha]
          exact ih _
      · rw [popLoop_of_lt hd, List.dropWhile_cons_of_neg (by simpa using hd)]

/-- What is popped was in the heap, in this order. -/
theorem popLoop_due_sublist (now : δ) (heap : List (HeapEntry κ δ)) (active : Table κ (δ × ℕ)) :
    (popLoop now heap active).1.Sublist (heap.map fun e => (e.key, e.deadline)) := by
  induction heap generalizing active with
  | nil => exact List.Sublist.refl _
  | cons e heap ih =>
      rcases le_or_gt e.deadline now with hd | hd
      · by_cases ha : active.find? e.key = some (e.deadline, e.generation)
        · rw [popLoop_of_active hd ha]
          exact (ih _).cons_cons _
        · rw [popLoop_of_stale hd ha]
          exact (ih _).cons _
      · rw [popLoop_of_lt hd]
        exact List.nil_sublist _

/-- The loop leaves the deadlines that are not due. -/
theorem popLoop_active (hs : heap.Pairwise HeapEntry.le) (hb : Backed heap active) (k : κ) :
    (popLoop now heap active).2.2.find? k = (active.find? k).filter fun v => now < v.1 := by
  induction heap generalizing active with
  | nil =>
      show active.find? k = _
      rw [hb.find?_eq_none]
      rfl
  | cons e heap ih =>
      rcases le_or_gt e.deadline now with hd | hd
      · by_cases ha : active.find? e.key = some (e.deadline, e.generation)
        · rw [popLoop_of_active hd ha]
          refine (ih hs.of_cons hb.tail_of_active).trans ?_
          rw [Table.find?_delete]
          by_cases hk : k = e.key
          · rw [hk, ha, Option.filter_some, Option.filter_some]
            simp [hd]
          · cases active.find? k <;> simp [hk]
        · rw [popLoop_of_stale hd ha]
          exact ih hs.of_cons (hb.tail_of_stale ha)
      · rw [popLoop_of_lt hd]
        show active.find? k = _
        cases hf : active.find? k with
        | none => rfl
        | some v =>
            have hlt : now < v.1 := hd.trans_le (hb.le_of_top hs hf)
            rw [Option.filter_some, if_pos (by simpa using hlt)]

/-- The loop pops the deadlines that are due. -/
theorem mem_popLoop (hs : heap.Pairwise HeapEntry.le) (hb : Backed heap active) (k : κ) (d : δ) :
    (k, d) ∈ (popLoop now heap active).1 ↔ (active.find? k).map Prod.fst = some d ∧ d ≤ now := by
  induction heap generalizing active with
  | nil =>
      rw [hb.find?_eq_none]
      simp [popLoop]
  | cons e heap ih =>
      rcases le_or_gt e.deadline now with hd | hd
      · by_cases ha : active.find? e.key = some (e.deadline, e.generation)
        · rw [popLoop_of_active hd ha, List.mem_cons, ih hs.of_cons hb.tail_of_active,
            Table.find?_delete]
          by_cases hk : k = e.key
          · rw [hk, ha, Option.filter_some]
            simp only [decide_true, Bool.not_true, Bool.false_eq_true, if_false, Option.map_none,
              Option.map_some, Option.some.injEq, Prod.mk.injEq, true_and, false_and, or_false,
              reduceCtorEq]
            constructor
            · rintro rfl
              exact ⟨rfl, hd⟩
            · rintro ⟨rfl, -⟩
              rfl
          · cases active.find? k <;> simp [hk]
        · rw [popLoop_of_stale hd ha]
          exact ih hs.of_cons (hb.tail_of_stale ha)
      · rw [popLoop_of_lt hd]
        refine iff_of_false (by simp) ?_
        rintro ⟨hf, hdue⟩
        obtain ⟨v, hv, rfl⟩ := Option.map_eq_some_iff.1 hf
        exact absurd hdue (not_le.2 (hd.trans_le (hb.le_of_top hs hv)))

/-- What the loop leaves active still has its entry. -/
theorem popLoop_backed (hs : heap.Pairwise HeapEntry.le) (hb : Backed heap active) :
    Backed (popLoop now heap active).2.1 (popLoop now heap active).2.2 := by
  intro k d g hk
  rw [popLoop_active hs hb, Option.filter_eq_some_iff] at hk
  obtain ⟨hk, hlt⟩ := hk
  obtain ⟨e, he, hrest⟩ := hb k d g hk
  refine ⟨e, ?_, hrest⟩
  rw [popLoop_heap]
  rw [← List.takeWhile_append_dropWhile (p := fun e => decide (e.deadline ≤ now)) (l := heap)] at he
  rcases List.mem_append.1 he with he | he
  · have hle := List.mem_takeWhile_imp he
    rw [hrest.2.1] at hle
    simp at hle hlt
    exact absurd hle (not_le.2 hlt)
  · exact he

end Loop

/-- Take the deadlines that are due. -/
def popDue (q : LazyQueue κ δ) (now : δ) : List (κ × δ) × LazyQueue κ δ :=
  ((popLoop now q.heap q.active).1,
    { heap := (popLoop now q.heap q.active).2.1
      active := (popLoop now q.heap q.active).2.2
      sequence := q.sequence
      sorted := by
        rw [popLoop_heap]
        exact q.sorted.sublist (List.dropWhile_suffix _).sublist
      backed := popLoop_backed q.sorted q.backed })

/-- The earliest deadline; the obsolete entries above it are thrown away. -/
def next (q : LazyQueue κ δ) : Option δ × LazyQueue κ δ :=
  let heap := q.heap.dropWhile fun e => q.active.find? e.key ≠ some (e.deadline, e.generation)
  (heap.head?.map (·.deadline),
    { heap := heap
      active := q.active
      sequence := q.sequence
      sorted := q.sorted.sublist (List.dropWhile_suffix _).sublist
      backed := q.backed.dropWhile_stale })

/-- How many keys have a deadline. -/
def size (q : LazyQueue κ δ) : ℕ := q.active.rows.length

/-! ## The deadlines after an operation -/

section Deadlines

variable {q : LazyQueue κ δ} {k k' : κ} {d now : δ}

@[simp] theorem deadline_empty (k : κ) : (empty : LazyQueue κ δ).deadline k = none := rfl

theorem deadline_push : (q.push k d).deadline k' = if k' = k then some d else q.deadline k' := by
  show ((q.active.upsert k _ _).find? k').map Prod.fst = _
  rw [Table.find?_upsert_const]
  split_ifs
  · rfl
  · rfl

theorem deadline_cancel : (q.cancel k).deadline k' = if k' = k then none else q.deadline k' := by
  show ((q.active.delete _).find? k').map Prod.fst = _
  rw [Table.find?_delete, deadline]
  by_cases hk : k' = k
  · cases q.active.find? k' <;> simp [hk]
  · cases q.active.find? k' <;> simp [hk]

/-- **What is due is popped**, each key with its own deadline. -/
theorem mem_popDue : (k, d) ∈ (q.popDue now).1 ↔ q.deadline k = some d ∧ d ≤ now :=
  mem_popLoop q.sorted q.backed k d

/-- **What is not due stays.** -/
theorem deadline_popDue : (q.popDue now).2.deadline k = (q.deadline k).filter (now < ·) := by
  show ((popLoop now q.heap q.active).2.2.find? k).map Prod.fst = _
  rw [popLoop_active q.sorted q.backed, deadline]
  cases q.active.find? k with
  | none => rfl
  | some v =>
      rw [Option.map_some, Option.filter_some, Option.filter_some]
      split_ifs <;> rfl

/-- What is popped comes in the order of the deadlines. -/
theorem popDue_sorted (q : LazyQueue κ δ) (now : δ) :
    (q.popDue now).1.Pairwise fun a b => a.2 ≤ b.2 := by
  refine List.Pairwise.sublist (popLoop_due_sublist now q.heap q.active) ?_
  rw [List.pairwise_map]
  exact q.sorted.imp HeapEntry.le.deadline_le

/-- No key is popped twice. -/
theorem popLoop_nodup {heap : List (HeapEntry κ δ)} {active : Table κ (δ × ℕ)}
    (hs : heap.Pairwise HeapEntry.le) (hb : Backed heap active) :
    ((popLoop now heap active).1.map Prod.fst).Nodup := by
  induction heap generalizing active with
  | nil => exact List.nodup_nil
  | cons e heap ih =>
      rcases le_or_gt e.deadline now with hd | hd
      · by_cases ha : active.find? e.key = some (e.deadline, e.generation)
        · rw [popLoop_of_active hd ha, List.map_cons, List.nodup_cons]
          refine ⟨fun hmem => ?_, ih hs.of_cons hb.tail_of_active⟩
          -- the key has no deadline any more
          obtain ⟨⟨k, d⟩, hkd, hkey⟩ := List.mem_map.1 hmem
          obtain ⟨hfind, -⟩ := (mem_popLoop hs.of_cons hb.tail_of_active k d).1 hkd
          rw [Table.find?_delete] at hfind
          have hkey : k = e.key := hkey
          simp [hkey] at hfind
        · rw [popLoop_of_stale hd ha]
          exact ih hs.of_cons (hb.tail_of_stale ha)
      · rw [popLoop_of_lt hd]
        exact List.nodup_nil

theorem popDue_nodup (q : LazyQueue κ δ) (now : δ) : ((q.popDue now).1.map Prod.fst).Nodup :=
  popLoop_nodup q.sorted q.backed

theorem deadline_next : q.next.2.deadline k = q.deadline k := rfl

/-- **The earliest deadline**, where there is one. -/
theorem next_eq_some (h : q.next.1 = some d) :
    (∃ k, q.deadline k = some d) ∧ ∀ k d', q.deadline k = some d' → d ≤ d' := by
  obtain ⟨e, he, rfl⟩ := Option.map_eq_some_iff.1 h
  obtain ⟨heap, hheap⟩ := List.head?_eq_some_iff.1 he
  have hsorted := q.next.2.sorted
  have hbacked := q.next.2.backed
  have hq : q.next.2.heap = e :: heap := hheap
  rw [hq] at hsorted hbacked
  constructor
  · -- the entry that is left at the top is active
    have hactive := List.dropWhile_get_zero_not
      (p := fun e : HeapEntry κ δ => decide (q.active.find? e.key ≠ some (e.deadline, e.generation)))
      (l := q.heap) (by rw [hheap]; simp)
    refine ⟨e.key, ?_⟩
    simp only [hheap, List.get_eq_getElem, List.getElem_cons_zero, decide_eq_true_eq, not_not] at hactive
    rw [deadline, hactive]
    rfl
  · intro k d' hk
    obtain ⟨v, hv, rfl⟩ := Option.map_eq_some_iff.1 hk
    exact hbacked.le_of_top hsorted hv

/-- There is none when no key has a deadline. -/
theorem next_eq_none (h : q.next.1 = none) (k : κ) : q.deadline k = none := by
  have hnil : q.next.2.heap = [] := List.head?_eq_none_iff.1 (Option.map_eq_none_iff.1 h)
  have hbacked := q.next.2.backed
  rw [hnil] at hbacked
  rw [← deadline_next, deadline, hbacked.find?_eq_none]
  rfl

/-- The size counts the keys with a deadline. -/
theorem size_eq_card (q : LazyQueue κ δ) : ∃ keys : Finset κ,
    (∀ k, k ∈ keys ↔ (q.deadline k).isSome = true) ∧ q.size = keys.card := by
  refine ⟨(q.active.rows.map Prod.fst).toFinset, fun k => ?_, ?_⟩
  · rw [List.mem_toFinset, Table.mem_keys_iff, deadline, Option.isSome_map, Option.isSome_iff_exists]
  · rw [List.toFinset_card_of_nodup q.active.nodup, List.length_map]
    rfl

end Deadlines

end LazyQueue
end Library
