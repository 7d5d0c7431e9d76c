/-
# Places in a ranking

A list is ranked by a stable sort, and the first of it are taken.  Leaving entries out
before the sort or after it is the same (`filter_insertionSort`), so what one entry does to the
first `n` of the others is told by the number of those ahead of it: **it takes one of the
places, or none** (`take_insertionSort`).
-/

import Mathlib.Data.List.Sort
import Mathlib.Data.List.Nodup

namespace Library

variable {α : Type*} {r : α → α → Prop} [DecidableRel r] [Std.Total r] [IsTrans α r]

omit [Std.Total r] in
/-- Leaving an entry out of a ranking. -/
theorem filter_orderedInsert {p : α → Bool} {a : α} : ∀ {l : List α}, l.Pairwise r →
    (l.orderedInsert r a).filter p =
      if p a then (l.filter p).orderedInsert r a else l.filter p
  | [], _ => by
      rw [List.orderedInsert_nil, List.filter_nil, List.orderedInsert_nil, List.filter_cons]
      rfl
  | b :: l, h => by
      obtain ⟨hb, hl⟩ := List.pairwise_cons.1 h
      have ih := @filter_orderedInsert p a l hl
      rw [List.orderedInsert_cons]
      by_cases hab : r a b
      · rw [if_pos hab]
        by_cases ha : p a = true
        · rw [if_pos ha, List.filter_cons_of_pos ha]
          -- the entry comes before all that are kept
          cases hkept : (b :: l).filter p with
          | nil => rw [List.orderedInsert_nil]
          | cons c m =>
              have hmem : c ∈ b :: l := List.mem_of_mem_filter (hkept ▸ List.mem_cons_self)
              have hac : r a c := by
                rcases List.mem_cons.1 hmem with rfl | hc
                · exact hab
                · exact IsTrans.trans _ _ _ hab (hb c hc)
              rw [List.orderedInsert_cons, if_pos hac]
        · rw [if_neg ha, List.filter_cons_of_neg ha]
      · rw [if_neg hab]
        by_cases hpb : p b = true
        · rw [List.filter_cons_of_pos hpb, List.filter_cons_of_pos hpb, ih]
          split_ifs
          · rw [List.orderedInsert_cons, if_neg hab]
          · rfl
        · rw [List.filter_cons_of_neg hpb, List.filter_cons_of_neg hpb, ih]

/-- **Ranking and leaving out commute.** -/
theorem filter_insertionSort {p : α → Bool} (l : List α) :
    (l.insertionSort r).filter p = (l.filter p).insertionSort r := by
  induction l with
  | nil => rfl
  | cons a l ih =>
      rw [List.insertionSort_cons, filter_orderedInsert (List.pairwise_insertionSort r l), ih]
      by_cases ha : p a = true
      · rw [if_pos ha, List.filter_cons_of_pos ha, List.insertionSort_cons]
      · rw [if_neg ha, List.filter_cons_of_neg ha]

omit r [DecidableRel r] [Std.Total r] [IsTrans α r] in
/-- In a list without repetitions, what a sublist has after an entry comes after it. -/
theorem mem_after_of_sublist {before after : List α} {a b : α} (h : (before ++ a :: after).Nodup)
    (hs : [a, b].Sublist (before ++ a :: after)) : b ∈ after := by
  have hnot : a ∉ before := fun ha => (List.nodup_append.1 h).2.2 a ha a List.mem_cons_self rfl
  obtain ⟨m₁, m₂, hm, h₁, h₂⟩ := List.sublist_append_iff.1 hs
  cases m₁ with
  | nil =>
      obtain rfl : m₂ = [a, b] := hm.symm
      exact List.singleton_sublist.1 (List.cons_sublist_cons.1 h₂)
  | cons c m₁ =>
      obtain rfl : a = c := (List.cons.inj hm).1
      exact absurd (h₁.subset List.mem_cons_self) hnot

omit r [DecidableRel r] [Std.Total r] [IsTrans α r] in
/-- And what it has before an entry comes before it. -/
theorem mem_before_of_sublist {before after : List α} {a b : α} (h : (before ++ a :: after).Nodup)
    (hs : [b, a].Sublist (before ++ a :: after)) : b ∈ before := by
  have hreverse : (before ++ a :: after).reverse = after.reverse ++ a :: before.reverse := by
    rw [List.reverse_append, List.reverse_cons, List.append_assoc, List.singleton_append]
  have hs' : [a, b].Sublist (after.reverse ++ a :: before.reverse) := hreverse ▸ hs.reverse
  exact List.mem_reverse.1 (mem_after_of_sublist (hreverse ▸ List.nodup_reverse.2 h) hs')

/-- **The place of an entry**: ahead of it are those that rank before it, and of those that rank
equal the ones that stand before it. -/
theorem insertionSort_split {l₁ l₂ : List α} {a : α} (hnodup : (l₁ ++ a :: l₂).Nodup) {ahead : α → Bool}
    (hahead : ∀ b ∈ l₁ ++ l₂, ahead b = true ↔ r b a ∧ (¬ r a b ∨ b ∈ l₁)) :
    ∃ before after, (l₁ ++ a :: l₂).insertionSort r = before ++ a :: after ∧
      (l₁ ++ l₂).insertionSort r = before ++ after ∧
      ((l₁ ++ l₂).insertionSort r).countP ahead = before.length := by
  classical
  have hperm := List.perm_insertionSort r (l₁ ++ a :: l₂)
  obtain ⟨before, after, hsplit⟩ := List.append_of_mem (hperm.mem_iff.2 (List.mem_append_right l₁ List.mem_cons_self))
  have hnodup' : (before ++ a :: after).Nodup := hsplit ▸ hperm.nodup_iff.2 hnodup
  have hsorted : (before ++ a :: after).Pairwise r := hsplit ▸ List.pairwise_insertionSort r _
  have hout : ∀ {m₁ m₂ : List α}, (m₁ ++ a :: m₂).Nodup →
      (m₁ ++ a :: m₂).filter (fun b => decide (b ≠ a)) = m₁ ++ m₂ := by
    intro m₁ m₂ hm
    obtain ⟨h₁, h₂, hdisj⟩ := List.nodup_append.1 hm
    rw [List.filter_append, List.filter_cons_of_neg (by simp), List.filter_eq_self.2, List.filter_eq_self.2]
    · intro b hb
      exact decide_eq_true fun he => (List.nodup_cons.1 h₂).1 (he ▸ hb)
    · intro b hb
      exact decide_eq_true (hdisj b hb a List.mem_cons_self)
  have hrest : (l₁ ++ l₂).insertionSort r = before ++ after := by
    rw [← hout hnodup, ← filter_insertionSort, hsplit, hout hnodup']
  refine ⟨before, after, hsplit, hrest, ?_⟩
  have hmem : ∀ {b}, b ∈ before ++ after → b ∈ l₁ ++ l₂ := fun hb =>
    (List.perm_insertionSort r (l₁ ++ l₂)).mem_iff.1 (hrest ▸ hb)
  -- the sort is stable: what ranks equal stays on its side
  have hbefore : ∀ b ∈ before, ahead b = true := by
    intro b hb
    have hba : r b a := (List.pairwise_append.1 hsorted).2.2 b hb a List.mem_cons_self
    refine (hahead b (hmem (List.mem_append_left _ hb))).2 ⟨hba, ?_⟩
    by_contra hcon
    push Not at hcon
    obtain ⟨hab, hl₁⟩ := hcon
    have hl₂ : b ∈ l₂ := (List.mem_append.1 (hmem (List.mem_append_left _ hb))).resolve_left hl₁
    have hpair : [a, b].Sublist (before ++ a :: after) := hsplit ▸ List.pair_sublist_insertionSort hab
      ((List.cons_sublist_cons.2 (List.singleton_sublist.2 hl₂)).trans (List.sublist_append_right l₁ _))
    exact (List.nodup_append.1 hnodup').2.2 b hb b
      (List.mem_cons_of_mem _ (mem_after_of_sublist hnodup' hpair)) rfl
  have hafter : ∀ b ∈ after, ahead b = false := by
    intro b hb
    rw [← Bool.not_eq_true, hahead b (hmem (List.mem_append_right _ hb))]
    rintro ⟨hba, hcases⟩
    have hab : r a b := (List.pairwise_cons.1 (List.pairwise_append.1 hsorted).2.1).1 b hb
    have hl₁ : b ∈ l₁ := hcases.resolve_left (not_not.2 hab)
    have hpair : [b, a].Sublist (before ++ a :: after) := hsplit ▸ List.pair_sublist_insertionSort hba
      ((List.singleton_sublist.2 hl₁).append (List.singleton_sublist.2 List.mem_cons_self))
    exact (List.nodup_append.1 hnodup').2.2 b (mem_before_of_sublist hnodup' hpair) b
      (List.mem_cons_of_mem _ hb) rfl
  rw [hrest, List.countP_append, List.countP_eq_length.2 hbefore, List.countP_eq_zero.2 fun b hb => by
    simp [hafter b hb], Nat.add_zero]

/-- **It takes one of the first places, or none**: the others that are among the first `n` are their own
first `n - 1`, or their own first `n`. -/
theorem mem_take_insertionSort {l₁ l₂ : List α} {a : α} (hnodup : (l₁ ++ a :: l₂).Nodup) {ahead : α → Bool}
    (hahead : ∀ b ∈ l₁ ++ l₂, ahead b = true ↔ r b a ∧ (¬ r a b ∨ b ∈ l₁)) (n : ℕ) {c : α} :
    c ∈ ((l₁ ++ a :: l₂).insertionSort r).take n ↔
      if ((l₁ ++ l₂).insertionSort r).countP ahead < n then
        c = a ∨ c ∈ ((l₁ ++ l₂).insertionSort r).take (n - 1)
      else c ∈ ((l₁ ++ l₂).insertionSort r).take n := by
  obtain ⟨before, after, hsplit, hrest, hcount⟩ := insertionSort_split hnodup hahead
  rw [hcount, hsplit, hrest]
  split_ifs with hplace
  · obtain ⟨k, rfl⟩ : ∃ k, n = before.length + (k + 1) := ⟨n - before.length - 1, by omega⟩
    rw [List.take_length_add_append, List.take_succ_cons,
      show before.length + (k + 1) - 1 = before.length + k by omega, List.take_length_add_append]
    simp only [List.mem_append, List.mem_cons]
    exact or_left_comm
  · rw [List.take_append_of_le_length (by omega), List.take_append_of_le_length (by omega)]

end Library
