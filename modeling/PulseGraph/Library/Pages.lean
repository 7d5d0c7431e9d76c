/-
# Reading a sequence in pages

A reader asks for what comes after a cursor, is sent a page, and asks again after the last key
it received.  Every item has a key, and `rest c` is all there is after the cursor `c`.  The
pages *split* the rest when each one is followed by the rest after its last key, and they *make
progress* when only an empty rest has an empty page.

**Proved here.**  What is received and what is left are the rest, after any number of pages
(`Paginates.append`); a page is empty exactly when nothing is left (`Paginates.nil_iff`); and as
many pages as there are items receive all of them (`Paginates.complete`).
`Paginates.of_prefixes`: pages that are prefixes of a strictly increasing rest split it.
-/

import Mathlib.Data.List.Sort

namespace Library

variable {α ε : Type*}

/-- The last key of a page, or the cursor when it is empty. -/
def lastKey (key : ε → α) (cursor : α) (items : List ε) : α := (items.getLast?.map key).getD cursor

/-- What so many pages bring, each asked for after the last key of the one before. -/
def received (key : ε → α) (page : α → List ε) : ℕ → α → List ε
  | 0, _ => []
  | n + 1, cursor =>
      page cursor ++ received key page n (lastKey key cursor (page cursor))

/-- A page is followed by the rest after its last key, and is empty only when nothing is left. -/
structure Paginates (key : ε → α) (page rest : α → List ε) : Prop where
  split : ∀ c, rest c = page c ++ rest (lastKey key c (page c))
  progress : ∀ c, page c = [] → rest c = []

variable {key : ε → α} {page rest : α → List ε}

@[simp] theorem lastKey_nil (c : α) : lastKey key c [] = c := rfl

/-- The last key of two lists is that of the second, or of the first when the second is empty. -/
theorem lastKey_append (c : α) (l m : List ε) :
    lastKey key c (l ++ m) = lastKey key (lastKey key c l) m := by
  unfold lastKey
  rw [List.getLast?_append]
  cases m.getLast? with
  | none => rfl
  | some x => rfl

/-- The last key of a list that ends in an item. -/
theorem lastKey_concat (c : α) (l : List ε) (x : ε) : lastKey key c (l ++ [x]) = key x := by
  rw [lastKey_append]
  rfl

namespace Paginates

/-- **What is received and what is left are the rest.** -/
theorem append (h : Paginates key page rest) (n : ℕ) (c : α) :
    rest c = received key page n c ++ rest (lastKey key c (received key page n c)) := by
  induction n generalizing c with
  | zero => rfl
  | succ n ih =>
      have hrec : received key page (n + 1) c =
          page c ++ received key page n (lastKey key c (page c)) := rfl
      rw [hrec, lastKey_append, List.append_assoc, ← ih]
      exact h.split c

/-- A page is empty exactly when nothing is left. -/
theorem nil_iff (h : Paginates key page rest) (c : α) : page c = [] ↔ rest c = [] := by
  constructor
  · exact h.progress c
  · intro hnil
    have hsplit := h.split c
    rw [hnil] at hsplit
    exact (List.append_eq_nil_iff.1 hsplit.symm).1

/-- **As many pages as there are items receive all of them.** -/
theorem complete (h : Paginates key page rest) {n : ℕ} {c : α} (hn : (rest c).length ≤ n) :
    received key page n c = rest c := by
  induction n generalizing c with
  | zero =>
      have hnil : rest c = [] := List.length_eq_zero_iff.1 (Nat.le_zero.1 hn)
      rw [hnil]
      rfl
  | succ n ih =>
      have hrec : received key page (n + 1) c =
          page c ++ received key page n (lastKey key c (page c)) := rfl
      have hsplit := h.split c
      by_cases hpage : page c = []
      · rw [hrec, hpage, List.nil_append, lastKey_nil]
        refine ih ?_
        rw [h.progress c hpage]
        exact Nat.zero_le n
      · -- the page takes at least one item off the rest
        have hpos : 0 < (page c).length := List.length_pos_of_ne_nil hpage
        have hlen := congrArg List.length hsplit
        rw [List.length_append] at hlen
        rw [hrec, ih (by omega)]
        exact hsplit.symm

variable [LinearOrder α]

/-- Two strictly increasing lists of the same items are one list. -/
theorem eq_of_mem_iff {l m : List ε} (hl : l.Pairwise fun a b => key a < key b)
    (hm : m.Pairwise fun a b => key a < key b) (hmem : ∀ x, x ∈ l ↔ x ∈ m) : l = m := by
  have hnodup : ∀ {l : List ε}, (l.Pairwise fun a b => key a < key b) → l.Nodup := by
    intro l hl
    refine hl.imp fun {a b} hab => ?_
    rintro rfl
    exact lt_irrefl _ hab
  refine List.Perm.eq_of_pairwise (fun a b _ _ hab hba => ?_) hl hm
    ((List.perm_ext_iff_of_nodup (hnodup hl) (hnodup hm)).2 hmem)
  exact absurd hba (lt_asymm hab)

/-- **Pages that are prefixes split the rest**, where the rest is strictly increasing and an item is
left after the key of an item exactly when its own key is greater. -/
theorem of_prefixes (hsorted : ∀ c, (rest c).Pairwise fun a b => key a < key b)
    (hbegins : ∀ c, page c <+: rest c)
    (hafter : ∀ c, ∀ x ∈ rest c, ∀ y, y ∈ rest (key x) ↔ y ∈ rest c ∧ key x < key y)
    (hprogress : ∀ c, page c = [] → rest c = []) : Paginates key page rest := by
  refine ⟨fun c => ?_, hprogress⟩
  obtain ⟨left, hleft⟩ := hbegins c
  rw [← hleft]
  congr 1
  rcases List.eq_nil_or_concat (page c) with hpage | ⟨front, x, hpage⟩
  · rw [hpage, lastKey_nil, ← hleft, hpage, List.nil_append]
  · rw [hpage, List.concat_eq_append, lastKey_concat]
    have hwhole : rest c = front ++ x :: left := by
      rw [← hleft, hpage, List.concat_eq_append, List.append_assoc, List.singleton_append]
    have hpairs := hsorted c
    rw [hwhole, List.pairwise_append] at hpairs
    obtain ⟨-, htail, hfront⟩ := hpairs
    obtain ⟨hx, hlefts⟩ := List.pairwise_cons.1 htail
    have hxmem : x ∈ rest c := by
      rw [hwhole]
      exact List.mem_append_right _ List.mem_cons_self
    refine eq_of_mem_iff hlefts (hsorted (key x)) fun y => ?_
    rw [hafter c x hxmem y, hwhole]
    constructor
    · intro hy
      exact ⟨List.mem_append_right _ (List.mem_cons_of_mem _ hy), hx y hy⟩
    · rintro ⟨hy, hlt⟩
      rcases List.mem_append.1 hy with hy | hy
      · exact absurd hlt (lt_asymm (hfront y hy x List.mem_cons_self))
      · rcases List.mem_cons.1 hy with rfl | hy
        · exact absurd hlt (lt_irrefl _)
        · exact hy

end Paginates

end Library
