/-
# Lines that end themselves

Values are written as lines and the lines joined with a separator between them.  Where the reader
of one line knows its end, which it may do although the line holds the separator, the values can
be told from the joined text.

**Proved here.**  `DelimitedOn.intercalate_injective`: a line that ends itself gives an injective
joined text.  `append_inj_of_stop` is how a line is shown to end itself: at the first character
of a kind that it has not before.
-/

import Mathlib.Data.List.TakeWhile

namespace Library

variable {α β : Type}

/-- The rest of a text after a line: nothing, or the separator and more. -/
def AtEnd (sep : β) (rest : List β) : Prop := ∀ c, rest.head? = some c → c = sep

/-- The lines of some values end themselves: of two texts that begin with such lines and are equal,
the lines are of one value. -/
structure DelimitedOn (P : α → Prop) (sep : β) (line : α → List β) : Prop where
  nonempty : ∀ a, line a ≠ []
  delimits : ∀ a b rest rest', P a → P b → AtEnd sep rest → AtEnd sep rest' →
    line a ++ rest = line b ++ rest' → a = b ∧ rest = rest'

/-- What ends at the first element without a property is found again. -/
theorem append_inj_of_stop {p : β → Bool} {xs ys rest rest' : List β} (hx : ∀ c ∈ xs, p c = true)
    (hy : ∀ c ∈ ys, p c = true) (hrest : ∀ c, rest.head? = some c → p c = false)
    (hrest' : ∀ c, rest'.head? = some c → p c = false) (h : xs ++ rest = ys ++ rest') : xs = ys ∧ rest = rest' := by
  have htake : ∀ {zs more : List β}, (∀ c ∈ zs, p c = true) → (∀ c, more.head? = some c → p c = false) →
      (zs ++ more).takeWhile p = zs := by
    intro zs more hzs hmore
    rw [List.takeWhile_append_of_pos hzs]
    cases more with
    | nil => simp
    | cons c more => simp [hmore c rfl]
  have hsame : xs = ys := by rw [← htake hx hrest, h, htake hy hrest']
  subst hsame
  exact ⟨rfl, List.append_cancel_left h⟩

/-- The end of a line is reached at the end of the text and at a separator. -/
theorem atEnd_nil (sep : β) : AtEnd sep [] := by
  rintro c ⟨⟩

theorem atEnd_cons (sep : β) (rest : List β) : AtEnd sep (sep :: rest) := by
  rintro c ⟨⟩
  rfl

/-- What follows the first line of a joined text. -/
theorem intercalate_map_eq (sep : β) (line : α → List β) (a : α) (as : List α) :
    ∃ rest, AtEnd sep rest ∧ List.intercalate [sep] ((a :: as).map line) = line a ++ rest ∧
      rest = if as.isEmpty then [] else sep :: List.intercalate [sep] (as.map line) := by
  cases as with
  | nil => exact ⟨[], atEnd_nil sep, by simp, rfl⟩
  | cons b as =>
      refine ⟨sep :: List.intercalate [sep] ((b :: as).map line), atEnd_cons _ _, ?_, rfl⟩
      simp

/-- **The values can be told from the joined text.** -/
theorem DelimitedOn.intercalate_injective {P : α → Prop} {sep : β} {line : α → List β} (hline : DelimitedOn P sep line)
    {as bs : List α} (ha : ∀ a ∈ as, P a) (hb : ∀ b ∈ bs, P b)
    (h : List.intercalate [sep] (as.map line) = List.intercalate [sep] (bs.map line)) : as = bs := by
  induction as generalizing bs with
  | nil =>
      cases bs with
      | nil => rfl
      | cons b bs =>
          obtain ⟨rest, -, hfirst, -⟩ := intercalate_map_eq sep line b bs
          rw [hfirst] at h
          exact absurd (List.append_eq_nil_iff.1 h.symm).1 (hline.nonempty b)
  | cons a as ih =>
      obtain ⟨rest, hend, hfirst, hrest⟩ := intercalate_map_eq sep line a as
      rw [hfirst] at h
      cases bs with
      | nil => exact absurd (List.append_eq_nil_iff.1 h).1 (hline.nonempty a)
      | cons b bs =>
          obtain ⟨rest', hend', hfirst', hrest'⟩ := intercalate_map_eq sep line b bs
          rw [hfirst'] at h
          obtain ⟨rfl, hsame⟩ := hline.delimits a b rest rest' (ha a List.mem_cons_self) (hb b List.mem_cons_self)
            hend hend' h
          rw [hrest, hrest'] at hsame
          have ih' := fun heq => @ih bs (fun x hx => ha x (List.mem_cons_of_mem _ hx))
            (fun x hx => hb x (List.mem_cons_of_mem _ hx)) heq
          cases as with
          | nil =>
              cases bs with
              | nil => rfl
              | cons c bs => simp at hsame
          | cons c as =>
              cases bs with
              | nil => simp at hsame
              | cons d bs =>
                  simp only [List.isEmpty_cons, Bool.false_eq_true, if_false, List.cons.injEq, true_and] at hsame
                  rw [ih' hsame]

end Library
