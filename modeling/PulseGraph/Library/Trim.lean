/-
# Trimming a list

Taking the elements with a property off both ends of a list, and replacing every run of them inside
by one element.

**Proved here.**  A trimmed list begins and ends with an element that stays, and is left alone by
trimming it again (`trim_trim`); nothing is left exactly when every element goes (`trim_eq_nil_iff`).
-/

import Mathlib.Data.List.DropRight

namespace Library

variable {α : Type} {p : α → Bool} {l : List α}

/-- The list without the elements at its ends that have the property. -/
def trim (p : α → Bool) (l : List α) : List α := (l.dropWhile p).rdropWhile p

/-- Every run of elements with the property, as one given element; within a run, nothing more. -/
def collapse (p : α → Bool) (blank : α) : Bool → List α → List α
  | _, [] => []
  | inside, a :: l =>
      if p a then if inside then collapse p blank true l else blank :: collapse p blank true l
      else a :: collapse p blank false l

theorem length_trim_le : (trim p l).length ≤ l.length :=
  (List.rdropWhile_prefix p (l.dropWhile p)).length_le.trans (List.dropWhile_sublist p).length_le

/-- **Nothing is left** exactly when every element goes. -/
theorem trim_eq_nil_iff : trim p l = [] ↔ ∀ a ∈ l, p a = true := by
  unfold trim
  rw [List.rdropWhile_eq_nil_iff]
  constructor
  · intro h a ha
    by_contra hp
    rw [← List.takeWhile_append_dropWhile (p := p) (l := l), List.mem_append] at ha
    rcases ha with ha | ha
    · exact hp (List.mem_takeWhile_imp ha)
    · exact hp (h a ha)
  · exact fun h a ha => h a ((List.dropWhile_sublist p).subset ha)

/-- What is left begins with an element that stays. -/
theorem head?_trim {a : α} (h : a ∈ (trim p l).head?) : p a = false := by
  have hpre := List.rdropWhile_prefix p (l.dropWhile p)
  have hhead := List.head?_dropWhile_not p l
  cases hdrop : l.dropWhile p with
  | nil =>
      rw [trim, hdrop, List.rdropWhile_nil] at h
      cases h
  | cons b rest =>
      rw [hdrop] at hhead hpre
      rw [trim, hdrop] at h
      cases htrim : (b :: rest).rdropWhile p with
      | nil =>
          rw [htrim] at h
          cases h
      | cons c more =>
          rw [htrim] at h hpre
          obtain rfl : c = a := Option.some.inj h
          obtain rfl : c = b := (List.cons_prefix_cons.1 hpre).1
          simpa using hhead

/-- A list that begins and ends with elements that stay is left alone. -/
theorem trim_eq_self (hhead : ∀ a ∈ l.head?, p a = false) (hlast : ∀ a ∈ l.getLast?, p a = false) : trim p l = l := by
  cases l with
  | nil => rfl
  | cons b rest =>
      have hdrop : (b :: rest).dropWhile p = b :: rest := List.dropWhile_cons_of_neg (by simp [hhead b rfl])
      unfold trim
      rw [hdrop, List.rdropWhile_eq_self_iff]
      intro hne
      rw [hlast _ (List.getLast?_eq_some_getLast hne)]
      decide

/-- What is left ends with an element that stays. -/
theorem getLast?_trim {a : α} (h : a ∈ (trim p l).getLast?) : p a = false := by
  have hne : trim p l ≠ [] := by
    rintro hnil
    rw [hnil] at h
    cases h
  rw [List.getLast?_eq_some_getLast hne] at h
  obtain rfl := Option.some.inj h
  exact Bool.eq_false_iff.2 (List.rdropWhile_last_not p (l.dropWhile p) hne)

/-- **Trimming twice** is trimming once. -/
theorem trim_trim : trim p (trim p l) = trim p l :=
  trim_eq_self (fun _ h => head?_trim h) fun _ h => getLast?_trim h

end Library
