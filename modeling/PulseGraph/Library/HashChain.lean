/-
# Hash chains

A chain over entries `α` starts from a genesis digest and absorbs one entry after
another: the head after `x` is `H head x`.  Where `H` is injective on the pairs two
chains hashed and gives the genesis digest on none of them, a head determines its
whole chain (`foldl_hash_injective`): one head cannot stand for two histories, not
even of different lengths.
-/

import Mathlib.Data.Set.Function
import Mathlib.Data.List.Induction

namespace Library

variable {α β : Type*} (H : β → α → β)

/-- The pairs of head and entry a chain hashes, oldest first. -/
def hashedPairs : β → List α → List (β × α)
  | _, [] => []
  | g, x :: xs => (g, x) :: hashedPairs (H g x) xs

theorem hashedPairs_append (g : β) (xs : List α) (x : α) :
    hashedPairs H g (xs ++ [x]) = hashedPairs H g xs ++ [(xs.foldl H g, x)] := by
  induction xs generalizing g with
  | nil => rfl
  | cons y ys ih =>
      show (g, y) :: hashedPairs H (H g y) (ys ++ [x]) = _
      rw [ih]
      rfl

/-- The last pair of a nonempty chain. -/
theorem mem_hashedPairs_append (g : β) (xs : List α) (x : α) :
    (xs.foldl H g, x) ∈ hashedPairs H g (xs ++ [x]) := by
  rw [hashedPairs_append]
  exact List.mem_append_right _ List.mem_cons_self

variable {H}

/-- **A head determines its chain.**  By induction from the newest entry: two heads
that agree were hashed from the same pair, or one of the chains is empty and the
other hashes to the genesis digest. -/
theorem foldl_hash_injective {g : β} {S : Set (β × α)}
    (hinj : Set.InjOn (fun p : β × α => H p.1 p.2) S) (hgen : ∀ p ∈ S, H p.1 p.2 ≠ g)
    {xs ys : List α} (hxs : ∀ p ∈ hashedPairs H g xs, p ∈ S)
    (hys : ∀ p ∈ hashedPairs H g ys, p ∈ S) (h : xs.foldl H g = ys.foldl H g) : xs = ys := by
  induction xs using List.reverseRecOn generalizing ys with
  | nil =>
      rcases List.eq_nil_or_concat ys with rfl | ⟨ys, y, rfl⟩
      · rfl
      · rw [List.concat_eq_append] at hys h
        rw [List.foldl_append] at h
        exact absurd h.symm (hgen _ (hys _ (mem_hashedPairs_append H g ys y)))
  | append_singleton xs x ih =>
      have hx := hxs _ (mem_hashedPairs_append H g xs x)
      rcases List.eq_nil_or_concat ys with rfl | ⟨ys, y, rfl⟩
      · rw [List.foldl_append] at h
        exact absurd h (hgen _ hx)
      · rw [List.concat_eq_append] at hys h ⊢
        have hy := hys _ (mem_hashedPairs_append H g ys y)
        rw [List.foldl_append, List.foldl_append] at h
        -- the heads agree, so the pairs they were hashed from do
        obtain ⟨hhead, rfl⟩ := Prod.mk.inj (hinj hx hy h)
        rw [hashedPairs_append] at hxs hys
        rw [ih (fun p hp => hxs p (List.mem_append_left _ hp))
          (fun p hp => hys p (List.mem_append_left _ hp)) hhead]

end Library
