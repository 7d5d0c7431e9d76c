/-
# Receipts

A server of requests that leaves a receipt with each one it commits, under the request's key,
and does nothing about a request whose receipt is there (`Receipts`).  Then a request whose key
was committed before may be deleted from any sequence (`Receipts.serveAll_withoutRepeats`),
whatever was served in between.
-/

import Mathlib.Data.List.Basic

namespace Library

variable {σ α β ι : Type*} [DecidableEq ι] (serve : α → σ → Option β × σ) (key : α → ι)

/-- The state after a sequence of requests; one that commits has an answer. -/
def serveAll (xs : List α) (s : σ) : σ := xs.foldl (fun s x => (serve x s).2) s

/-- The keys of the requests that commit. -/
def committedKeys : List α → σ → List ι
  | [], _ => []
  | x :: xs, s => (if (serve x s).1.isSome then [key x] else []) ++ committedKeys xs (serve x s).2

/-- The requests `xs` that follow those `before` them, without those whose key was committed
earlier. -/
def withoutRepeats (s : σ) : List α → List α → List α
  | _, [] => []
  | before, x :: xs =>
      (if key x ∈ committedKeys serve key before s then [] else [x]) ++ withoutRepeats s (before ++ [x]) xs

/-- **Receipts**: `seen k s` is kept by every request, left by one that commits, and keeps a request
of its key from changing anything. -/
structure Receipts (seen : ι → σ → Prop) : Prop where
  kept : ∀ k x s, seen k s → seen k (serve x s).2
  left : ∀ x s, (serve x s).1.isSome = true → seen (key x) (serve x s).2
  repeats : ∀ x s, seen (key x) s → (serve x s).2 = s

variable {serve key} {seen : ι → σ → Prop} {s : σ} {xs before : List α} {k : ι}

@[simp] theorem serveAll_nil : serveAll serve [] s = s := rfl

@[simp] theorem serveAll_cons (x : α) : serveAll serve (x :: xs) s = serveAll serve xs (serve x s).2 := rfl

theorem serveAll_append (ys : List α) :
    serveAll serve (xs ++ ys) s = serveAll serve ys (serveAll serve xs s) := List.foldl_append

omit [DecidableEq ι] in
/-- A receipt stays. -/
theorem Receipts.seen_serveAll (h : Receipts serve key seen) (hk : seen k s) :
    seen k (serveAll serve xs s) := by
  induction xs generalizing s with
  | nil => exact hk
  | cons x xs ih => exact ih (h.kept k x s hk)

omit [DecidableEq ι] in
/-- What was committed has its receipt. -/
theorem Receipts.seen_of_committed (h : Receipts serve key seen)
    (hk : k ∈ committedKeys serve key xs s) : seen k (serveAll serve xs s) := by
  induction xs generalizing s with
  | nil => cases hk
  | cons x xs ih =>
      rw [committedKeys, List.mem_append] at hk
      rcases hk with hk | hk
      · split_ifs at hk with hc
        · have hleft : seen k (serve x s).2 := List.mem_singleton.1 hk ▸ h.left x s hc
          rw [serveAll_cons]
          exact h.seen_serveAll hleft
        · cases hk
      · exact ih hk

/-- **Repeats may be deleted.** -/
theorem Receipts.serveAll_withoutRepeats (h : Receipts serve key seen) :
    serveAll serve (withoutRepeats serve key s before xs) (serveAll serve before s) =
      serveAll serve xs (serveAll serve before s) := by
  induction xs generalizing before with
  | nil => rfl
  | cons x xs ih =>
      have hnext : serveAll serve (before ++ [x]) s = (serve x (serveAll serve before s)).2 := by
        rw [serveAll_append, serveAll_cons, serveAll_nil]
      have ih := @ih (before ++ [x])
      rw [hnext] at ih
      rw [withoutRepeats, serveAll_append, serveAll_cons]
      split_ifs with hk
      · -- the receipt is there, so the request changes nothing
        have hsame := h.repeats x _ (h.seen_of_committed hk)
        rw [hsame] at ih ⊢
        exact ih
      · exact ih

end Library
