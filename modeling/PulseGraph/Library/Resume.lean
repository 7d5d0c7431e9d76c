/-
# Programs that are run again

A program is a list of steps, each of which changes a state or fails.  It may end after any of them, and
is then run again from its first step.

**Proved here.**  Where a step has nothing to do once it was done, and other steps leave that so, it does
not matter where a program ended: run again it comes to the same end, or to the same failure
(`Restarts.runAll`), and after an end it does nothing (`Resumable.runAll_runAll`).
-/

import Mathlib.Data.List.Basic

namespace Library

variable {ι σ : Type*} {exec : ι → σ → Option σ}

/-- The steps one after another. -/
def runAll (exec : ι → σ → Option σ) (steps : List ι) (s : σ) : Option σ := steps.foldlM (fun s i => exec i s) s

@[simp] theorem runAll_nil (s : σ) : runAll exec [] s = some s := rfl

theorem runAll_cons (i : ι) (steps : List ι) (s : σ) :
    runAll exec (i :: steps) s = (exec i s).bind (runAll exec steps) := rfl

theorem runAll_append (pre post : List ι) (s : σ) :
    runAll exec (pre ++ post) s = (runAll exec pre s).bind (runAll exec post) := by
  unfold runAll
  rw [List.foldlM_append]
  rfl

/-- **Steps that can be taken again**: a step that was taken has nothing left to do, and no step gives
another something to do. -/
structure Resumable (exec : ι → σ → Option σ) : Prop where
  settles : ∀ i s s', exec i s = some s' → exec i s' = some s'
  keeps : ∀ i j s s', exec i s = some s → exec j s = some s' → exec i s' = some s'

/-- A program ended early, any number of times. -/
inductive Restarts (exec : ι → σ → Option σ) (steps : List ι) : σ → σ → Prop
  | start (s : σ) : Restarts exec steps s s
  | again {s s' s'' : σ} {pre post : List ι} : Restarts exec steps s s' → steps = pre ++ post →
      runAll exec pre s' = some s'' → Restarts exec steps s s''

namespace Resumable

variable (hr : Resumable exec) {steps pre post : List ι} {s s' : σ}
include hr

/-- What has nothing to do has nothing to do after a program. -/
theorem settled_runAll {i : ι} (hi : exec i s = some s) (h : runAll exec steps s = some s') : exec i s' = some s' := by
  induction steps generalizing s with
  | nil => exact Option.some.inj h ▸ hi
  | cons j steps ih =>
      obtain ⟨s₁, h₁, h⟩ := Option.bind_eq_some_iff.1 (runAll_cons j steps s ▸ h)
      exact ih (hr.keeps i j s s₁ hi h₁) h

/-- **A step that was taken** has nothing to do. -/
theorem settled_of_mem {i : ι} (hi : i ∈ steps) (h : runAll exec steps s = some s') : exec i s' = some s' := by
  induction steps generalizing s with
  | nil => exact absurd hi List.not_mem_nil
  | cons j steps ih =>
      obtain ⟨s₁, h₁, hrest⟩ := Option.bind_eq_some_iff.1 (runAll_cons j steps s ▸ h)
      rcases List.mem_cons.1 hi with rfl | hi
      · exact hr.settled_runAll (hr.settles i s s₁ h₁) hrest
      · exact ih hi hrest

omit hr in
theorem runAll_of_settled (h : ∀ i ∈ steps, exec i s = some s) : runAll exec steps s = some s := by
  induction steps with
  | nil => rfl
  | cons j steps ih =>
      rw [runAll_cons, h j List.mem_cons_self]
      exact ih fun i hi => h i (List.mem_cons_of_mem j hi)

/-- **After its end**, a program does nothing. -/
theorem runAll_runAll (h : runAll exec steps s = some s') : runAll exec steps s' = some s' :=
  runAll_of_settled fun _ hi => hr.settled_of_mem hi h

/-- A program that ended early is taken up where it ended. -/
theorem runAll_resume (h : runAll exec pre s = some s') :
    runAll exec (pre ++ post) s' = runAll exec (pre ++ post) s := by
  rw [runAll_append, runAll_append, h, hr.runAll_runAll h]

end Resumable

/-- **It does not matter where a program ended.** -/
theorem Restarts.runAll {steps : List ι} {s s' : σ} (h : Restarts exec steps s s') (hr : Resumable exec) :
    runAll exec steps s' = Library.runAll exec steps s := by
  induction h with
  | start => rfl
  | again _ hsplit hrun ih =>
      rw [← ih, hsplit]
      exact hr.runAll_resume hrun

end Library
