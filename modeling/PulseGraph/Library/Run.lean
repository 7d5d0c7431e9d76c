/-
# Runs of a labelled transition system

A system is a set of initial states and a step relation whose steps carry a
label.  A run is kept with its history: every transition it took, newest first,
each as its state before, its label and its state after.  Quantities that the
program does not store (how often a row failed, how often an incident came back)
are functions of the history, so an invariant is a relation between a history
and a state, and `Run.induct` is the one induction every invariant is proved by.
`Run.of_replay` replays a list of labels through an executable step function.
-/

import Mathlib.Data.List.Basic

namespace Library

variable {σ ℓ : Type*}

/-- One transition: the state before, the label, the state after. -/
structure Transition (σ ℓ : Type*) where
  source : σ
  label : ℓ
  target : σ

/-- The runs of a system, with their history newest first. -/
inductive Run (init : σ → Prop) (step : σ → ℓ → σ → Prop) : List (Transition σ ℓ) → σ → Prop
  | start {s : σ} : init s → Run init step [] s
  | next {h : List (Transition σ ℓ)} {s s' : σ} {l : ℓ} :
      Run init step h s → step s l s' → Run init step (⟨s, l, s'⟩ :: h) s'

namespace Run

variable {init : σ → Prop} {step : σ → ℓ → σ → Prop} {h : List (Transition σ ℓ)} {s : σ}

/-- **The invariant rule.**  What holds of the initial states with an empty
history and is kept by every step holds of every run; the step may use that
the state before it was itself reached by a run. -/
theorem induct {I : List (Transition σ ℓ) → σ → Prop} (r : Run init step h s)
    (h0 : ∀ s, init s → I [] s)
    (hs : ∀ h s l s', Run init step h s → I h s → step s l s' → I (⟨s, l, s'⟩ :: h) s') :
    I h s := by
  induction r with
  | start hi => exact h0 _ hi
  | next r hst ih => exact hs _ _ _ _ r ih hst

/-- The invariant rule for runs all of whose transitions meet a condition. -/
theorem induct_of_forall {C : Transition σ ℓ → Prop} {I : List (Transition σ ℓ) → σ → Prop}
    (r : Run init step h s) (hc : ∀ t ∈ h, C t) (h0 : ∀ s, init s → I [] s)
    (hs : ∀ h s l s', Run init step h s → (∀ t ∈ h, C t) → I h s → C ⟨s, l, s'⟩ → step s l s' →
      I (⟨s, l, s'⟩ :: h) s') :
    I h s :=
  r.induct (I := fun h s => (∀ t ∈ h, C t) → I h s) (fun s hi _ => h0 s hi)
    (fun h s l s' r ih hst hc =>
      have ht : ∀ t ∈ h, C t := fun t ht => hc t (List.mem_cons_of_mem _ ht)
      hs h s l s' r ht (ih ht) (hc _ List.mem_cons_self) hst) hc

/-- Every transition of a run left a state that a run reaches. -/
theorem source_run (r : Run init step h s) {t : Transition σ ℓ} (ht : t ∈ h) :
    ∃ g, Run init step g t.source ∧ step t.source t.label t.target := by
  induction r with
  | start _ => simp at ht
  | next r hst ih =>
      rcases List.mem_cons.1 ht with rfl | ht
      · exact ⟨_, r, hst⟩
      · exact ih ht

/-- The state a transition led to is the last of the run, or the one the next transition left. -/
theorem target_mem (r : Run init step h s) {t : Transition σ ℓ} (ht : t ∈ h) :
    t.target ∈ s :: h.map (·.source) := by
  induction r with
  | start _ => simp at ht
  | @next h s s' l r _ ih =>
      rcases List.mem_cons.1 ht with rfl | ht
      · exact List.mem_cons_self
      · exact List.mem_cons_of_mem _ (ih ht)

end Run

/-- Replay labels through a step function, collecting the history. -/
def replay (next : σ → ℓ → Option σ) :
    List ℓ → List (Transition σ ℓ) × σ → Option (List (Transition σ ℓ) × σ)
  | [], hs => some hs
  | l :: ls, (h, s) => (next s l).bind fun s' => replay next ls (⟨s, l, s'⟩ :: h, s')

/-- A replay of labels from an initial state is a run. -/
theorem Run.of_replay {init : σ → Prop} {next : σ → ℓ → Option σ} {ls : List ℓ} :
    ∀ {h : List (Transition σ ℓ)} {s : σ} {h' : List (Transition σ ℓ)} {s' : σ},
      Run init (fun s l s' => next s l = some s') h s →
      replay next ls (h, s) = some (h', s') →
      Run init (fun s l s' => next s l = some s') h' s' := by
  induction ls with
  | nil =>
      intro h s h' s' r hr
      obtain ⟨rfl, rfl⟩ := Prod.mk.inj (Option.some.inj hr)
      exact r
  | cons l ls ih =>
      intro h s h' s' r hr
      obtain ⟨s₁, h₁, h₂⟩ := Option.bind_eq_some_iff.1 hr
      exact ih (r.next h₁) h₂

/-- A replay takes the labels it is given, the last of them last. -/
theorem labels_of_replay {next : σ → ℓ → Option σ} {ls : List ℓ} :
    ∀ {h : List (Transition σ ℓ)} {s : σ} {h' : List (Transition σ ℓ)} {s' : σ},
      replay next ls (h, s) = some (h', s') →
      h'.map (·.label) = ls.reverse ++ h.map (·.label) := by
  induction ls with
  | nil =>
      intro h s h' s' hr
      obtain ⟨rfl, rfl⟩ := Prod.mk.inj (Option.some.inj hr)
      rfl
  | cons l ls ih =>
      intro h s h' s' hr
      obtain ⟨s₁, h₁, h₂⟩ := Option.bind_eq_some_iff.1 hr
      rw [ih h₂]
      simp

/-- What a replay from an initial state computes is true of a run. -/
theorem Run.exists_of_replay {init : σ → Prop} {next : σ → ℓ → Option σ} {ls : List ℓ} {s : σ}
    {β : Type*} {f : List (Transition σ ℓ) × σ → β} {b : β} (hs : init s)
    (h : (replay next ls ([], s)).map f = some b) :
    ∃ h' s', Run init (fun s l s' => next s l = some s') h' s' ∧ f (h', s') = b := by
  obtain ⟨⟨h', s'⟩, hr, hb⟩ := Option.map_eq_some_iff.1 h
  exact ⟨h', s', Run.of_replay (.start hs) hr, hb⟩

end Library
