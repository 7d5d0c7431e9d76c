/-
# Computations that may fail and keep what they did

A computation over a state whose failure leaves the state as it was at that moment: what was
written before the failure stays written.

**Proved here.**  `Does x s a s'`: from the state `s` the computation ends with the result `a` in
the state `s'`.  A sequence does what its parts do (`does_bind_iff`), and a loop over attempts
what the operations themselves do one after the other (`does_forM`).  `Ensures P x Q E`: from a state
with `P` the computation succeeds with `Q` or fails with `E`; its rules for a sequence, a loop and a
cleanup are `ensures_bind`, `ensures_forM` and `ensures_finallyDo`.
-/

import PulseGraph.Library.Checked

namespace Library

/-- A computation that may fail with `ε` and writes to `σ` as it goes. -/
abbrev Effectful (ε σ : Type) := ExceptT ε (StateM σ)

/-- The result of a computation, and the state it leaves. -/
def Effectful.runFrom {ε σ α : Type} (x : Effectful ε σ α) (s : σ) : Except ε α × σ := x.run.run s

/-- From the state the computation ends with the result, in the next state. -/
def Does {ε σ α : Type} (x : Effectful ε σ α) (s : σ) (a : α) (s' : σ) : Prop := x.runFrom s = (.ok a, s')

/-- An operation that refuses some states, which it leaves as they are. -/
def attempt {ε σ : Type} (op : σ → Option σ) (e : ε) : Effectful ε σ Unit := do
  match op (← get) with
  | some s => set s
  | none => throw e

/-- `try: ... finally: ...`, with a cleanup that cannot fail. -/
def Effectful.finallyDo {ε σ α : Type} (x : Effectful ε σ α) (cleanup : σ → σ) : Effectful ε σ α :=
  ExceptT.mk do
    let result ← x.run
    modify cleanup
    return result

/-- From a state with a property the computation ends with a result and in a state of another, or
fails in a state of a third. -/
def Ensures {ε σ α : Type} (P : σ → Prop) (x : Effectful ε σ α) (Q : α → σ → Prop) (E : σ → Prop) : Prop :=
  ∀ s, P s → (∀ a s', x.runFrom s = (.ok a, s') → Q a s') ∧ ∀ e s', x.runFrom s = (.error e, s') → E s'

variable {ε σ α β : Type} {x : Effectful ε σ α} {f : α → Effectful ε σ β} {s s' : σ}

theorem runFrom_bind : (x >>= f).runFrom s = match x.runFrom s with
    | (.ok a, s') => (f a).runFrom s'
    | (.error e, s') => (.error e, s') := by
  unfold Effectful.runFrom
  rw [ExceptT.run_bind, StateT.run_bind]
  rcases h : x.run.run s with ⟨r, s'⟩
  cases r with
  | error e => rfl
  | ok a => rfl

@[simp] theorem runFrom_pure (a : α) : (pure a : Effectful ε σ α).runFrom s = (.ok a, s) := rfl

@[simp] theorem runFrom_get : (get : Effectful ε σ σ).runFrom s = (.ok s, s) := rfl

@[simp] theorem runFrom_lift (y : Except ε α) : (liftM y : Effectful ε σ α).runFrom s = (y, s) := by
  cases y with
  | error e => rfl
  | ok a => rfl

theorem does_pure_iff {a b : α} : Does (pure a : Effectful ε σ α) s b s' ↔ b = a ∧ s' = s := by
  unfold Does
  rw [runFrom_pure, Prod.mk.injEq, Except.ok.injEq]
  exact and_congr eq_comm eq_comm

theorem does_lift_iff {y : Except ε α} {a : α} : Does (liftM y : Effectful ε σ α) s a s' ↔ y = .ok a ∧ s' = s := by
  unfold Does
  rw [runFrom_lift, Prod.mk.injEq]
  exact and_congr_right' eq_comm

/-- **A sequence** does what its parts do. -/
theorem does_bind_iff {b : β} {s'' : σ} :
    Does (x >>= f) s b s'' ↔ ∃ a s', Does x s a s' ∧ Does (f a) s' b s'' := by
  unfold Does
  rw [runFrom_bind]
  rcases x.runFrom s with ⟨r, s₁⟩
  cases r with
  | error e => simp
  | ok a => simp

theorem runFrom_finallyDo (x : Effectful ε σ α) (cleanup : σ → σ) :
    (x.finallyDo cleanup).runFrom s = ((x.runFrom s).1, cleanup (x.runFrom s).2) := rfl

theorem does_modify_iff {g : σ → σ} {u : PUnit} : Does (modify g : Effectful ε σ PUnit) s u s' ↔ s' = g s := by
  show ((Except.ok PUnit.unit : Except ε PUnit), g s) = (.ok u, s') ↔ s' = g s
  rw [Prod.mk.injEq]
  exact ⟨fun h => h.2.symm, fun h => ⟨rfl, h.symm⟩⟩

theorem does_get_iff {s₀ : σ} : Does (get : Effectful ε σ σ) s s₀ s' ↔ s₀ = s ∧ s' = s := by
  unfold Does
  rw [runFrom_get, Prod.mk.injEq, Except.ok.injEq]
  exact and_congr eq_comm eq_comm

/-- **A cleanup** comes after what it cleans up. -/
theorem does_finallyDo_iff {a : α} {cleanup : σ → σ} :
    Does (x.finallyDo cleanup) s a s' ↔ ∃ s₁, Does x s a s₁ ∧ s' = cleanup s₁ := by
  unfold Does
  rw [runFrom_finallyDo, Prod.mk.injEq]
  constructor
  · rintro ⟨h₁, h₂⟩
    exact ⟨(x.runFrom s).2, Prod.ext h₁ rfl, h₂.symm⟩
  · rintro ⟨s₁, h, rfl⟩
    rw [h]
    exact ⟨rfl, rfl⟩

theorem does_attempt {op : σ → Option σ} {e : ε} (h : op s = some s') : Does (attempt op e) s () s' := by
  unfold Does Effectful.runFrom attempt
  simp only [ExceptT.run_bind, StateT.run_bind]
  show ((match op s with
    | some s => set s
    | none => throw e : Effectful ε σ PUnit).run.run s) = _
  rw [h]
  rfl

/-- **A loop** whose iterations do what the operations do. -/
theorem does_forM {ι : Type} {body : ι → Effectful ε σ Unit} {op : σ → ι → Option σ} {l : List ι}
    (hbody : ∀ i ∈ l, ∀ s s', op s i = some s' → Does (body i) s () s') (h : l.foldlM op s = some s') :
    Does (l.forM body) s () s' := by
  induction l generalizing s with
  | nil =>
      obtain rfl : s = s' := Option.some.inj h
      rfl
  | cons i l ih =>
      rw [List.foldlM_cons, Option.bind_eq_bind, Option.bind_eq_some_iff] at h
      obtain ⟨s₁, h₁, h₂⟩ := h
      show Does (body i >>= fun _ => l.forM body) s () s'
      exact does_bind_iff.2 ⟨(), s₁, hbody i List.mem_cons_self s s₁ h₁,
        ih (fun j hj => hbody j (List.mem_cons_of_mem _ hj)) h₂⟩

/-! ## Pre- and postconditions -/

section Ensures

variable {P : σ → Prop} {Q : α → σ → Prop} {R : β → σ → Prop} {E I : σ → Prop}

theorem ensures_pure {a : α} (h : ∀ s, P s → Q a s) : Ensures P (pure a : Effectful ε σ α) Q E := by
  intro s hs
  rw [runFrom_pure]
  refine ⟨?_, fun e s' heq => by cases heq⟩
  rintro _ _ ⟨⟩
  exact h s hs

/-- A check leaves the state, whether it fails or not. -/
theorem ensures_lift {y : Except ε α} (hok : ∀ a, y = .ok a → ∀ s, P s → Q a s) (herror : ∀ s, P s → E s) :
    Ensures P (liftM y : Effectful ε σ α) Q E := by
  intro s hs
  rw [runFrom_lift]
  constructor
  · rintro a _ ⟨⟩
    exact hok a rfl s hs
  · rintro e _ ⟨⟩
    exact herror s hs

theorem ensures_modify {g : σ → σ} {Q : PUnit → σ → Prop} (h : ∀ s, P s → Q ⟨⟩ (g s)) :
    Ensures P (modify g : Effectful ε σ PUnit) Q E := by
  intro s hs
  refine ⟨?_, fun e s' heq => by cases heq⟩
  rintro _ _ ⟨⟩
  exact h s hs

theorem ensures_get {Q : σ → σ → Prop} (h : ∀ s, P s → Q s s) : Ensures P (get : Effectful ε σ σ) Q E := by
  intro s hs
  refine ⟨?_, fun e s' heq => by cases heq⟩
  rintro _ _ ⟨⟩
  exact h s hs

/-- **A sequence**: what its first part ensures is what its second part needs. -/
theorem ensures_bind (hx : Ensures P x Q E) (hf : ∀ a, Ensures (Q a) (f a) R E) : Ensures P (x >>= f) R E := by
  intro s hs
  obtain ⟨hok, herror⟩ := hx s hs
  rcases h : x.runFrom s with ⟨r, s₁⟩
  rw [runFrom_bind, h]
  cases r with
  | error e =>
      refine ⟨fun b s' heq => (by cases heq), ?_⟩
      rintro _ _ ⟨⟩
      exact herror e s₁ h
  | ok a => exact hf a s₁ (hok a s₁ h)

/-- **A loop** keeps what its iterations keep. -/
theorem ensures_forM {ι : Type} {body : ι → Effectful ε σ Unit} {l : List ι}
    (h : ∀ i ∈ l, Ensures I (body i) (fun _ => I) E) : Ensures I (l.forM body) (fun _ => I) E := by
  induction l with
  | nil => exact ensures_pure fun _ => id
  | cons i l ih =>
      exact ensures_bind (h i List.mem_cons_self) fun _ => ih fun j hj => h j (List.mem_cons_of_mem _ hj)

/-- **A cleanup** comes after a failure too. -/
theorem ensures_finallyDo {cleanup : σ → σ}
    (hx : Ensures P x (fun a s => Q a (cleanup s)) fun s => E (cleanup s)) : Ensures P (x.finallyDo cleanup) Q E := by
  intro s hs
  obtain ⟨hok, herror⟩ := hx s hs
  rw [runFrom_finallyDo]
  constructor
  · intro a s' heq
    obtain ⟨h₁, rfl⟩ := Prod.mk.inj heq
    exact hok a _ (Prod.ext h₁ rfl)
  · intro e s' heq
    obtain ⟨h₁, rfl⟩ := Prod.mk.inj heq
    exact herror e _ (Prod.ext h₁ rfl)

/-- An invariant that is kept holds in the end, whatever becomes of the computation. -/
theorem ensures_outcome (h : Ensures P x (fun _ => I) I) (hs : P s) : I (x.runFrom s).2 := by
  obtain ⟨hok, herror⟩ := h s hs
  rcases hrun : x.runFrom s with ⟨r, s₁⟩
  cases r with
  | error e => exact herror e s₁ hrun
  | ok a => exact hok a s₁ hrun

end Ensures

end Library
