/-
# The row a request leaves behind

A timer, an external action and a sweep rewrite the row of an incident with a decision
nobody's alert is behind: it moves the incident along an edge of the lifecycle, and
carries neither a reopen count nor a flap mark.  `engineNext_decides` says so in terms
of the whole row, stamps included: a request persists the decision on its event, or
leaves each incident alone or rewritten by such a decision.
-/

import PulseGraph.Engine.System

namespace PulseGraph

open Library (bind_eq_ok)

variable {K : Type}

/-- The instant a request is served at. -/
def Request.clock : Request → ℤ
  | .ingest _ _ now _ => now
  | .timer _ now _ _ => now
  | .external _ now _ => now
  | .sweep _ now _ => now

/-- A decision on an incident that no alert is behind. -/
structure Synthetic (trigger : Option Trigger) (i : Incident) (d : EngineDecision) : Prop where
  edge : trigger.bind (transitionState i.status) = some d.state
  reopenCount : d.reopenCount = 0
  isFlapping : d.isFlapping = false

/-- No edge leads from a state to itself. -/
theorem transitionState_ne {s s' : IncidentState} {trigger : Trigger}
    (h : transitionState s trigger = some s') : s' ≠ s := by
  cases s <;> cases trigger <;> simp [transitionState] at h <;> subst h <;> decide

/-- A synthetic decision changes the state of its incident. -/
theorem Synthetic.state_ne {trigger : Option Trigger} {i : Incident} {d : EngineDecision}
    (h : Synthetic trigger i d) : d.state ≠ i.status := by
  obtain ⟨t, -, ht⟩ := Option.bind_eq_some_iff.1 h.edge
  exact transitionState_ne ht

/-- The incident is left alone, or rewritten by a synthetic decision at the instant `now`. -/
def LeftOrMoved (trigger : Option Trigger) (now : ℤ) (before after : Option Incident) : Prop :=
  after = before ∨ ∃ i d, before = some i ∧ Synthetic trigger i d ∧
    after = some (persistedIncident now d (some i))

section Writes

variable {rt : Runtime K} {db db' : Database K}

/-- A synthetic decision that is persisted. -/
theorem leftOrMoved_of_commits {trigger : Option Trigger} {now : ℤ} {d : EngineDecision} {i : Incident}
    (hc : Commits rt now d db db') (hi : db.core d.incidentId = some i) (hd : Synthetic trigger i d)
    (x : String) : LeftOrMoved trigger now (db.core x) (db'.core x) := by
  by_cases hx : x = d.incidentId
  · subst hx
    exact .inr ⟨i, d, hi, hd, hi ▸ hc.core_self⟩
  · exact .inl (hc.core_of_ne hx)

/-- A quiet deadline. -/
theorem persistTrigger_decides {freshEventId : String} {now : ℤ} {trigger : TimerTrigger}
    {committed : Bool} (h : persistTrigger rt freshEventId now trigger db = .ok (committed, db')) (x : String) :
    LeftOrMoved (some trigger.trigger) now (db.core x) (db'.core x) := by
  rcases persistTrigger_commits h with ⟨-, rfl⟩ | ⟨d, hd, hp⟩
  · exact .inl rfl
  obtain ⟨i, hi, hmap⟩ := Option.bind_eq_some_iff.1 hd
  obtain ⟨next, hnext, rfl⟩ := Option.map_eq_some_iff.1 hmap
  refine leftOrMoved_of_commits (persistDecision_commits hp) (core_of_find? hi) ?_ x
  exact ⟨hnext, rfl, rfl⟩

variable [Field K] [LinearOrder K]

/-- An external action. -/
theorem applyExternalAction_decides {freshEventId : String} {now : ℤ} {action : ExternalAction}
    {result : ReconcileResult} (h : applyExternalAction rt freshEventId now action db = .ok (result, db'))
    (x : String) : LeftOrMoved (triggerForKind action.kind) now (db.core x) (db'.core x) := by
  rcases applyExternalAction_cases h with ⟨-, -, hdb⟩ | ⟨-, i, next, d, db₁, ha, hd, hp, rfl⟩
  · refine .inl ?_
    rw [hdb]
    rfl
  unfold buildDecision at hd
  obtain ⟨message, -, hd⟩ := bind_eq_ok.1 hd
  obtain rfl := Except.ok.inj hd
  have hc := (persistDecision_commits hp).trans_same (settleAction_sameCore now action i.status next)
  refine leftOrMoved_of_commits hc (core_of_find? ha.known) ?_ x
  exact ⟨ha.edge, rfl, rfl⟩

/-- A sweep: what one of its actions has resolved the next ones leave alone. -/
theorem sweepOnce_decides {freshEventIds : ℕ → String} {now moment : ℤ} {n : ℕ}
    (h : sweepOnce rt freshEventIds now moment db = .ok (n, db')) (x : String) :
    LeftOrMoved (some .RESOLVE) now (db.core x) (db'.core x) := by
  refine sweepOnce_induct (P := fun a => LeftOrMoved (some .RESOLVE) now (db.core x) (a.core x)) h (.inl rfl) ?_
  intro a b overdue o result k _ _ ha hstep
  rcases applyExternalAction_decides hstep x with hleft | ⟨i, d, hi, hd, hmoved⟩
  · rw [hleft]
    exact ha
  · rcases ha with ha | ⟨i₀, d₀, -, hd₀, ha⟩
    · exact .inr ⟨i, d, ha ▸ hi, hd, hmoved⟩
    · -- it is resolved by now, and no edge is left
      obtain rfl := Option.some.inj (hi.symm.trans ha)
      have hres : (persistedIncident now d₀ (some i₀)).status = .RESOLVED := by
        rw [persistedIncident_status]
        exact (transitionState_resolve.1 hd₀.edge).2
      exact absurd hres (transitionState_resolve.1 hd.edge).1

/-- **The row a request leaves**: it persists the decision on its event, or leaves every incident
alone or moved by a synthetic decision. -/
theorem engineNext_decides {q : Request} (h : engineNext rt db q = some db') :
    (∃ freshId freshGroupId now event d, q = .ingest freshId freshGroupId now event ∧
      ingestEvent rt freshId freshGroupId now event db = .ok (d, db')) ∨
    ((∀ freshId freshGroupId now event d db'', q = .ingest freshId freshGroupId now event →
      ingestEvent rt freshId freshGroupId now event db ≠ .ok (d, db'')) ∧
      ∀ x, LeftOrMoved q.trigger q.clock (db.core x) (db'.core x)) := by
  unfold engineNext at h
  split_ifs at h
  obtain rfl := Option.some.inj h
  cases q with
  | ingest freshId freshGroupId now event =>
      cases hr : ingestEvent rt freshId freshGroupId now event db with
      | ok r => exact .inl ⟨freshId, freshGroupId, now, event, r.1, rfl, by rw [serve, hr]; rfl⟩
      | error e =>
          refine .inr ⟨?_, fun x => ?_⟩
          · rintro _ _ _ _ d db'' ⟨⟩ hok
            simp [hr] at hok
          · rw [serve, hr]
            exact .inl rfl
  | timer freshEventId now incidentId quietAtMs =>
      refine .inr ⟨by rintro _ _ _ _ _ _ ⟨⟩, fun x => ?_⟩
      cases hr : persistTrigger rt freshEventId now { incidentId, quietAtMs } db with
      | ok r => rw [serve, hr]; exact persistTrigger_decides hr x
      | error e => rw [serve, hr]; exact .inl rfl
  | external freshEventId now action =>
      refine .inr ⟨by rintro _ _ _ _ _ _ ⟨⟩, fun x => ?_⟩
      cases hr : applyExternalAction rt freshEventId now action db with
      | ok r => rw [serve, hr]; exact applyExternalAction_decides hr x
      | error e => rw [serve, hr]; exact .inl rfl
  | sweep freshEventIds now moment =>
      refine .inr ⟨by rintro _ _ _ _ _ _ ⟨⟩, fun x => ?_⟩
      cases hr : sweepOnce rt freshEventIds now moment db with
      | ok r => rw [serve, hr]; exact sweepOnce_decides hr x
      | error e => rw [serve, hr]; exact .inl rfl

end Writes

end PulseGraph
