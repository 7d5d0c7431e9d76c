/-
# How far away a deadline can be

The deadline of a decision is predicted from the gaps of the incident and then cut off:
`_bounded_deadline` grants an incident one budget, counted from the instant it was first
ingested, and a deadline beyond the budget fires on the next tick.  An instant at or before
the epoch counts as no instant at all, and its incident has no budget.

**Proved here.**  `deadlineBounds_of_run`: in every run whose clock is past the epoch, a
decision has no deadline exactly when it resolves its incident or bypasses the engine, and a
deadline it has is later than now, at most one window away, and inside the budget of its
incident.  The run keeps every incident on a budget (`Budgeted`): the instant it was first
ingested is the server's own, and no later write moves it.
-/

import PulseGraph.Engine.Decisions
import PulseGraph.Outbox.Deployment

namespace PulseGraph

open Library (Run Transition bind_eq_ok toOption_eq_some)

variable {K : Type} {rt : Runtime K}

/-! ## One prediction -/

/-- A prediction is at most the ceiling away. -/
theorem calculateQuietDeadline_le {gaps : List ℚ} {lastGap : ℚ} {now ceiling t : ℤ} {q : QuietDeadline}
    (hc : 1 ≤ ceiling) (h : calculateQuietDeadline gaps lastGap now (some ceiling) = .ok q)
    (ht : q.quietAtMs = some t) : t ≤ now + ceiling := by
  unfold calculateQuietDeadline at h
  obtain ⟨gaps', -, h⟩ := bind_eq_ok.1 h
  obtain ⟨lastGap', -, h⟩ := bind_eq_ok.1 h
  simp only [Option.getD_some] at h
  split_ifs at h
  cases gaps' with
  | nil =>
      obtain rfl := Except.ok.inj h
      obtain rfl := Option.some.inj ht
      omega
  | cons g gs =>
      obtain rfl := Except.ok.inj h
      obtain rfl := Option.some.inj ht
      omega

/-- A deadline is predicted for every state but `RESOLVED`, within the window. -/
theorem quietFor_bounds {state : IncidentState} {gapHistory : List ℚ} {lastGap : ℚ} {now : ℤ}
    {q : QuietDeadline} (hw : 1 ≤ rt.settings.quietWindowMaxMs)
    (h : quietFor rt state gapHistory lastGap now = .ok q) :
    (q.quietAtMs = none ↔ state = .RESOLVED) ∧
      ∀ t, q.quietAtMs = some t → now < t ∧ t ≤ now + rt.settings.quietWindowMaxMs := by
  unfold quietFor at h
  split_ifs at h with hs
  · obtain ⟨t, ht, hlt⟩ := calculateQuietDeadline_eq_ok h
    constructor
    · simp [ht, hs]
    · intro t' ht'
      obtain rfl := Option.some.inj (ht.symm.trans ht')
      exact ⟨hlt, calculateQuietDeadline_le hw h ht⟩
  · obtain rfl := Except.ok.inj h
    constructor
    · simp [not_not.1 hs]
    · intro t ht
      simp at ht

/-- **What the cut-off leaves of a prediction.** -/
theorem boundedDeadline_bounds {quietAtMs : Option ℤ} {first now q : ℤ}
    (hw : 1 ≤ rt.settings.quietWindowMaxMs)
    (hq : ∀ t, quietAtMs = some t → now < t ∧ t ≤ now + rt.settings.quietWindowMaxMs)
    (h : boundedDeadline rt quietAtMs first now = some q) :
    now < q ∧ q ≤ now + rt.settings.quietWindowMaxMs ∧
      (0 < first → q ≤ max (first + rt.settings.incidentMaxBatchSpanMs) (now + 1)) := by
  obtain ⟨t, ht, rfl⟩ := Option.map_eq_some_iff.1 h
  obtain ⟨hlt, hle⟩ := hq t ht
  dsimp only
  split_ifs with hcut
  · exact ⟨hlt, hle, fun hfirst => by omega⟩
  · refine ⟨?_, max_le ?_ (Int.add_le_add_left hw now), fun _ => le_rfl⟩
    · omega
    · omega

/-! ## The deadline of a decision -/

/-- The instant at which an incident was first ingested: now, if it is not stored yet. -/
def firstIngested (now : ℤ) (incidentId : String) (db : Database K) : ℤ :=
  ((db.incidents.find? incidentId).map fun i => i.firstIngestedAt.getD i.firstAlertAt).getD now

/-- The bounds of the deadline of a decision made now. -/
structure DeadlineBounds (rt : Runtime K) (now : ℤ) (db : Database K) (d : EngineDecision) : Prop where
  none_iff : d.quietAtMs = none ↔ d.state = .RESOLVED ∨ d.isCriticalBypass = true
  later : ∀ q, d.quietAtMs = some q → now < q
  window : ∀ q, d.quietAtMs = some q → q ≤ now + rt.settings.quietWindowMaxMs
  span : ∀ q, d.quietAtMs = some q →
    q ≤ max (firstIngested now d.incidentId db + rt.settings.incidentMaxBatchSpanMs) (now + 1)

/-- **Every incident has a budget**: it was first ingested past the epoch. -/
def Budgeted (db : Database K) : Prop :=
  ∀ x i, db.core x = some i → ∃ first, i.firstIngestedAt = some first ∧ 0 < first

/-- **The deadline of a decision** is bounded, on every branch that makes one. -/
theorem deadlineBounds {freshId : String} {now : ℤ} {event : NormalizedEvent} {db : Database K}
    {d : EngineDecision} (hw : 1 ≤ rt.settings.quietWindowMaxMs)
    (hspan : rt.settings.quietWindowMaxMs ≤ rt.settings.incidentMaxBatchSpanMs) (hb : Budgeted db)
    (hfresh : db.incidents.find? freshId = none)
    (h : processEvent rt freshId now event db = .ok d) : DeadlineBounds rt now db d := by
  rcases processEvent_cases h with ⟨-, rfl⟩ | ⟨-, -, h⟩ | ⟨-, record, hl, -, h⟩
  · -- a bypass has no deadline
    have hnone : (bypassDecision rt freshId event
        (classifyProtectedCritical rt event).reason).quietAtMs = none := rfl
    exact ⟨by simp [bypassDecision, decision], by simp [hnone], by simp [hnone], by simp [hnone]⟩
  · -- an opened incident: its budget starts now
    unfold openDecision at h
    obtain ⟨q, hq, h⟩ := bind_eq_ok.1 h
    obtain rfl := Except.ok.inj h
    obtain ⟨hnone, hbounds⟩ := quietFor_bounds hw hq
    have hfirst : firstIngested now freshId db = now := by
      unfold firstIngested
      rw [hfresh]
      rfl
    refine ⟨by simp [decision, hnone], fun t ht => (hbounds t ht).1, fun t ht => (hbounds t ht).2,
      fun t ht => ?_⟩
    have hle := (hbounds t ht).2
    show t ≤ max (firstIngested now freshId db + _) _
    rw [hfirst]
    omega
  · -- a known incident: the prediction is cut off
    unfold duplicateDecision at h
    obtain ⟨q, hq, h⟩ := bind_eq_ok.1 h
    obtain rfl := Except.ok.inj h
    obtain ⟨hnone, hbounds⟩ := quietFor_bounds hw hq
    obtain ⟨⟨x, i⟩, hrow, rfl⟩ := Option.map_eq_some_iff.1 hl
    obtain ⟨hfind, -⟩ := Library.Table.mem_select.1 (firstBy_mem hrow)
    obtain ⟨first, hstored, hpos⟩ := hb x i.core (core_of_find? hfind)
    have hstored' : i.firstIngestedAt = some first := hstored
    have hfirst : firstIngested now x db = first := by
      unfold firstIngested
      rw [hfind, Option.map_some, hstored']
      rfl
    refine ⟨?_, fun t ht => ?_, fun t ht => ?_, fun t ht => ?_⟩
    · simp [decision, boundedDeadline, hnone]
    · exact (boundedDeadline_bounds hw hbounds ht).1
    · exact (boundedDeadline_bounds hw hbounds ht).2.1
    · have hle := (boundedDeadline_bounds hw hbounds ht).2.2
      dsimp only at hle
      rw [hstored', Option.getD_some] at hle
      show t ≤ max (firstIngested now x db + _) _
      rw [hfirst]
      exact hle hpos

/-! ## The budget of every run -/

/-- A new row takes the instant of the decision, an old one keeps its own. -/
theorem persistedIncident_firstIngestedAt {now : ℤ} {d : EngineDecision} {old : Option Incident} :
    (persistedIncident now d old).firstIngestedAt = (old.map (·.firstIngestedAt)).getD (some now) := by
  have hstamp : ∀ i : Incident, (stampFlap now d i).firstIngestedAt = i.firstIngestedAt := by
    intro i
    unfold stampFlap
    dsimp only
    split_ifs <;> rfl
  cases old with
  | none => exact hstamp (insertedIncident now d)
  | some i => exact hstamp (overwrittenIncident now d i)

/-- The clock of the server is past the epoch when it ingests. -/
def Turn.afterEpoch : Turn → Bool
  | .request (.ingest _ _ now _) => decide (0 < now)
  | _ => true

section Runs

variable [Field K] [LinearOrder K] {db db' : Database K}

/-- One request keeps the budgets: an ingest may add an incident, whose budget starts now, and
every other write keeps the instant there is. -/
theorem engineNext_budgeted {q : Request} (h : engineNext rt db q = some db')
    (hq : (Turn.request q).afterEpoch = true) (hb : Budgeted db) : Budgeted db' := by
  have hkept : ∀ {now : ℤ} {d : EngineDecision} {i : Incident},
      (∃ first, i.firstIngestedAt = some first ∧ 0 < first) →
      ∃ first, (persistedIncident now d (some i)).firstIngestedAt = some first ∧ 0 < first := by
    intro now d i hi
    rwa [persistedIncident_firstIngestedAt, Option.map_some, Option.getD_some]
  intro x i hx
  rcases engineNext_decides h with ⟨freshId, freshGroupId, now, event, d, rfl, hok⟩ | ⟨-, hmoves⟩
  · have hc := (ingestEvent_commits hok).2
    by_cases hxd : x = d.incidentId
    · subst hxd
      rw [hc.core_self] at hx
      obtain rfl := Option.some.inj hx
      cases hold : db.core d.incidentId with
      | none => exact ⟨now, by rw [persistedIncident_firstIngestedAt]; rfl, of_decide_eq_true hq⟩
      | some old => exact hkept (hb _ old hold)
    · exact hb x i (by rwa [← hc.core_of_ne hxd])
  · rcases hmoves x with hsame | ⟨old, d, hold, -, hnew⟩
    · exact hb x i (hsame ▸ hx)
    · obtain rfl := Option.some.inj (hnew.symm.trans hx)
      exact hkept (hb x old hold)

variable {h : List (Transition (Deployment K) Turn)} {s : Deployment K}

/-- **Every incident of a run has a budget**: no worker writes an incident. -/
theorem DeploymentRun.budgeted (r : DeploymentRun rt h s) (hc : ∀ t ∈ h, t.label.afterEpoch = true) :
    Budgeted s.db := by
  refine Run.induct_of_forall (I := fun _ s => Budgeted s.db) r hc ?_ ?_
  · rintro s rfl x i hi
    simp [Deployment.initial, Database.empty, Database.core] at hi
  · rintro h s turn s' - - hb hturn hnext
    cases turn with
    | request q => exact engineNext_budgeted (deploymentNext_request hnext).1 hturn hb
    | worker w step =>
        intro x i hx
        rw [Database.core, (deploymentNext_worker hnext).1.frame] at hx
        exact hb x i hx

/-- **Deadlines are bounded** in every state a deployment reaches with its clock past the epoch. -/
theorem deadlineBounds_of_run (r : DeploymentRun rt h s) (hc : ∀ t ∈ h, t.label.afterEpoch = true)
    (hw : 1 ≤ rt.settings.quietWindowMaxMs)
    (hspan : rt.settings.quietWindowMaxMs ≤ rt.settings.incidentMaxBatchSpanMs)
    {freshId : String} {now : ℤ} {event : NormalizedEvent} {d : EngineDecision}
    (hfresh : s.db.incidents.find? freshId = none)
    (hd : processEvent rt freshId now event s.db = .ok d) : DeadlineBounds rt now s.db d :=
  deadlineBounds hw hspan (r.budgeted hc) hfresh hd

end Runs

/-- A second alert three seconds before the budget of the first is spent: its deadline would be five
seconds away, and is cut off at ten minutes after the first alert. -/
theorem deadlineBounds_of_run_late : ∃ h s d, DeploymentRun Runtime.reference h s ∧
    processEvent Runtime.reference "B" 598000 (sampleEvent "2" "high" .firing 3000) s.db = .ok d ∧
    d.quietAtMs = some 601000 ∧ firstIngested 598000 d.incidentId s.db = 1000 ∧
    DeadlineBounds Runtime.reference 598000 s.db d := by
  have hreplay : (Library.replay (deploymentNext Runtime.reference)
      [.request (.ingest "A" "G" 1000 (sampleEvent "1" "high" .firing 1000))]
      ([], Deployment.initial)).map (fun s =>
        (s.1.all (·.label.afterEpoch),
          (s.2.db.incidents.find? "B").isNone,
          (processEvent Runtime.reference "B" 598000 (sampleEvent "2" "high" .firing 3000)
            s.2.db).toOption.map fun d => (d.quietAtMs, firstIngested 598000 d.incidentId s.2.db))) =
      some (true, true, some (some 601000, 1000)) := by
    decide +kernel
  obtain ⟨h, s, r, heq⟩ := DeploymentRun.of_replay hreplay
  simp only [Prod.mk.injEq, Option.map_eq_some_iff] at heq
  obtain ⟨hc, hfresh, d, hd, hq, hfirst⟩ := heq
  have hok := toOption_eq_some.1 hd
  refine ⟨h, s, d, r, hok, hq, hfirst, deadlineBounds_of_run r
    (List.all_eq_true.1 hc) (by decide) (by decide) (Option.isNone_iff_eq_none.1 hfresh) hok⟩

end PulseGraph
