/-
# Storms are coherent in every reachable database

Every transaction of the engine leaves every storm right: a write to a member
makes its storm stale at most, and the transaction refreshes it before it commits.
A quiet deadline refreshes nothing, and need not: it moves an active incident to
another active state.
-/

import PulseGraph.Engine.System
import PulseGraph.Graph.StormInvariant

namespace PulseGraph

open Library (Table)

variable {K : Type} {rt : Runtime K} {db db' : Database K}

/-! ## The transactions keep the storms -/

/-- A persisted decision makes the storm of its incident stale at most. -/
theorem persisted_storms {now : ℤ} {d : EngineDecision} {stale : Option String} (h : StormsBut none db)
    (hstale : stale = (db.incidents.find? d.incidentId).bind (·.correlationGroupId) ∨
      ∀ i, db.incidents.find? d.incidentId = some i →
        d.severityFinal = i.severity ∧ d.state.active = i.status.active) :
    StormsBut stale (persisted rt now d db) := by
  refine h.write rfl find?_persisted_self (fun y hy => find?_persisted_of_ne hy)
    persistedIncident_correlationGroupId (fun i hi => ?_) ?_
  · rw [persistedIncident_scopeKey, hi]
    rfl
  · rw [persistedIncident_correlationGroupId, persistedIncident_severity, persistedIncident_status]
    exact hstale

/-- A quiet deadline keeps the storms. -/
theorem persistTrigger_storms {freshEventId : String} {now : ℤ} {trigger : TimerTrigger}
    {committed : Bool} (ht : trigger.trigger = .QUIET_DEADLINE)
    (h : persistTrigger rt freshEventId now trigger db = .ok (committed, db'))
    (hs : StormsBut none db) : StormsBut none db' := by
  rcases persistTrigger_commits h with ⟨-, rfl⟩ | ⟨d, hd, hp⟩
  · exact hs
  obtain ⟨-, rfl⟩ := persistDecision_ok.1 hp
  obtain ⟨i, next, hi, hn, hid, hst, -, hsev, -⟩ := deadlineDecision_eq_some hd
  rw [ht] at hn
  obtain ⟨hack, hquiescent⟩ := transitionState_quietDeadline.1 hn
  refine persisted_storms hs (.inr fun j hj => ?_)
  rw [hid] at hj
  obtain rfl := Option.some.inj (hi.symm.trans hj)
  rw [hsev, hst, hack, hquiescent]
  exact ⟨rfl, rfl⟩

/-- The incidents once an action's decision is persisted and its provenance stamped. -/
theorem find?_stamped {now : ℤ} {action : ExternalAction} {d : EngineDecision}
    (hid : d.incidentId = action.incidentId) (y : String) :
    ({ persisted rt now d db with
      incidents := (persisted rt now d db).incidents.modify action.incidentId (stampAction now action) } :
        Database K).incidents.find? y =
      if y = action.incidentId then
        some (stampAction now action (persistedIncident now d (db.incidents.find? action.incidentId)))
      else db.incidents.find? y := by
  refine (Table.find?_modify _).trans ?_
  by_cases hy : y = action.incidentId
  · rw [if_pos hy, if_pos hy, ← hid, find?_persisted_self]
    rfl
  · rw [if_neg hy, if_neg hy]
    exact find?_persisted_of_ne (hid ▸ hy)

variable [Field K] [LinearOrder K]

/-- An external action refreshes the storm of the incident it moves. -/
theorem applyExternalAction_storms {freshEventId : String} {now : ℤ} {action : ExternalAction}
    {result : ReconcileResult}
    (h : applyExternalAction rt freshEventId now action db = .ok (result, db'))
    (hs : StormsBut none db) : StormsBut none db' := by
  rcases applyExternalAction_cases h with ⟨-, -, hdb⟩ | ⟨-, i, next, d, db₁, -, hd, hp, rfl⟩
  · rw [hdb]
    exact hs.congr_tables rfl rfl
  obtain ⟨-, -, hid, -⟩ := buildDecision_eq_ok hd
  obtain ⟨-, rfl⟩ := persistDecision_ok.1 hp
  -- the provenance stamps neither move the incident nor change what its storm reads
  have hstamp : ∀ j : Incident, (stampAction now action j).correlationGroupId = j.correlationGroupId ∧
      (stampAction now action j).scopeKey = j.scopeKey := by
    intro j
    unfold stampAction
    split_ifs <;> exact ⟨rfl, rfl⟩
  unfold settleAction
  dsimp only
  have hfind := @find?_stamped _ rt db now action d hid
  generalize hdb₁ : ({ persisted rt now d db with
    incidents := (persisted rt now d db).incidents.modify action.incidentId (stampAction now action) } :
      Database K) = db₁ at hfind
  have hwritten : StormsBut ((db₁.incidents.find? action.incidentId).bind (·.correlationGroupId)) db₁ := by
    rw [hfind, if_pos rfl, Option.bind_some]
    refine hs.write (by rw [← hdb₁]; rfl) ((hfind _).trans (if_pos rfl))
      (fun y hy => (hfind y).trans (if_neg hy)) ?_ (fun j hj => ?_) (.inl rfl)
    · rw [(hstamp _).1, persistedIncident_correlationGroupId]
    · rw [(hstamp _).2, persistedIncident_scopeKey, hj]
      rfl
  refine (refreshGroupForMember_storms now action.incidentId hwritten).congr_tables ?_ ?_
  · rw [redirectFor_frame]
    rfl
  · rw [redirectFor_frame]
    rfl

theorem sweepOnce_storms {freshEventIds : ℕ → String} {now moment : ℤ} {n : ℕ}
    (h : sweepOnce rt freshEventIds now moment db = .ok (n, db')) (hs : StormsBut none db) :
    StormsBut none db' :=
  sweepOnce_induct h hs fun _ _ _ _ _ _ _ _ ha h => applyExternalAction_storms h ha

/-- Grouping the incident of an alert makes every storm right again. -/
theorem regroup_storms {freshGroupId x scopeKey : String} (now : ℤ) {i : Incident}
    (hfresh : db.incidentGroups.find? freshGroupId = none) (hfreshId : "" ≠ freshGroupId)
    (hi : db.incidents.find? x = some i) (hscope : i.scopeKey = scopeKey)
    (h : StormsBut i.correlationGroupId db) :
    StormsBut none (regroup freshGroupId now x scopeKey db).2 := by
  have hassign := assignGroup_storms now hfresh hfreshId hi hscope h
  unfold regroup
  split
  · next a db₁ heq =>
      rcases hassign with hn | hs
      · rw [hn] at heq
        exact absurd heq (by simp)
      · rw [heq] at hs
        exact hs
  · next db₁ heq =>
      refine refreshGroupForMember_storms now x ?_
      rcases hassign with hn | hs
      · obtain ⟨-, rfl⟩ := Prod.mk.inj (hn.symm.trans heq)
        rw [hi]
        exact h
      · rw [heq] at hs
        exact hs.weaken _

/-- An ingest refreshes the storm of its incident, or opens one outside every storm. -/
theorem ingestEvent_storms {freshId freshGroupId : String} {now : ℤ} {event : NormalizedEvent}
    {d : EngineDecision} (hfresh : (Request.ingest freshId freshGroupId now event).fresh db = true)
    (h : ingestEvent rt freshId freshGroupId now event db = .ok (d, db'))
    (hs : StormsBut none db) : StormsBut none db' := by
  obtain ⟨hd, db₁, hpersist, hrest⟩ := ingestEvent_parts h
  simp only [Request.fresh, Bool.and_eq_true, Option.isNone_iff_eq_none, decide_eq_true_eq] at hfresh
  obtain ⟨⟨⟨hid, hgroup⟩, hne⟩, -⟩ := hfresh
  have hcases := decision_cases hid hd
  obtain ⟨-, rfl⟩ := persistDecision_ok.1 hpersist
  rcases hrest with ⟨hb, rfl⟩ | ⟨-, db₂, hobs, rfl⟩
  · -- a bypass always opens an incident, which no storm has as a member
    have hunknown : db.incidents.find? d.incidentId = none := by
      rcases hcases with ho | ⟨i, hc⟩
      · exact Option.map_eq_none_iff.1 ho.unknown
      · exact absurd hb (by simp [hc.not_bypass])
    refine persisted_storms hs (.inr fun i hi => ?_)
    rw [hunknown] at hi
    exact absurd hi (by simp)
  · have hobs := observeIncident_frame hobs
    have hincidents : db₂.incidents = (persisted rt now d db).incidents := by rw [hobs]
    have hgroups : db₂.incidentGroups = (persisted rt now d db).incidentGroups := by rw [hobs]
    have hscope : (persistedIncident now d (db.incidents.find? d.incidentId)).scopeKey = d.scopeKey := by
      rw [persistedIncident_scopeKey]
      rcases hcases with ho | ⟨i, hc⟩
      · rw [Option.map_eq_none_iff.1 ho.unknown]
        rfl
      · obtain ⟨j, hj, rfl⟩ := exists_find?_of_core hc.known
        rw [hj]
        exact hc.scopeKey
    have hregroup := regroup_storms now (by rw [hgroups]; exact hgroup) (Ne.symm hne)
      (by rw [hincidents]; exact find?_persisted_self) hscope
      ((persisted_storms hs (.inl persistedIncident_correlationGroupId)).congr_tables hincidents hgroups)
    refine hregroup.congr_tables ?_ ?_
    · rw [redirectFor_frame]
    · rw [redirectFor_frame]

/-- **One step of the engine keeps the storms.** -/
theorem engineNext_storms {q : Request} (h : engineNext rt db q = some db') (hs : StormsBut none db) :
    StormsBut none db' := by
  unfold engineNext at h
  split_ifs at h with hf
  obtain rfl := Option.some.inj h
  cases q with
  | ingest freshId freshGroupId now event =>
      cases hr : ingestEvent rt freshId freshGroupId now event db with
      | ok r => rw [serve, hr]; exact ingestEvent_storms hf hr hs
      | error e => rw [serve, hr]; exact hs
  | timer freshEventId now incidentId quietAtMs =>
      cases hr : persistTrigger rt freshEventId now { incidentId, quietAtMs } db with
      | ok r => rw [serve, hr]; exact persistTrigger_storms rfl hr hs
      | error e => rw [serve, hr]; exact hs
  | external freshEventId now action =>
      cases hr : applyExternalAction rt freshEventId now action db with
      | ok r => rw [serve, hr]; exact applyExternalAction_storms hr hs
      | error e => rw [serve, hr]; exact hs
  | sweep freshEventIds now moment =>
      cases hr : sweepOnce rt freshEventIds now moment db with
      | ok r => rw [serve, hr]; exact sweepOnce_storms hr hs
      | error e => rw [serve, hr]; exact hs

omit [Field K] [LinearOrder K] in
/-- An empty database has no storms. -/
theorem stormsBut_empty : StormsBut none (Database.empty : Database K) where
  known _ _ _ h := by simp [Database.member, Database.empty] at h
  shape _ _ h := by simp [Database.empty] at h
  facts _ _ h := by simp [Database.empty] at h
  named := rfl

/-! ## Every reachable database -/

/-- **Storms are coherent in every reachable database.**  An incident in a storm names
a group that is there; a group counts its members, at least two; its anchor and its
root are members; all members are of its scope; its severity is the most urgent
severity of a member; and it is open exactly when some member is not resolved. -/
theorem storms_coherent {h : List (Library.Transition (Database K) Request)} (r : EngineRun rt h db) :
    (∀ x i g, db.incidents.find? x = some i → i.correlationGroupId = some g →
      ∃ group, db.incidentGroups.find? g = some group) ∧
    ∀ g group, db.incidentGroups.find? g = some group →
      GroupShape db g group ∧ GroupFacts db g group := by
  have hs : StormsBut none db := r.induct (I := fun _ db => StormsBut none db)
    (fun _ hempty => hempty ▸ stormsBut_empty) fun _ _ _ _ _ hs hstep => engineNext_storms hstep hs
  exact ⟨fun x i g hi hg => hs.known g x i (member_eq_some.2 ⟨hi, hg⟩),
    fun g group hg => ⟨hs.shape g group hg, hs.facts g group hg (by simp)⟩⟩

/-- A high alert of a service, a second after the epoch. -/
def alertOf (service eventId : String) : NormalizedEvent :=
  { sampleEvent eventId "high" .firing 1000 with service := service }

/-- Two services that alert together twice: their incidents `A` and `B` become the storm
`storm`, with `A` the anchor. -/
def stormRequests : List Request :=
  [.ingest "A" "unused" 1000 (alertOf "disk" "1"), .ingest "B" "unused" 1000 (alertOf "api" "2"),
    .ingest "C" "storm" 1000 (alertOf "api" "3")]

/-- The storm of two services that alert together. -/
theorem storms_coherent_twoServices : ∃ h db, EngineRun Runtime.reference h db ∧
    (db.incidentGroups.find? "storm").map (fun g => (g.anchorIncidentId, g.memberCount)) = some ("A", 2) ∧
    ((∀ x i g, db.incidents.find? x = some i → i.correlationGroupId = some g →
      ∃ group, db.incidentGroups.find? g = some group) ∧
    ∀ g group, db.incidentGroups.find? g = some group →
      GroupShape db g group ∧ GroupFacts db g group) := by
  have hreplay : (Library.replay (engineNext Runtime.reference) stormRequests ([], Database.empty)).map
      (fun s => (s.2.incidentGroups.find? "storm").map fun g => (g.anchorIncidentId, g.memberCount)) =
      some (some ("A", 2)) := by decide +kernel
  obtain ⟨h, db, hrun, hstorm⟩ := EngineRun.of_replay hreplay
  exact ⟨h, db, hrun, hstorm, storms_coherent hrun⟩

end PulseGraph
