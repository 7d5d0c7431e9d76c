/-
# The priority of a row

`persist_decision` gives the rows of a decision the priority of its severity, which it also
writes to the incident; a merged notice has the priority of a `medium`.  So a row that a
request adds is as urgent as the incident it is queued for is when the request ends
(`engineNext_graded`): an external action and a sweep keep the severities
(`applyExternalAction_severityIn`).
-/

import PulseGraph.Engine.Queue

namespace PulseGraph

open Library (Table bind_eq_ok)

variable {K : Type}

/-- The severity of an incident. -/
def severityIn (db : Database K) (x : String) : Option Severity := (db.incidents.find? x).map (·.severity)

/-- The row stands in for no other; it is a notice, or has the priority of the severity of the
incident it was queued for. -/
structure Graded (db : Database K) (r : OutboxRow) : Prop where
  primary : r.failoverOf = none
  priority : r.priority = defaultPriority ∨ ∃ x severity, r.payload.incidentId = some x ∧
    severityIn db x = some severity ∧ r.priority = priorityBySeverity severity

section Transactions

variable {rt : Runtime K} {db db' : Database K} {target : String → String → Prop}

theorem Graded.congr {r : OutboxRow} (h : Graded db r)
    (hsame : ∀ x severity, severityIn db x = some severity → severityIn db' x = some severity) :
    Graded db' r := by
  obtain ⟨hprimary, h | ⟨x, severity, hx, hs, hp⟩⟩ := h
  · exact ⟨hprimary, .inl h⟩
  · exact ⟨hprimary, .inr ⟨x, severity, hx, hsame x severity hs, hp⟩⟩

/-- A redirection moves no grade. -/
theorem MovesTo.graded {r r' : OutboxRow} (h : MovesTo target r r') (hg : Graded db r) : Graded db r' := by
  obtain ⟨hprimary, hpriority⟩ := hg
  rw [h.frame]
  exact ⟨hprimary, hpriority⟩

/-- Severities are read off the cores. -/
theorem SameCore.severityIn (h : SameCore db db') (x : String) : severityIn db' x = severityIn db x := by
  have hcore := congrArg (Option.map (·.severity)) (congrFun h.core x)
  rw [Database.core, Database.core, Option.map_map, Option.map_map] at hcore
  exact hcore

theorem severityIn_persisted {now : ℤ} {d : EngineDecision} (x : String) :
    severityIn (persisted rt now d db) x =
      if x = d.incidentId then some d.severityFinal else severityIn db x := by
  rw [severityIn, find?_persisted]
  split_ifs
  · rw [Option.map_some, persistedIncident_severity]
  · rfl

/-- The rows of a decision have the severity it writes. -/
theorem persisted_graded {now : ℤ} {d : EngineDecision}
    (habout : ∀ intent ∈ d.deliveryIntents, intent.payload.incidentId = some d.incidentId) :
    QueuedTo (Graded (persisted rt now d db)) target db.outbox (persisted rt now d db).outbox := by
  refine (queuedTo_pushAll _).mono (fun r hr => ?_) fun _ _ => id
  obtain ⟨intent, hi, rfl⟩ := List.mem_map.1 hr
  refine ⟨rfl, .inr ⟨d.incidentId, d.severityFinal, habout intent hi, ?_, rfl⟩⟩
  rw [severityIn_persisted, if_pos rfl]

/-- So have those of a redirection: its notice is none of an incident. -/
theorem redirectFor_graded {now : ℤ} {x : String} (a : Option GroupAssignment) :
    QueuedTo (Graded db') (fun _ _ => True) db.outbox (redirectFor now x a db).outbox := by
  refine (queuedTo_redirectFor a).mono ?_ fun _ _ _ => trivial
  rintro r ⟨anchor, rfl⟩
  exact ⟨rfl, .inl rfl⟩

theorem persistTrigger_graded {freshEventId incidentId : String} {now quietAtMs : ℤ} {committed : Bool}
    (h : persistTrigger rt freshEventId now { incidentId, quietAtMs } db = .ok (committed, db')) :
    QueuedTo (Graded db') (fun _ _ => True) db.outbox db'.outbox := by
  rcases persistTrigger_commits h with ⟨-, rfl⟩ | ⟨d, hd, hp⟩
  · exact QueuedTo.refl _
  obtain ⟨-, rfl⟩ := persistDecision_ok.1 hp
  unfold deadlineDecision at hd
  obtain ⟨i, -, hd⟩ := Option.bind_eq_some_iff.1 hd
  obtain ⟨next, -, rfl⟩ := Option.map_eq_some_iff.1 hd
  refine persisted_graded fun intent hi => ?_
  obtain rfl := List.mem_singleton.1 hi
  rfl

variable [Field K] [LinearOrder K]

theorem ingestEvent_graded {freshId freshGroupId : String} {now : ℤ} {event : NormalizedEvent}
    {d : EngineDecision} (h : ingestEvent rt freshId freshGroupId now event db = .ok (d, db')) :
    QueuedTo (Graded db') (fun _ _ => True) db.outbox db'.outbox := by
  obtain ⟨hd, db₀, hpersist₀, hregrouped⟩ := ingestEvent_persists h
  obtain ⟨-, db₁, hpersist, hrest⟩ := ingestEvent_parts h
  obtain ⟨-, rfl⟩ := persistDecision_ok.1 hpersist
  obtain ⟨-, rfl⟩ := persistDecision_ok.1 hpersist₀
  have hpush : QueuedTo (Graded db') (fun _ _ => True) db.outbox (persisted rt now d db).outbox := by
    refine (persisted_graded fun intent hi => (processEvent_intents hd intent hi).2.1).mono ?_ fun _ _ => id
    refine fun r hr => hr.congr fun x severity hx => ?_
    rw [hregrouped.sameCore.severityIn, hx]
  rcases hrest with ⟨-, rfl⟩ | ⟨-, db₂, hobs, rfl⟩
  · exact hpush
  · have hsame : (regroup freshGroupId now d.incidentId d.scopeKey db₂).2.outbox =
        (persisted rt now d db).outbox := by
      rw [regroup_outbox, observeIncident_frame hobs]
    refine hpush.trans ?_
    rw [← hsame]
    exact redirectFor_graded _

/-- An external action keeps the severities. -/
theorem applyExternalAction_severityIn {freshEventId : String} {now : ℤ} {action : ExternalAction}
    {result : ReconcileResult}
    (h : applyExternalAction rt freshEventId now action db = .ok (result, db')) (x : String) :
    severityIn db' x = severityIn db x := by
  rcases applyExternalAction_cases h with ⟨-, -, hdb⟩ | ⟨-, i, next, d, db₁, ha, hd, hp, rfl⟩
  · rw [hdb]
    rfl
  obtain ⟨-, -, hid, -, -, hseverity, -⟩ := buildDecision_eq_ok hd
  obtain ⟨-, rfl⟩ := persistDecision_ok.1 hp
  rw [(settleAction_sameCore now action i.status next).severityIn, severityIn_persisted]
  split_ifs with hx
  · rw [hx, hid, severityIn, ha.known, hseverity]
    rfl
  · rfl

theorem settleAction_graded (now : ℤ) (action : ExternalAction) (current next : IncidentState) :
    QueuedTo (Graded db') (fun _ _ => True) db.outbox (settleAction now action current next db).outbox := by
  unfold settleAction
  dsimp only
  generalize hdb₁ : ({ db with
    incidents := db.incidents.modify action.incidentId (stampAction now action) } : Database K) = db₁
  have hsame : (refreshGroupForMember now action.incidentId db₁).2.outbox = db.outbox := by
    rw [refreshGroupForMember_outbox, ← hdb₁]
  rw [← hsame]
  exact redirectFor_graded _

theorem applyExternalAction_graded {freshEventId : String} {now : ℤ} {action : ExternalAction}
    {result : ReconcileResult}
    (h : applyExternalAction rt freshEventId now action db = .ok (result, db')) :
    QueuedTo (Graded db') (fun _ _ => True) db.outbox db'.outbox := by
  rcases applyExternalAction_cases h with ⟨-, -, hdb⟩ | ⟨-, i, next, d, db₁, ha, hd, hp, rfl⟩
  · rw [hdb]
    exact QueuedTo.refl _
  obtain ⟨-, -, hid, -, -, -, -, -, -, -, -, -, hintents⟩ := buildDecision_eq_ok hd
  obtain ⟨-, rfl⟩ := persistDecision_ok.1 hp
  have hpush : QueuedTo (Graded (settleAction now action i.status next (persisted rt now d db)))
      (fun _ _ => True) db.outbox (persisted rt now d db).outbox := by
    refine QueuedTo.mono (persisted_graded fun intent hi => ?_) (fun r hr => hr.congr fun x severity hx => ?_)
      fun _ _ => id
    · rw [hintents] at hi
      obtain ⟨channel, -, rfl⟩ := List.mem_map.1 hi
      rw [hid]
    · rw [(settleAction_sameCore now action i.status next).severityIn, hx]
  exact hpush.trans (settleAction_graded now action i.status next)

/-- A sweep keeps the severities, and its rows have them. -/
theorem sweepOnce_graded {freshEventIds : ℕ → String} {now moment : ℤ} {n : ℕ}
    (h : sweepOnce rt freshEventIds now moment db = .ok (n, db')) :
    QueuedTo (Graded db') (fun _ _ => True) db.outbox db'.outbox := by
  refine And.right (sweepOnce_induct (P := fun b => (∀ x, severityIn b x = severityIn db x) ∧
    QueuedTo (Graded b) (fun _ _ => True) db.outbox b.outbox) h ⟨fun _ => rfl, QueuedTo.refl _⟩ ?_)
  rintro a b overdue o result k - - ⟨hsame, hq⟩ ha
  have hkeeps := fun x => applyExternalAction_severityIn ha x
  refine ⟨fun x => (hkeeps x).trans (hsame x), ?_⟩
  refine (hq.mono (fun r hr => hr.congr fun x severity hx => ?_) fun _ _ => id).trans
    (applyExternalAction_graded ha)
  rw [hkeeps, hx]

/-- **A row that a request adds has the priority of the incident it is queued for.** -/
theorem engineNext_graded {q : Request} (h : engineNext rt db q = some db') :
    QueuedTo (Graded db') (fun _ _ => True) db.outbox db'.outbox := by
  unfold engineNext at h
  split_ifs at h
  obtain rfl := Option.some.inj h
  cases q with
  | ingest freshId freshGroupId now event =>
      cases hr : ingestEvent rt freshId freshGroupId now event db with
      | ok r => rw [serve, hr]; exact ingestEvent_graded hr
      | error e => rw [serve, hr]; exact QueuedTo.refl _
  | timer freshEventId now incidentId quietAtMs =>
      cases hr : persistTrigger rt freshEventId now { incidentId, quietAtMs } db with
      | ok r => rw [serve, hr]; exact persistTrigger_graded hr
      | error e => rw [serve, hr]; exact QueuedTo.refl _
  | external freshEventId now action =>
      cases hr : applyExternalAction rt freshEventId now action db with
      | ok r => rw [serve, hr]; exact applyExternalAction_graded hr
      | error e => rw [serve, hr]; exact QueuedTo.refl _
  | sweep freshEventIds now moment =>
      cases hr : sweepOnce rt freshEventIds now moment db with
      | ok r => rw [serve, hr]; exact sweepOnce_graded hr
      | error e => rw [serve, hr]; exact QueuedTo.refl _

end Transactions

end PulseGraph
