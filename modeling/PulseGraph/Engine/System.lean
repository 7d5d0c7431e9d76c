/-
# Runs of the engine

The engine serves one transaction at a time, under the write lock: an ingested
event, a quiet deadline, an external action, or a silence sweep.  A transaction
that raises is rolled back and leaves the database as it was.  A run starts from
an empty database; timers may fire for any incident at any instant, which is more
than the timer wheel lets them.

An ingest commits one decision (`ingestEvent_commits`); the other three move
incidents along edges of the lifecycle without an alert, and `Request.effect`
states once what that does to the incidents and the ledger.
-/

import PulseGraph.Engine.Effects
import PulseGraph.Library.Run

namespace PulseGraph

open Library (Table Run Transition)

variable {K : Type} (rt : Runtime K)

/-- One transaction the engine is asked to run, with the values of `uuid4` it draws. -/
inductive Request where
  | ingest (freshId freshGroupId : String) (now : ℤ) (event : NormalizedEvent)
  | timer (freshEventId : String) (now : ℤ) (incidentId : String) (quietAtMs : ℤ)
  | external (freshEventId : String) (now : ℤ) (action : ExternalAction)
  | sweep (freshEventIds : ℕ → String) (now moment : ℤ)

/-- The form of the text a recovery digest has in place of an incident's id. -/
def isDigestId (id : String) : Bool := id.toList.take 7 = "digest:".toList

/-- The ids an ingest may create are new, and no `uuid4` reads like a digest's. -/
def Request.fresh (db : Database K) : Request → Bool
  | .ingest freshId freshGroupId _ _ =>
      (db.incidents.find? freshId).isNone && (db.incidentGroups.find? freshGroupId).isNone &&
        decide (freshGroupId ≠ "") && !isDigestId freshId
  | _ => true

/-- The database a transaction leaves: the one it commits, or the one it was given
where it raises. -/
def afterTransaction {α : Type} (db : Database K) :
    Except EngineError (α × Database K) → Database K
  | .ok (_, db') => db'
  | .error _ => db

/-! ## What the requests without an alert do -/

/-- The lifecycle trigger of a request without an alert. -/
def Request.trigger : Request → Option Trigger
  | .ingest .. => none
  | .timer .. => some .QUIET_DEADLINE
  | .external _ _ action => triggerForKind action.kind
  | .sweep .. => some .RESOLVE

/-- The incidents a timer, an external action or a sweep acts on, read off the state
it finds: the lifecycle has an edge for the trigger, and the callback is new. -/
def Targets (db : Database K) (x : String) : Request → Prop
  | .ingest .. => False
  | .timer _ _ incidentId _ =>
      x = incidentId ∧ ∃ i, db.incidents.find? x = some i ∧ i.status = .ACKNOWLEDGED
  | .external _ _ action => x = action.incidentId ∧ ∃ i next, Applies action db i next
  | .sweep _ _ moment => ∃ overdue o, candidates rt moment db = .ok overdue ∧ o ∈ overdue ∧
      x = o.incidentId ∧ alreadySeen (sweepAction moment o).inboundId db = false

/-- A synthetic decision moved an incident from the core `i` and the newest ledger row
`latest` to the core `i'` and a row that repeats what it reads, with a default in
place of an empty text. -/
structure Moved (trigger : Option Trigger) (i i' : Incident) (latest : Option RawEvent)
    (row : RawEvent) : Prop where
  edge : trigger.bind (transitionState i.status) = some i'.status
  not_reopen : trigger ≠ some .REOPEN
  severity : i'.severity = i.severity
  alertCount : i'.alertCount = i.alertCount
  reopenCount : i'.reopenCount = 0
  scopeKey : i'.scopeKey = i.scopeKey
  stableFingerprint : i'.stableFingerprint = i.stableFingerprint
  service : ∃ default ≠ "", row.service = orDefault (latest.map (·.service)) default
  alertname : ∃ default ≠ "", row.alertname = orDefault (latest.map (·.alertname)) default
  severityRaw : row.severityRaw = orDefault (latest.map (·.severityRaw)) i.severity.text
  labels : row.labels = ((latest.map (·.labels)).getD Labels.empty).sorted

/-- What a request without an alert does to the incidents and the ledger: each
incident keeps its core and its newest row, or is one of its targets and is moved;
the ledger grows by rows of known incidents with new event ids. -/
structure Effect (trigger : Option Trigger) (targets : String → Prop) (db db' : Database K) :
    Prop where
  incidents : ∀ x, (db'.core x = db.core x ∧ db'.latestEvent x = db.latestEvent x) ∨
    (targets x ∧ ∃ i i' row, db.core x = some i ∧ db'.core x = some i' ∧
      db'.latestEvent x = some row ∧ Moved trigger i i' (db.latestEvent x) row)
  ledger : ∃ rows, db'.rawEvents = rows ++ db.rawEvents ∧ ∀ r ∈ rows,
    r.bypassed = false ∧ (∀ r' ∈ db.rawEvents, r'.eventId ≠ r.eventId) ∧
    ∃ i, db.core r.incidentId = some i ∧ r.scopeKey = i.scopeKey ∧
      r.stableFingerprint = i.stableFingerprint

section Effects

variable {rt} {db db' : Database K}

/-- A request without a trigger has no targets. -/
theorem Targets.trigger_isSome {x : String} {q : Request} (h : Targets rt db x q) :
    q.trigger.isSome = true := by
  cases q with
  | ingest _ _ _ _ => exact h.elim
  | timer _ _ _ _ => rfl
  | external _ _ action =>
      obtain ⟨-, i, next, ha⟩ := h
      obtain ⟨trigger, hk, -⟩ := Option.bind_eq_some_iff.1 ha.edge
      show (triggerForKind action.kind).isSome = true
      rw [hk]
      rfl
  | sweep _ _ _ => rfl

theorem Effect.of_same {trigger : Option Trigger} {targets : String → Prop} (h : SameCore db db') :
    Effect trigger targets db db' :=
  ⟨fun x => .inl ⟨congrFun h.core x, h.latestEvent x⟩, [], h.ledger, by simp⟩

/-- The core of a row that is read. -/
theorem core_of_find? {x : String} {i : Incident} (h : db.incidents.find? x = some i) :
    db.core x = some i.core := by
  rw [Database.core, h]; rfl

/-- A committed synthetic decision is an effect on its own incident. -/
theorem Effect.of_commits {trigger : Option Trigger} {targets : String → Prop} {now : ℤ}
    {d : EngineDecision} {i : Incident} (hc : Commits rt now d db db') (ht : targets d.incidentId)
    (hi : db.incidents.find? d.incidentId = some i)
    (hedge : trigger.bind (transitionState i.status) = some d.state) (hne : trigger ≠ some .REOPEN)
    (hsev : d.severityFinal = i.severity) (halert : d.alertCount = i.alertCount)
    (hreopen : d.reopenCount = 0) (hbypass : d.isCriticalBypass = false)
    (hscope : d.scopeKey = i.scopeKey) (hfp : d.stableFingerprint = i.stableFingerprint)
    (hservice : ∃ default ≠ "", d.event.service =
      orDefault ((db.latestEvent d.incidentId).map (·.service)) default)
    (halertname : ∃ default ≠ "", d.event.alertname =
      orDefault ((db.latestEvent d.incidentId).map (·.alertname)) default)
    (hraw : d.event.severityRaw =
      orDefault ((db.latestEvent d.incidentId).map (·.severityRaw)) i.severity.text)
    (hlabels : d.event.labels =
      ((db.latestEvent d.incidentId).map (·.labels)).getD Labels.empty) :
    Effect trigger targets db db' := by
  have hcore := core_of_find? hi
  refine ⟨fun x => ?_, [ledgerRow rt now d db], hc.ledger, ?_⟩
  · by_cases hx : x = d.incidentId
    · subst hx
      refine .inr ⟨ht, i.core, _, ledgerRow rt now d db, hcore, hc.core_self, ?_, ?_⟩
      · rw [hc.latestEvent, if_pos rfl]
      rw [hcore]
      refine ⟨?_, hne, ?_, ?_, ?_, ?_, ?_, hservice, halertname, hraw, ?_⟩
      · rw [persistedIncident_status]; exact hedge
      · rw [persistedIncident_severity]; exact hsev
      · rw [persistedIncident_alertCount]; exact halert
      · rw [persistedIncident_reopenCount]; exact hreopen
      · rw [persistedIncident_scopeKey]; rfl
      · rw [persistedIncident_stableFingerprint]; rfl
      · rw [← hlabels]; rfl
    · refine .inl ⟨hc.core_of_ne hx, ?_⟩
      rw [hc.latestEvent, if_neg hx]
  · intro r hr
    obtain rfl := List.mem_singleton.1 hr
    exact ⟨hbypass, hc.fresh, i.core, hcore, hscope, hfp⟩

/-- A quiet deadline that is committed. -/
theorem persistTrigger_effect {freshEventId : String} {now : ℤ} {incidentId : String}
    {quietAtMs : ℤ} {committed : Bool}
    (h : persistTrigger rt freshEventId now { incidentId, quietAtMs } db = .ok (committed, db')) :
    Effect (some .QUIET_DEADLINE)
      (fun x => Targets rt db x (.timer freshEventId now incidentId quietAtMs)) db db' := by
  rcases persistTrigger_commits h with ⟨-, rfl⟩ | ⟨d, hd, hp⟩
  · exact Effect.of_same (SameCore.refl _)
  obtain ⟨i, next, hi, hn, hid, hst, hal, hsev, hre, hby, hsc, hfp, -, hev, -⟩ :=
    deadlineDecision_eq_some hd
  obtain ⟨hack, rfl⟩ := transitionState_quietDeadline.1 hn
  have hid' : d.incidentId = incidentId := hid
  subst hid'
  refine Effect.of_commits (persistDecision_commits hp) ⟨rfl, i, hi, hack⟩ hi ?_ (by decide) hsev hal
    hre hby hsc hfp ?_ ?_ ?_ ?_
  · rw [hst]; exact hn
  all_goals rw [hev]
  · exact ⟨_, by decide, rfl⟩
  · exact ⟨_, by decide, rfl⟩
  · rfl
  · rfl

variable [Field K] [LinearOrder K]

/-- The effect of one external action on the incident it names. -/
theorem applyExternalAction_effect {freshEventId : String} {now : ℤ} {action : ExternalAction}
    {result : ReconcileResult}
    (h : applyExternalAction rt freshEventId now action db = .ok (result, db')) :
    Effect (triggerForKind action.kind)
      (fun x => x = action.incidentId ∧ ∃ i next, Applies action db i next) db db' := by
  rcases applyExternalAction_cases h with ⟨-, -, hdb⟩ | ⟨-, i, next, d, db₁, ha, hd, hp, rfl⟩
  · rw [hdb]
    exact Effect.of_same ⟨rfl, rfl⟩
  obtain ⟨message, -, hid, hst, hal, hsev, hre, hby, hsc, hfp, -, hev, -⟩ := buildDecision_eq_ok hd
  have hc := (persistDecision_commits hp).trans_same (settleAction_sameCore now action i.status next)
  have hne : triggerForKind action.kind ≠ some .REOPEN := by
    cases action.kind <;> simp [triggerForKind]
  refine Effect.of_commits hc ⟨hid, i, next, ha⟩ (hid ▸ ha.known) ?_ hne hsev hal hre hby hsc
    hfp ?_ ?_ ?_ ?_
  · rw [hst]; exact ha.edge
  all_goals rw [hev, hid]
  · exact ⟨_, by decide, rfl⟩
  · exact ⟨_, by decide, rfl⟩
  · rfl
  · rfl

/-- No edge but a reopening leaves `RESOLVED`. -/
theorem transitionState_resolved {trigger : Trigger} {s : IncidentState}
    (h : transitionState .RESOLVED trigger = some s) : trigger = .REOPEN := by
  cases trigger <;> simp [transitionState] at h ⊢

/-- **A sweep moves each of its targets once**: an incident it has resolved is not
moved by the rest of the sweep. -/
theorem sweepOnce_effect {freshEventIds : ℕ → String} {now moment : ℤ} {n : ℕ}
    (h : sweepOnce rt freshEventIds now moment db = .ok (n, db')) :
    Effect (some .RESOLVE) (fun x => Targets rt db x (.sweep freshEventIds now moment)) db db' := by
  have hI : (∀ id, alreadySeen id db = true → alreadySeen id db' = true) ∧
      Effect (some .RESOLVE) (fun x => Targets rt db x (.sweep freshEventIds now moment)) db db' := by
    refine sweepOnce_induct
      (P := fun a => (∀ id, alreadySeen id db = true → alreadySeen id a = true) ∧
        Effect (some .RESOLVE) (fun x => Targets rt db x (.sweep freshEventIds now moment)) db a)
      h ⟨fun _ => id, Effect.of_same (SameCore.refl db)⟩ ?_
    rintro a b overdue o result k hover ho ⟨hseen, heff⟩ ha
    refine ⟨fun id hid => applyExternalAction_seen ha (hseen id hid), ?_⟩
    have hstep := applyExternalAction_effect ha
    refine ⟨fun x => ?_, ?_⟩
    · rcases hstep.incidents x with ⟨hcore, hlatest⟩ | ⟨⟨hx, j, next, happ⟩, i, i', row, hi, hi', hrow, hm⟩
      · rw [hcore, hlatest]
        exact heff.incidents x
      rcases heff.incidents x with ⟨hcore, hlatest⟩ | ⟨-, i₀, i₁, row₀, -, hi₁, -, hm₀⟩
      · -- not moved before: a target of the sweep, and moved now
        refine .inr ⟨⟨overdue, o, hover, ho, hx, ?_⟩, i, i', row, hcore ▸ hi, hi', hrow, hlatest ▸ hm⟩
        cases hs : alreadySeen (sweepAction moment o).inboundId db with
        | false => rfl
        | true => exact absurd (hseen _ hs) (by simp [happ.unseen])
      · -- resolved before: no edge is left
        obtain rfl := Option.some.inj (hi.symm.trans hi₁)
        have hres : i.status = .RESOLVED := (transitionState_resolve.1 hm₀.edge).2
        have hedge : transitionState i.status .RESOLVE = some i'.status := hm.edge
        exact absurd hres (transitionState_resolve.1 hedge).1
    · obtain ⟨rows, hrows, hr⟩ := heff.ledger
      obtain ⟨rows', hrows', hr'⟩ := hstep.ledger
      refine ⟨rows' ++ rows, by rw [hrows', hrows, List.append_assoc], fun r hmem => ?_⟩
      rcases List.mem_append.1 hmem with hmem | hmem
      · obtain ⟨hby, hfresh, i, hi, hsc, hfp⟩ := hr' r hmem
        refine ⟨hby, fun r' hr'' => hfresh r' (hrows ▸ List.mem_append_right _ hr''), ?_⟩
        rcases heff.incidents r.incidentId with ⟨hcore, -⟩ | ⟨-, i₀, i₁, row₀, hi₀, hi₁, -, hm₀⟩
        · exact ⟨i, hcore ▸ hi, hsc, hfp⟩
        · obtain rfl := Option.some.inj (hi.symm.trans hi₁)
          exact ⟨i₀, hi₀, hsc.trans hm₀.scopeKey, hfp.trans hm₀.stableFingerprint⟩
      · exact hr r hmem
  exact hI.2

end Effects

/-! ## The runs -/

variable [Field K] [LinearOrder K]

/-- The transaction of a request. -/
def serve (db : Database K) : Request → Database K
  | .ingest freshId freshGroupId now event =>
      afterTransaction db (ingestEvent rt freshId freshGroupId now event db)
  | .timer freshEventId now incidentId quietAtMs =>
      afterTransaction db (persistTrigger rt freshEventId now { incidentId, quietAtMs } db)
  | .external freshEventId now action =>
      afterTransaction db (applyExternalAction rt freshEventId now action db)
  | .sweep freshEventIds now moment =>
      afterTransaction db (sweepOnce rt freshEventIds now moment db)

/-- One step of the engine. -/
def engineNext (db : Database K) (q : Request) : Option (Database K) :=
  if q.fresh db then some (serve rt db q) else none

theorem serve_of_engineNext {rt : Runtime K} {db db' : Database K} {q : Request}
    (h : engineNext rt db q = some db') : serve rt db q = db' := by
  unfold engineNext at h
  split_ifs at h
  exact Option.some.inj h

/-- **The runs of the engine** from an empty database, with their history. -/
def EngineRun : List (Transition (Database K) Request) → Database K → Prop :=
  Run (· = Database.empty) fun db q db' => engineNext rt db q = some db'

/-- **One step of the engine** commits the decision on an event, or has the effect of
its request's trigger on the request's targets. -/
theorem engineNext_cases {rt : Runtime K} {db db' : Database K} {q : Request}
    (h : engineNext rt db q = some db') :
    (∃ freshId freshGroupId now event d, q = .ingest freshId freshGroupId now event ∧
      q.fresh db = true ∧ ingestEvent rt freshId freshGroupId now event db = .ok (d, db')) ∨
    ((∀ freshId freshGroupId now event d db'', q = .ingest freshId freshGroupId now event →
      ingestEvent rt freshId freshGroupId now event db ≠ .ok (d, db'')) ∧
      Effect q.trigger (fun x => Targets rt db x q) db db') := by
  unfold engineNext at h
  split_ifs at h with hf
  obtain rfl := Option.some.inj h
  cases q with
  | ingest freshId freshGroupId now event =>
      cases hr : ingestEvent rt freshId freshGroupId now event db with
      | ok r => exact .inl ⟨freshId, freshGroupId, now, event, r.1, rfl, hf, by rw [serve, hr]; rfl⟩
      | error e =>
          refine .inr ⟨?_, ?_⟩
          · rintro _ _ _ _ d db'' ⟨⟩ hok
            simp [hr] at hok
          · rw [serve, hr]
            exact Effect.of_same (SameCore.refl db)
  | timer freshEventId now incidentId quietAtMs =>
      refine .inr ⟨by rintro _ _ _ _ _ _ ⟨⟩, ?_⟩
      cases hr : persistTrigger rt freshEventId now { incidentId, quietAtMs } db with
      | ok r => rw [serve, hr]; exact persistTrigger_effect hr
      | error e => rw [serve, hr]; exact Effect.of_same (SameCore.refl db)
  | external freshEventId now action =>
      refine .inr ⟨by rintro _ _ _ _ _ _ ⟨⟩, ?_⟩
      cases hr : applyExternalAction rt freshEventId now action db with
      | ok r => rw [serve, hr]; exact applyExternalAction_effect hr
      | error e => rw [serve, hr]; exact Effect.of_same (SameCore.refl db)
  | sweep freshEventIds now moment =>
      refine .inr ⟨by rintro _ _ _ _ _ _ ⟨⟩, ?_⟩
      cases hr : sweepOnce rt freshEventIds now moment db with
      | ok r => rw [serve, hr]; exact sweepOnce_effect hr
      | error e => rw [serve, hr]; exact Effect.of_same (SameCore.refl db)

/-! ## What an ingest does -/

/-- The decision opens an incident: a bypass, or an identity no incident has. -/
structure Opens (freshId : String) (event : NormalizedEvent) (d : EngineDecision)
    (db : Database K) : Prop where
  event_eq : d.event = event
  incidentId : d.incidentId = freshId
  unknown : db.core d.incidentId = none
  state : d.state ≠ .OPEN
  alertCount : d.alertCount = 1
  reopenCount : d.reopenCount = 0
  identity : d.scopeKey = scopeKeyFor event ∧
    d.stableFingerprint = generateFingerprint rt (eventPayload event (scopeKeyFor event))
  alone : d.isCriticalBypass = false → ∀ x i, db.core x = some i →
    ¬ (i.stableFingerprint = d.stableFingerprint ∧ i.scopeKey = d.scopeKey)

/-- The decision continues the incident `i`, whose newest ledger row is an exact
duplicate of the event. -/
structure Continues (event : NormalizedEvent) (d : EngineDecision) (db : Database K)
    (i : Incident) : Prop where
  event_eq : d.event = event
  known : db.core d.incidentId = some i
  state : d.state = nextState i.status event
  alertCount : d.alertCount = i.alertCount + 1
  reopenCount : d.reopenCount =
    i.reopenCount + if i.status = .RESOLVED ∧ event.status ≠ .resolved then 1 else 0
  not_bypass : d.isCriticalBypass = false
  identity : d.scopeKey = scopeKeyFor event ∧
    d.stableFingerprint = generateFingerprint rt (eventPayload event (scopeKeyFor event))
  scopeKey : i.scopeKey = d.scopeKey
  stableFingerprint : i.stableFingerprint = d.stableFingerprint

omit [Field K] [LinearOrder K] in
/-- The stored row behind a core. -/
theorem exists_find?_of_core {db : Database K} {x : String} {i : Incident} (h : db.core x = some i) :
    ∃ j, db.incidents.find? x = some j ∧ j.core = i := Option.map_eq_some_iff.1 h

omit [Field K] [LinearOrder K] in
/-- **The decision of an ingest** opens an incident or continues one. -/
theorem decision_cases {rt : Runtime K} {db : Database K} {freshId : String} {now : ℤ}
    {event : NormalizedEvent} {d : EngineDecision} (hfresh : db.incidents.find? freshId = none)
    (h : processEvent rt freshId now event db = .ok d) :
    Opens rt freshId event d db ∨ ∃ i, Continues rt event d db i := by
  have hnone : db.core freshId = none := by rw [Database.core, hfresh]; rfl
  rcases processEvent_cases h with ⟨-, rfl⟩ | ⟨-, hl, ho⟩ | ⟨-, record, hl, -, hd⟩
  · exact .inl ⟨rfl, rfl, hnone, by simp [bypassDecision, decision], rfl, rfl,
      ⟨rfl, rfl⟩, by simp [bypassDecision, decision]⟩
  · obtain ⟨hev, hid, hst, hal, hre, -, hsc, hfp, -⟩ := openDecision_eq_ok ho
    refine .inl ⟨hev, hid, hid ▸ hnone, ?_, hal, hre, ⟨hsc, hfp⟩, fun _ x i hi => ?_⟩
    · rw [hst]
      unfold newIncidentState
      split_ifs <;> decide
    · obtain ⟨j, hj, rfl⟩ := exists_find?_of_core hi
      rw [hsc, hfp]
      exact lookupIncident_eq_none.1 hl x j hj
  · obtain ⟨hev, hid, hst, hal, hre, hby, hsc, hfp, -⟩ := duplicateDecision_eq_ok hd
    obtain ⟨i, hi, hfp', hsc', hstate, halert, hreopen, -⟩ := lookupIncident_eq_some hl
    refine .inr ⟨i.core, hev, hid ▸ core_of_find? hi, ?_, ?_, ?_, hby, ⟨hsc, hfp⟩, ?_, ?_⟩
    · rw [hst, hstate]; rfl
    · rw [hal, halert]; rfl
    · rw [hre, nextReopenCount, isReopen, hstate, hreopen]
      exact congrArg (i.reopenCount + ·) (if_congr (by simp [Incident.core]) rfl rfl)
    · exact hsc'.trans hsc.symm
    · exact hfp'.trans hfp.symm

/-- What a committed ingest was. -/
theorem ingest_cases {rt : Runtime K} {db db' : Database K} {freshId freshGroupId : String} {now : ℤ}
    {event : NormalizedEvent} {d : EngineDecision}
    (hfresh : (Request.ingest freshId freshGroupId now event).fresh db = true)
    (h : ingestEvent rt freshId freshGroupId now event db = .ok (d, db')) :
    Commits rt now d db db' ∧ (Opens rt freshId event d db ∨ ∃ i, Continues rt event d db i) := by
  obtain ⟨hd, hc⟩ := ingestEvent_commits h
  simp only [Request.fresh, Bool.and_eq_true, Option.isNone_iff_eq_none] at hfresh
  exact ⟨hc, decision_cases hfresh.1.1.1 hd⟩

/-! ## Inputs to run the engine on -/

/-- What a replay from the empty database computes is true of a run. -/
theorem EngineRun.of_replay {rt : Runtime K} {qs : List Request} {β : Type}
    {f : List (Transition (Database K) Request) × Database K → β} {b : β}
    (h : (Library.replay (engineNext rt) qs ([], Database.empty)).map f = some b) :
    ∃ h db, EngineRun rt h db ∧ f (h, db) = b :=
  @Run.exists_of_replay _ _ (· = Database.empty) _ _ _ _ _ _ rfl h

/-- An alert of one identity, as Prometheus sends it. -/
def sampleEvent (eventId severityRaw : String) (status : EventStatus) (firedAtMs : ℤ) :
    NormalizedEvent where
  eventId := eventId
  fingerprint := "disk"
  source := .prometheus
  service := "disk"
  alertname := "DiskFull"
  severityRaw := severityRaw
  status := status
  labels := Labels.empty
  message := "disk full"
  firedAt := DateTime.ofIsoMs firedAtMs
  rawPayload := []

/-- A click in Slack. -/
def slackAction (inboundId : String) (kind : ActionKind) (incidentId : String) : ExternalAction where
  inboundId := inboundId
  provider := .slack
  kind := kind
  incidentId := incidentId
  actor := some "ada"

end PulseGraph
