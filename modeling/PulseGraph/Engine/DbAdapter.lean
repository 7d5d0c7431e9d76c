/-
# Reads and writes of the engine

`src/engine/db_adapter.py`: `lookup_incident` and `persist_decision`.  A decision
is persisted by five writes, each to one table: the incident is inserted or
overwritten, its flap stamps are set, the source's clock skew is recorded, one
row is appended to the ledger, and one outbox row is pushed for each intent.  The
append fails on a repeated event id, and then nothing is written.

`persistDecision_ok` says what a persisted decision leaves behind; the lemmas
after it read single tables.
-/

import PulseGraph.Db.HashChain
import PulseGraph.Ingest.ClockSkew
import PulseGraph.Engine.Dedupe
import PulseGraph.Outbox.Routing

namespace PulseGraph

open Library (Table Json)

variable {K : Type} (rt : Runtime K)

/-- `IncidentRecord`. -/
structure IncidentRecord where
  incidentId : String
  state : IncidentState
  lastEvent : EventPayload
  lastSeenMs : ℤ
  gapHistory : List ℚ
  alertCount : ℕ
  firstAlertMs : ℤ
  firstIngestedMs : ℤ
  lastIngestedMs : ℤ
  reopenCount : ℕ
  lastFlapNotifiedMs : ℤ

/-- The event `lookup_incident` reconstructs from the newest ledger row of an
incident; every field is empty where there is no such row. -/
def lastEventOf (scopeKey : String) (row : Option RawEvent) : EventPayload where
  scopeKey := scopeKey
  service := (row.map (·.service)).getD ""
  alertname := (row.map (·.alertname)).getD ""
  severityRaw := (row.map (·.severityRaw)).getD ""
  status := row.map (·.status)
  labels := (row.map (·.labels)).getD Labels.empty

/-- `lookup_incident`: the most recently updated incident for one stable identity and scope. -/
def lookupIncident (fingerprint scopeKey : String) (db : Database K) : Option IncidentRecord :=
  let rows := db.incidents.select fun _ i => i.stableFingerprint = fingerprint && i.scopeKey = scopeKey
  (firstBy (fun a b => decide (b.2.updatedAt < a.2.updatedAt)) rows).map fun (incidentId, i) =>
    { incidentId := incidentId
      state := i.status
      lastEvent := lastEventOf scopeKey (db.latestEvent incidentId)
      lastSeenMs := i.lastAlertAt
      gapHistory := i.gapHistory
      alertCount := i.alertCount
      firstAlertMs := i.firstAlertAt
      firstIngestedMs := i.firstIngestedAt.getD i.firstAlertAt
      lastIngestedMs := i.lastIngestedAt.getD i.lastAlertAt
      reopenCount := i.reopenCount
      lastFlapNotifiedMs := i.lastFlapNotifiedAt.getD 0 }

/-! ## The writes of `persist_decision` -/

/-- `route`. -/
def routeFor (severity : Severity) : Channel := if severity = .critical then .pagerduty else .slack

/-- The row `persist_decision` inserts for an incident it has not seen. -/
def insertedIncident (now : ℤ) (d : EngineDecision) : Incident where
  scopeKey := d.scopeKey
  stableFingerprint := d.stableFingerprint
  title := d.title
  summary := d.summary
  severity := d.severityFinal
  status := d.state
  alertCount := d.alertCount
  firstAlertAt := d.event.firedAt.isoMs
  lastAlertAt := d.event.firedAt.isoMs
  firstIngestedAt := some now
  lastIngestedAt := some now
  reopenCount := d.reopenCount
  ewmaRate := d.ewmaMeanGap
  quietAtMs := d.quietAtMs
  ewmaMeanGap := d.ewmaMeanGap
  ewmaVariance := d.ewmaVariance
  gapHistory := d.gapHistory
  routeDecision := routeFor d.severityFinal
  rootCauseHint := d.rootCauseHint
  createdAt := now
  updatedAt := now

/-- `ON CONFLICT(incident_id) DO UPDATE SET …`: what a decision overwrites. -/
def overwrittenIncident (now : ℤ) (d : EngineDecision) (i : Incident) : Incident :=
  { i with
    title := d.title
    summary := d.summary.or i.summary
    severity := d.severityFinal
    status := d.state
    alertCount := d.alertCount
    lastAlertAt := d.event.firedAt.isoMs
    lastIngestedAt := some now
    reopenCount := d.reopenCount
    ewmaRate := d.ewmaMeanGap
    quietAtMs := d.quietAtMs
    ewmaMeanGap := d.ewmaMeanGap
    ewmaVariance := d.ewmaVariance
    gapHistory := d.gapHistory
    routeDecision := routeFor d.severityFinal
    rootCauseHint := d.rootCauseHint.or i.rootCauseHint
    updatedAt := now }

/-- The two flap statements: `flapping_since` is set once, the notified stamp moves
with every card a flapping decision earns. -/
def stampFlap (now : ℤ) (d : EngineDecision) (i : Incident) : Incident :=
  let i := if d.isFlapping then { i with flappingSince := i.flappingSince.or (some now) } else i
  if d.isFlapping && !d.deliveryIntents.isEmpty then { i with lastFlapNotifiedAt := some now } else i

/-- `_canonical_payload`. -/
def canonicalPayload (d : EngineDecision) : String :=
  (Json.obj [("event", d.event.dump), ("decision", d.decisionPayload)]).dumps false

/-- The ledger row of a decision. -/
def ledgerRow (now : ℤ) (d : EngineDecision) (db : Database K) : RawEvent where
  eventId := d.event.eventId
  seq := (nextSeqAndPrevHash db).1
  fingerprint := d.event.fingerprint
  stableFingerprint := d.stableFingerprint
  scopeKey := d.scopeKey
  source := d.event.source
  service := d.event.service
  alertname := d.event.alertname
  severityRaw := d.event.severityRaw
  status := d.event.status
  labels := d.event.labels.sorted
  message := d.event.message
  firedAt := d.event.firedAt.isoMs
  ingestedAt := now
  rawPayload := d.event.rawPayload
  prevHash := (nextSeqAndPrevHash db).2
  rowHash := computeRowHash rt (nextSeqAndPrevHash db).2 (canonicalPayload d)
  incidentId := d.incidentId
  isDuplicate := d.isDuplicate
  bypassed := d.isCriticalBypass
  bypassReason := d.bypassReason
  decisionPayload := d.decisionPayload

/-- The write-ahead record of an intent. -/
def intentRow (d : EngineDecision) (intent : DeliveryIntent) : DeliveryIntentRow where
  incidentId := d.incidentId
  eventId := d.event.eventId
  channel := intent.channel
  action := intent.action
  payload := intent.payload

/-- The outbox row of an intent: a `trigger` is stored as a `create`. -/
def outboxRow (now : ℤ) (d : EngineDecision) (intent : DeliveryIntent) : OutboxRow where
  incidentId := d.incidentId
  channel := intent.channel
  action := if intent.action = .trigger then .create else intent.action
  payload := intent.payload
  nextAttemptAt := now
  priority := priorityFor (some d.severityFinal)
  originChannel := intent.channel
  createdAt := now

/-- What a decision that can be persisted leaves behind. -/
def persisted (now : ℤ) (d : EngineDecision) (db : Database K) : Database K :=
  { recordSkew d.event.source d.scopeKey d.event.firedAt now db with
    incidents := (db.incidents.upsert d.incidentId (insertedIncident now d)
      (overwrittenIncident now d)).modify d.incidentId (stampFlap now d)
    rawEvents := ledgerRow rt now d db :: db.rawEvents
    deliveryIntents := d.deliveryIntents.foldl
      (fun t intent => t.insert intent.idempotencyKey (intentRow d intent)) db.deliveryIntents
    outbox := db.outbox.pushAll (d.deliveryIntents.map (outboxRow now d)) }

/-- `persist_decision`. -/
def persistDecision (now : ℤ) (d : EngineDecision) (db : Database K) :
    Except EngineError (Database K) :=
  if db.rawEvents.any fun r => r.eventId = d.event.eventId then
    .error (.integrityError "UNIQUE constraint failed: raw_events.event_id")
  else .ok (persisted rt now d db)

/-! ## What a persisted decision leaves behind -/

section Persisted

variable {rt} {now : ℤ} {d : EngineDecision} {db db' : Database K}

/-- A decision is persisted exactly when its event id is new to the ledger. -/
theorem persistDecision_ok : persistDecision rt now d db = .ok db' ↔
    (∀ r ∈ db.rawEvents, r.eventId ≠ d.event.eventId) ∧ db' = persisted rt now d db := by
  unfold persistDecision
  split_ifs with h
  · obtain ⟨r, hr, he⟩ := List.any_eq_true.1 h
    refine iff_of_false (by simp) ?_
    rintro ⟨hn, -⟩
    exact hn r hr (by simpa using he)
  · have hn : ∀ r ∈ db.rawEvents, r.eventId ≠ d.event.eventId := by
      intro r hr he
      exact h (List.any_eq_true.2 ⟨r, hr, by simpa using he⟩)
    rw [Except.ok.injEq, eq_comm]
    exact (and_iff_right hn).symm

/-- A repeated event id fails the append. -/
theorem persistDecision_of_seen (h : ∃ r ∈ db.rawEvents, r.eventId = d.event.eventId) :
    persistDecision rt now d db =
      .error (.integrityError "UNIQUE constraint failed: raw_events.event_id") := by
  obtain ⟨r, hr, he⟩ := h
  unfold persistDecision
  exact if_pos (List.any_eq_true.2 ⟨r, hr, by simpa using he⟩)

/-- The incident row a decision leaves, given the row before. -/
def persistedIncident (now : ℤ) (d : EngineDecision) (old : Option Incident) : Incident :=
  stampFlap now d ((old.map (overwrittenIncident now d)).getD (insertedIncident now d))

/-- **One incident row is written**, the decision's own. -/
theorem find?_persisted (k : String) : (persisted rt now d db).incidents.find? k =
    if k = d.incidentId then some (persistedIncident now d (db.incidents.find? d.incidentId))
    else db.incidents.find? k := by
  show Table.find? (Table.modify _ _ _) k = _
  rw [Table.find?_modify]
  by_cases h : k = d.incidentId
  · rw [if_pos h, if_pos h, Table.find?_upsert, if_pos rfl]
    rfl
  · rw [if_neg h, if_neg h, Table.find?_upsert, if_neg h]

@[simp] theorem find?_persisted_self : (persisted rt now d db).incidents.find? d.incidentId =
    some (persistedIncident now d (db.incidents.find? d.incidentId)) := by
  rw [find?_persisted, if_pos rfl]

theorem find?_persisted_of_ne {k : String} (h : k ≠ d.incidentId) :
    (persisted rt now d db).incidents.find? k = db.incidents.find? k := by
  rw [find?_persisted, if_neg h]

@[simp] theorem persisted_rawEvents :
    (persisted rt now d db).rawEvents = ledgerRow rt now d db :: db.rawEvents := rfl

@[simp] theorem persisted_outbox :
    (persisted rt now d db).outbox = db.outbox.pushAll (d.deliveryIntents.map (outboxRow now d)) := rfl

@[simp] theorem persisted_incidentGroups :
    (persisted rt now d db).incidentGroups = db.incidentGroups := rfl

@[simp] theorem persisted_edges : (persisted rt now d db).edges = db.edges := rfl

@[simp] theorem persisted_inboundEvents :
    (persisted rt now d db).inboundEvents = db.inboundEvents := rfl

@[simp] theorem persisted_channelHealth :
    (persisted rt now d db).channelHealth = db.channelHealth := rfl

@[simp] theorem persisted_channelOutages :
    (persisted rt now d db).channelOutages = db.channelOutages := rfl

/-- The newest ledger row of an incident after a decision. -/
theorem latestEvent_persisted (k : String) : (persisted rt now d db).latestEvent k =
    if k = d.incidentId then some (ledgerRow rt now d db) else db.latestEvent k := by
  unfold Database.latestEvent
  rw [persisted_rawEvents, List.find?_cons]
  have hid : (ledgerRow rt now d db).incidentId = d.incidentId := rfl
  rw [hid]
  by_cases h : k = d.incidentId
  · rw [if_pos h, h]; simp
  · rw [if_neg h]; simp [Ne.symm h]

end Persisted

/-! ## The written incident -/

section Incident

variable {now : ℤ} {d : EngineDecision} {i : Incident} {old : Option Incident}

@[simp] theorem stampFlap_status : (stampFlap now d i).status = i.status := by
  unfold stampFlap; dsimp only; split_ifs <;> rfl

@[simp] theorem stampFlap_scopeKey : (stampFlap now d i).scopeKey = i.scopeKey := by
  unfold stampFlap; dsimp only; split_ifs <;> rfl

@[simp] theorem stampFlap_stableFingerprint :
    (stampFlap now d i).stableFingerprint = i.stableFingerprint := by
  unfold stampFlap; dsimp only; split_ifs <;> rfl

@[simp] theorem stampFlap_severity : (stampFlap now d i).severity = i.severity := by
  unfold stampFlap; dsimp only; split_ifs <;> rfl

@[simp] theorem stampFlap_quietAtMs : (stampFlap now d i).quietAtMs = i.quietAtMs := by
  unfold stampFlap; dsimp only; split_ifs <;> rfl

@[simp] theorem stampFlap_alertCount : (stampFlap now d i).alertCount = i.alertCount := by
  unfold stampFlap; dsimp only; split_ifs <;> rfl

@[simp] theorem stampFlap_reopenCount : (stampFlap now d i).reopenCount = i.reopenCount := by
  unfold stampFlap; dsimp only; split_ifs <;> rfl

@[simp] theorem stampFlap_correlationGroupId :
    (stampFlap now d i).correlationGroupId = i.correlationGroupId := by
  unfold stampFlap; dsimp only; split_ifs <;> rfl

@[simp] theorem stampFlap_acknowledgedBy :
    (stampFlap now d i).acknowledgedBy = i.acknowledgedBy := by
  unfold stampFlap; dsimp only; split_ifs <;> rfl

@[simp] theorem persistedIncident_status : (persistedIncident now d old).status = d.state := by
  cases old <;> simp [persistedIncident, insertedIncident, overwrittenIncident]

@[simp] theorem persistedIncident_severity :
    (persistedIncident now d old).severity = d.severityFinal := by
  cases old <;> simp [persistedIncident, insertedIncident, overwrittenIncident]

@[simp] theorem persistedIncident_alertCount :
    (persistedIncident now d old).alertCount = d.alertCount := by
  cases old <;> simp [persistedIncident, insertedIncident, overwrittenIncident]

@[simp] theorem persistedIncident_reopenCount :
    (persistedIncident now d old).reopenCount = d.reopenCount := by
  cases old <;> simp [persistedIncident, insertedIncident, overwrittenIncident]

@[simp] theorem persistedIncident_quietAtMs :
    (persistedIncident now d old).quietAtMs = d.quietAtMs := by
  cases old <;> simp [persistedIncident, insertedIncident, overwrittenIncident]

/-- A new row takes its scope and fingerprint from the decision, an old one keeps its own. -/
theorem persistedIncident_scopeKey :
    (persistedIncident now d old).scopeKey = (old.map (·.scopeKey)).getD d.scopeKey := by
  cases old <;> simp [persistedIncident, insertedIncident, overwrittenIncident]

theorem persistedIncident_stableFingerprint : (persistedIncident now d old).stableFingerprint =
    (old.map (·.stableFingerprint)).getD d.stableFingerprint := by
  cases old <;> simp [persistedIncident, insertedIncident, overwrittenIncident]

/-- Persisting a decision never moves an incident between storms. -/
theorem persistedIncident_correlationGroupId : (persistedIncident now d old).correlationGroupId =
    old.bind (·.correlationGroupId) := by
  cases old <;> simp [persistedIncident, insertedIncident, overwrittenIncident]

end Incident

end PulseGraph
