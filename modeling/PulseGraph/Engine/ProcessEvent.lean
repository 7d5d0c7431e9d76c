/-
# Processing one event

`src/engine/process_event.py`: `process_event` turns an event into a decision,
reading the database alone; `persist_and_observe` persists the decision and
derives graph evidence and storms from it.  A fresh `uuid4` is a parameter, and
one clock reading `now` stands for all that a transaction takes.
-/

import PulseGraph.Engine.AdaptiveEwma
import PulseGraph.Engine.CriticalBypass
import PulseGraph.Engine.DbAdapter
import PulseGraph.Engine.IncidentMachine
import PulseGraph.Graph.ObserveIncident
import PulseGraph.Graph.StormGrouping

namespace PulseGraph

open Library (Json)

variable {K : Type} (rt : Runtime K)

/-- `_SEVERITY_MAP`. -/
def severityMap : List (String × Severity) :=
  [("critical", .critical), ("error", .high), ("high", .high), ("warning", .medium),
    ("medium", .medium), ("info", .low), ("low", .low)]

/-- `_severity`. -/
def severityOf (event : NormalizedEvent) : Severity :=
  ((severityMap.find? fun kv => kv.1 = rt.lower event.severityRaw).map Prod.snd).getD .medium

/-- `_bounded_deadline`: stop an ongoing storm from deferring its own notification forever. -/
def boundedDeadline (quietAtMs : Option ℤ) (firstIngestedMs nowMs : ℤ) : Option ℤ :=
  quietAtMs.map fun quiet =>
    let ceiling := firstIngestedMs + rt.settings.incidentMaxBatchSpanMs
    if firstIngestedMs ≤ 0 ∨ quiet ≤ ceiling then quiet
    -- a breached ceiling fires next tick, never in the past
    else max ceiling (nowMs + 1)

/-- `_payload_json`. -/
def payloadJson (event : NormalizedEvent) (incidentId : String) (state : IncidentState)
    (isDuplicate : Bool) (bypassReason : Option String) : Json :=
  .obj [("event_id", .str event.eventId), ("incident_id", .str incidentId),
    ("state", .str state.text), ("is_duplicate", .bool isDuplicate),
    ("bypass_reason", Json.optStr bypassReason)]

/-- `_slack_intent`. -/
def slackIntent (event : NormalizedEvent) (incidentId : String) (action : Action)
    (payload : Payload) : DeliveryIntent where
  channel := .slack
  action := action
  idempotencyKey := "card:" ++ event.eventId ++ ":" ++ incidentId ++ ":" ++ action.text
  payload := payload

/-- The keyword arguments of `_decision`. -/
structure DecisionArguments where
  event : NormalizedEvent
  incidentId : String
  state : IncidentState
  isDuplicate : Bool
  scopeKey : String
  stableFingerprint : String
  quietAtMs : Option ℤ
  meanGap : ℚ
  variance : ℚ
  gapHistory : List ℚ
  cardChanges : List String
  alertCount : ℕ
  isCriticalBypass : Bool := false
  bypassReason : Option String := none
  deliveryIntents : List DeliveryIntent := []
  reopenCount : ℕ := 0
  isFlapping : Bool := false

/-- `_decision`. -/
def decision (a : DecisionArguments) : EngineDecision where
  event := a.event
  incidentId := a.incidentId
  state := a.state
  isDuplicate := a.isDuplicate
  severityFinal := if a.isCriticalBypass then .critical else severityOf rt a.event
  alertCount := a.alertCount
  title := a.event.service ++ " — " ++ a.event.alertname
  summary := some a.event.message
  scopeKey := a.scopeKey
  stableFingerprint := a.stableFingerprint
  quietAtMs := a.quietAtMs
  ewmaMeanGap := a.meanGap
  ewmaVariance := a.variance
  gapHistory := a.gapHistory
  cardChanges := a.cardChanges
  isCriticalBypass := a.isCriticalBypass
  bypassReason := a.bypassReason
  decisionPayload := payloadJson a.event a.incidentId a.state a.isDuplicate a.bypassReason
  deliveryIntents := a.deliveryIntents
  reopenCount := a.reopenCount
  isFlapping := a.isFlapping

/-- `_new_incident_state`. -/
def newIncidentState (event : NormalizedEvent) : IncidentState :=
  if event.status = .resolved then .RESOLVED
  else (transitionState .OPEN .ACKNOWLEDGE).getD .OPEN

/-- `_next_state`. -/
def nextState (state : IncidentState) (event : NormalizedEvent) : IncidentState :=
  if event.status = .resolved then (transitionState state .RESOLVE).getD state
  else if state = .RESOLVED then
    let reopened := (transitionState state .REOPEN).getD state
    (transitionState reopened .ACKNOWLEDGE).getD reopened
  else if state = .OPEN then (transitionState state .ACKNOWLEDGE).getD state
  else state

/-- The quiet deadline of a decision: none for a resolved incident. -/
def quietFor (state : IncidentState) (gapHistory : List ℚ) (lastGap : ℚ) (now : ℤ) :
    Except EngineError QuietDeadline :=
  if state ≠ .RESOLVED then
    calculateQuietDeadline gapHistory lastGap now (some rt.settings.quietWindowMaxMs)
  else .ok ⟨none, 0, 0⟩

/-- The bypass branch of `process_event`. -/
def bypassDecision (freshId : String) (event : NormalizedEvent) (reason : Option String) :
    EngineDecision :=
  let scopeKey := scopeKeyFor event
  let payload : Payload :=
    { incidentId := some freshId, eventId := some event.eventId, service := some event.service,
      severity := some .critical, bypassReason := reason }
  decision rt
    { event := event
      incidentId := freshId
      state := .ACKNOWLEDGED
      isDuplicate := false
      scopeKey := scopeKey
      stableFingerprint := generateFingerprint rt (eventPayload event scopeKey)
      quietAtMs := none
      meanGap := 0
      variance := 0
      gapHistory := []
      cardChanges := ["CRITICAL_BYPASS", "STATE_OPEN_TO_ACKNOWLEDGED"]
      alertCount := 1
      isCriticalBypass := true
      bypassReason := reason
      deliveryIntents :=
        [{ channel := .pagerduty
           action := .trigger
           idempotencyKey := "critical:" ++ event.eventId ++ ":" ++ freshId ++ ":pagerduty"
           payload := payload },
         slackIntent event freshId .create payload] }

/-- The branch of `process_event` for an identity it has not seen. -/
def openDecision (freshId : String) (now : ℤ) (event : NormalizedEvent) :
    Except EngineError EngineDecision := do
  let scopeKey := scopeKeyFor event
  let state := newIncidentState event
  let quiet ← quietFor rt state [] 0 now
  let payload : Payload :=
    { incidentId := some freshId, state := some state, alertCount := some 1,
      service := some event.service }
  .ok (decision rt
    { event := event
      incidentId := freshId
      state := state
      isDuplicate := false
      scopeKey := scopeKey
      stableFingerprint := generateFingerprint rt (eventPayload event scopeKey)
      quietAtMs := quiet.quietAtMs
      meanGap := quiet.meanGap
      variance := quiet.variance
      gapHistory := []
      cardChanges := ["INCIDENT_OPENED", "STATE_OPEN_TO_ACKNOWLEDGED"]
      alertCount := 1
      deliveryIntents := [slackIntent event freshId .create payload] })

/-- Whether an event brings a `RESOLVED` incident back. -/
def isReopen (record : IncidentRecord) (event : NormalizedEvent) : Bool :=
  record.state = .RESOLVED && event.status ≠ .resolved

/-- `reopen_count` of a decision on a known incident. -/
def nextReopenCount (record : IncidentRecord) (event : NormalizedEvent) : ℕ :=
  record.reopenCount + (if isReopen record event then 1 else 0)

/-- `is_flapping`. -/
def isFlappingAt (reopenCount : ℕ) : Bool :=
  rt.settings.flapDampingEnabled && decide (rt.settings.flapReopenThreshold ≤ reopenCount)

/-- `notify`: a flapping incident earns a card once in a digest interval. -/
def notifies (record : IncidentRecord) (reopenCount : ℕ) (now : ℤ) : Bool :=
  !isFlappingAt rt reopenCount ||
    decide (rt.settings.flapDigestIntervalSeconds * 1000 ≤ now - record.lastFlapNotifiedMs)

/-- The branch of `process_event` for a known identity. -/
def duplicateDecision (now : ℤ) (event : NormalizedEvent) (record : IncidentRecord) :
    Except EngineError EngineDecision := do
  let scopeKey := scopeKeyFor event
  let state := nextState record.state event
  let lastGap : ℚ := max 0 (event.firedAt.epochMs - record.lastSeenMs)
  let quiet ← quietFor rt state record.gapHistory lastGap now
  let reopenCount := nextReopenCount record event
  let payload : Payload :=
    { incidentId := some record.incidentId, state := some state,
      alertCount := some (record.alertCount + 1), service := some event.service }
  .ok (decision rt
    { event := event
      incidentId := record.incidentId
      state := state
      isDuplicate := true
      scopeKey := scopeKey
      stableFingerprint := generateFingerprint rt (eventPayload event scopeKey)
      quietAtMs := boundedDeadline rt quiet.quietAtMs record.firstIngestedMs now
      meanGap := quiet.meanGap
      variance := quiet.variance
      gapHistory := record.gapHistory ++ [lastGap]
      cardChanges := ["DUPLICATE_COALESCED", "QUIET_DEADLINE_UPDATED"] ++
        (if state ≠ record.state then ["STATE_" ++ record.state.text ++ "_TO_" ++ state.text] else []) ++
        (if isReopen record event then ["REOPENED"] else []) ++
        (if isFlappingAt rt reopenCount then ["FLAPPING"] else [])
      alertCount := record.alertCount + 1
      reopenCount := reopenCount
      isFlapping := isFlappingAt rt reopenCount
      deliveryIntents := if notifies rt record reopenCount now then
        [slackIntent event record.incidentId .update payload] else [] })

/-- The message of the branch a looked-up incident must never reach. -/
def nonIdenticalIncident : EngineError :=
  .runtimeError "stable fingerprint lookup returned a non-identical incident"

/-- `process_event`: read through the active transaction and return data for atomic persistence. -/
def processEvent (freshId : String) (now : ℤ) (event : NormalizedEvent) (db : Database K) :
    Except EngineError EngineDecision :=
  let scopeKey := scopeKeyFor event
  let payload := eventPayload event scopeKey
  let stableFingerprint := generateFingerprint rt payload
  let bypass := classifyProtectedCritical rt event
  if bypass.shouldBypass then .ok (bypassDecision rt freshId event bypass.reason)
  else match lookupIncident stableFingerprint scopeKey db with
    | none => openDecision rt freshId now event
    | some record =>
        if !isExactDuplicate rt payload record.lastEvent scopeKey then .error nonIdenticalIncident
        else duplicateDecision rt now event record

/-- The fingerprints `persist_and_observe` correlates with: the most recently
ingested active incidents of the scope inside the correlation window. -/
def correlationNeighbourhood (now : ℤ) (scopeKey : String) (db : Database K) : List String :=
  let windowStart := max 0 (now - rt.settings.correlationWindowMs)
  let lastSeen := fun i : Incident => i.lastIngestedAt.getD i.lastAlertAt
  let rows := db.incidents.select fun _ i =>
    i.scopeKey = scopeKey && i.status.active && decide (windowStart ≤ lastSeen i)
  (sqlLimit rt.settings.correlationMaxNeighbours
    (rows.insertionSort fun a b => lastSeen b.2 ≤ lastSeen a.2)).map fun r => r.2.stableFingerprint

variable [Field K] [LinearOrder K]

/-- The storm an incident is in after an alert: a new assignment, or the storm it
already belongs to, refreshed. -/
def regroup (freshGroupId : String) (now : ℤ) (incidentId scopeKey : String) (db : Database K) :
    Option GroupAssignment × Database K :=
  match assignGroup freshGroupId now incidentId scopeKey db with
  | (some assignment, db) => (some assignment, db)
  | (none, db) => refreshGroupForMember now incidentId db

/-- `persist_and_observe`: persist a decision, then derive graph evidence in the same transaction. -/
def persistAndObserve (freshGroupId : String) (now : ℤ) (d : EngineDecision) (db : Database K) :
    Except EngineError (Database K) := do
  let db ← persistDecision rt now d db
  if d.isCriticalBypass then .ok db
  else
    let db ← observeIncident rt d.incidentId (correlationNeighbourhood rt now d.scopeKey db) db
    let (assignment, db) := regroup freshGroupId now d.incidentId d.scopeKey db
    .ok (redirectFor now d.incidentId assignment db)

/-- The transaction of `DbWriter.process_event`: the decision on an event with the
database it commits, or the error that rolled it back. -/
def ingestEvent (freshId freshGroupId : String) (now : ℤ) (event : NormalizedEvent)
    (db : Database K) : Except EngineError (EngineDecision × Database K) := do
  let d ← processEvent rt freshId now event db
  let db ← persistAndObserve rt freshGroupId now d db
  .ok (d, db)

end PulseGraph
