/-
# Inbound actions

`src/inbound/reconcile.py`: a signed callback, or the silence sweeper in its
place, acknowledges or resolves an incident through the same `persist_decision`
as an alert.  The built decision leaves `reopen_count` and the flap fields at
their defaults.
-/

import PulseGraph.Engine.TimerWorker
import PulseGraph.Graph.StormGrouping

namespace PulseGraph

open Library (Json)

variable {K : Type} (rt : Runtime K)

/-- `ExternalAction`. -/
structure ExternalAction where
  inboundId : String
  provider : Provider
  kind : ActionKind
  incidentId : String
  actor : Option String := none
  detail : Option String := none
  payloadSha256 : String := ""
  resolutionSource : String := "operator"

/-- `ReconcileResult`. -/
structure ReconcileResult where
  status : InboundStatus
  incidentId : Option String := none
  fromState : Option IncidentState := none
  toState : Option IncidentState := none
  detail : Option String := none
  deriving DecidableEq

/-- `changed`. -/
def ReconcileResult.changed (r : ReconcileResult) : Bool := r.status = .applied

/-- An action's kind as a payload spells it. -/
def ActionKind.text : ActionKind → String
  | .acknowledge => "acknowledge"
  | .resolve => "resolve"
  | .other name => name

/-- `_TRIGGER_FOR_KIND`. -/
def triggerForKind : ActionKind → Option Trigger
  | .acknowledge => some .ACKNOWLEDGE
  | .resolve => some .RESOLVE
  | .other _ => none

/-- `already_seen`. -/
def alreadySeen (inboundId : String) (db : Database K) : Bool :=
  (db.inboundEvents.find? inboundId).isSome

/-- `record_inbound`. -/
def recordInbound (now : ℤ) (action : ExternalAction) (status : InboundStatus)
    (detail : Option String) (db : Database K) : Database K :=
  { db with
    inboundEvents := db.inboundEvents.insert action.inboundId
      { provider := action.provider
        kind := action.kind
        incidentId := action.incidentId
        actor := action.actor
        status := status
        detail := detail
        payloadSha256 := action.payloadSha256
        receivedAt := now } }

/-- `_load_incident`: an incident with its newest ledger row. -/
def loadIncident (incidentId : String) (db : Database K) : Option (Incident × Option RawEvent) :=
  (db.incidents.find? incidentId).map fun i => (i, db.latestEvent incidentId)

/-- `message` of the synthetic event; a `system` action must carry a detail, or
the event does not validate. -/
def externalMessage (action : ExternalAction) : Except EngineError String :=
  if action.provider = .system then
    match action.detail with
    | some detail => .ok detail
    | none => .error (.validationError "message: Input should be a valid string")
  else
    let verb := if action.kind = .acknowledge then "acknowledged" else "resolved"
    .ok ("Incident " ++ verb ++ " in " ++ action.provider.text ++
      match action.actor with
      | some actor => if actor = "" then "" else " by " ++ actor
      | none => "")

/-- The synthetic event of an external action. -/
def externalEvent (freshEventId : String) (i : Incident) (latest : Option RawEvent)
    (action : ExternalAction) (message : String) : NormalizedEvent where
  eventId := freshEventId
  fingerprint := "external:" ++ action.provider.text ++ ":" ++ action.inboundId
  source := .generic
  service := orDefault (latest.map (·.service)) "pulsegraph-engine"
  alertname := orDefault (latest.map (·.alertname)) "ExternalAction"
  severityRaw := orDefault (latest.map (·.severityRaw)) i.severity.text
  status := if action.kind = .resolve then .resolved else .firing
  labels := (latest.map (·.labels)).getD Labels.empty
  message := message
  firedAt := DateTime.ofIsoMs i.lastAlertAt
  rawPayload := [("kind", .str "EXTERNAL_ACTION"), ("provider", .str action.provider.text),
    ("action", .str action.kind.text), ("actor", Json.optStr action.actor),
    ("inbound_id", .str action.inboundId), ("incident_id", .str action.incidentId)]

/-- The intents of an external action: every channel except the one the human acted in. -/
def externalIntents (action : ExternalAction) (next : IncidentState) : List DeliveryIntent :=
  let payload : Payload :=
    { incidentId := some action.incidentId
      state := some next
      acknowledgedBy := action.actor
      via := some action.provider
      resolutionSource :=
        if action.resolutionSource ≠ "operator" then some action.resolutionSource else none }
  ([.slack, .pagerduty].filter fun channel => channel.text ≠ action.provider.text).map fun channel =>
    { channel := channel
      action := if action.kind = .resolve then .resolve else .update
      idempotencyKey := "external:" ++ action.inboundId ++ ":" ++ channel.text
      payload := payload }

/-- `_build_decision`: turn a human action into a first-class engine decision. -/
def buildDecision (freshEventId : String) (i : Incident) (latest : Option RawEvent)
    (action : ExternalAction) (next : IncidentState) : Except EngineError EngineDecision := do
  let message ← externalMessage action
  .ok
    { event := externalEvent freshEventId i latest action message
      incidentId := action.incidentId
      state := next
      isDuplicate := true
      severityFinal := i.severity
      alertCount := i.alertCount
      title := i.title
      summary := i.summary
      scopeKey := i.scopeKey
      stableFingerprint := i.stableFingerprint
      quietAtMs := none
      ewmaMeanGap := i.ewmaMeanGap
      ewmaVariance := i.ewmaVariance
      gapHistory := i.gapHistory
      cardChanges := ["STATE_" ++ i.status.text ++ "_TO_" ++ next.text]
      decisionPayload := .obj [("event_id", .str freshEventId),
        ("incident_id", .str action.incidentId), ("external_action", .str action.kind.text),
        ("provider", .str action.provider.text), ("actor", Json.optStr action.actor),
        ("state", .str next.text)]
      deliveryIntents := externalIntents action next
      rootCauseHint := i.rootCauseHint }

/-- The provenance `apply_external_action` writes: each field keeps its first value. -/
def stampAction (now : ℤ) (action : ExternalAction) (i : Incident) : Incident :=
  if action.kind = .acknowledge then
    { i with
      acknowledgedAt := i.acknowledgedAt.or (some now)
      acknowledgedBy := i.acknowledgedBy.or action.actor
      acknowledgedVia := i.acknowledgedVia.or (some action.provider) }
  else
    { i with
      resolvedAt := i.resolvedAt.or (some now)
      resolvedVia := i.resolvedVia.or (some action.provider)
      resolutionSource := i.resolutionSource.or (some action.resolutionSource)
      resolutionDetail := i.resolutionDetail.or action.detail }

variable [Field K] [LinearOrder K]

/-- What `apply_external_action` does once the decision is persisted. -/
def settleAction (now : ℤ) (action : ExternalAction) (current next : IncidentState)
    (db : Database K) : Database K :=
  let db := { db with incidents := db.incidents.modify action.incidentId (stampAction now action) }
  let refreshed := refreshGroupForMember now action.incidentId db
  let db := redirectFor now action.incidentId refreshed.1 refreshed.2
  recordInbound now action .applied (some (current.text ++ " -> " ++ next.text)) db

/-- `apply_external_action`: apply one signed provider callback. -/
def applyExternalAction (freshEventId : String) (now : ℤ) (action : ExternalAction)
    (db : Database K) : Except EngineError (ReconcileResult × Database K) :=
  if alreadySeen action.inboundId db then
    .ok ({ status := .duplicate, incidentId := action.incidentId, detail := "replayed" }, db)
  else match triggerForKind action.kind with
    | none =>
        .ok ({ status := .ignored, incidentId := action.incidentId, detail := "unknown kind" },
          recordInbound now action .ignored (some ("unknown kind: " ++ action.kind.text)) db)
    | some trigger =>
        match loadIncident action.incidentId db with
        | none =>
            .ok ({ status := .ignored, incidentId := action.incidentId, detail := "unknown incident" },
              recordInbound now action .ignored (some "unknown incident") db)
        | some (i, latest) =>
            match transitionState i.status trigger with
            | none =>
                .ok ({ status := .ignored, incidentId := action.incidentId, fromState := i.status,
                       toState := i.status, detail := "no-op" },
                  recordInbound now action .ignored (some ("no transition from " ++ i.status.text)) db)
            | some next => do
                let d ← buildDecision freshEventId i latest action next
                let db ← persistDecision rt now d db
                .ok ({ status := .applied, incidentId := action.incidentId, fromState := i.status,
                       toState := next },
                  settleAction now action i.status next db)

end PulseGraph
