/-
# The database

`src/db/schema.sql`: one record per table, without the columns no modelled
statement reads or writes, and `Database`, the tables together.  `raw_events`
is kept newest row first, so `ORDER BY seq DESC LIMIT 1` is the head; every
other table is a `Library.Table` under its primary key.  Graph weights live in
an ordered field `K`.
-/

import PulseGraph.Contracts
import PulseGraph.Library.Table

namespace PulseGraph

open Library (Table Json)

/-- A row of `incidents`, under its `incident_id`. -/
structure Incident where
  scopeKey : String
  stableFingerprint : String
  title : String
  summary : Option String
  severity : Severity
  status : IncidentState
  alertCount : ℕ
  firstAlertAt : ℤ
  lastAlertAt : ℤ
  firstIngestedAt : Option ℤ
  lastIngestedAt : Option ℤ
  ewmaRate : ℚ
  quietAtMs : Option ℤ
  ewmaMeanGap : ℚ
  ewmaVariance : ℚ
  gapHistory : List ℚ
  routeDecision : Channel
  rootCauseHint : Option String
  correlationGroupId : Option String := none
  reopenCount : ℕ
  flappingSince : Option ℤ := none
  lastFlapNotifiedAt : Option ℤ := none
  acknowledgedAt : Option ℤ := none
  acknowledgedBy : Option String := none
  acknowledgedVia : Option Provider := none
  resolvedAt : Option ℤ := none
  resolvedVia : Option Provider := none
  resolutionSource : Option String := none
  resolutionDetail : Option String := none
  createdAt : ℤ
  updatedAt : ℤ

/-- A row of `raw_events`, the hash-chained ledger. -/
structure RawEvent where
  eventId : String
  seq : ℕ
  fingerprint : String
  stableFingerprint : String
  scopeKey : String
  source : Source
  service : String
  alertname : String
  severityRaw : String
  status : EventStatus
  labels : Labels
  message : String
  firedAt : ℤ
  ingestedAt : ℤ
  rawPayload : List (String × Json)
  prevHash : String
  rowHash : String
  incidentId : String
  isDuplicate : Bool
  bypassed : Bool
  bypassReason : Option String
  decisionPayload : Json

/-- `outbox.status`. -/
inductive OutboxStatus where
  | pending | sent | dead | superseded
  deriving DecidableEq, Repr

/-- A row of `outbox`, under its `outbox_id`. -/
structure OutboxRow where
  incidentId : String
  channel : Channel
  action : Action
  payload : Payload
  status : OutboxStatus := .pending
  attempts : ℤ := 0
  nextAttemptAt : ℤ
  lastError : Option String := none
  externalRef : Option String := none
  priority : ℤ
  lockedBy : Option String := none
  lockedUntil : Option ℤ := none
  supersededBy : Option ℕ := none
  failoverOf : Option ℕ := none
  originChannel : Channel
  createdAt : ℤ
  sentAt : Option ℤ := none

/-- A row of `incident_groups`, under its `group_id`. -/
structure IncidentGroup where
  scopeKey : String
  anchorIncidentId : String
  rootIncidentId : Option String := none
  title : String := ""
  severity : Severity := .medium
  memberCount : ℕ := 1
  status : IncidentState := .OPEN
  createdAt : ℤ
  updatedAt : ℤ

/-- A row of `edges`, under its source and target incident. -/
structure Edge (K : Type) where
  weight : K
  lastSeenAt : ℤ

/-- A row of `graph_node_stats`, under its incident. -/
structure NodeStats (K : Type) where
  scopeKey : String
  observations : K
  lastObservedAt : ℤ

/-- A row of `graph_scope_stats`, under its scope. -/
structure ScopeStats (K : Type) where
  rounds : K
  lastObservedAt : ℤ
  observedRevision : ℕ
  rankedRevision : ℕ := 0

/-- A row of `source_clock_skew`, under its source and scope. -/
structure ClockSkew where
  lastSkewMs : ℤ
  maxAbsSkewMs : ℤ
  samples : ℕ
  updatedAt : ℤ

/-- How an inbound callback was settled. -/
inductive InboundStatus where
  | applied | duplicate | ignored | rejected
  deriving DecidableEq, Repr

/-- What an inbound callback asks for; the handlers know two kinds. -/
inductive ActionKind where
  | acknowledge | resolve | other (name : String)
  deriving DecidableEq, Repr

/-- A row of `inbound_events`, under its `inbound_id`. -/
structure InboundEvent where
  provider : Provider
  kind : ActionKind
  incidentId : String
  actor : Option String
  status : InboundStatus
  detail : Option String
  payloadSha256 : String
  receivedAt : ℤ

/-- A row of `delivery_intents`, under its idempotency key. -/
structure DeliveryIntentRow where
  incidentId : String
  eventId : String
  channel : Channel
  action : Action
  payload : Payload

/-- `channel_health.state`. -/
inductive BreakerState where
  | CLOSED | OPEN | HALF_OPEN
  deriving DecidableEq, Repr

/-- A row of `channel_health`, under its channel. -/
structure ChannelHealth where
  state : BreakerState := .CLOSED
  consecutiveFailures : ℤ := 0
  probeBackoffStep : ℕ := 0
  openedAt : Option ℤ := none
  nextProbeAt : Option ℤ := none
  lastSuccessAt : Option ℤ := none
  lastFailureAt : Option ℤ := none
  lastError : Option String := none
  outageCount : ℕ := 0
  updatedAt : ℤ

/-- A row of `channel_outages`, under its `outage_id`. -/
structure ChannelOutage where
  channel : Channel
  detectedAt : ℤ
  recoveredAt : Option ℤ := none
  probeAttempts : ℕ := 0
  queuedAtPeak : ℕ := 0
  failedOver : ℕ := 0
  lastError : Option String := none

/-- The tables. -/
structure Database (K : Type) where
  incidents : Table String Incident := Table.empty
  rawEvents : List RawEvent := []
  outbox : Table ℕ OutboxRow := Table.empty
  incidentGroups : Table String IncidentGroup := Table.empty
  edges : Table (String × String) (Edge K) := Table.empty
  nodeStats : Table String (NodeStats K) := Table.empty
  scopeStats : Table String (ScopeStats K) := Table.empty
  clockSkew : Table (Source × String) ClockSkew := Table.empty
  inboundEvents : Table String InboundEvent := Table.empty
  deliveryIntents : Table String DeliveryIntentRow := Table.empty
  channelHealth : Table Channel ChannelHealth := Table.empty
  channelOutages : Table ℕ ChannelOutage := Table.empty

/-- A freshly created database. -/
def Database.empty {K : Type} : Database K := {}

variable {K : Type}

/-- The newest ledger row of an incident:
`WHERE incident_id = ? ORDER BY seq DESC LIMIT 1`. -/
def Database.latestEvent (db : Database K) (incidentId : String) : Option RawEvent :=
  db.rawEvents.find? fun r => r.incidentId = incidentId

/-- The first row under a priority order: `ORDER BY … LIMIT 1`, the earlier row
of two that compare equal. -/
def firstBy {α : Type*} (before : α → α → Bool) : List α → Option α
  | [] => none
  | x :: xs => match firstBy before xs with
    | none => some x
    | some y => some (if before y x then y else x)

theorem firstBy_mem {α : Type*} {before : α → α → Bool} {x : α} :
    ∀ {xs : List α}, firstBy before xs = some x → x ∈ xs
  | y :: ys, h => by
      rw [firstBy] at h
      split at h
      · exact List.mem_cons.2 (.inl (Option.some.inj h).symm)
      · next z hz =>
          obtain rfl := Option.some.inj h
          split_ifs
          · exact List.mem_cons_of_mem _ (firstBy_mem hz)
          · exact List.mem_cons_self

theorem firstBy_eq_none {α : Type*} {before : α → α → Bool} :
    ∀ {xs : List α}, firstBy before xs = none ↔ xs = []
  | [] => by simp [firstBy]
  | y :: ys => by rw [firstBy]; split <;> simp

end PulseGraph
