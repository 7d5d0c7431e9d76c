/-
# The records the engine, the ledger and the outbox exchange

`src/contracts.py`: `NormalizedEvent`, `DeliveryIntent`, `EngineDecision`, and the
values they are made of.  An enumeration of the source is an inductive type; a
JSON payload whose keys the program reads is a record of optional fields, a field
being `none` where the key is absent; a timestamp stored as ISO text with
milliseconds is the integer of those milliseconds since the epoch.
-/

import PulseGraph.Library.Json
import Mathlib.Data.Rat.Floor

namespace PulseGraph

open Library (Json)

/-- `IncidentState`. -/
inductive IncidentState where
  | OPEN | ACKNOWLEDGED | QUIESCENT | RESOLVED
  deriving DecidableEq, Repr

/-- `_ACTIVE_STATES`: every state but `RESOLVED`. -/
def IncidentState.active (s : IncidentState) : Bool := s != .RESOLVED

@[simp] theorem IncidentState.active_eq_true {s : IncidentState} :
    s.active = true ↔ s ≠ .RESOLVED := by cases s <;> decide

@[simp] theorem IncidentState.active_eq_false {s : IncidentState} :
    s.active = false ↔ s = .RESOLVED := by cases s <;> decide

/-- The text of a state in a card or a ledger payload. -/
def IncidentState.text : IncidentState → String
  | .OPEN => "OPEN"
  | .ACKNOWLEDGED => "ACKNOWLEDGED"
  | .QUIESCENT => "QUIESCENT"
  | .RESOLVED => "RESOLVED"

/-- `Severity`. -/
inductive Severity where
  | critical | high | medium | low
  deriving DecidableEq, Repr

/-- `DeliveryIntent.channel`, and the channels the worker knows. -/
inductive Channel where
  | slack | pagerduty | email
  deriving DecidableEq, Repr

/-- `DeliveryIntent.action`; an outbox row holds any but `trigger`. -/
inductive Action where
  | create | update | resolve | trigger
  deriving DecidableEq, Repr

/-- `NormalizedEvent.source`. -/
inductive Source where
  | prometheus | datadog | grafana | generic
  deriving DecidableEq, Repr

/-- `NormalizedEvent.status`. -/
inductive EventStatus where
  | firing | resolved
  deriving DecidableEq, Repr

/-- A source's name as the ledger spells it. -/
def Source.text : Source → String
  | .prometheus => "prometheus"
  | .datadog => "datadog"
  | .grafana => "grafana"
  | .generic => "generic"

/-- A status as the ledger spells it. -/
def EventStatus.text : EventStatus → String
  | .firing => "firing"
  | .resolved => "resolved"

/-- A severity as an incident row spells it. -/
def Severity.text : Severity → String
  | .critical => "critical"
  | .high => "high"
  | .medium => "medium"
  | .low => "low"

/-- An action as an intent's key spells it. -/
def Action.text : Action → String
  | .create => "create"
  | .update => "update"
  | .resolve => "resolve"
  | .trigger => "trigger"

/-- Who an external action comes from: `slack | pagerduty | system`. -/
inductive Provider where
  | slack | pagerduty | system
  deriving DecidableEq, Repr

/-- A channel's or a provider's name as a payload spells it. -/
def Channel.text : Channel → String
  | .slack => "slack"
  | .pagerduty => "pagerduty"
  | .email => "email"

/-- A provider's name as a payload spells it. -/
def Provider.text : Provider → String
  | .slack => "slack"
  | .pagerduty => "pagerduty"
  | .system => "system"

/-- A `datetime`: microseconds since the epoch in UTC and the offset from UTC in
seconds, absent for a naive value, which every reader takes to be UTC. -/
structure DateTime where
  utcUs : ℤ
  utcOffset : Option ℤ
  deriving DecidableEq, Repr

/-- `_iso(value)`: the stored text keeps whole milliseconds, rounding down. -/
def DateTime.isoMs (t : DateTime) : ℤ := t.utcUs / 1000

/-- `int(value.timestamp() * 1000)` in exact arithmetic, rounding towards zero. -/
def DateTime.epochMs (t : DateTime) : ℤ := t.utcUs.tdiv 1000

/-- `datetime.fromisoformat` of a stored timestamp. -/
def DateTime.ofIsoMs (ms : ℤ) : DateTime := ⟨ms * 1000, some 0⟩

/-- A nonnegative number in decimal, padded with zeros to a width. -/
def padded (width n : ℕ) : String :=
  let digits := (Nat.repr n).toList
  String.ofList (List.replicate (width - digits.length) '0' ++ digits)

/-- The civil date `(year, month, day)` of a number of days since the epoch. -/
def civilDate (days : ℤ) : ℤ × ℤ × ℤ :=
  let z := days + 719468
  let era := z / 146097
  let doe := z - era * 146097
  let yoe := (doe - doe / 1460 + doe / 36524 - doe / 146096) / 365
  let doy := doe - (365 * yoe + yoe / 4 - yoe / 100)
  let mp := (5 * doy + 2) / 153
  let m := if mp < 10 then mp + 3 else mp - 9
  (yoe + era * 400 + (if m ≤ 2 then 1 else 0), m, doy - (153 * mp + 2) / 5 + 1)

/-- The text of a `datetime` in `model_dump(mode="json")`: its own local time,
microseconds when there are any, then `Z`, the offset, or nothing when naive. -/
def DateTime.dump (t : DateTime) : String :=
  let localUs := t.utcUs + t.utcOffset.getD 0 * 1000000
  let seconds := localUs / 1000000
  let us := localUs % 1000000
  let (y, m, d) := civilDate (seconds / 86400)
  let s := seconds % 86400
  let zone := match t.utcOffset with
    | none => ""
    | some 0 => "Z"
    | some o => (if o < 0 then "-" else "+") ++ padded 2 (o.natAbs / 3600) ++ ":" ++
        padded 2 (o.natAbs / 60 % 60)
  padded 4 y.toNat ++ "-" ++ padded 2 m.toNat ++ "-" ++ padded 2 d.toNat ++ "T" ++
    padded 2 (s / 3600).toNat ++ ":" ++ padded 2 (s / 60 % 60).toNat ++ ":" ++
    padded 2 (s % 60).toNat ++ (if us = 0 then "" else "." ++ padded 6 us.toNat) ++ zone

example : DateTime.dump ⟨1700000000123000, some 19800⟩ = "2023-11-15T03:43:20.123000+05:30" := by
  decide +kernel

/-- A `dict[str, str]`: items in insertion order, no key twice. -/
structure Labels where
  items : List (String × String)
  nodup : (items.map Prod.fst).Nodup
  deriving DecidableEq

namespace Labels

/-- The empty mapping. -/
def empty : Labels := ⟨[], List.nodup_nil⟩

/-- `labels.get(key)`. -/
def get? (l : Labels) (key : String) : Option String :=
  (l.items.find? fun kv => kv.1 = key).map Prod.snd

/-- The mapping a JSON round trip with `sort_keys=True` gives back: the same
items, by increasing key. -/
def sorted (l : Labels) : Labels :=
  ⟨Json.sortFields l.items,
    ((List.perm_insertionSort _ l.items).map Prod.fst).nodup_iff.2 l.nodup⟩

theorem sorted_perm (l : Labels) : l.sorted.items.Perm l.items := List.perm_insertionSort _ _

end Labels

/-- `NormalizedEvent`. -/
structure NormalizedEvent where
  eventId : String
  fingerprint : String
  source : Source
  service : String
  alertname : String
  severityRaw : String
  status : EventStatus
  labels : Labels
  message : String
  firedAt : DateTime
  rawPayload : List (String × Json)

/-- What a recovery digest reports besides the fallback count. -/
structure RecoveryDigest where
  channel : Channel
  outageStartedAt : ℤ
  recoveredAt : ℤ
  durationSeconds : ℤ
  incidentsTouched : ℕ
  criticalIncidents : ℕ
  resolvedDuringOutage : ℕ
  queuedMessages : ℕ
  collapsedMessages : ℕ

/-- The key `delivered_via_fallback`: on a card the channel that paged in its
place, on a digest the number of alerts a fallback delivered. -/
inductive FallbackMarker where
  | channel (c : Channel)
  | count (n : ℕ)
  deriving DecidableEq

/-- One member on a storm card. -/
structure GroupMember where
  incidentId : String
  title : String
  service : Option String
  severity : Severity
  status : IncidentState
  alertCount : ℕ
  firstAlertAt : ℤ

/-- `group_snapshot`: everything needed to render one storm card. -/
structure GroupSnapshot where
  groupId : String
  anchorIncidentId : String
  rootIncidentId : Option String
  title : String
  severity : Severity
  status : IncidentState
  memberCount : ℕ
  totalAlertCount : ℕ
  members : List GroupMember
  startedAt : ℤ

/-- An outbox payload, with every key that any writer sets or any reader looks up.
`digest` is present exactly when `kind` is `recovery_digest`. -/
structure Payload where
  incidentId : Option String := none
  eventId : Option String := none
  service : Option String := none
  severity : Option Severity := none
  bypassReason : Option String := none
  state : Option IncidentState := none
  alertCount : Option ℕ := none
  cardChange : Option String := none
  acknowledgedBy : Option String := none
  via : Option Provider := none
  resolutionSource : Option String := none
  mergedInto : Option String := none
  failoverFrom : Option Channel := none
  deliveredViaFallback : Option FallbackMarker := none
  digest : Option RecoveryDigest := none
  title : Option String := none
  summary : Option String := none
  rootCauseHint : Option String := none
  firstAlertAt : Option ℤ := none
  timestamp : Option ℤ := none
  flapping : Bool := false
  reopenCount : Option ℕ := none
  group : Option GroupSnapshot := none

/-- `DeliveryIntent`. -/
structure DeliveryIntent where
  channel : Channel
  action : Action
  idempotencyKey : String
  payload : Payload

/-- `EngineDecision`; `decisionPayload` is the value of `decision_payload_json`. -/
structure EngineDecision where
  event : NormalizedEvent
  incidentId : String
  state : IncidentState
  isDuplicate : Bool
  severityFinal : Severity
  alertCount : ℕ
  title : String
  summary : Option String
  scopeKey : String
  stableFingerprint : String
  quietAtMs : Option ℤ := none
  ewmaMeanGap : ℚ := 0
  ewmaVariance : ℚ := 0
  gapHistory : List ℚ := []
  cardChanges : List String := []
  isCriticalBypass : Bool := false
  bypassReason : Option String := none
  decisionPayload : Json := .obj []
  deliveryIntents : List DeliveryIntent := []
  reopenCount : ℕ := 0
  isFlapping : Bool := false
  rootCauseHint : Option String := none

/-- The exceptions a transaction of the engine can raise; each rolls it back. -/
inductive EngineError where
  | valueError (text : String)
  | runtimeError (text : String)
  | validationError (text : String)
  | integrityError (text : String)
  deriving DecidableEq, Repr

end PulseGraph
