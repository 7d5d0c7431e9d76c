/-
# The PagerDuty channel

`src/outbox/pagerduty.py`: the Events API request of an outbox row.  The provider's
answer is not computed: a call ends with a reference or an exception.
-/

import PulseGraph.Contracts
import PulseGraph.Outbox.FailurePolicy

namespace PulseGraph

/-- `event_action`. -/
inductive EventAction where
  | trigger | acknowledge | resolve
  deriving DecidableEq, Repr

/-- `_SEVERITY_MAP` of the PagerDuty channel. -/
def pagerdutySeverity : Severity → String
  | .critical => "critical"
  | .high => "error"
  | .medium => "warning"
  | .low => "info"

/-- `_ACTION_MAP`. -/
def pagerdutyAction : Action → Option EventAction
  | .create => some .trigger
  | .update => some .acknowledge
  | .resolve => some .resolve
  | .trigger => none

/-- `custom_details`. -/
structure CustomDetails where
  summary : Option String
  alertCount : Option ℕ
  rootCauseHint : Option String
  state : Option IncidentState
  failoverFrom : Option Channel
  dashboardIncidentId : Option String
  deriving DecidableEq

/-- The `payload` of a trigger. -/
structure EventBody where
  summary : String
  source : String
  severity : String
  timestamp : Option ℤ
  customDetails : CustomDetails
  deriving DecidableEq

/-- `_build_event_payload`. -/
def buildEventPayload (payload : Payload) : EventBody where
  summary := match payload.failoverFrom with
    | some channel => "[" ++ channel.text ++ " unreachable] " ++ payload.title.getD "Incident"
    | none => payload.title.getD "Incident"
  source := payload.service.getD "unknown"
  severity := pagerdutySeverity (payload.severity.getD .critical)
  timestamp := payload.timestamp
  customDetails :=
    { summary := payload.summary
      alertCount := payload.alertCount
      rootCauseHint := payload.rootCauseHint
      state := payload.state
      failoverFrom := payload.failoverFrom
      dashboardIncidentId := payload.incidentId }

/-- The body of a request, without the routing key. -/
structure PagerDutyRequest where
  eventAction : EventAction
  dedupKey : Option String
  payload : Option EventBody := none
  deriving DecidableEq

/-- `send`, up to the request it posts. -/
def pagerdutyRequest (action : Action) (payload : Payload) (externalRef : Option String) :
    Except Exc PagerDutyRequest :=
  match pagerdutyAction action with
  | none => .error (.other "ValueError")
  | some eventAction => .ok
      { eventAction := eventAction
        dedupKey := (externalRef.filter (· ≠ "")).or payload.incidentId
        payload := if eventAction = .trigger then some (buildEventPayload payload) else none }

end PulseGraph
