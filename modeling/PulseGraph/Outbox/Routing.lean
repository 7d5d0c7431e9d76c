/-
# Severity-driven priority and failover routing

`src/outbox/routing.py`: the drain order of a row, whether an outage of its
channel is worth a fallback, and which fallback is taken.
-/

import PulseGraph.Contracts

namespace PulseGraph

/-- `PRIORITY_BY_SEVERITY`; lower drains first. -/
def priorityBySeverity : Severity → ℤ
  | .critical => 0
  | .high => 1
  | .medium => 2
  | .low => 3

/-- `DEFAULT_PRIORITY`. -/
def defaultPriority : ℤ := priorityBySeverity .medium

/-- `FAILOVER_MIN_PRIORITY`. -/
def failoverMinPriority : ℤ := priorityBySeverity .high

/-- `FAILOVER_CHAIN`: ordered fallbacks per primary channel. -/
def failoverChain : Channel → List Channel
  | .slack => [.pagerduty, .email]
  | .pagerduty => [.slack, .email]
  | .email => []

/-- `priority_for`. -/
def priorityFor (severity : Option Severity) : ℤ := (severity.map priorityBySeverity).getD defaultPriority

/-- `is_failover_worthy`. -/
def isFailoverWorthy (priority : ℤ) : Bool := decide (priority ≤ failoverMinPriority)

/-- `FailoverTarget`. -/
structure FailoverTarget where
  channel : Channel
  action : Action
  deriving DecidableEq, Repr

/-- `_translate_action`: map an intent onto what the target channel can express. -/
def translateAction (channel : Channel) (action : Action) : Action :=
  if channel = .pagerduty ∧ action = .update then .create else action

/-- `select_failover`: pick the first healthy fallback for a channel that is down. -/
def selectFailover (originChannel : Channel) (action : Action) (available : Channel → Bool) :
    Option FailoverTarget :=
  ((failoverChain originChannel).find? available).map fun candidate =>
    ⟨candidate, translateAction candidate action⟩

/-- A channel is never its own fallback. -/
theorem selectFailover_ne {c : Channel} {a : Action} {available : Channel → Bool}
    {t : FailoverTarget} (h : selectFailover c a available = some t) : t.channel ≠ c := by
  obtain ⟨d, hd, rfl⟩ := Option.map_eq_some_iff.1 h
  have hmem : d ∈ failoverChain c := List.mem_of_find?_eq_some hd
  rintro rfl
  cases d <;> simp [failoverChain] at hmem

/-- What is failed over to PagerDuty is never an edit. -/
theorem translateAction_pagerduty (a : Action) : translateAction .pagerduty a ≠ .update := by
  cases a <;> decide

end PulseGraph
