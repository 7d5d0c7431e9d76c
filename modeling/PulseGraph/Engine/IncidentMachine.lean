/-
# The incident lifecycle

`src/engine/incident_machine.py`: the transition table and `transition_state`.
`OPEN` is entered by `REOPEN` alone, `RESOLVED` is left by `REOPEN` alone, and
`ACKNOWLEDGE` has an edge from `OPEN` alone.
-/

import PulseGraph.Contracts

namespace PulseGraph

/-- The triggers of `_TRANSITIONS`. -/
inductive Trigger where
  | ACKNOWLEDGE | QUIET_TIMEOUT | QUIET_DEADLINE | RESOLVE | REOPEN
  deriving DecidableEq, Repr

/-- `transition_state`: the next strict lifecycle state, or `none` when invalid. -/
def transitionState : IncidentState → Trigger → Option IncidentState
  | .OPEN, .ACKNOWLEDGE => some .ACKNOWLEDGED
  | .ACKNOWLEDGED, .QUIET_TIMEOUT => some .QUIESCENT
  | .ACKNOWLEDGED, .QUIET_DEADLINE => some .QUIESCENT
  | .OPEN, .RESOLVE => some .RESOLVED
  | .ACKNOWLEDGED, .RESOLVE => some .RESOLVED
  | .QUIESCENT, .RESOLVE => some .RESOLVED
  | .RESOLVED, .REOPEN => some .OPEN
  | _, _ => none

/-- An acknowledgement has an edge from `OPEN` alone. -/
theorem transitionState_acknowledge {s s' : IncidentState} :
    transitionState s .ACKNOWLEDGE = some s' ↔ s = .OPEN ∧ s' = .ACKNOWLEDGED := by
  cases s <;> simp [transitionState, eq_comm]

/-- A quiet deadline has an edge from `ACKNOWLEDGED` alone. -/
theorem transitionState_quietDeadline {s s' : IncidentState} :
    transitionState s .QUIET_DEADLINE = some s' ↔ s = .ACKNOWLEDGED ∧ s' = .QUIESCENT := by
  cases s <;> simp [transitionState, eq_comm]

/-- Every active state resolves, and only those. -/
theorem transitionState_resolve {s s' : IncidentState} :
    transitionState s .RESOLVE = some s' ↔ s ≠ .RESOLVED ∧ s' = .RESOLVED := by
  cases s <;> simp [transitionState, eq_comm]

end PulseGraph
