/-
# The protected-critical bypass

`src/engine/critical_bypass.py`: `classify_protected_critical` reads the raw
severity, the `priority` label and the text of an event, in this order, and never
its status.
-/

import PulseGraph.Config
import PulseGraph.Contracts
import Mathlib.Data.List.Infix

namespace PulseGraph

variable {K : Type} (rt : Runtime K)

/-- `CriticalBypassDecision`. -/
structure CriticalBypassDecision where
  shouldBypass : Bool
  reason : Option String := none
  deriving DecidableEq, Repr

/-- `_event_text`. -/
def eventText (event : NormalizedEvent) : String :=
  let parts := [event.service, event.alertname, event.message] ++
    event.labels.items.map fun kv => kv.1 ++ "=" ++ kv.2
  rt.lower (" ".intercalate parts)

/-- `_has_any`. -/
def hasAny (text : String) (tokens : List String) : Bool :=
  tokens.any fun token => decide (token.toList <:+: text.toList)

/-- `classify_protected_critical`: emergencies that must never enter dedupe or EWMA filtering. -/
def classifyProtectedCritical (event : NormalizedEvent) : CriticalBypassDecision :=
  if rt.lower event.severityRaw = "critical" then ⟨true, some "SEVERITY_CRITICAL"⟩
  else if rt.upper ((event.labels.get? "priority").getD "") = "P0" then ⟨true, some "PRIORITY_P0"⟩
  else
    let text := eventText rt event
    if hasAny text ["payment", "billing", "checkout"] &&
        hasAny text ["failure", "failed", "declined", "error"] then
      ⟨true, some "PAYMENT_FAILURE"⟩
    else if hasAny text ["auth", "authentication", "login", "identity"] &&
        hasAny text ["outage", "unavailable", "failure", "failed", "down"] then
      ⟨true, some "AUTH_OUTAGE"⟩
    else if hasAny text ["data", "database", "storage", "backup", "replication"] &&
        hasAny text ["loss", "corrupt", "deleted", "destroyed"] then
      ⟨true, some "DATA_LOSS"⟩
    else ⟨false, none⟩

/-- The classification names a reason exactly when it bypasses. -/
theorem classifyProtectedCritical_reason (event : NormalizedEvent) :
    (classifyProtectedCritical rt event).reason.isSome =
      (classifyProtectedCritical rt event).shouldBypass := by
  unfold classifyProtectedCritical
  dsimp only
  split_ifs <;> rfl

/-- **The classification does not see the status**, the event id, the clock or the
source: two events with the same words are classified alike. -/
theorem classifyProtectedCritical_congr {a b : NormalizedEvent} (hs : a.service = b.service)
    (hn : a.alertname = b.alertname) (hm : a.message = b.message)
    (hr : a.severityRaw = b.severityRaw) (hl : a.labels = b.labels) :
    classifyProtectedCritical rt a = classifyProtectedCritical rt b := by
  have ht : eventText rt a = eventText rt b := by
    rw [eventText, eventText, hs, hn, hm, hl]
  rw [classifyProtectedCritical, classifyProtectedCritical, ht, hr, hl]

end PulseGraph
