/-
# Classifying a failed delivery

`src/outbox/failure_policy.py`: what a raised exception says about the row, the
request or the channel.  A delay in seconds is a float the provider may choose
freely, so the values that are no number are kept apart: adding one to an instant
raises (`instantAfter`).
-/

import PulseGraph.Contracts
import PulseGraph.Config

namespace PulseGraph

/-! ## Delays -/

/-- A float of seconds. -/
inductive Seconds where
  | finite (q : ℚ)
  | posInf | negInf | nan
  deriving DecidableEq

/-- Python's truth value of a float: everything but zero. -/
def Seconds.truthy : Seconds → Bool
  | .finite q => decide (q ≠ 0)
  | _ => true

/-- The nearest integer, ties to the even one. -/
def roundHalfEven (q : ℚ) : ℤ :=
  let n := ⌊q⌋
  if q - n < 1 / 2 then n
  else if 1 / 2 < q - n then n + 1
  else if n % 2 = 0 then n else n + 1

/-- `timedelta(seconds=…)` in microseconds; raises on what is no number and on more
than 999999999 days. -/
def timedeltaUs : Seconds → Option ℤ
  | .finite q =>
      let us := roundHalfEven (q * 1000000)
      if -999999999 ≤ us / 86400000000 ∧ us / 86400000000 ≤ 999999999 then some us else none
  | _ => none

/-- The first instant of a `datetime`, in the year 1. -/
def minInstant : ℤ := -62135596800000

/-- The instant after the last one, of the year 9999. -/
def endOfTime : ℤ := 253402300800000

/-- `_iso(now + timedelta(seconds=…))`; raises where the delay or the sum is out of range. -/
def instantAfter (now : ℤ) (delay : Seconds) : Option ℤ :=
  (timedeltaUs delay).bind fun us =>
    let t := now + us / 1000
    if minInstant ≤ t ∧ t < endOfTime then some t else none

/-- An instant a number of seconds after another, for a delay of the settings. -/
def secondsAfter (now : ℤ) (q : ℚ) : ℤ := now + roundHalfEven (q * 1000000) / 1000

/-! ## Exceptions and verdicts -/

/-- `FailureKind`: what a failed delivery says about the world. -/
inductive FailureKind where
  | MESSAGE_FATAL | CHANNEL_DOWN | TRANSIENT
  deriving DecidableEq, Repr

/-- `FailureVerdict`. -/
structure FailureVerdict where
  kind : FailureKind
  reason : String
  retryAfterSeconds : Option Seconds := none
  deriving DecidableEq

/-- `counts_against_attempts`. -/
def FailureVerdict.countsAgainstAttempts (v : FailureVerdict) : Bool := v.kind = .MESSAGE_FATAL

/-- `trips_breaker`. -/
def FailureVerdict.tripsBreaker (v : FailureVerdict) : Bool := v.kind = .CHANNEL_DOWN

/-- A response's status and its `Retry-After` header: absent, a text `float` does not
accept, or the seconds `float` reads. -/
structure Response where
  statusCode : ℤ
  retryAfter : Option (Option Seconds) := none
  deriving DecidableEq

/-- What a dispatcher or a probe can raise: the three exceptions of the module, the two
of `httpx` it tells apart, and any other under its type's name. -/
inductive Exc where
  | channelUnavailable (reason : String) (retryAfterSeconds : Option Seconds)
  | messageRejected (reason : String)
  | rateLimited (retryAfterSeconds : Seconds)
  | transportError (typeName : String)
  | httpStatusError (response : Response)
  | other (typeName : String)
  deriving DecidableEq

/-- `_retry_after`. -/
def retryAfterOf (response : Response) : Option Seconds := response.retryAfter.bind id

/-- `classify`: map a raised exception onto what it implies about the channel. -/
def classify : Exc → FailureVerdict
  | .channelUnavailable reason retryAfterSeconds => ⟨.CHANNEL_DOWN, reason, retryAfterSeconds⟩
  | .messageRejected reason => ⟨.MESSAGE_FATAL, reason, none⟩
  | .rateLimited retryAfterSeconds => ⟨.TRANSIENT, "rate_limited", some retryAfterSeconds⟩
  | .transportError typeName => ⟨.CHANNEL_DOWN, "transport:" ++ typeName, none⟩
  | .httpStatusError response =>
      let status := response.statusCode
      if status = 429 then ⟨.TRANSIENT, "http:429", retryAfterOf response⟩
      else if status = 401 ∨ status = 403 then ⟨.CHANNEL_DOWN, "http:" ++ toString status, none⟩
      else if 500 ≤ status ∧ status < 600 then
        ⟨.CHANNEL_DOWN, "http:" ++ toString status, retryAfterOf response⟩
      else if 400 ≤ status ∧ status < 500 then ⟨.MESSAGE_FATAL, "http:" ++ toString status, none⟩
      else ⟨.TRANSIENT, "unknown:HTTPStatusError", none⟩
  | .other typeName => ⟨.TRANSIENT, "unknown:" ++ typeName, none⟩

/-- `_SLACK_MESSAGE_FATAL`. -/
def slackMessageFatal : List String :=
  ["invalid_blocks", "invalid_blocks_format", "msg_too_long", "no_text", "channel_not_found",
    "is_archived", "not_in_channel", "message_not_found", "cant_update_message",
    "edit_window_closed"]

/-- `_SLACK_CHANNEL_DOWN`. -/
def slackChannelDown : List String :=
  ["token_revoked", "token_expired", "invalid_auth", "not_authed", "account_inactive",
    "service_unavailable", "fatal_error", "internal_error", "ratelimited"]

/-- `classify_slack_error`: classify a Slack `ok: false` response body error code. -/
def classifySlackError (errorCode : String) : FailureVerdict :=
  if errorCode ∈ slackMessageFatal then ⟨.MESSAGE_FATAL, "slack:" ++ errorCode, none⟩
  else if errorCode ∈ slackChannelDown then ⟨.CHANNEL_DOWN, "slack:" ++ errorCode, none⟩
  else ⟨.TRANSIENT, "slack:" ++ errorCode, none⟩

/-- `reason[:1000]`. -/
def clip (reason : String) : String := String.ofList (reason.toList.take 1000)

end PulseGraph
