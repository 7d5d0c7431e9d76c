/-
# Settings and the standard library functions the model takes as given

`src/config.py` with its defaults, and `Runtime`: the settings of a deployment
together with the functions of Python's standard library that the model does not
define: SHA-256, the Unicode case maps and `strip`, and the exponential of the
half-life decay, over any ordered field of weights.  Every theorem holds for any
`Runtime`; `Runtime.reference` is one to compute with.
-/

import Mathlib.Data.Rat.Floor
import Mathlib.Algebra.Order.Field.Basic

namespace PulseGraph

/-- The settings the modelled functions read, with the source's defaults. -/
structure Settings where
  outboxMaxAttempts : ℤ := 5
  outboxBreakerFailureThreshold : ℤ := 3
  outboxProbeBaseSeconds : ℚ := 5
  outboxProbeMaxSeconds : ℚ := 120
  outboxHalfOpenAllowance : ℤ := 3
  outboxLeaseSeconds : ℚ := 60
  outboxBatchSize : ℤ := 10
  quietWindowMaxMs : ℤ := 300000
  incidentMaxBatchSpanMs : ℤ := 600000
  correlationWindowMs : ℤ := 900000
  correlationMaxNeighbours : ℤ := 25
  silenceResolveMultiplier : ℚ := 6
  silenceResolveCriticalMultiplier : ℚ := 20
  silenceResolveMinMs : ℤ := 900000
  silenceResolveMaxMs : ℤ := 21600000
  flapDampingEnabled : Bool := true
  flapReopenThreshold : ℤ := 3
  flapDigestIntervalSeconds : ℚ := 1800
  flapHysteresisFactor : ℚ := 3 / 2
  flapHysteresisMaxReopens : ℤ := 6

/-- A deployment: its settings and the library functions the code calls. -/
structure Runtime (K : Type) where
  settings : Settings
  /-- `hashlib.sha256(text.encode("utf-8")).hexdigest()`. -/
  sha256 : String → String
  /-- `str.lower`. -/
  lower : String → String
  /-- `str.upper`. -/
  upper : String → String
  /-- `str.strip`. -/
  strip : String → String
  /-- `math.exp(-math.log(2.0) * elapsed_ms / half_life_ms)`. -/
  halving : K → K → K

/-- A runtime to compute with: the default settings, ASCII case maps and blanks,
a collision-free hash (the text itself), and no decay between equal instants
(weights a positive time apart are forgotten). -/
def Runtime.reference : Runtime ℚ where
  settings := {}
  sha256 := id
  lower s := String.ofList (s.toList.map Char.toLower)
  upper s := String.ofList (s.toList.map Char.toUpper)
  strip s := String.ofList ((s.toList.dropWhile Char.isWhitespace).reverse.dropWhile
    Char.isWhitespace).reverse
  halving elapsed _ := if elapsed = 0 then 1 else 0

/-- `LIMIT n` of a query: a negative bound is no bound. -/
def sqlLimit {α : Type*} (n : ℤ) (rows : List α) : List α := if n < 0 then rows else rows.take n.toNat

theorem sqlLimit_sublist {α : Type*} (n : ℤ) (rows : List α) : (sqlLimit n rows).Sublist rows := by
  unfold sqlLimit; split_ifs
  · exact List.Sublist.refl _
  · exact List.take_sublist _ _

/-- A limit the rows do not exceed cuts nothing. -/
theorem sqlLimit_of_le {α : Type*} {n : ℤ} {rows : List α} (h : (rows.length : ℤ) ≤ n) :
    sqlLimit n rows = rows := by
  unfold sqlLimit
  split_ifs with hn
  · rfl
  · exact List.take_of_length_le (by omega)

end PulseGraph
