/-
# The silence sweeper

`src/engine/silence_sweeper.py`: an active incident that has been silent for its
own threshold is resolved through `apply_external_action`, all candidates of a
sweep in one transaction.  The threshold is computed exactly: the square root of
the variance reaches the program scaled and truncated, in `floorAddSqrt`.
-/

import PulseGraph.Inbound.Reconcile
import PulseGraph.Engine.AdaptiveEwma

namespace PulseGraph

open Library (Table bind_eq_ok mem_mapM_ok)

variable {K : Type} (rt : Runtime K)

/-- `INFERRED_SILENCE`. -/
def inferredSilence : String := "inferred_silence"

/-- `⌊m + √v⌋`: with `k` the integer root of `⌊v⌋` it is `⌊m⌋ + k` or one more. -/
def floorAddSqrt (m v : ℚ) : ℤ :=
  let n := ⌊m⌋ + Nat.sqrt ⌊v⌋₊
  if ((n : ℚ) + 1 - m) ^ 2 ≤ v then n + 1 else n

/-- `int(q)`: truncation towards zero. -/
def truncate (q : ℚ) : ℤ := if 0 ≤ q then ⌊q⌋ else ⌈q⌉

/-- `int((m + √v) * k)` for a nonnegative `m + √v`. -/
def truncateScaled (m v k : ℚ) : ℤ :=
  if 0 ≤ k then floorAddSqrt (m * k) (v * k ^ 2) else -floorAddSqrt (-(m * k)) (v * k ^ 2)

/-- The keyword arguments of `silence_threshold_ms` but `reopen_count`. -/
structure SilenceArguments where
  multiplier : ℚ
  criticalMultiplier : ℚ
  floorMs : ℤ
  ceilingMs : ℤ
  hysteresisFactor : ℚ := 1
  hysteresisMaxReopens : ℤ := 6

/-- `severity_factor`. -/
def SilenceArguments.severityFactor (a : SilenceArguments) (severity : String) : ℚ :=
  if severity = "critical" then a.criticalMultiplier / a.multiplier else 1

/-- `flap_factor`. -/
def SilenceArguments.flapFactor (a : SilenceArguments) (reopenCount : ℤ) : ℚ :=
  max 1 a.hysteresisFactor ^ (max 0 (min reopenCount a.hysteresisMaxReopens)).toNat

/-- `silence_threshold_ms`.  Truncation is monotone, so it is taken of each branch of `max` and
`min`; a negative factor turns the `max` over. -/
def silenceThreshold (a : SilenceArguments) (meanGapMs variance : ℚ) (severity : String)
    (reopenCount : ℤ := 0) : Except EngineError ℤ :=
  if a.multiplier ≤ 0 then
    .error (.valueError "multiplier must be greater than zero")
  else
    let factor := a.severityFactor severity * a.flapFactor reopenCount
    let scaled := truncateScaled (max 0 meanGapMs) (max 0 variance) (a.multiplier * factor)
    let floored := truncate (a.floorMs * factor)
    let base := if 0 ≤ factor then max scaled floored else min scaled floored
    .ok (min base a.ceilingMs)

/-- The arguments the sweeper passes. -/
def Settings.silenceArguments (s : Settings) : SilenceArguments where
  multiplier := s.silenceResolveMultiplier
  criticalMultiplier := s.silenceResolveCriticalMultiplier
  floorMs := s.silenceResolveMinMs
  ceilingMs := s.silenceResolveMaxMs
  hysteresisFactor := s.flapHysteresisFactor
  hysteresisMaxReopens := s.flapHysteresisMaxReopens

/-- The threshold the sweeper asks for. -/
def silenceThresholdMs (meanGapMs variance : ℚ) (severity : Severity) (reopenCount : ℕ)
    (s : Settings) : Except EngineError ℤ :=
  silenceThreshold s.silenceArguments meanGapMs variance severity.text reopenCount

/-- One overdue incident: its id, how long it has been silent, and its threshold. -/
structure Overdue where
  incidentId : String
  silentFor : ℤ
  threshold : ℤ

/-- `_candidates`. -/
def candidates (nowMs : ℤ) (db : Database K) : Except EngineError (List Overdue) := do
  let rows := db.incidents.select fun _ i => i.status.active
  let judged ← rows.mapM fun (incidentId, i) => do
    let threshold ← silenceThresholdMs i.ewmaMeanGap i.ewmaVariance i.severity i.reopenCount rt.settings
    .ok (Overdue.mk incidentId (nowMs - i.lastIngestedAt.getD i.lastAlertAt) threshold)
  .ok (judged.filter fun o => o.threshold ≤ o.silentFor)

variable {rt} in
/-- An overdue incident is active, and judged by its own row. -/
theorem mem_candidates {nowMs : ℤ} {db : Database K} {overdue : List Overdue} {o : Overdue}
    (h : candidates rt nowMs db = .ok overdue) (ho : o ∈ overdue) :
    ∃ i, db.incidents.find? o.incidentId = some i ∧ i.status.active = true ∧
      silenceThresholdMs i.ewmaMeanGap i.ewmaVariance i.severity i.reopenCount rt.settings =
        .ok o.threshold ∧
      o.silentFor = nowMs - i.lastIngestedAt.getD i.lastAlertAt := by
  unfold candidates at h
  obtain ⟨judged, hj, h⟩ := bind_eq_ok.1 h
  obtain rfl := Except.ok.inj h
  obtain ⟨⟨k, i⟩, hk, hf⟩ := mem_mapM_ok hj (List.mem_filter.1 ho).1
  obtain ⟨threshold, hthreshold, hf⟩ := bind_eq_ok.1 hf
  obtain rfl := Except.ok.inj hf
  obtain ⟨hi, hactive⟩ := Table.mem_select.1 hk
  exact ⟨i, hi, hactive, hthreshold, rfl⟩

variable {rt} in
/-- So no incident is overdue twice. -/
theorem candidates_unique {nowMs : ℤ} {db : Database K} {overdue : List Overdue} {o o' : Overdue}
    (h : candidates rt nowMs db = .ok overdue) (ho : o ∈ overdue) (ho' : o' ∈ overdue)
    (hid : o.incidentId = o'.incidentId) : o = o' := by
  obtain ⟨i, hi, -, hthreshold, hsilent⟩ := mem_candidates h ho
  obtain ⟨i', hi', -, hthreshold', hsilent'⟩ := mem_candidates h ho'
  obtain rfl := Option.some.inj (hi.symm.trans (hid ▸ hi'))
  have heq := Except.ok.inj (hthreshold.symm.trans hthreshold')
  cases o
  cases o'
  simp_all

/-- The action a sweep takes on an overdue incident. -/
def sweepAction (moment : ℤ) (o : Overdue) : ExternalAction where
  inboundId := "silence:" ++ o.incidentId ++ ":" ++ toString (moment / 60000)
  provider := .system
  kind := .resolve
  incidentId := o.incidentId
  actor := none
  detail := some ("No alerts for " ++ toString (o.silentFor / 1000) ++ "s, past this incident's " ++
    toString (o.threshold / 1000) ++ "s silence threshold. " ++
    "Presumed resolved - not confirmed by a human.")
  resolutionSource := inferredSilence

variable [Field K] [LinearOrder K]

/-- The loop of `sweep_once` over the candidates, each with its event's `uuid4`. -/
def sweepActions (now moment : ℤ) (work : List (String × Overdue)) (s : ℕ × Database K) :
    Except EngineError (ℕ × Database K) :=
  work.foldlM (fun s w => do
    let (result, db) ← applyExternalAction rt w.1 now (sweepAction moment w.2) s.2
    .ok (if result.changed then s.1 + 1 else s.1, db)) s

/-- `sweep_once`: how many incidents were resolved, and the database after. -/
def sweepOnce (freshEventId : ℕ → String) (now moment : ℤ) (db : Database K) :
    Except EngineError (ℕ × Database K) := do
  let overdue ← candidates rt moment db
  sweepActions rt now moment (overdue.mapIdx fun n o => (freshEventId n, o)) (0, db)

end PulseGraph
