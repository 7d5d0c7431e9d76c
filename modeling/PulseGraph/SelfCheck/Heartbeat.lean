/-
# The verdict on the system, and the heartbeat

`src/selfcheck/health.py`, `beat_once` of `src/selfcheck/heartbeat.py` and `health_self` of
`src/main.py`.  A limit in seconds is any float a setting can hold; writing an infinite one into a
reason raises.

**Proved here.**  The verdict gets no better when a signal gets worse, under any limits
(`evaluate_mono`).  The endpoint judges by the settings and the heartbeat by the defaults, so
the two agree exactly where the age of the oldest notification is on the same side of both limits, or
does not matter (`heartbeat_agrees_iff`).
-/

import PulseGraph.Engine.SilenceSweeper
import PulseGraph.SelfCheck.Signals

namespace PulseGraph

/-- `Verdict`. -/
inductive Verdict where
  | ok | degraded | unhealthy
  deriving DecidableEq, Repr

/-- How bad a verdict is. -/
def Verdict.rank : Verdict → ℕ
  | .ok => 0
  | .degraded => 1
  | .unhealthy => 2

/-- `SelfCheckThresholds`. -/
structure SelfCheckThresholds where
  stuckOutboxSeconds : Seconds := .finite 900
  deadLetterLimit : ℤ := 10
  quietIngestSeconds : Seconds := .finite 3600
  clockSkewMs : ℤ := 120000

/-- `SelfCheckReport`. -/
structure SelfCheckReport where
  verdict : Verdict
  reasons : List String
  observations : List String
  signals : SelfCheckSignals

/-- `should_heartbeat`. -/
def SelfCheckReport.shouldHeartbeat (report : SelfCheckReport) : Bool := report.verdict != .unhealthy

/-- `age > limit` between floats. -/
def exceeds (age : ℚ) : Seconds → Bool
  | .finite limit => decide (limit < age)
  | .negInf => true
  | .posInf | .nan => false

/-- `int(limit)`; an infinity and what is no number raise. -/
def Seconds.toInt? : Seconds → Option ℤ
  | .finite q => some (truncate q)
  | _ => none

section Evaluate

variable (limits : SelfCheckThresholds) (signals : SelfCheckSignals)

/-- `dead_workers`. -/
def deadWorkers : List String :=
  ((signals.workers.filter fun worker => !worker.2).map Prod.fst).insertionSort (· ≤ ·)

/-- The third of the `fatal` reasons, if the oldest notification is over its limit. -/
def stalledReason : Option (List String) :=
  match signals.oldestPendingAgeSeconds with
  | none => some []
  | some oldest =>
      if exceeds oldest limits.stuckOutboxSeconds then
        limits.stuckOutboxSeconds.toInt?.map fun limit =>
          ["oldest undelivered notification is " ++ toString (truncate oldest) ++ "s old (limit " ++
            toString limit ++ "s); delivery is stalled"]
      else some []

/-- `fatal`. -/
def fatalReasons : Option (List String) :=
  (stalledReason limits signals).map fun stalled =>
    (if signals.databaseReachable then []
      else ["database is unreachable; nothing can be recorded or delivered"]) ++
    (if (deadWorkers signals).isEmpty then []
      else ["background worker(s) not running: " ++ ", ".intercalate (deadWorkers signals)]) ++ stalled

/-- `degraded`. -/
def degradedReasons : List String :=
  (if signals.openChannels.isEmpty then []
    else ["channel breaker open: " ++ ", ".intercalate (signals.openChannels.map Channel.text)]) ++
  (if limits.deadLetterLimit < signals.outboxDead then
      [toString signals.outboxDead ++ " notifications dead-lettered (limit " ++ toString limits.deadLetterLimit ++ ")"]
    else []) ++
  if limits.clockSkewMs < |signals.worstClockSkewMs| then
    ["a source clock is " ++ toString (|signals.worstClockSkewMs| / 1000) ++
      "s out; its reported timestamps cannot be trusted"]
  else []

/-- `observations`. -/
def observationTexts : List String :=
  (match signals.secondsSinceLastIngest with
    | none => []
    | some quiet =>
        if exceeds quiet limits.quietIngestSeconds then
          ["no alerts received for " ++ toString (truncate quiet) ++ "s - either genuinely quiet or " ++
            "the intake path is broken; this cannot be told apart from inside"]
        else []) ++
  (if signals.ongoingOutages = 0 then []
    else [toString signals.ongoingOutages ++ " channel outage(s) currently open"]) ++
  (if signals.outboxPending = 0 then [] else [toString signals.outboxPending ++ " notification(s) queued"]) ++
  if signals.unrankedScopes = 0 then []
  else [toString signals.unrankedScopes ++ " scope(s) awaiting root-cause ranking"]

/-- `evaluate`; `none` where it raises. -/
def evaluate : Option SelfCheckReport :=
  (fatalReasons limits signals).map fun fatal =>
    { verdict := if !fatal.isEmpty then .unhealthy
        else if !(degradedReasons limits signals).isEmpty then .degraded else .ok
      reasons := fatal ++ degradedReasons limits signals
      observations := observationTexts limits signals
      signals := signals }

end Evaluate

/-- The settings that `health_self` reads. -/
structure SelfCheckSettings where
  selfcheckStuckOutboxSeconds : Seconds := .finite 900
  selfcheckDeadLetterLimit : ℤ := 10
  selfcheckQuietIngestSeconds : Seconds := .finite 3600
  clockSkewWarnMs : ℤ := 120000

/-- The report of `health_self`. -/
def healthSelf (settings : SelfCheckSettings) (signals : SelfCheckSignals) : Option SelfCheckReport :=
  evaluate { stuckOutboxSeconds := settings.selfcheckStuckOutboxSeconds
             deadLetterLimit := settings.selfcheckDeadLetterLimit
             quietIngestSeconds := settings.selfcheckQuietIngestSeconds
             clockSkewMs := settings.clockSkewWarnMs } signals

/-- The fields of `HeartbeatEmitter` that `beat_once` reads and writes. -/
structure HeartbeatEmitter where
  url : String
  lastVerdict : Option Verdict := none
  lastSentOk : Option Bool := none
  suppressedCount : ℕ := 0

/-- `enabled`. -/
def HeartbeatEmitter.enabled (emitter : HeartbeatEmitter) : Bool := emitter.url != ""

/-- `beat_once`, over what the watchdog answers: whether it pinged, and the emitter afterwards. -/
def beatOnce (signals : SelfCheckSignals) (answered : Bool) (emitter : HeartbeatEmitter) :
    Option (Bool × HeartbeatEmitter) :=
  (evaluate {} signals).map fun report =>
    let emitter := { emitter with lastVerdict := some report.verdict }
    if report.shouldHeartbeat = false then
      (false, { emitter with suppressedCount := emitter.suppressedCount + 1, lastSentOk := none })
    else if emitter.enabled = false then (false, emitter)
    else (answered, { emitter with lastSentOk := some answered })

/-! ## Worse signals -/

/-- **No signal is better**: no worker is alive again, nothing pends for less, no channel has
closed, and no clock and no pile is smaller. -/
structure Worse (signals worse : SelfCheckSignals) : Prop where
  database : worse.databaseReachable = true → signals.databaseReachable = true
  workers : ∀ name, (name, false) ∈ signals.workers → (name, false) ∈ worse.workers
  age : ∀ age, signals.oldestPendingAgeSeconds = some age →
    ∃ age', worse.oldestPendingAgeSeconds = some age' ∧ age ≤ age'
  channels : ∀ channel ∈ signals.openChannels, channel ∈ worse.openChannels
  skew : |signals.worstClockSkewMs| ≤ |worse.worstClockSkewMs|
  dead : signals.outboxDead ≤ worse.outboxDead

section Verdicts

variable {limits : SelfCheckThresholds} {signals worse : SelfCheckSignals} {report report' : SelfCheckReport}

/-- The oldest notification is over the limit. -/
def overdue (limit : Seconds) (signals : SelfCheckSignals) : Bool :=
  signals.oldestPendingAgeSeconds.any fun age => exceeds age limit

/-- Something else than the age is fatal. -/
def halted (signals : SelfCheckSignals) : Bool :=
  !signals.databaseReachable || signals.workers.any fun worker => !worker.2

theorem deadWorkers_isEmpty : (deadWorkers signals).isEmpty = !signals.workers.any fun worker => !worker.2 := by
  rw [Bool.eq_iff_iff, List.isEmpty_iff, Bool.not_eq_true', ← List.length_eq_zero_iff]
  unfold deadWorkers
  rw [List.length_insertionSort, List.length_map, List.length_eq_zero_iff, List.filter_eq_nil_iff]
  simp

/-- **When the reasons can be written**, and whether there is a fatal one. -/
theorem fatalReasons_cases : (fatalReasons limits signals = none ↔
      overdue limits.stuckOutboxSeconds signals = true ∧ limits.stuckOutboxSeconds = .negInf) ∧
    ∀ fatal, fatalReasons limits signals = some fatal →
      (!fatal.isEmpty) = (halted signals || overdue limits.stuckOutboxSeconds signals) := by
  have hstalled : (stalledReason limits signals = none ↔
        overdue limits.stuckOutboxSeconds signals = true ∧ limits.stuckOutboxSeconds = .negInf) ∧
      ∀ stalled, stalledReason limits signals = some stalled →
        (!stalled.isEmpty) = overdue limits.stuckOutboxSeconds signals := by
    unfold stalledReason overdue
    cases signals.oldestPendingAgeSeconds with
    | none => simp
    | some oldest =>
        dsimp only
        cases hlimit : limits.stuckOutboxSeconds with
        | finite limit =>
            by_cases h : limit < oldest <;> simp [exceeds, Seconds.toInt?, h]
        | posInf => simp [exceeds]
        | negInf => simp [exceeds, Seconds.toInt?]
        | nan => simp [exceeds]
  unfold fatalReasons
  constructor
  · rw [Option.map_eq_none_iff]
    exact hstalled.1
  · intro fatal hfatal
    obtain ⟨stalled, hsome, rfl⟩ := Option.map_eq_some_iff.1 hfatal
    rw [← hstalled.2 stalled hsome, deadWorkers_isEmpty]
    unfold halted
    cases signals.databaseReachable <;> cases (signals.workers.any fun worker => !worker.2) <;> simp

theorem degradedReasons_isEmpty : (degradedReasons limits signals).isEmpty = false ↔
    signals.openChannels ≠ [] ∨ limits.deadLetterLimit < signals.outboxDead ∨
      limits.clockSkewMs < |signals.worstClockSkewMs| := by
  unfold degradedReasons
  cases signals.openChannels with
  | nil => split_ifs <;> simp_all
  | cons channel channels => simp

/-- **When a report says unhealthy.** -/
theorem evaluate_unhealthy (h : evaluate limits signals = some report) :
    report.verdict = .unhealthy ↔ halted signals = true ∨ overdue limits.stuckOutboxSeconds signals = true := by
  obtain ⟨fatal, hfatal, rfl⟩ := Option.map_eq_some_iff.1 h
  rw [← Bool.or_eq_true, ← fatalReasons_cases.2 fatal hfatal]
  cases fatal.isEmpty with
  | true => split_ifs <;> simp_all
  | false => simp

/-- And when it is not ok. -/
theorem evaluate_ok (h : evaluate limits signals = some report) (hhealthy : report.verdict ≠ .unhealthy) :
    report.verdict = .degraded ↔ (degradedReasons limits signals).isEmpty = false := by
  obtain ⟨fatal, hfatal, rfl⟩ := Option.map_eq_some_iff.1 h
  dsimp only at hhealthy ⊢
  split_ifs at hhealthy ⊢ with hf hd
  · exact absurd rfl hhealthy
  · simpa using hd
  · simpa using hd

theorem exceeds_mono {age age' : ℚ} {limit : Seconds} (h : age ≤ age') (hover : exceeds age limit = true) :
    exceeds age' limit = true := by
  cases limit with
  | finite limit => exact decide_eq_true ((of_decide_eq_true hover).trans_le h)
  | negInf => rfl
  | posInf => exact hover
  | nan => exact hover

/-- **The verdict is monotone.** -/
theorem evaluate_mono (hworse : Worse signals worse) (h : evaluate limits signals = some report)
    (h' : evaluate limits worse = some report') : report.verdict.rank ≤ report'.verdict.rank := by
  have hhalted : halted signals = true → halted worse = true := by
    unfold halted
    simp only [Bool.or_eq_true, Bool.not_eq_true', List.any_eq_true]
    rintro (hdatabase | ⟨⟨name, alive⟩, hmem, halive⟩)
    · exact .inl (Bool.eq_false_iff.2 fun hup => by rw [hworse.database hup] at hdatabase; cases hdatabase)
    · dsimp only at halive
      subst halive
      exact .inr ⟨(name, false), hworse.workers name hmem, rfl⟩
  have hoverdue : overdue limits.stuckOutboxSeconds signals = true →
      overdue limits.stuckOutboxSeconds worse = true := by
    unfold overdue
    cases hage : signals.oldestPendingAgeSeconds with
    | none => simp
    | some age =>
        obtain ⟨age', hage', hle⟩ := hworse.age age hage
        rw [hage']
        exact exceeds_mono hle
  by_cases hbad : report'.verdict = .unhealthy
  · rw [hbad]
    cases report.verdict <;> decide
  · have hgood : report.verdict ≠ .unhealthy := fun hu => hbad ((evaluate_unhealthy h').2
      (((evaluate_unhealthy h).1 hu).imp hhalted hoverdue))
    have hdegraded : report.verdict = .degraded → report'.verdict = .degraded := by
      rw [evaluate_ok h hgood, evaluate_ok h' hbad, degradedReasons_isEmpty, degradedReasons_isEmpty]
      rintro (hopen | hdead | hskew)
      · obtain ⟨channel, hchannel⟩ := List.exists_mem_of_ne_nil _ hopen
        exact .inl (List.ne_nil_of_mem (hworse.channels channel hchannel))
      · exact .inr (.inl (hdead.trans_le (Int.ofNat_le.2 hworse.dead)))
      · exact .inr (.inr (hskew.trans_le hworse.skew))
    cases hv : report.verdict with
    | ok => exact Nat.zero_le _
    | degraded => rw [hdegraded hv]
    | unhealthy => exact absurd hv hgood

end Verdicts

/-! ## The two call sites -/

/-- The heartbeat counted one more beat that it did not send. -/
def Withheld (signals : SelfCheckSignals) (answered : Bool) (emitter : HeartbeatEmitter) : Prop :=
  ∃ after, beatOnce signals answered emitter = some (false, after) ∧
    after.suppressedCount = emitter.suppressedCount + 1

/-- The endpoint reports that alerts are not getting out. -/
def ReportsUnhealthy (settings : SelfCheckSettings) (signals : SelfCheckSignals) : Prop :=
  ∃ report, healthSelf settings signals = some report ∧ report.verdict = .unhealthy

/-- The defaults are numbers, so the heartbeat always reaches its verdict. -/
theorem withheld_iff {signals : SelfCheckSignals} {answered : Bool} {emitter : HeartbeatEmitter} :
    Withheld signals answered emitter ↔ halted signals = true ∨ overdue (.finite 900) signals = true := by
  have hsome : ∃ report, evaluate {} signals = some report := by
    refine Option.ne_none_iff_exists'.1 fun hnone => ?_
    have hraised := (fatalReasons_cases.1.1 (Option.map_eq_none_iff.1 hnone)).2
    cases hraised
  obtain ⟨report, hreport⟩ := hsome
  unfold Withheld beatOnce
  rw [hreport, Option.map_some]
  rw [show (halted signals = true ∨ overdue (.finite 900) signals = true) ↔ report.verdict = .unhealthy from
    (evaluate_unhealthy hreport).symm]
  unfold SelfCheckReport.shouldHeartbeat
  dsimp only
  constructor
  · rintro ⟨after, hafter, hcount⟩
    by_contra hgood
    rw [if_neg (by simpa using hgood)] at hafter
    split_ifs at hafter
    · obtain ⟨-, rfl⟩ := Prod.mk.inj (Option.some.inj hafter)
      exact absurd hcount (Nat.ne_of_lt (Nat.lt_succ_self _))
    · obtain ⟨-, rfl⟩ := Prod.mk.inj (Option.some.inj hafter)
      exact absurd hcount (Nat.ne_of_lt (Nat.lt_succ_self _))
  · intro hbad
    rw [if_pos (by simp [hbad])]
    exact ⟨_, rfl, rfl⟩

/-- What the endpoint says, and that it says nothing where it cannot write its limit. -/
theorem reportsUnhealthy_iff {settings : SelfCheckSettings} {signals : SelfCheckSignals} :
    ReportsUnhealthy settings signals ↔
      (halted signals = true ∨ overdue settings.selfcheckStuckOutboxSeconds signals = true) ∧
      ¬ (overdue settings.selfcheckStuckOutboxSeconds signals = true ∧
        settings.selfcheckStuckOutboxSeconds = .negInf) := by
  unfold ReportsUnhealthy
  constructor
  · rintro ⟨report, hreport, hbad⟩
    refine ⟨(evaluate_unhealthy hreport).1 hbad, fun hraises => ?_⟩
    have hnone := (@fatalReasons_cases ⟨settings.selfcheckStuckOutboxSeconds, settings.selfcheckDeadLetterLimit,
      settings.selfcheckQuietIngestSeconds, settings.clockSkewWarnMs⟩ signals).1.2 hraises
    unfold healthSelf evaluate at hreport
    rw [hnone] at hreport
    cases hreport
  · rintro ⟨hbad, hwrites⟩
    cases hreport : healthSelf settings signals with
    | none => exact absurd (fatalReasons_cases.1.1 (Option.map_eq_none_iff.1 hreport)) hwrites
    | some report => exact ⟨report, rfl, (evaluate_unhealthy hreport).2 hbad⟩

/-- **The limits do not tell the two apart**: another signal is fatal, or the oldest notification is
over both limits or over neither.  Under a limit of minus infinity the endpoint raises as soon as a
notification waits, so nothing may be fatal then. -/
def LimitsAgree (limit : Seconds) (signals : SelfCheckSignals) : Prop :=
  if limit = .negInf ∧ signals.oldestPendingAgeSeconds.isSome = true then
    halted signals = false ∧ overdue (.finite 900) signals = false
  else halted signals = true ∨ overdue (.finite 900) signals = overdue limit signals

/-- **When the heartbeat and the endpoint agree**, and that both verdicts are monotone. -/
theorem heartbeat_agrees_iff (settings : SelfCheckSettings) (signals : SelfCheckSignals) (answered : Bool)
    (emitter : HeartbeatEmitter) :
    ((Withheld signals answered emitter ↔ ReportsUnhealthy settings signals) ↔
      LimitsAgree settings.selfcheckStuckOutboxSeconds signals) ∧
    ∀ limits worse report report', Worse signals worse → evaluate limits signals = some report →
      evaluate limits worse = some report' → report.verdict.rank ≤ report'.verdict.rank := by
  refine ⟨?_, fun _ _ _ _ => evaluate_mono⟩
  have hraises : (overdue settings.selfcheckStuckOutboxSeconds signals = true ∧
      settings.selfcheckStuckOutboxSeconds = .negInf) ↔
      settings.selfcheckStuckOutboxSeconds = .negInf ∧ signals.oldestPendingAgeSeconds.isSome = true := by
    rw [and_comm]
    refine and_congr_right fun hlimit => ?_
    unfold overdue
    rw [hlimit]
    cases signals.oldestPendingAgeSeconds <;> simp [exceeds]
  rw [withheld_iff, reportsUnhealthy_iff, hraises]
  unfold LimitsAgree
  split_ifs with h
  · cases halted signals <;> cases overdue (.finite 900) signals <;> simp [h]
  · simp only [h, not_false_eq_true, and_true]
    cases halted signals <;> cases overdue (.finite 900) signals <;>
      cases overdue settings.selfcheckStuckOutboxSeconds signals <;> decide

/-- **The endpoint reports a stalled outbox and the heartbeat beats on**: a notification has waited
for 700 seconds where the setting allows 600. -/
theorem not_heartbeatAgrees : ¬ ∀ settings signals answered emitter,
    Withheld signals answered emitter ↔ ReportsUnhealthy settings signals := by
  intro h
  have hagree := h { selfcheckStuckOutboxSeconds := .finite 600 }
    { outboxPending := 1, oldestPendingAgeSeconds := some 700 } true ⟨"https://watchdog", none, none, 0⟩
  rw [withheld_iff, reportsUnhealthy_iff] at hagree
  exact absurd hagree (by decide +kernel)

end PulseGraph
