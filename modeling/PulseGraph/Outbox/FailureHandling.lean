/-
# When a failure is contained

`_handle_failure` records a failure on its channel, settles the row, and fails over when the
channel is newly down.  The delays it adds to the clock come from the provider: a `Retry-After`
is whatever `float` accepts, and `timedelta` raises on what is no number and `datetime` past the
year 9999.  What raises leaves the handler, and the pass with it.

**Proved here.**  `handleFailure_contained_iff`: the handler leaves the row dead, or waiting
unlocked for a later time, and goes on with the batch, if and only if the delay that the failure
is answered with ends in the calendar and later than the handler began (`Containable`; no delay
matters when the message is rejected).  `not_handleFailure_contained` is a rate limit with the
header `Retry-After: nan`.
-/

import PulseGraph.Outbox.WorkerEffects

namespace PulseGraph

open Library (Table)

variable {K : Type} (rt : Runtime K)

/-! ## The handler -/

/-- Several steps of a worker while nobody else writes. -/
def workerSteps (w : String) : List WorkerStep → Phase × Database K → Option (Phase × Database K)
  | [], s => some s
  | step :: steps, s => (workerNext rt w s.1 s.2 step).bind (workerSteps w steps)

/-- `_handle_failure`, with the clock of each of its transactions: the failure is recorded, the row is
settled, and a channel newly down is failed over. -/
def handleFailure (recorded stored moved : ℤ) (d : Dispatch) (exc : Exc) (batch : List ClaimedRow)
    (db : Database K) : Phase × Database K :=
  match settle rt recorded (.failed d (classify exc) batch) db with
  | some (.charged d verdict newlyDown nextProbeAt batch, db) =>
      match settle rt stored (.charged d verdict newlyDown nextProbeAt batch) db with
      | some (.failingOver channel batch, db) => (.draining batch, failoverPending moved channel db)
      | some s => s
      | none => (.idle, db)
  | some s => s
  | none => (.idle, db)

/-- **The handler is what the worker does after a call that raised**, while nobody else writes. -/
theorem handleFailure_steps (w : String) (returned recorded stored moved : ℤ) (d : Dispatch) (exc : Exc)
    (batch : List ClaimedRow) (db : Database K) : ∃ settles, settles <+: [recorded, stored, moved] ∧
      workerSteps rt w (.callReturns returned (.error exc) :: settles.map .settle) (.calling d batch, db) =
        some (handleFailure rt recorded stored moved d exc batch db) := by
  have hone : [recorded] <+: [recorded, stored, moved] := ⟨[stored, moved], rfl⟩
  have htwo : [recorded, stored] <+: [recorded, stored, moved] := ⟨[moved], rfl⟩
  unfold handleFailure settle
  cases hrecord : recordFailure rt recorded d.row.channel (classify exc) db with
  | none =>
      refine ⟨_, hone, ?_⟩
      simp [workerSteps, workerNext, settle, hrecord]
  | some result =>
      obtain ⟨newlyDown, db₁⟩ := result
      cases hkind : (classify exc).kind with
      | MESSAGE_FATAL =>
          refine ⟨_, htwo, ?_⟩
          simp [workerSteps, workerNext, settle, hrecord, hkind]
      | TRANSIENT =>
          refine ⟨_, htwo, ?_⟩
          cases hretry : retryLater rt stored d.row.outboxId d.row.attempts (classify exc).reason
            (classify exc).retryAfterSeconds db₁ <;>
          simp [workerSteps, workerNext, settle, hrecord, hkind, hretry]
      | CHANNEL_DOWN =>
          cases newlyDown with
          | false =>
              refine ⟨_, htwo, ?_⟩
              simp [workerSteps, workerNext, settle, hrecord, hkind]
          | true =>
              refine ⟨_, List.prefix_refl _, ?_⟩
              simp [workerSteps, workerNext, settle, hrecord, hkind]

/-- The failure is contained: the row is dead, or waits unlocked for a later time, and the batch goes on. -/
structure Contained (started : ℤ) (outboxId : ℕ) (batch : List ClaimedRow) (s : Phase × Database K) :
    Prop where
  goesOn : s.1 = .draining batch
  row : ∃ r, s.2.outbox.find? outboxId = some r ∧ (r.status = .dead ∨
    r.status = .pending ∧ r.lockedBy = none ∧ r.lockedUntil = none ∧ started < r.nextAttemptAt)

/-! ## Delays -/

/-- The whole milliseconds of a delay; what is no number has none. -/
def Seconds.ms : Seconds → Option ℤ
  | .finite q => some (roundHalfEven (q * 1000000) / 1000)
  | _ => none

/-- The delay ends in the calendar. -/
def Seconds.InCalendar (now : ℤ) (delay : Seconds) : Prop :=
  ∃ ms, delay.ms = some ms ∧ minInstant ≤ now + ms ∧ now + ms < endOfTime

/-- The delay ends in the calendar, and later than the handler began. -/
def Seconds.EndsLater (started now : ℤ) (delay : Seconds) : Prop :=
  ∃ ms, delay.ms = some ms ∧ started < now + ms ∧ now + ms < endOfTime

/-- A clock of the calendar; the last second of it has no successor. -/
structure Clocks (started recorded stored : ℤ) : Prop where
  begins : minInstant ≤ started
  thenRecords : started ≤ recorded
  thenStores : recorded ≤ stored
  ends : stored + 1000 < endOfTime

/-- **Adding a delay to the clock** succeeds exactly when it ends in the calendar. -/
theorem instantAfter_eq_some_iff {now t : ℤ} {delay : Seconds} (hfirst : minInstant ≤ now)
    (hlast : now < endOfTime) : instantAfter now delay = some t ↔
      ∃ ms, delay.ms = some ms ∧ t = now + ms ∧ minInstant ≤ t ∧ t < endOfTime := by
  unfold minInstant endOfTime at *
  cases delay with
  | finite q =>
      obtain ⟨us, hus⟩ : ∃ us, roundHalfEven (q * 1000000) = us := ⟨_, rfl⟩
      have hms : (Seconds.finite q).ms = some (us / 1000) := by rw [Seconds.ms, hus]
      unfold instantAfter timedeltaUs minInstant endOfTime
      simp only [hms, hus]
      constructor
      · intro h
        split_ifs at h with hdays
        · rw [Option.bind_some] at h
          split_ifs at h with hin
          obtain rfl := Option.some.inj h
          exact ⟨us / 1000, rfl, rfl, hin.1, hin.2⟩
        · cases h
      · rintro ⟨ms, hms, rfl, hin⟩
        obtain rfl := Option.some.inj hms
        rw [if_pos (by omega), Option.bind_some, if_pos hin]
  | _ =>
      constructor
      · intro h
        cases h
      · rintro ⟨ms, hms, -⟩
        cases hms

/-- A delay that ends in the calendar has an instant. -/
theorem Seconds.inCalendar_iff {now : ℤ} {delay : Seconds} (hfirst : minInstant ≤ now)
    (hlast : now < endOfTime) : delay.InCalendar now ↔ ∃ t, instantAfter now delay = some t := by
  constructor
  · rintro ⟨ms, hms, hin⟩
    exact ⟨now + ms, (instantAfter_eq_some_iff hfirst hlast).2 ⟨ms, hms, rfl, hin⟩⟩
  · rintro ⟨t, ht⟩
    obtain ⟨ms, hms, rfl, hin⟩ := (instantAfter_eq_some_iff hfirst hlast).1 ht
    exact ⟨ms, hms, hin⟩

/-- One that ends later has a later instant. -/
theorem Seconds.endsLater_iff {started now : ℤ} {delay : Seconds} (hstarted : minInstant ≤ started)
    (hfirst : minInstant ≤ now) (hlast : now < endOfTime) :
    delay.EndsLater started now ↔ ∃ t, instantAfter now delay = some t ∧ started < t := by
  constructor
  · rintro ⟨ms, hms, hlater, hend⟩
    refine ⟨now + ms, (instantAfter_eq_some_iff hfirst hlast).2 ⟨ms, hms, rfl, ?_, hend⟩, hlater⟩
    omega
  · rintro ⟨t, ht, hlater⟩
    obtain ⟨ms, hms, rfl, -, hend⟩ := (instantAfter_eq_some_iff hfirst hlast).1 ht
    exact ⟨ms, hms, hlater, hend⟩

/-! ## The condition -/

/-- The provider's own delay, when it is a true value. -/
def FailureVerdict.hint (verdict : FailureVerdict) : Option Seconds :=
  verdict.retryAfterSeconds.filter Seconds.truthy

/-- The delay of the breaker's next probe ends later. -/
def ProbeEndsLater (started now : ℤ) (step : ℕ) : Prop :=
  ∃ q, probeDelay rt step = some q ∧ (Seconds.finite q).EndsLater started now

/-- The delay that answers the failure can be added to the clock, and moves it on. -/
def Containable (started recorded stored : ℤ) (d : Dispatch) (exc : Exc) (db : Database K) : Prop :=
  let verdict := classify exc
  let before := getState d.row.channel db
  match verdict.kind with
  | .MESSAGE_FATAL => True
  | .TRANSIENT =>
      let delay := verdict.hint.getD (.finite (exponentialBackoff (d.row.attempts + 1)))
      if rt.settings.outboxMaxAttempts ≤ d.row.attempts + 1 then delay.InCalendar stored
      else delay.EndsLater started stored
  | .CHANNEL_DOWN =>
      if before.state ≠ .CLOSED then ProbeEndsLater rt started recorded (before.probeBackoffStep + 1)
      else if before.consecutiveFailures + 1 < rt.settings.outboxBreakerFailureThreshold then
        ∀ t, before.nextProbeAt = some t → started < t
      else match verdict.hint with
        | some delay => delay.EndsLater started recorded
        | none => ProbeEndsLater rt started recorded 0

/-! ## Recording the failure -/

section Record

variable {rt} {db db' : Database K} {channel : Channel} {verdict : FailureVerdict} {now : ℤ}

/-- The next probe after a failure that implicates the channel; `none` where its time raises. -/
def probeAfterFailure (rt : Runtime K) (now : ℤ) (verdict : FailureVerdict) (before : ChannelState) :
    Option (Option ℤ) :=
  if before.state ≠ .CLOSED then (nextProbe rt now (before.probeBackoffStep + 1)).map some
  else if before.consecutiveFailures + 1 < rt.settings.outboxBreakerFailureThreshold then
    some before.nextProbeAt
  else (match verdict.hint with
    | some delay => instantAfter now delay
    | none => nextProbe rt now 0).map some

/-- A failure that does not implicate the channel is recorded. -/
theorem recordFailure_spared (h : verdict.tripsBreaker = false) :
    ∃ db', recordFailure rt now channel verdict db = some (false, db') := by
  unfold recordFailure
  rw [if_pos (by rw [h]; rfl)]
  exact ⟨_, rfl⟩

/-- **The probe time that a failure leaves.** -/
theorem recordFailure_probe (h : verdict.tripsBreaker = true) :
    (recordFailure rt now channel verdict db).map (fun s => (getState channel s.2).nextProbeAt) =
      probeAfterFailure rt now verdict (getState channel db) := by
  have hread : ∀ state failures step openedAt nextProbeAt,
      (getState channel (upsertHealth channel now
        (failureFields now verdict.reason state failures step openedAt nextProbeAt) db)).nextProbeAt =
      nextProbeAt := by
    intro state failures step openedAt nextProbeAt
    rw [getState_upsertHealth]
    rfl
  unfold recordFailure probeAfterFailure
  dsimp only
  rw [if_neg (by rw [h]; decide)]
  cases hstate : (getState channel db).state with
  | HALF_OPEN =>
      rw [if_pos rfl, if_pos (by decide), Option.map_map]
      congr 1
      funext next
      exact hread _ _ _ _ _
  | OPEN =>
      rw [if_neg (by decide), if_pos rfl, if_pos (by decide), Option.map_map]
      congr 1
      funext next
      exact hread _ _ _ _ _
  | CLOSED =>
      rw [if_neg (by decide), if_neg (by decide), if_neg (show ¬ BreakerState.CLOSED ≠ .CLOSED by decide)]
      split_ifs with hbelow
      · exact congrArg some (hread _ _ _ _ _)
      · rw [Option.map_map]
        congr 1
        funext next
        show (getState channel (upsertHealth channel now _ db)).nextProbeAt = some next
        rw [getState_upsertHealth]
        rfl

/-- The probe time is there and later exactly when the delay of the channel's state ends later. -/
theorem probeAfterFailure_later {started stored : ℤ} {before : ChannelState} (hclocks : Clocks started now stored) :
    (∃ next, probeAfterFailure rt now verdict before = some next ∧ started < next.getD (stored + 1000)) ↔
      if before.state ≠ .CLOSED then ProbeEndsLater rt started now (before.probeBackoffStep + 1)
      else if before.consecutiveFailures + 1 < rt.settings.outboxBreakerFailureThreshold then
        ∀ t, before.nextProbeAt = some t → started < t
      else match verdict.hint with
        | some delay => delay.EndsLater started now
        | none => ProbeEndsLater rt started now 0 := by
  obtain ⟨hfirst, hrecorded, hstored, hlast⟩ := hclocks
  have hmap : ∀ instant : Option ℤ, (∃ next, instant.map some = some next ∧ started < next.getD (stored + 1000)) ↔
      ∃ t, instant = some t ∧ started < t := by
    intro instant
    constructor
    · rintro ⟨next, hnext, hlater⟩
      obtain ⟨t, ht, rfl⟩ := Option.map_eq_some_iff.1 hnext
      exact ⟨t, ht, hlater⟩
    · rintro ⟨t, rfl, hlater⟩
      exact ⟨some t, rfl, hlater⟩
  have hends : ∀ delay : Seconds, (∃ t, instantAfter now delay = some t ∧ started < t) ↔
      delay.EndsLater started now :=
    fun delay => (Seconds.endsLater_iff hfirst (by omega) (by omega)).symm
  have hprobe : ∀ step, (∃ t, nextProbe rt now step = some t ∧ started < t) ↔
      ProbeEndsLater rt started now step := by
    intro step
    unfold nextProbe ProbeEndsLater
    cases probeDelay rt step with
    | none => simp
    | some q => simpa using hends (.finite q)
  unfold probeAfterFailure
  split_ifs with hopen hbelow
  · rw [hmap, hprobe]
  · cases before.nextProbeAt with
    | none =>
        constructor
        · intro _ t ht
          cases ht
        · intro _
          exact ⟨none, rfl, show started < stored + 1000 by omega⟩
    | some t =>
        constructor
        · rintro ⟨next, hnext, hlater⟩ t' ht'
          obtain rfl := Option.some.inj hnext
          obtain rfl := Option.some.inj ht'
          exact hlater
        · intro hall
          exact ⟨some t, rfl, hall t rfl⟩
  · rw [hmap]
    cases verdict.hint with
    | none => exact hprobe 0
    | some delay => exact hends delay

end Record

/-! ## The three outcomes -/

section Handler

variable {rt} {started recorded stored moved : ℤ} {d : Dispatch} {exc : Exc} {batch : List ClaimedRow}
  {db : Database K} {r : OutboxRow}

/-- A pass that fell back to `idle` does not go on. -/
theorem not_contained_idle {outboxId : ℕ} : ¬ Contained started outboxId batch (.idle, db) := by
  rintro ⟨hgoesOn, -⟩
  cases hgoesOn

/-- A rejected message is dead at once. -/
theorem handleFailure_rejected (hkind : (classify exc).kind = .MESSAGE_FATAL)
    (hr : db.outbox.find? d.row.outboxId = some r) :
    Contained started d.row.outboxId batch (handleFailure rt recorded stored moved d exc batch db) := by
  obtain ⟨db₁, hrecord⟩ := @recordFailure_spared _ rt db d.row.channel (classify exc) recorded
    (by rw [FailureVerdict.tripsBreaker, hkind]; rfl)
  have hstep : handleFailure rt recorded stored moved d exc batch db =
      (.draining batch, deadLetter d.row.outboxId (classify exc).reason db₁) := by
    unfold handleFailure settle
    simp only [hrecord, hkind]
  rw [hstep]
  refine ⟨rfl, { r.unlock with status := .dead, lastError := some (clip (classify exc).reason) }, ?_, .inl rfl⟩
  rw [deadLetter, Table.find?_modify, if_pos rfl, (recordFailure_frame hrecord).outbox, hr]
  rfl

/-- A transient failure is contained when its delay has an instant: a later one, unless the row has
used up its attempts. -/
theorem handleFailure_retried (hkind : (classify exc).kind = .TRANSIENT)
    (hr : db.outbox.find? d.row.outboxId = some r) :
    Contained started d.row.outboxId batch (handleFailure rt recorded stored moved d exc batch db) ↔
      ∃ t, instantAfter stored ((classify exc).hint.getD (.finite (exponentialBackoff (d.row.attempts + 1)))) =
        some t ∧ (rt.settings.outboxMaxAttempts ≤ d.row.attempts + 1 ∨ started < t) := by
  obtain ⟨db₁, hrecord⟩ := @recordFailure_spared _ rt db d.row.channel (classify exc) recorded
    (by rw [FailureVerdict.tripsBreaker, hkind]; rfl)
  have hr₁ : db₁.outbox.find? d.row.outboxId = some r := by rw [(recordFailure_frame hrecord).outbox, hr]
  have hretry : handleFailure rt recorded stored moved d exc batch db =
      (retryLater rt stored d.row.outboxId d.row.attempts (classify exc).reason
        (classify exc).retryAfterSeconds db₁).elim (.idle, db₁) fun db => (.draining batch, db) := by
    unfold handleFailure settle
    simp only [hrecord, hkind]
    cases retryLater rt stored d.row.outboxId d.row.attempts (classify exc).reason
      (classify exc).retryAfterSeconds db₁ <;> rfl
  rw [hretry]
  unfold retryLater
  dsimp only
  change _ ↔ ∃ t, instantAfter stored ((Option.filter Seconds.truthy (classify exc).retryAfterSeconds).getD _) =
    some t ∧ _
  cases instantAfter stored ((Option.filter Seconds.truthy (classify exc).retryAfterSeconds).getD
      (.finite (exponentialBackoff (d.row.attempts + 1)))) with
  | none =>
      constructor
      · intro h
        exact absurd h not_contained_idle
      · rintro ⟨t, ht, -⟩
        cases ht
  | some t =>
      have hfind : ∀ f : OutboxRow → OutboxRow, (db₁.outbox.modify d.row.outboxId f).find? d.row.outboxId =
          some (f r) := by
        intro f
        rw [Table.find?_modify, if_pos rfl, hr₁]
        rfl
      constructor
      · rintro ⟨-, r', hr', hrow⟩
        obtain rfl := Option.some.inj ((hfind _).symm.trans hr')
        refine ⟨t, rfl, ?_⟩
        rcases hrow with hdead | ⟨-, -, -, hlater⟩
        · dsimp only at hdead
          split_ifs at hdead with hspent
          exact .inl hspent
        · exact .inr hlater
      · rintro ⟨t', ht', hcond⟩
        obtain rfl := Option.some.inj ht'
        refine ⟨rfl, _, hfind _, ?_⟩
        dsimp only
        split_ifs with hspent
        · exact .inl rfl
        · exact .inr ⟨rfl, rfl, rfl, hcond.resolve_left hspent⟩

/-- A failover leaves the status, the lock and the next attempt of a row alone. -/
theorem failoverPending_row {now : ℤ} {channel : Channel} {k : ℕ} (hr : db.outbox.find? k = some r) :
    ∃ r', (failoverPending now channel db).outbox.find? k = some r' ∧ r'.status = r.status ∧
      r'.lockedBy = r.lockedBy ∧ r'.lockedUntil = r.lockedUntil ∧ r'.nextAttemptAt = r.nextAttemptAt := by
  obtain ⟨r', hr', rfl | ⟨-, -, via, rfl⟩⟩ := (failoverPending_failsOver now channel db).row k r hr
  · exact ⟨_, hr', rfl, rfl, rfl, rfl⟩
  · exact ⟨_, hr', rfl, rfl, rfl, rfl⟩

/-- A failure of the channel is contained when the next probe has an instant, and a later one. -/
theorem handleFailure_parked (hkind : (classify exc).kind = .CHANNEL_DOWN)
    (hr : db.outbox.find? d.row.outboxId = some r) (hpending : r.status = .pending) :
    Contained started d.row.outboxId batch (handleFailure rt recorded stored moved d exc batch db) ↔
      ∃ next, probeAfterFailure rt recorded (classify exc) (getState d.row.channel db) = some next ∧
        started < next.getD (stored + 1000) := by
  have hprobe := @recordFailure_probe _ rt db d.row.channel (classify exc) recorded
    (by rw [FailureVerdict.tripsBreaker, hkind]; rfl)
  cases hrecord : recordFailure rt recorded d.row.channel (classify exc) db with
  | none =>
      have hraises : handleFailure rt recorded stored moved d exc batch db = (.idle, db) := by
        unfold handleFailure settle
        simp only [hrecord]
      rw [hrecord] at hprobe
      rw [hraises, ← hprobe]
      constructor
      · intro h
        exact absurd h not_contained_idle
      · rintro ⟨next, hnext, -⟩
        cases hnext
  | some result =>
      obtain ⟨newlyDown, db₁⟩ := result
      obtain ⟨next, hnext⟩ : ∃ next, (getState d.row.channel db₁).nextProbeAt = next := ⟨_, rfl⟩
      obtain ⟨parked, hparked⟩ : ∃ parked, park stored d.row.outboxId next (classify exc).reason db₁ = parked :=
        ⟨_, rfl⟩
      have hrow : ∃ r', parked.outbox.find? d.row.outboxId = some r' ∧ r'.status = .pending ∧
          r'.lockedBy = none ∧ r'.lockedUntil = none ∧ r'.nextAttemptAt = next.getD (stored + 1000) := by
        refine ⟨{ r.unlock with
          nextAttemptAt := next.getD (stored + 1000)
          lastError := some (clip ("channel_down:" ++ (classify exc).reason)) }, ?_, hpending, rfl, rfl, rfl⟩
        rw [← hparked, park, Table.find?_modify, if_pos rfl, (recordFailure_frame hrecord).outbox, hr]
        rfl
      have hstep : handleFailure rt recorded stored moved d exc batch db =
          (.draining batch, if newlyDown then failoverPending moved d.row.channel parked else parked) := by
        unfold handleFailure settle
        simp only [hrecord, hkind, hnext, hparked]
        cases newlyDown <;> rfl
      have hfinal : ∃ r', (if newlyDown then failoverPending moved d.row.channel parked else parked).outbox.find?
          d.row.outboxId = some r' ∧ r'.status = .pending ∧ r'.lockedBy = none ∧ r'.lockedUntil = none ∧
            r'.nextAttemptAt = next.getD (stored + 1000) := by
        obtain ⟨r', hr', hstatus, hby, huntil, hat⟩ := hrow
        cases newlyDown with
        | false => exact ⟨r', hr', hstatus, hby, huntil, hat⟩
        | true =>
            obtain ⟨r₂, hr₂, hstatus₂, hby₂, huntil₂, hat₂⟩ := @failoverPending_row _ _ _ moved d.row.channel _ hr'
            exact ⟨r₂, hr₂, hstatus₂.trans hstatus, hby₂.trans hby, huntil₂.trans huntil, hat₂.trans hat⟩
      rw [hrecord, Option.map_some, hnext] at hprobe
      rw [hstep, ← hprobe]
      obtain ⟨r', hr', hstatus, hby, huntil, hat⟩ := hfinal
      constructor
      · rintro ⟨-, r₂, hr₂, hrow₂⟩
        obtain rfl := Option.some.inj (hr'.symm.trans hr₂)
        refine ⟨next, rfl, ?_⟩
        rcases hrow₂ with hdead | ⟨-, -, -, hlater⟩
        · rw [hstatus] at hdead
          cases hdead
        · rw [← hat]
          exact hlater
      · rintro ⟨next', hnext', hlater⟩
        obtain rfl := Option.some.inj hnext'
        refine ⟨rfl, r', hr', .inr ⟨hstatus, hby, huntil, ?_⟩⟩
        rw [hat]
        exact hlater

end Handler

/-- **A failure is contained exactly when its delay is**: whatever a dispatcher raises, for a row that
waits. -/
theorem handleFailure_contained_iff {started recorded stored : ℤ} (hclocks : Clocks started recorded stored)
    (moved : ℤ) (d : Dispatch) (exc : Exc) (batch : List ClaimedRow) (db : Database K) {r : OutboxRow}
    (hr : db.outbox.find? d.row.outboxId = some r) (hpending : r.status = .pending) :
    Contained started d.row.outboxId batch (handleFailure rt recorded stored moved d exc batch db) ↔
      Containable rt started recorded stored d exc db := by
  obtain ⟨hfirst, hrecorded, hstored, hlast⟩ := hclocks
  unfold Containable
  cases hkind : (classify exc).kind with
  | MESSAGE_FATAL =>
      simp only [hkind, iff_true]
      exact handleFailure_rejected hkind hr
  | TRANSIENT =>
      rw [handleFailure_retried hkind hr]
      simp only [hkind]
      split_ifs with hspent
      · rw [Seconds.inCalendar_iff (by omega) (by omega)]
        simp only [hspent, true_or, and_true]
      · rw [Seconds.endsLater_iff hfirst (by omega) (by omega)]
        simp only [hspent, false_or]
  | CHANNEL_DOWN =>
      rw [handleFailure_parked hkind hr hpending, probeAfterFailure_later ⟨hfirst, hrecorded, hstored, hlast⟩]
      simp only [hkind]

/-! ## Two cards for Slack -/

/-- A card that a worker has claimed. -/
def claimedCard : OutboxRow where
  incidentId := "A"
  channel := .slack
  action := .create
  payload := {}
  nextAttemptAt := 0
  priority := 1
  lockedBy := some "w"
  lockedUntil := some 60000
  originChannel := .slack
  createdAt := 0

/-- The card of another incident, claimed with it. -/
def secondCard : OutboxRow := { claimedCard with incidentId := "B" }

/-- The queue with both cards. -/
def cardQueue : Database ℚ :=
  { Database.empty with outbox := (Table.empty.insert 1 claimedCard).insert 2 secondCard }

/-- The dispatch of the first. -/
def cardDispatch : Dispatch := ⟨claimedRow 1 claimedCard, .create, {}, none⟩

/-- What is left of the batch. -/
def restOfBatch : List ClaimedRow := [claimedRow 2 secondCard]

/-- A rate limit with so many seconds in its `Retry-After`. -/
def rateLimit (seconds : Seconds) : Exc := .httpStatusError ⟨429, some (some seconds)⟩

/-- A rate limit of half a minute is contained, and the second card is next. -/
theorem handleFailure_contained_iff_halfMinute : Clocks 1000 1000 1001 ∧
    cardQueue.outbox.find? cardDispatch.row.outboxId = some claimedCard ∧
    Containable Runtime.reference 1000 1000 1001 cardDispatch (rateLimit (.finite 30)) cardQueue ∧
    Contained 1000 1 restOfBatch (handleFailure Runtime.reference 1000 1001 1002 cardDispatch
      (rateLimit (.finite 30)) restOfBatch cardQueue) := by
  have hclocks : Clocks 1000 1000 1001 := ⟨by decide, by decide, by decide, by decide⟩
  have hdelay : Containable Runtime.reference 1000 1000 1001 cardDispatch (rateLimit (.finite 30)) cardQueue :=
    ⟨30000, by decide +kernel, by decide, by decide⟩
  exact ⟨hclocks, rfl, hdelay, (handleFailure_contained_iff Runtime.reference hclocks 1002 cardDispatch _
    restOfBatch cardQueue (rfl : _ = some claimedCard) rfl).2 hdelay⟩

/-- **A delay that is no number leaves the handler**: the row keeps its lease, and the second card is
not dispatched. -/
theorem not_handleFailure_contained : ¬ ∀ (d : Dispatch) (exc : Exc) (batch : List ClaimedRow)
    (db : Database ℚ) (r : OutboxRow), db.outbox.find? d.row.outboxId = some r → r.status = .pending →
    Contained 1000 d.row.outboxId batch (handleFailure Runtime.reference 1000 1001 1002 d exc batch db) := by
  intro hall
  have hcontained := hall cardDispatch (rateLimit .nan) restOfBatch cardQueue claimedCard rfl rfl
  have hphase : (handleFailure Runtime.reference 1000 1001 1002 cardDispatch (rateLimit .nan) restOfBatch
    cardQueue).1 = .idle := rfl
  have hgoesOn := hcontained.goesOn
  rw [hphase] at hgoesOn
  cases hgoesOn

end PulseGraph
