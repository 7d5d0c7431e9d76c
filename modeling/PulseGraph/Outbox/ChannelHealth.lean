/-
# The circuit breaker of a channel

`src/outbox/channel_health.py`: one row per channel says whether rows may be
dispatched to it, and one row per outage records it.  An operation that raises has
written nothing by then; the caller sees `none`.
-/

import PulseGraph.Db.Schema
import PulseGraph.Outbox.FailurePolicy

namespace PulseGraph

open Library (Table)

variable {K : Type} (rt : Runtime K)

/-- `ChannelState`. -/
structure ChannelState where
  channel : Channel
  state : BreakerState
  consecutiveFailures : ℤ
  probeBackoffStep : ℕ
  openedAt : Option ℤ
  nextProbeAt : Option ℤ
  lastError : Option String
  deriving DecidableEq

/-- `is_available`: whether the worker may dispatch ordinary rows to this channel. -/
def ChannelState.isAvailable (s : ChannelState) : Bool := s.state ≠ .OPEN

/-- `probe_due`. -/
def ChannelState.probeDue (now : ℤ) (s : ChannelState) : Bool :=
  s.state = .OPEN && (s.nextProbeAt.all fun t => decide (t ≤ now))

/-- `_probe_delay`; the power is converted to a float, which raises from `2 ** 1024` on. -/
def probeDelay (step : ℕ) : Option ℚ :=
  if step < 1024 then
    some (min (rt.settings.outboxProbeBaseSeconds * 2 ^ step) rt.settings.outboxProbeMaxSeconds)
  else none

/-- `now + _probe_delay(config, step)`. -/
def nextProbe (now : ℤ) (step : ℕ) : Option ℤ :=
  (probeDelay rt step).bind fun q => instantAfter now (.finite q)

/-- `_row_to_state`. -/
def rowToState (channel : Channel) (row : ChannelHealth) : ChannelState where
  channel := channel
  state := row.state
  consecutiveFailures := row.consecutiveFailures
  probeBackoffStep := row.probeBackoffStep
  openedAt := row.openedAt
  nextProbeAt := row.nextProbeAt
  lastError := row.lastError

/-- `ChannelHealthStore.get`. -/
def getState (channel : Channel) (db : Database K) : ChannelState :=
  match db.channelHealth.find? channel with
  | none => ⟨channel, .CLOSED, 0, 0, none, none, none⟩
  | some row => rowToState channel row

/-- `ChannelHealthStore.all_states`. -/
def allStates (db : Database K) : List ChannelState :=
  db.channelHealth.rows.map fun r => rowToState r.1 r.2

/-- `_upsert`: set the given fields, of a row with the schema's defaults where there is none. -/
def upsertHealth (channel : Channel) (now : ℤ) (fields : ChannelHealth → ChannelHealth)
    (db : Database K) : Database K :=
  { db with
    channelHealth := db.channelHealth.upsert channel { fields { updatedAt := now } with updatedAt := now }
      fun row => { fields row with updatedAt := now } }

/-- The outage of a channel still in progress:
`WHERE channel = ? AND recovered_at IS NULL ORDER BY outage_id DESC LIMIT 1`. -/
def openOutageRow (channel : Channel) (db : Database K) : Option (ℕ × ChannelOutage) :=
  firstBy (fun a b => decide (b.1 < a.1))
    (db.channelOutages.select fun _ o => o.channel = channel && o.recoveredAt.isNone)

/-- Rewrite the outage of a channel still in progress. -/
def modifyOpenOutage (channel : Channel) (f : ChannelOutage → ChannelOutage) (db : Database K) :
    Database K :=
  match openOutageRow channel db with
  | none => db
  | some row => { db with channelOutages := db.channelOutages.modify row.1 f }

/-- `open_outage`: when the outage in progress was detected, and the rows then queued. -/
def openOutage (channel : Channel) (db : Database K) : Option ℤ × ℕ :=
  match openOutageRow channel db with
  | none => (none, 0)
  | some row => (some row.2.detectedAt, row.2.queuedAtPeak)

/-- `mark_failed_over`. -/
def markFailedOver (channel : Channel) (count : ℕ) (db : Database K) : Database K :=
  modifyOpenOutage channel (fun o => { o with failedOver := o.failedOver + count }) db

/-- `_close_outage`. -/
def closeOutage (channel : Channel) (now : ℤ) (db : Database K) : Database K :=
  modifyOpenOutage channel (fun o => { o with recoveredAt := some now }) db

/-- `_next_outage_count`. -/
def nextOutageCount (channel : Channel) (db : Database K) : ℕ :=
  ((db.channelHealth.find? channel).map (·.outageCount)).getD 0 + 1

/-- `_queue_depth`. -/
def queueDepth (channel : Channel) (db : Database K) : ℕ :=
  db.outbox.count fun _ r => r.channel = channel && r.status = .pending

/-- `record_success`: whether the channel recovered, and the database after. -/
def recordSuccess (now : ℤ) (channel : Channel) (db : Database K) : Bool × Database K :=
  let recovered := (getState channel db).state ≠ .CLOSED
  let db := if recovered then closeOutage channel now db else db
  (recovered, upsertHealth channel now (fun row =>
    { row with
      state := .CLOSED
      consecutiveFailures := 0
      probeBackoffStep := 0
      openedAt := none
      nextProbeAt := none
      lastSuccessAt := some now }) db)

/-- The fields `record_failure` writes. -/
def failureFields (now : ℤ) (reason : String) (state : BreakerState) (failures : ℤ) (step : ℕ)
    (openedAt nextProbeAt : Option ℤ) (row : ChannelHealth) : ChannelHealth :=
  { row with
    state := state
    consecutiveFailures := failures
    probeBackoffStep := step
    openedAt := openedAt
    nextProbeAt := nextProbeAt
    lastFailureAt := some now
    lastError := some reason }

/-- `record_failure`: whether an outage is newly detected, and the database after. -/
def recordFailure (now : ℤ) (channel : Channel) (verdict : FailureVerdict) (db : Database K) :
    Option (Bool × Database K) :=
  let before := getState channel db
  let failures := before.consecutiveFailures + 1
  let write := fun state failures step openedAt nextProbeAt =>
    upsertHealth channel now
      (failureFields now verdict.reason state failures step openedAt nextProbeAt) db
  if !verdict.tripsBreaker then
    some (false, write before.state before.consecutiveFailures before.probeBackoffStep
      before.openedAt before.nextProbeAt)
  else if before.state = .HALF_OPEN then
    -- recovery was premature: straight back to OPEN, with a longer probe interval
    let step := before.probeBackoffStep + 1
    (nextProbe rt now step).map fun next =>
      (false, write .OPEN failures step (some (before.openedAt.getD now)) (some next))
  else if before.state = .OPEN then
    let step := before.probeBackoffStep + 1
    (nextProbe rt now step).map fun next =>
      (false, write .OPEN failures step before.openedAt (some next))
  else if failures < rt.settings.outboxBreakerFailureThreshold then
    some (false, write before.state failures before.probeBackoffStep before.openedAt before.nextProbeAt)
  else
    -- the threshold is crossed from CLOSED: the moment the channel is declared down
    let next := match verdict.retryAfterSeconds.filter Seconds.truthy with
      | some delay => instantAfter now delay
      | none => nextProbe rt now 0
    next.map fun next =>
      let db := upsertHealth channel now (fun row =>
        { failureFields now verdict.reason .OPEN failures 0 (some now) (some next) row with
          outageCount := nextOutageCount channel db }) db
      (true, { db with
        channelOutages := db.channelOutages.push
          { channel := channel
            detectedAt := now
            lastError := some verdict.reason
            queuedAtPeak := queueDepth channel db } })

/-- `record_probe_result`. -/
def recordProbeResult (now : ℤ) (channel : Channel) (healthy : Bool) (detail : String)
    (db : Database K) : Option (Database K) :=
  let before := getState channel db
  if healthy then
    some (upsertHealth channel now (fun row =>
      { row with
        state := .HALF_OPEN
        consecutiveFailures := 0
        probeBackoffStep := before.probeBackoffStep
        openedAt := before.openedAt
        nextProbeAt := none
        lastSuccessAt := some now }) db)
  else
    let step := before.probeBackoffStep + 1
    (nextProbe rt now step).map fun next =>
      modifyOpenOutage channel (fun o => { o with probeAttempts := o.probeAttempts + 1 })
        (upsertHealth channel now
          (failureFields now detail .OPEN before.consecutiveFailures step
            (some (before.openedAt.getD now)) (some next)) db)

/-! ## Which tables the breaker writes -/

/-- Two databases that differ in the two tables of the breaker at most. -/
def SameButHealth (db db' : Database K) : Prop :=
  db' = { db with channelHealth := db'.channelHealth, channelOutages := db'.channelOutages }

section Frame

variable {rt} {db db' : Database K} {channel : Channel} {now : ℤ}

theorem SameButHealth.refl (db : Database K) : SameButHealth db db := rfl

theorem SameButHealth.trans {a b c : Database K} (h₁ : SameButHealth a b) (h₂ : SameButHealth b c) :
    SameButHealth a c := by
  unfold SameButHealth at *
  rw [h₂, h₁]

theorem upsertHealth_frame (fields : ChannelHealth → ChannelHealth) :
    SameButHealth db (upsertHealth channel now fields db) := rfl

theorem modifyOpenOutage_frame (f : ChannelOutage → ChannelOutage) :
    SameButHealth db (modifyOpenOutage channel f db) := by
  unfold modifyOpenOutage
  split <;> rfl

theorem recordSuccess_frame : SameButHealth db (recordSuccess now channel db).2 := by
  unfold recordSuccess
  dsimp only
  split_ifs
  · exact (modifyOpenOutage_frame _).trans (upsertHealth_frame _)
  · exact upsertHealth_frame _

theorem recordFailure_frame {verdict : FailureVerdict} {newlyDown : Bool}
    (h : recordFailure rt now channel verdict db = some (newlyDown, db')) : SameButHealth db db' := by
  unfold recordFailure at h
  dsimp only at h
  split_ifs at h
  · obtain ⟨-, rfl⟩ := Prod.mk.inj (Option.some.inj h)
    exact upsertHealth_frame _
  · obtain ⟨next, -, h⟩ := Option.map_eq_some_iff.1 h
    obtain ⟨-, rfl⟩ := Prod.mk.inj h
    exact upsertHealth_frame _
  · obtain ⟨next, -, h⟩ := Option.map_eq_some_iff.1 h
    obtain ⟨-, rfl⟩ := Prod.mk.inj h
    exact upsertHealth_frame _
  · obtain ⟨-, rfl⟩ := Prod.mk.inj (Option.some.inj h)
    exact upsertHealth_frame _
  · obtain ⟨next, -, h⟩ := Option.map_eq_some_iff.1 h
    obtain ⟨-, rfl⟩ := Prod.mk.inj h
    rfl

theorem recordProbeResult_frame {healthy : Bool} {detail : String}
    (h : recordProbeResult rt now channel healthy detail db = some db') : SameButHealth db db' := by
  unfold recordProbeResult at h
  dsimp only at h
  split_ifs at h
  · obtain rfl := Option.some.inj h
    exact upsertHealth_frame _
  · obtain ⟨next, -, rfl⟩ := Option.map_eq_some_iff.1 h
    exact (upsertHealth_frame _).trans (modifyOpenOutage_frame _)

theorem markFailedOver_frame (count : ℕ) : SameButHealth db (markFailedOver channel count db) :=
  modifyOpenOutage_frame _

end Frame

/-! ## Reading the breaker back -/

section Read

variable {rt} {db db' : Database K} {channel : Channel} {now : ℤ}

/-- A channel's row after its fields were set. -/
theorem find?_upsertHealth (fields : ChannelHealth → ChannelHealth) :
    (upsertHealth channel now fields db).channelHealth.find? channel =
      some { fields ((db.channelHealth.find? channel).getD { updatedAt := now }) with updatedAt := now } := by
  refine (Table.find?_upsert _).trans ?_
  rw [if_pos rfl]
  cases db.channelHealth.find? channel <;> rfl

theorem getState_modifyOpenOutage (f : ChannelOutage → ChannelOutage) (c : Channel) :
    getState c (modifyOpenOutage channel f db) = getState c db := by
  unfold modifyOpenOutage
  split <;> rfl

/-- A probe leaves its channel on trial, or down. -/
theorem recordProbeResult_state {healthy : Bool} {detail : String}
    (h : recordProbeResult rt now channel healthy detail db = some db') :
    (getState channel db').state = if healthy then .HALF_OPEN else .OPEN := by
  unfold recordProbeResult at h
  dsimp only at h
  split_ifs at h with hh
  · obtain rfl := Option.some.inj h
    rw [if_pos hh, getState, find?_upsertHealth]
    rfl
  · obtain ⟨next, -, rfl⟩ := Option.map_eq_some_iff.1 h
    rw [if_neg hh, getState_modifyOpenOutage, getState, find?_upsertHealth]
    rfl

/-- The other channels' rows are left alone. -/
theorem getState_upsertHealth_of_ne {c : Channel} (hc : c ≠ channel) (fields : ChannelHealth → ChannelHealth) :
    getState c (upsertHealth channel now fields db) = getState c db := by
  have hfind : (upsertHealth channel now fields db).channelHealth.find? c = db.channelHealth.find? c :=
    (Table.find?_upsert _).trans (if_neg hc)
  unfold getState
  rw [hfind]

/-- The state of a channel whose state was set. -/
theorem getState_upsertHealth_state {fields : ChannelHealth → ChannelHealth} {state : BreakerState}
    (h : ∀ row, (fields row).state = state) :
    (getState channel (upsertHealth channel now fields db)).state = state := by
  rw [getState, find?_upsertHealth]
  exact h _

/-- A delivery that succeeds closes its channel, and leaves the others alone. -/
theorem recordSuccess_state (c : Channel) : (getState c (recordSuccess now channel db).2).state =
    if c = channel then .CLOSED else (getState c db).state := by
  unfold recordSuccess
  dsimp only
  split_ifs with hrecovered hc hc
  · subst hc
    exact getState_upsertHealth_state fun _ => rfl
  · rw [getState_upsertHealth_of_ne hc, closeOutage, getState_modifyOpenOutage]
  · subst hc
    exact getState_upsertHealth_state fun _ => rfl
  · rw [getState_upsertHealth_of_ne hc]

/-- The state of a channel whose fields were set. -/
theorem getState_upsertHealth (fields : ChannelHealth → ChannelHealth) :
    getState channel (upsertHealth channel now fields db) = rowToState channel
      { fields ((db.channelHealth.find? channel).getD { updatedAt := now }) with updatedAt := now } := by
  rw [getState, find?_upsertHealth]

@[simp] theorem getState_channel (channel : Channel) (db : Database K) :
    (getState channel db).channel = channel := by
  unfold getState
  split <;> rfl

/-- The outages after a channel is declared down. -/
def declaredOutages (now : ℤ) (channel : Channel) (reason : String) (db : Database K) :
    Table ℕ ChannelOutage :=
  db.channelOutages.push
    { channel := channel
      detectedAt := now
      lastError := some reason
      queuedAtPeak := queueDepth channel db }

/-- What recording a failure does to its channel, and whether that is an outage newly detected. -/
inductive FailureMove (rt : Runtime K) (now : ℤ) (channel : Channel) (verdict : FailureVerdict)
    (db db' : Database K) : Bool → Prop
  /-- the channel is not implicated -/
  | spared : verdict.tripsBreaker = false →
      getState channel db' = { getState channel db with lastError := some verdict.reason } →
      db'.channelOutages = db.channelOutages → FailureMove rt now channel verdict db db' false
  /-- one more failure during an outage -/
  | setBack {next : ℤ} : verdict.tripsBreaker = true → (getState channel db).state ≠ .CLOSED →
      nextProbe rt now ((getState channel db).probeBackoffStep + 1) = some next →
      (getState channel db').state = .OPEN →
      (getState channel db').consecutiveFailures = (getState channel db).consecutiveFailures + 1 →
      (getState channel db').probeBackoffStep = (getState channel db).probeBackoffStep + 1 →
      (getState channel db').nextProbeAt = some next →
      db'.channelOutages = db.channelOutages → FailureMove rt now channel verdict db db' false
  /-- one more failure below the threshold -/
  | counted : verdict.tripsBreaker = true → (getState channel db).state = .CLOSED →
      (getState channel db).consecutiveFailures + 1 < rt.settings.outboxBreakerFailureThreshold →
      getState channel db' =
        { getState channel db with
          consecutiveFailures := (getState channel db).consecutiveFailures + 1
          lastError := some verdict.reason } →
      db'.channelOutages = db.channelOutages → FailureMove rt now channel verdict db db' false
  /-- the failure that declares the channel down -/
  | declared {next : ℤ} : verdict.tripsBreaker = true → (getState channel db).state = .CLOSED →
      rt.settings.outboxBreakerFailureThreshold ≤ (getState channel db).consecutiveFailures + 1 →
      getState channel db' = ⟨channel, .OPEN, (getState channel db).consecutiveFailures + 1, 0,
        some now, some next, some verdict.reason⟩ →
      db'.channelOutages = declaredOutages now channel verdict.reason db →
      FailureMove rt now channel verdict db db' true

/-- Rewriting the outage in progress reads the outages alone. -/
theorem outages_modifyOpenOutage (f : ChannelOutage → ChannelOutage)
    (h : db'.channelOutages = db.channelOutages) :
    (modifyOpenOutage channel f db').channelOutages = (modifyOpenOutage channel f db).channelOutages := by
  have hread : ∀ db : Database K, (modifyOpenOutage channel f db).channelOutages =
      (openOutageRow channel db).elim db.channelOutages fun row => db.channelOutages.modify row.1 f := by
    intro db
    unfold modifyOpenOutage
    split
    · next hrow => rw [hrow]; rfl
    · next row hrow => rw [hrow]; rfl
  rw [hread, hread, openOutageRow, openOutageRow, h]

/-- **What recording a probe does**: a channel that answers is on trial, one that does not stays
down for longer. -/
theorem recordProbeResult_move {healthy : Bool} {detail : String}
    (h : recordProbeResult rt now channel healthy detail db = some db') :
    (∀ c, c ≠ channel → getState c db' = getState c db) ∧
    ((healthy = true ∧ (getState channel db').state = .HALF_OPEN ∧
        (getState channel db').probeBackoffStep = (getState channel db).probeBackoffStep ∧
        db'.channelOutages = db.channelOutages) ∨
      (healthy = false ∧ (getState channel db').state = .OPEN ∧
        (getState channel db').probeBackoffStep = (getState channel db).probeBackoffStep + 1 ∧
        db'.channelOutages = (modifyOpenOutage channel
          (fun o => { o with probeAttempts := o.probeAttempts + 1 }) db).channelOutages)) := by
  unfold recordProbeResult at h
  dsimp only at h
  split_ifs at h with hh
  · obtain rfl := Option.some.inj h
    refine ⟨fun c hc => getState_upsertHealth_of_ne hc _, .inl ⟨hh, ?_, ?_, rfl⟩⟩
    all_goals rw [getState_upsertHealth]; rfl
  · obtain ⟨next, -, rfl⟩ := Option.map_eq_some_iff.1 h
    refine ⟨fun c hc => ?_, .inr ⟨by simpa using hh, ?_, ?_, ?_⟩⟩
    · rw [getState_modifyOpenOutage, getState_upsertHealth_of_ne hc]
    · rw [getState_modifyOpenOutage, getState_upsertHealth]
      rfl
    · rw [getState_modifyOpenOutage, getState_upsertHealth]
      rfl
    · exact outages_modifyOpenOutage _ rfl

/-- **What recording a success does**: its channel is closed, with nothing counted against it. -/
theorem recordSuccess_move :
    ((getState channel (recordSuccess now channel db).2).state = .CLOSED ∧
      (getState channel (recordSuccess now channel db).2).consecutiveFailures = 0 ∧
      (getState channel (recordSuccess now channel db).2).probeBackoffStep = 0) ∧
    (∀ c, c ≠ channel → getState c (recordSuccess now channel db).2 = getState c db) ∧
    (recordSuccess now channel db).2.channelOutages = (if (getState channel db).state = .CLOSED then db
      else closeOutage channel now db).channelOutages := by
  have hread : (recordSuccess now channel db).2 = upsertHealth channel now (fun row =>
      { row with
        state := .CLOSED
        consecutiveFailures := 0
        probeBackoffStep := 0
        openedAt := none
        nextProbeAt := none
        lastSuccessAt := some now })
      (if (getState channel db).state = .CLOSED then db else closeOutage channel now db) := by
    by_cases hclosed : (getState channel db).state = .CLOSED <;> simp [recordSuccess, hclosed]
  rw [hread]
  refine ⟨?_, fun c hc => ?_, rfl⟩
  · rw [getState_upsertHealth]
    exact ⟨rfl, rfl, rfl⟩
  · rw [getState_upsertHealth_of_ne hc]
    split_ifs
    · rfl
    · exact getState_modifyOpenOutage _ c

/-- **What recording a failure does.** -/
theorem recordFailure_move {verdict : FailureVerdict} {newlyDown : Bool}
    (h : recordFailure rt now channel verdict db = some (newlyDown, db')) :
    FailureMove rt now channel verdict db db' newlyDown ∧
      ∀ c, c ≠ channel → getState c db' = getState c db := by
  have hothers : ∀ (fields : ChannelHealth → ChannelHealth) c, c ≠ channel →
      getState c (upsertHealth channel now fields db) = getState c db :=
    fun fields c hc => getState_upsertHealth_of_ne hc fields
  unfold recordFailure at h
  dsimp only at h
  split_ifs at h with htrips hhalf hdown hbelow
  · obtain ⟨rfl, rfl⟩ := Prod.mk.inj (Option.some.inj h)
    refine ⟨.spared (by simpa using htrips) ?_ rfl, hothers _⟩
    rw [getState_upsertHealth]
    simp [rowToState, failureFields]
  · obtain ⟨next, hnext, h⟩ := Option.map_eq_some_iff.1 h
    obtain ⟨rfl, rfl⟩ := Prod.mk.inj h
    have hne : (getState channel db).state ≠ .CLOSED := by simp [hhalf]
    refine ⟨.setBack (by simpa using htrips) hne hnext ?_ ?_ ?_ ?_ rfl, hothers _⟩ <;>
      rw [getState_upsertHealth] <;> rfl
  · obtain ⟨next, hnext, h⟩ := Option.map_eq_some_iff.1 h
    obtain ⟨rfl, rfl⟩ := Prod.mk.inj h
    have hne : (getState channel db).state ≠ .CLOSED := by simp [hdown]
    refine ⟨.setBack (by simpa using htrips) hne hnext ?_ ?_ ?_ ?_ rfl, hothers _⟩ <;>
      rw [getState_upsertHealth] <;> rfl
  all_goals
    have hclosed : (getState channel db).state = .CLOSED := by
      cases hs : (getState channel db).state with
      | CLOSED => rfl
      | OPEN => exact absurd hs hdown
      | HALF_OPEN => exact absurd hs hhalf
  · obtain ⟨rfl, rfl⟩ := Prod.mk.inj (Option.some.inj h)
    refine ⟨.counted (by simpa using htrips) hclosed hbelow ?_ rfl, hothers _⟩
    rw [getState_upsertHealth]
    simp [rowToState, failureFields]
  · obtain ⟨next, -, h⟩ := Option.map_eq_some_iff.1 h
    obtain ⟨rfl, rfl⟩ := Prod.mk.inj h
    exact ⟨.declared (by simpa using htrips) hclosed (not_lt.1 hbelow) (getState_upsertHealth _) rfl,
      hothers _⟩

/-- **A failure that takes a breaker from `CLOSED` to `OPEN`** is a failure of that channel, and
reported as an outage newly detected. -/
theorem recordFailure_opens {verdict : FailureVerdict} {newlyDown : Bool} {c : Channel}
    (h : recordFailure rt now channel verdict db = some (newlyDown, db'))
    (hclosed : (getState c db).state = .CLOSED) (hopen : (getState c db').state = .OPEN) :
    c = channel ∧ newlyDown = true ∧ verdict.kind = .CHANNEL_DOWN ∧
      ∀ f, f ≠ channel → getState f db' = getState f db := by
  obtain ⟨hmove, hothers⟩ := recordFailure_move h
  have hc : c = channel := by
    by_contra hc
    rw [hothers c hc, hclosed] at hopen
    cases hopen
  subst hc
  cases hmove with
  | spared _ hstate _ =>
      rw [hstate] at hopen
      exact absurd (hclosed.symm.trans hopen) (by decide)
  | setBack _ hne => exact absurd hclosed hne
  | counted _ _ _ hstate _ =>
      rw [hstate] at hopen
      exact absurd (hclosed.symm.trans hopen) (by decide)
  | declared htrips _ _ _ _ =>
      exact ⟨rfl, rfl, by simpa [FailureVerdict.tripsBreaker] using htrips, hothers⟩

end Read

end PulseGraph
