/-
# The queue drains

`src/outbox/worker.py`: "That split is what makes a Slack outage a delivery problem rather than a
data-loss problem".  An outage ends when a probe succeeds, and what it left behind is delivered by
the passes that follow.  `backlog` counts the rows that wait, and an open channel for two: the probe
that ends its outage may queue a digest.

**Proved here.**  `queue_drains`: from any database, once every probe and every call succeeds and the
clocks are past what they wait for, `backlog` many passes of a worker leave no row waiting and no
channel open, and every row that waited is sent or superseded.  `exists_passes`: a worker that is
answered so gets to the end of as many passes as one likes.
-/

import PulseGraph.Outbox.LeaseHygiene
import PulseGraph.Outbox.Probing

namespace PulseGraph

open Library (Table Run Transition)

variable {K : Type}

/-! ## What is still to be done -/

/-- The rows that wait to be sent. -/
def waiting (db : Database K) : ℕ := db.outbox.count fun _ r => r.status = .pending

/-- The channels that are declared down. -/
def openChannels (db : Database K) : ℕ := knownChannels.countP fun c => (getState c db).state = .OPEN

/-- What the passes still have to do. -/
def backlog (db : Database K) : ℕ := waiting db + 2 * openChannels db

/-- A row that waits, is due, and is under no live lease. -/
def OutboxRow.dueAt (now : ℤ) (r : OutboxRow) : Bool :=
  r.status = .pending && decide (r.nextAttemptAt ≤ now) && r.lockedUntil.all fun t => decide (t ≤ now)

/-- **The providers answer, and the clocks are late enough**: a probe or a call that returns has
succeeded, the state of a channel is looked at once its probe is due, and a claim finds a row due if
any row waits. -/
def healthy (s : Phase × Database K) : WorkerStep → Bool
  | .look now => match s.1 with
    | .probing (state :: _) => state.nextProbeAt.all fun t => decide (t ≤ now)
    | _ => true
  | .probeReturns _ outcome => outcome.isNone
  | .claim _ => match s.1 with
    | .coalesced now _ _ => waiting s.2 = 0 || 0 < s.2.outbox.count fun _ r => r.dueAt now
    | _ => true
  | .callReturns _ outcome => outcome.isOk
  | .crash => false
  | _ => true

/-- The runs of a worker that nothing else interrupts, from a database. -/
def WorkerRun (rt : Runtime K) (w : String) (db : Database K) :
    List (Transition (Phase × Database K) WorkerStep) → Phase × Database K → Prop :=
  Run (fun s => s = (.idle, db)) fun s step s' => workerNext rt w s.1 s.2 step = some s'

/-- The pass is over. -/
def fallsAsleep (t : Transition (Phase × Database K) WorkerStep) : Bool := t.label matches .sleep

/-- The passes that are over. -/
def endedPasses (h : List (Transition (Phase × Database K) WorkerStep)) : ℕ := h.countP fallsAsleep

/-! ## What a step does to the count -/

section Counts

variable {rt : Runtime K} {w : String} {db db' : Database K} {channel : Channel} {now : ℤ} {k : ℕ}

theorem waiting_le (h : ∀ k r', db'.outbox.find? k = some r' → r'.status = .pending →
    ∃ r, db.outbox.find? k = some r ∧ r.status = .pending) : waiting db' ≤ waiting db := by
  refine Table.count_le fun k r' hr' hp => ?_
  obtain ⟨r, hr, hpending⟩ := h k r' hr' (of_decide_eq_true hp)
  exact ⟨r, hr, decide_eq_true hpending⟩

/-- A row that waits after a collapse waited before. -/
theorem Collapse.waiting_le {chs : Channel → Prop} (h : Collapse chs db.outbox db'.outbox) :
    waiting db' ≤ waiting db := by
  refine PulseGraph.waiting_le fun k r' hr' hp => ?_
  obtain ⟨r, hr, hcol, -⟩ := h.source hr'
  cases hcol with
  | same => exact ⟨_, hr, hp⟩
  | winner via hpending => exact ⟨r, hr, hpending⟩
  | loser hpending => exact ⟨r, hr, hpending⟩

/-- A row that was counted, and waits no longer. -/
theorem waiting_markSent {newRef : Option String} :
    waiting (markSent now k newRef db) ≤ waiting db ∧
      ∀ r, db.outbox.find? k = some r → r.status = .pending → waiting (markSent now k newRef db) < waiting db := by
  have hfind : ∀ j r', (markSent now k newRef db).outbox.find? j = some r' → r'.status = .pending →
      db.outbox.find? j = some r' ∧ j ≠ k := by
    intro j r' hr' hp
    change (Table.modify _ _ _).find? j = _ at hr'
    rw [Table.find?_modify] at hr'
    split_ifs at hr' with hj
    · obtain ⟨r, -, rfl⟩ := Option.map_eq_some_iff.1 hr'
      cases hp
    · exact ⟨hr', hj⟩
  refine ⟨waiting_le fun j r' hr' hp => ⟨r', (hfind j r' hr' hp).1, hp⟩, fun r hr hp => ?_⟩
  have hmodify := @Table.sum_modify _ _ _ db.outbox k r (fun _ r => if r.status = .pending then 1 else 0) hr
    fun r => { r.unlock with status := .sent, sentAt := some now, externalRef := newRef.or r.externalRef }
  have hsent : OutboxStatus.sent ≠ .pending := by decide
  simp only [if_pos hp, if_neg hsent] at hmodify
  unfold waiting markSent
  simp only [Table.count_eq_sum, decide_eq_true_eq]
  omega

/-- A channel that was down, and is not any longer. -/
theorem openChannels_lt (hopen : (getState channel db).state = .OPEN)
    (hup : (getState channel db').state ≠ .OPEN)
    (hsame : ∀ c, c ≠ channel → getState c db' = getState c db) : openChannels db' + 1 ≤ openChannels db := by
  unfold openChannels knownChannels
  simp only [List.countP_cons, List.countP_nil]
  cases channel with
  | slack =>
      rw [hsame .pagerduty (by decide), hsame .email (by decide), decide_eq_true hopen, decide_eq_false hup]
      simp only [if_true, Bool.false_eq_true, if_false]
      omega
  | pagerduty =>
      rw [hsame .slack (by decide), hsame .email (by decide), decide_eq_true hopen, decide_eq_false hup]
      simp only [if_true, Bool.false_eq_true, if_false]
      omega
  | email =>
      rw [hsame .slack (by decide), hsame .pagerduty (by decide), decide_eq_true hopen, decide_eq_false hup]
      simp only [if_true, Bool.false_eq_true, if_false]
      omega

/-- The backlog of a recovered channel is collapsed, and a digest is queued at most. -/
theorem waiting_prepareBacklog : waiting (prepareBacklog now channel db) ≤ waiting db + 1 := by
  have hcol : waiting (coalescePending channel db).2 ≤ waiting db :=
    Collapse.waiting_le (coalescePending_collapse channel db)
  unfold prepareBacklog
  dsimp only
  split
  · next digest _ =>
      refine Nat.le_trans (Nat.le_of_eq ?_) (Nat.succ_le_succ hcol)
      have hnew : (coalescePending channel db).2.outbox.find? (coalescePending channel db).2.outbox.nextKey = none :=
        Table.find?_nextKey
      unfold waiting enqueueRecoveryDigest
      rw [Table.count_eq_sum, Table.push, Table.sum_insert hnew, ← Table.count_eq_sum]
      rfl
  · exact Nat.le_succ_of_le hcol

/-- **A probe that succeeds** puts its channel on trial, and takes from the backlog what it adds. -/
theorem afterProbe_backlog (hopen : (getState channel db).state = .OPEN)
    (h : afterProbe rt now channel none db = some db') : backlog db' ≤ backlog db ∧
      (getState channel db').state = .HALF_OPEN ∧ ∀ c, c ≠ channel → getState c db' = getState c db := by
  unfold afterProbe at h
  obtain ⟨db₁, hrecord, rfl⟩ := Option.map_eq_some_iff.1 h
  have hstate : (getState channel db₁).state = .HALF_OPEN := recordProbeResult_state hrecord
  have hsame := (recordProbeResult_move hrecord).1
  rw [if_pos hstate]
  have hbreakers : ∀ c, getState c (prepareBacklog now channel db₁) = getState c db₁ :=
    getState_congr (prepareBacklog_breakers now channel).1
  have hup : (getState channel (prepareBacklog now channel db₁)).state = .HALF_OPEN := by rw [hbreakers, hstate]
  have hothers : ∀ c, c ≠ channel → getState c (prepareBacklog now channel db₁) = getState c db := fun c hc => by
    rw [hbreakers, hsame c hc]
  refine ⟨?_, hup, hothers⟩
  have hqueue : waiting db₁ = waiting db := by
    unfold waiting
    rw [(recordProbeResult_frame hrecord).outbox]
  have hopens := openChannels_lt hopen (by rw [hup]; decide) hothers
  have hwaiting := @waiting_prepareBacklog _ db₁ channel now
  unfold backlog
  omega

end Counts

/-! ## Where a pass stands -/

/-- The breaker states that are left to look at are as they were read. -/
structure AsRead (db : Database K) (states : List ChannelState) : Prop where
  nodup : (states.map (·.channel)).Nodup
  current : ∀ state ∈ states, getState state.channel db = state

/-- The row waits. -/
def StillWaits (k : ℕ) (db : Database K) : Prop := ∃ r, db.outbox.find? k = some r ∧ r.status = .pending

/-- No channel is declared down. -/
def AllUp (db : Database K) : Prop := ∀ c, (getState c db).state ≠ .OPEN

/-- **A pass takes something off the backlog**: from `n`, it leads to `n - 1` once the first row of its
batch is sent. -/
def CatchesUp (w : String) (n : ℕ) (db : Database K) : Phase → Prop
  | .idle => backlog db ≤ n
  | .probing states => backlog db ≤ n ∧ AsRead db states ∧
      ∀ c, (getState c db).state = .OPEN → c ∈ states.map (·.channel)
  | .awaitingProbe channel states => backlog db ≤ n ∧ AsRead db states ∧ (getState channel db).state = .OPEN ∧
      channel ∉ states.map (·.channel) ∧
      ∀ c, (getState c db).state = .OPEN → c = channel ∨ c ∈ states.map (·.channel)
  | .polled _ available _ => backlog db ≤ n ∧ AllUp db ∧ ∀ c, c ∈ available
  | .coalesced _ available _ => backlog db ≤ n ∧ AllUp db ∧ ∀ c, c ∈ available
  | .leased leaseUntil _ => backlog db ≤ n ∧ AllUp db ∧
      (backlog db ≤ n - 1 ∨ leasedRows w leaseUntil db ≠ [])
  | .draining batch => AllUp db ∧
      (backlog db ≤ n - 1 ∨ backlog db ≤ n ∧ ∃ row, batch.head? = some row ∧ StillWaits row.outboxId db)
  | .prepared d _ => AllUp db ∧ (backlog db ≤ n - 1 ∨ backlog db ≤ n ∧ StillWaits d.row.outboxId db)
  | .calling d _ => AllUp db ∧ (backlog db ≤ n - 1 ∨ backlog db ≤ n ∧ StillWaits d.row.outboxId db)
  | .delivered d _ _ => AllUp db ∧ (backlog db ≤ n - 1 ∨ backlog db ≤ n ∧ StillWaits d.row.outboxId db)
  | .marked _ _ => AllUp db ∧ backlog db ≤ n - 1
  | .failed _ _ _ => False
  | .charged _ _ _ _ _ => False
  | .failingOver _ _ => False

section Pass

variable {rt : Runtime K} {w : String} {n : ℕ} {db db' : Database K} {phase phase' : Phase} {step : WorkerStep}

/-- Nothing is counted but the queue where no channel is down. -/
theorem AllUp.backlog_eq (h : AllUp db) : backlog db = waiting db := by
  have hnone : openChannels db = 0 := List.countP_eq_zero.2 fun c _ hc => h c (of_decide_eq_true hc)
  unfold backlog
  omega

theorem AllUp.backlog_le (h : AllUp db') (hwaiting : waiting db' ≤ waiting db) : backlog db' ≤ backlog db := by
  rw [h.backlog_eq]
  exact hwaiting.trans (Nat.le_add_right _ _)

/-- A worker reads every channel that is down. -/
theorem asRead_allStates (db : Database K) : AsRead db (allStates db) ∧
    ∀ c, (getState c db).state = .OPEN → c ∈ (allStates db).map (·.channel) := by
  refine ⟨⟨(sees_allStates db).nodup, fun state hstate => ?_⟩, fun c hopen => ?_⟩
  · obtain ⟨⟨c, row⟩, hrow, rfl⟩ := List.mem_map.1 hstate
    have hfind : db.channelHealth.find? c = some row := Table.find?_eq_some_iff.2 hrow
    show getState c db = rowToState c row
    rw [getState, hfind]
  · unfold getState at hopen
    cases hfind : db.channelHealth.find? c with
    | none =>
        rw [hfind] at hopen
        cases hopen
    | some row =>
        exact List.mem_map.2 ⟨rowToState c row, List.mem_map.2 ⟨(c, row), Table.find?_eq_some_iff.1 hfind, rfl⟩, rfl⟩

/-- **A claim with a row due** gets a row. -/
theorem leasedRows_ne_nil {available : List Channel} {now leaseUntil : ℤ} {k : ℕ} {r : OutboxRow}
    (hlimit : rt.settings.outboxBatchSize ≠ 0) (hall : ∀ c, c ∈ available)
    (hr : db.outbox.find? k = some r) (hdue : r.dueAt now = true) :
    leasedRows w leaseUntil (takeLease rt w available now leaseUntil db) ≠ [] := by
  have hclaimable : claimable available now r = true := by
    unfold OutboxRow.dueAt at hdue
    unfold claimable
    rw [List.contains_iff_mem.2 (hall r.channel), Bool.and_true]
    exact hdue
  have hmem : (k, r) ∈ drainOrder (db.outbox.select fun _ r => claimable available now r) := by
    unfold drainOrder
    rw [List.mem_insertionSort, Table.mem_select]
    exact ⟨hr, hclaimable⟩
  obtain ⟨j, hj⟩ : ∃ j, j ∈ claimIds rt available now db := by
    unfold claimIds sqlLimit
    cases hrows : drainOrder (db.outbox.select fun _ r => claimable available now r) with
    | nil =>
        rw [hrows] at hmem
        cases hmem
    | cons row rows =>
        refine ⟨row.1, ?_⟩
        split_ifs with hneg
        · exact List.mem_map_of_mem List.mem_cons_self
        · obtain ⟨m, hm⟩ : ∃ m, rt.settings.outboxBatchSize.toNat = m + 1 :=
            ⟨rt.settings.outboxBatchSize.toNat - 1, by omega⟩
          rw [hm]
          exact List.mem_map_of_mem List.mem_cons_self
  obtain ⟨r', hr', hclaimed⟩ := mem_claimIds hj
  have hpending : r'.status = .pending := by
    simp only [claimable, Bool.and_eq_true, decide_eq_true_eq] at hclaimed
    exact hclaimed.1.1.1
  intro hnil
  have hid : j ∈ (leasedRows w leaseUntil (takeLease rt w available now leaseUntil db)).map (·.outboxId) := by
    refine mem_leasedRows_ids.2 ⟨{ r' with lockedBy := some w, lockedUntil := some leaseUntil }, ?_, hpending, rfl, rfl⟩
    rw [find?_takeLease, hr', Option.map_some, if_pos (List.contains_iff_mem.2 hj)]
  rw [hnil] at hid
  cases hid

/-- The allowance of a channel on trial lets the first row through. -/
theorem head?_trimHalfOpen {halfOpen : List Channel} {allowance : ℤ} (hallowance : 1 ≤ allowance)
    (rows : List ClaimedRow) : (trimHalfOpen halfOpen allowance (fun _ => 0) rows).head? = rows.head? := by
  cases rows with
  | nil => rfl
  | cons row rows =>
      rw [trimHalfOpen]
      split_ifs with htrial hspent
      · omega
      · rfl
      · rfl

/-- A look at the next channel: it is probed, if it is down. -/
theorem CatchesUp.look {now : ℤ} {state : ChannelState} {states : List ChannelState}
    (hI : CatchesUp w n db (.probing (state :: states)))
    (hnext : workerNext rt w (.probing (state :: states)) db (.look now) = some (phase', db'))
    (hlate : state.nextProbeAt.all (fun t => decide (t ≤ now)) = true) : CatchesUp w n db' phase' := by
  obtain ⟨hle, ⟨hnodup, hcurrent⟩, hopens⟩ := hI
  have hread : getState state.channel db = state := hcurrent state List.mem_cons_self
  obtain ⟨hnew, hrest⟩ := List.nodup_cons.1 hnodup
  have htail : AsRead db states := ⟨hrest, fun st hst => hcurrent st (List.mem_cons_of_mem _ hst)⟩
  simp only [workerNext] at hnext
  split_ifs at hnext with hdue
  · obtain ⟨rfl, rfl⟩ := Prod.mk.inj (Option.some.inj hnext)
    have hopen : state.state = .OPEN := by
      have hboth := hdue.1
      unfold ChannelState.probeDue at hboth
      exact of_decide_eq_true (Bool.and_eq_true_iff.1 hboth).1
    exact ⟨hle, htail, by rw [hread]; exact hopen, hnew, fun c hc => List.mem_cons.1 (hopens c hc)⟩
  · obtain ⟨rfl, rfl⟩ := Prod.mk.inj (Option.some.inj hnext)
    refine ⟨hle, htail, fun c hc => ?_⟩
    rcases List.mem_cons.1 (hopens c hc) with rfl | hmem
    · -- it would have been due
      rw [hread] at hc
      refine absurd ⟨?_, by cases state.channel <;> decide⟩ hdue
      unfold ChannelState.probeDue
      rw [hc, hlate]
      rfl
    · exact hmem

/-- **A step of a pass** whose calls are answered. -/
theorem CatchesUp.next (hI : CatchesUp w n db phase)
    (hnext : workerNext rt w phase db step = some (phase', db')) (hhealthy : healthy (phase, db) step = true)
    (hlimit : rt.settings.outboxBatchSize ≠ 0) (hallowance : 1 ≤ rt.settings.outboxHalfOpenAllowance)
    (hgoesOn : step ≠ .sleep) : CatchesUp w n db' phase' := by
  cases workerNext_move hnext with
  | wake => exact ⟨hI, asRead_allStates db⟩
  | look hdue => exact CatchesUp.look hI hnext hhealthy
  | skip => exact CatchesUp.look hI hnext hhealthy
  | probeRaises hraises =>
      obtain rfl : _ = none := Option.isNone_iff_eq_none.1 hhealthy
      unfold afterProbe recordProbeResult at hraises
      cases hraises
  | @probed now outcome channel states db' hprobe =>
      obtain rfl : outcome = none := Option.isNone_iff_eq_none.1 hhealthy
      obtain ⟨hle, ⟨hnodup, hcurrent⟩, hopen, hnew, hopens⟩ := hI
      obtain ⟨hless, hup, hsame⟩ := afterProbe_backlog hopen hprobe
      have hne : ∀ st ∈ states, st.channel ≠ channel := fun st hst he => hnew (he ▸ List.mem_map_of_mem hst)
      refine ⟨hless.trans hle, ⟨hnodup, fun st hst => by rw [hsame _ (hne st hst)]; exact hcurrent st hst⟩,
        fun c hc => ?_⟩
      by_cases heq : c = channel
      · rw [heq, hup] at hc
        cases hc
      · rw [hsame c heq] at hc
        exact (hopens c hc).resolve_left heq
  | nothingUp => exact hI.1
  | poll =>
      obtain ⟨hle, -, hopens⟩ := hI
      have hup : AllUp db := fun c hc => absurd (hopens c hc) List.not_mem_nil
      refine ⟨hle, hup, fun c => List.mem_filter.2 ⟨by cases c <;> decide, ?_⟩⟩
      exact decide_eq_true (hup c)
  | @coalesce now available halfOpen =>
      obtain ⟨hle, hup, hall⟩ := hI
      have hup' : AllUp (coalesceAvailable available db) := fun c => by
        rw [getState_congr (coalesceAvailable_breakers available).1]
        exact hup c
      exact ⟨(hup'.backlog_le (coalesceAvailable_collapse available db).waiting_le).trans hle, hup', hall⟩
  | @claim clock now available halfOpen =>
      obtain ⟨hle, hup, hall⟩ := hI
      have hup' : AllUp (takeLease rt w available now (secondsAfter clock rt.settings.outboxLeaseSeconds) db) := hup
      have hwaiting : waiting (takeLease rt w available now (secondsAfter clock rt.settings.outboxLeaseSeconds) db) ≤
          waiting db := by
        refine waiting_le fun k r' hr' hp => ?_
        rw [find?_takeLease] at hr'
        obtain ⟨r, hr, rfl⟩ := Option.map_eq_some_iff.1 hr'
        split_ifs at hp
        · exact ⟨r, hr, hp⟩
        · exact ⟨r, hr, hp⟩
      refine ⟨(hup'.backlog_le hwaiting).trans hle, hup', ?_⟩
      rcases Bool.or_eq_true_iff.1 hhealthy with hnone | hdue
      · refine .inl ?_
        have hzero : waiting db = 0 := of_decide_eq_true hnone
        rw [hup'.backlog_eq]
        omega
      · refine .inr ?_
        obtain ⟨⟨k, r⟩, hrow, hr⟩ := List.countP_pos_iff.1 (of_decide_eq_true hdue)
        exact leasedRows_ne_nil hlimit hall (Table.find?_eq_some_iff.2 hrow) hr
  | @select leaseUntil halfOpen =>
      obtain ⟨hle, hup, hless | hrows⟩ := hI
      · exact ⟨hup, .inl hless⟩
      · refine ⟨hup, .inr ⟨hle, ?_⟩⟩
        rw [head?_trimHalfOpen hallowance]
        obtain ⟨row, rows, heq⟩ := List.exists_cons_of_ne_nil hrows
        have hmem : row ∈ leasedRows w leaseUntil db := heq ▸ List.mem_cons_self
        obtain ⟨k, r, hr, rfl, hp, -⟩ := mem_leasedRows hmem
        exact ⟨claimedRow k r, by rw [heq]; rfl, r, hr, hp⟩
  | @prepare row batch =>
      obtain ⟨hup, hless | ⟨hle, row', hhead, hwaits⟩⟩ := hI
      · exact ⟨hup, .inl hless⟩
      · obtain rfl := Option.some.inj hhead
        refine ⟨hup, .inr ⟨hle, ?_⟩⟩
        rw [prepareDispatch_row]
        exact hwaits
  | handOff hd => exact hI
  | noDispatcher hd => exact absurd (mem_dispatchers _) hd
  | returned => exact hI
  | raised => cases hhealthy
  | @markSent now d newRef batch =>
      obtain ⟨hup, hwaits⟩ := hI
      have hup' : AllUp (PulseGraph.markSent now d.row.outboxId newRef db) := hup
      have hsent := @waiting_markSent _ db now d.row.outboxId newRef
      refine ⟨hup', ?_⟩
      rw [hup'.backlog_eq]
      rw [hup.backlog_eq] at hwaits
      rcases hwaits with hless | ⟨hle, r, hr, hp⟩
      · exact hsent.1.trans hless
      · have hlt := hsent.2 r hr hp
        omega
  | @recordSuccess now channel batch =>
      obtain ⟨hup, hless⟩ := hI
      have hup' : AllUp (PulseGraph.recordSuccess now channel db).2 := fun c => by
        rw [recordSuccess_state]
        split_ifs
        · decide
        · exact hup c
      have hqueue : waiting (PulseGraph.recordSuccess now channel db).2 = waiting db := by
        unfold waiting
        rw [recordSuccess_frame.outbox]
      exact ⟨hup', .inl ((hup'.backlog_le hqueue.le).trans hless)⟩
  | sleep => exact absurd rfl hgoesOn
  | crash => cases hhealthy
  | recordRaises h => exact hI.elim
  | recordFailure h => exact hI.elim
  | reject h => exact hI.elim
  | park h => exact hI.elim
  | retryRaises h => exact hI.elim
  | retry h hr => exact hI.elim
  | failOver => exact hI.elim

/-- **The end of a pass.** -/
theorem CatchesUp.sleep (hI : CatchesUp w n db phase)
    (hnext : workerNext rt w phase db .sleep = some (phase', db')) : CatchesUp w (n - 1) db' phase' := by
  cases workerNext_move hnext with
  | sleep =>
      obtain ⟨-, hless | ⟨-, row, hhead, -⟩⟩ := hI
      · exact hless
      · cases hhead

/-- **No row is lost**, and none dies, in a step whose call is answered. -/
theorem CatchesUp.keeps (hI : CatchesUp w n db phase)
    (hnext : workerNext rt w phase db step = some (phase', db')) {k : ℕ} {r : OutboxRow}
    (hr : db.outbox.find? k = some r) : ∃ r', db'.outbox.find? k = some r' ∧ (r'.status = .dead → r.status = .dead) := by
  obtain ⟨r', hr', hstep⟩ := (workerNext_move hnext).rows.1 k r hr
  refine ⟨r', hr', fun hdead => ?_⟩
  cases hstep with
  | same => exact hdead
  | collapsed _ hcol _ =>
      cases hcol with
      | same => exact hdead
      | winner via hp => exact hdead
      | loser hp => cases hdead
  | leased _ _ => exact hdead
  | noDispatcher _ hd => exact absurd (mem_dispatchers _) hd
  | sent _ => cases hdead
  | rejected hphase _ =>
      subst hphase
      exact hI.elim
  | parked hphase _ =>
      subst hphase
      exact hI.elim
  | retried hphase _ =>
      subst hphase
      exact hI.elim
  | fellOver hphase _ _ =>
      subst hphase
      exact hI.elim

end Pass

/-! ## Runs -/

section Runs

variable {rt : Runtime K} {w : String} {db : Database K} {s : Phase × Database K}
  {h : List (Transition (Phase × Database K) WorkerStep)}

/-- Every pass that ends took something off the backlog. -/
theorem WorkerRun.catchesUp (r : WorkerRun rt w db h s) (hlimit : rt.settings.outboxBatchSize ≠ 0)
    (hallowance : 1 ≤ rt.settings.outboxHalfOpenAllowance) (hc : ∀ t ∈ h, healthy t.source t.label = true) :
    CatchesUp w (backlog db - endedPasses h) s.2 s.1 ∧ ∀ k r, db.outbox.find? k = some r →
      ∃ r', s.2.outbox.find? k = some r' ∧ (r'.status = .dead → r.status = .dead) := by
  refine Run.induct_of_forall (C := fun t => healthy t.source t.label = true)
    (I := fun h s => CatchesUp w (backlog db - endedPasses h) s.2 s.1 ∧ ∀ k r, db.outbox.find? k = some r →
      ∃ r', s.2.outbox.find? k = some r' ∧ (r'.status = .dead → r.status = .dead)) r hc ?_ ?_
  · rintro s rfl
    exact ⟨le_rfl, fun k r hr => ⟨r, hr, id⟩⟩
  · rintro h ⟨phase, db₁⟩ step ⟨phase', db₂⟩ - - ⟨hI, hkept⟩ hhealthy hnext
    refine ⟨?_, fun k r hr => ?_⟩
    · by_cases hsleep : step = .sleep
      · subst hsleep
        have hcount : endedPasses (⟨(phase, db₁), .sleep, (phase', db₂)⟩ :: h) = endedPasses h + 1 :=
          List.countP_cons_of_pos rfl
        rw [hcount, ← Nat.sub_sub]
        exact hI.sleep hnext
      · have hcount : endedPasses (⟨(phase, db₁), step, (phase', db₂)⟩ :: h) = endedPasses h := by
          refine List.countP_cons_of_neg ?_
          cases step with
          | sleep => exact absurd rfl hsleep
          | _ => exact Bool.false_ne_true
        rw [hcount]
        exact hI.next hnext hhealthy hlimit hallowance hsleep
    · obtain ⟨r₁, hr₁, hdead₁⟩ := hkept k r hr
      obtain ⟨r₂, hr₂, hdead₂⟩ := hI.keeps hnext hr₁
      exact ⟨r₂, hr₂, fun hdead => hdead₁ (hdead₂ hdead)⟩

/-- A run that goes on for one more step, which ends no pass. -/
theorem WorkerRun.extend {s' : Phase × Database K} (r : WorkerRun rt w db h s)
    (hc : ∀ t ∈ h, healthy t.source t.label = true) (step : WorkerStep) (hnext : workerNext rt w s.1 s.2 step = some s')
    (hhealthy : healthy s step = true) (hgoesOn : step ≠ .sleep) :
    ∃ h', WorkerRun rt w db h' s' ∧ (∀ t ∈ h', healthy t.source t.label = true) ∧
      endedPasses h' = endedPasses h := by
  refine ⟨⟨s, step, s'⟩ :: h, .next r hnext, List.forall_mem_cons.2 ⟨hhealthy, hc⟩, List.countP_cons_of_neg ?_⟩
  cases step with
  | sleep => exact absurd rfl hgoesOn
  | _ => exact Bool.false_ne_true

/-- Every channel is looked at. -/
theorem WorkerRun.exists_probed {states : List ChannelState} {db₁ : Database K}
    (r : WorkerRun rt w db h (.probing states, db₁)) (hc : ∀ t ∈ h, healthy t.source t.label = true) :
    ∃ h' db₂, WorkerRun rt w db h' (.probing [], db₂) ∧ (∀ t ∈ h', healthy t.source t.label = true) ∧
      endedPasses h' = endedPasses h := by
  induction states generalizing h db₁ with
  | nil => exact ⟨h, db₁, r, hc, rfl⟩
  | cons state states ih =>
      -- it is looked at when its probe is due
      have hlate : state.nextProbeAt.all (fun t => decide (t ≤ state.nextProbeAt.getD 0)) = true := by
        cases state.nextProbeAt with
        | none => rfl
        | some t => exact decide_eq_true le_rfl
      by_cases hdue : state.probeDue (state.nextProbeAt.getD 0) = true ∧ state.channel ∈ probes
      · obtain ⟨h₁, r₁, hc₁, hn₁⟩ := r.extend hc (.look (state.nextProbeAt.getD 0)) (if_pos hdue) hlate
          (by simp)
        obtain ⟨db₂, hprobe⟩ : ∃ db₂, afterProbe rt 0 state.channel none db₁ = some db₂ := ⟨_, rfl⟩
        have hanswer : workerNext rt w (.awaitingProbe state.channel states) db₁ (.probeReturns 0 none) =
            some (.probing states, db₂) := by
          simp only [workerNext, hprobe]
        obtain ⟨h₂, r₂, hc₂, hn₂⟩ := r₁.extend hc₁ (.probeReturns 0 none) hanswer rfl (by simp)
        obtain ⟨h₃, db₃, r₃, hc₃, hn₃⟩ := ih r₂ hc₂
        exact ⟨h₃, db₃, r₃, hc₃, hn₃.trans (hn₂.trans hn₁)⟩
      · obtain ⟨h₁, r₁, hc₁, hn₁⟩ := r.extend hc (.look (state.nextProbeAt.getD 0)) (if_neg hdue) hlate
          (by simp)
        obtain ⟨h₂, db₂, r₂, hc₂, hn₂⟩ := ih r₁ hc₁
        exact ⟨h₂, db₂, r₂, hc₂, hn₂.trans hn₁⟩

/-- A batch is delivered to its end. -/
theorem WorkerRun.exists_delivered {batch : List ClaimedRow} {db₁ : Database K}
    (r : WorkerRun rt w db h (.draining batch, db₁)) (hc : ∀ t ∈ h, healthy t.source t.label = true) :
    ∃ h' db₂, WorkerRun rt w db h' (.draining [], db₂) ∧ (∀ t ∈ h', healthy t.source t.label = true) ∧
      endedPasses h' = endedPasses h := by
  induction batch generalizing h db₁ with
  | nil => exact ⟨h, db₁, r, hc, rfl⟩
  | cons row batch ih =>
      obtain ⟨h₁, r₁, hc₁, hn₁⟩ := r.extend hc .prepare rfl rfl (by simp)
      obtain ⟨h₂, r₂, hc₂, hn₂⟩ := r₁.extend hc₁ (.handOff 0) (if_pos (mem_dispatchers _)) rfl (by simp)
      obtain ⟨h₃, r₃, hc₃, hn₃⟩ := r₂.extend hc₂ (.callReturns 0 (.ok none)) rfl rfl (by simp)
      obtain ⟨h₄, r₄, hc₄, hn₄⟩ := r₃.extend hc₃ (.settle 0) rfl rfl (by simp)
      obtain ⟨h₅, r₅, hc₅, hn₅⟩ := r₄.extend hc₄ (.settle 0) rfl rfl (by simp)
      obtain ⟨h₆, db₆, r₆, hc₆, hn₆⟩ := ih r₅ hc₅
      exact ⟨h₆, db₆, r₆, hc₆, by rw [hn₆, hn₅, hn₄, hn₃, hn₂, hn₁]⟩

/-- The instant at which some row is due, if any row waits. -/
theorem exists_dueAt (db : Database K) : ∃ now, waiting db = 0 ∨
    0 < db.outbox.count fun _ r => r.dueAt now := by
  by_cases hnone : waiting db = 0
  · exact ⟨0, .inl hnone⟩
  · obtain ⟨⟨k, r⟩, hrow, hp⟩ := List.countP_pos_iff.1 (Nat.pos_of_ne_zero hnone)
    refine ⟨max r.nextAttemptAt (r.lockedUntil.getD 0), .inr (List.countP_pos_iff.2 ⟨(k, r), hrow, ?_⟩)⟩
    have hpending : decide (r.status = .pending) = true := hp
    change r.dueAt (max r.nextAttemptAt (r.lockedUntil.getD 0)) = true
    unfold OutboxRow.dueAt
    rw [hpending, decide_eq_true (le_max_left _ _)]
    cases r.lockedUntil with
    | none => rfl
    | some t => exact decide_eq_true (le_max_right _ _)

/-- **A worker that is answered goes on**: from any database it gets to the end of any number of passes. -/
theorem exists_passes (hlimit : rt.settings.outboxBatchSize ≠ 0)
    (hallowance : 1 ≤ rt.settings.outboxHalfOpenAllowance) (db : Database K) (n : ℕ) :
    ∃ h db', WorkerRun rt w db h (.idle, db') ∧ (∀ t ∈ h, healthy t.source t.label = true) ∧ endedPasses h = n := by
  induction n with
  | zero => exact ⟨[], db, .start rfl, List.forall_mem_nil _, rfl⟩
  | succ n ih =>
      obtain ⟨h, db₀, r, hc, hn⟩ := ih
      obtain ⟨h₁, r₁, hc₁, hn₁⟩ := r.extend hc .wake rfl rfl (by simp)
      obtain ⟨h₂, db₂, r₂, hc₂, hn₂⟩ := r₁.exists_probed hc₁
      -- no channel is down any longer, so the pass claims
      obtain ⟨⟨-, -, hopens⟩, -⟩ := r₂.catchesUp hlimit hallowance hc₂
      have hup : (pollChannels db₂).1 ≠ [] := by
        refine List.ne_nil_of_mem (List.mem_filter.2 ⟨List.mem_cons_self, decide_eq_true fun hopen => ?_⟩)
        exact List.not_mem_nil (hopens _ hopen)
      obtain ⟨now, hdue⟩ := exists_dueAt (coalesceAvailable (pollChannels db₂).1 db₂)
      obtain ⟨h₃, r₃, hc₃, hn₃⟩ := r₂.extend hc₂ (.poll now) (if_neg hup) rfl (by simp)
      obtain ⟨h₄, r₄, hc₄, hn₄⟩ := r₃.extend hc₃ .coalesce rfl rfl (by simp)
      obtain ⟨h₅, r₅, hc₅, hn₅⟩ := r₄.extend hc₄ (.claim now) rfl
        (Bool.or_eq_true_iff.2 (hdue.imp decide_eq_true decide_eq_true)) (by simp)
      obtain ⟨h₆, r₆, hc₆, hn₆⟩ := r₅.extend hc₅ .select rfl rfl (by simp)
      obtain ⟨h₇, db₇, r₇, hc₇, hn₇⟩ := r₆.exists_delivered hc₆
      refine ⟨⟨(.draining [], db₇), .sleep, (.idle, db₇)⟩ :: h₇, db₇, .next r₇ rfl,
        List.forall_mem_cons.2 ⟨rfl, hc₇⟩, ?_⟩
      have hcount : endedPasses (⟨(.draining [], db₇), .sleep, (.idle, db₇)⟩ :: h₇) = endedPasses h₇ + 1 :=
        List.countP_cons_of_pos rfl
      rw [hcount, hn₇, hn₆, hn₅, hn₄, hn₃, hn₂, hn₁, hn]

/-- Where nothing is left to do, nothing is. -/
theorem CatchesUp.backlog_le {n : ℕ} (hI : CatchesUp w n s.2 s.1) : backlog s.2 ≤ n := by
  obtain ⟨phase, db⟩ := s
  cases phase with
  | idle => exact hI
  | probing states => exact hI.1
  | awaitingProbe channel states => exact hI.1
  | polled now available halfOpen => exact hI.1
  | coalesced now available halfOpen => exact hI.1
  | leased leaseUntil halfOpen => exact hI.1
  | draining batch => exact hI.2.elim (fun h => h.trans (Nat.sub_le _ _)) fun h => h.1
  | prepared d batch => exact hI.2.elim (fun h => h.trans (Nat.sub_le _ _)) fun h => h.1
  | calling d batch => exact hI.2.elim (fun h => h.trans (Nat.sub_le _ _)) fun h => h.1
  | delivered d newRef batch => exact hI.2.elim (fun h => h.trans (Nat.sub_le _ _)) fun h => h.1
  | marked channel batch => exact hI.2.trans (Nat.sub_le _ _)
  | failed d verdict batch => exact hI.elim
  | charged d verdict newlyDown next batch => exact hI.elim
  | failingOver channel batch => exact hI.elim

/-- **The queue drains**: whatever an outage left, once the providers answer `backlog` many passes leave
no channel down and no row waiting, and every row that waited is sent or superseded. -/
theorem queue_drains (r : WorkerRun rt w db h s) (hlimit : rt.settings.outboxBatchSize ≠ 0)
    (hallowance : 1 ≤ rt.settings.outboxHalfOpenAllowance) (hc : ∀ t ∈ h, healthy t.source t.label = true)
    (hpasses : backlog db ≤ endedPasses h) :
    (∀ c, (getState c s.2).state ≠ .OPEN) ∧ (∀ k r, s.2.outbox.find? k = some r → r.status ≠ .pending) ∧
      ∀ k r, db.outbox.find? k = some r → r.status = .pending →
        ∃ r', s.2.outbox.find? k = some r' ∧ (r'.status = .sent ∨ r'.status = .superseded) := by
  obtain ⟨hI, hkept⟩ := r.catchesUp hlimit hallowance hc
  have hnone : backlog s.2 = 0 := by
    have hle := hI.backlog_le
    omega
  unfold backlog at hnone
  have hwaits : ∀ k r, s.2.outbox.find? k = some r → r.status ≠ .pending := by
    intro k r hr hp
    have hzero : waiting s.2 = 0 := by omega
    exact List.countP_eq_zero.1 hzero (k, r) (Table.find?_eq_some_iff.1 hr) (decide_eq_true hp)
  refine ⟨fun c hopen => ?_, hwaits, fun k r hr hp => ?_⟩
  · have hzero : openChannels s.2 = 0 := by omega
    exact List.countP_eq_zero.1 hzero c (by cases c <;> decide) (decide_eq_true hopen)
  · obtain ⟨r', hr', hdead⟩ := hkept k r hr
    refine ⟨r', hr', ?_⟩
    cases hstatus : r'.status with
    | pending => exact absurd hstatus (hwaits k r' hr')
    | sent => exact .inl rfl
    | superseded => exact .inr rfl
    | dead =>
        have hcontra := hdead hstatus
        rw [hp] at hcontra
        cases hcontra

end Runs

/-! ## A run to look at -/

/-- Two cards wait for Slack, which is down. -/
def outageQueue : Database ℚ :=
  { Database.empty with
    outbox := Table.empty.pushAll (["A", "B"].map waitingCard)
    channelHealth := Table.empty.insert .slack { state := .OPEN, updatedAt := 0, nextProbeAt := some 900 }
    channelOutages := Table.empty.push { channel := .slack, detectedAt := 0, queuedAtPeak := 2 } }

/-- A pass that hands over so many rows, with the steps of its probes. -/
def passSteps (probe : List WorkerStep) (rows : ℕ) : List WorkerStep :=
  .wake :: .look 1000 :: (probe ++ [.poll 1000, .coalesce, .claim 1000, .select] ++ deliverySteps rows ++ [.sleep])

/-- The probe succeeds, and the passes that follow deliver the digest and the cards. -/
theorem queue_drains_outage : ∃ h s, WorkerRun Runtime.reference "w" outageQueue h s ∧ backlog outageQueue = 4 ∧
    s.2.outbox.rows.map (fun r => r.2.status) = [.sent, .sent, .sent] ∧
    (∀ c, (getState c s.2).state ≠ .OPEN) ∧ (∀ k r, s.2.outbox.find? k = some r → r.status ≠ .pending) ∧
      ∀ k r, outageQueue.outbox.find? k = some r → r.status = .pending →
        ∃ r', s.2.outbox.find? k = some r' ∧ (r'.status = .sent ∨ r'.status = .superseded) := by
  have hreplay : (Library.replay (fun s : Phase × Database ℚ => workerNext Runtime.reference "w" s.1 s.2)
      (passSteps [.probeReturns 1000 none] 3 ++ passSteps [] 0 ++ passSteps [] 0 ++ passSteps [] 0)
      ([], (.idle, outageQueue))).map (fun s => (s.1.all fun t => healthy t.source t.label, endedPasses s.1,
        s.2.2.outbox.rows.map fun r => r.2.status)) = some (true, 4, [.sent, .sent, .sent]) := by decide +kernel
  obtain ⟨h, s, r, heq⟩ := @Run.exists_of_replay _ _ (fun s : Phase × Database ℚ => s = (.idle, outageQueue))
    _ _ _ _ _ _ rfl hreplay
  simp only [Prod.mk.injEq] at heq
  obtain ⟨hhealthy, hpasses, hstatus⟩ := heq
  have hbacklog : backlog outageQueue = 4 := by decide +kernel
  exact ⟨h, s, r, hbacklog, hstatus, queue_drains r (by decide) (by decide) (List.all_eq_true.1 hhealthy)
    (by rw [hbacklog, hpasses])⟩

/-- A worker that is answered gets to the end of as many passes as the queue needs. -/
theorem exists_passes_outage : ∃ h db', WorkerRun Runtime.reference "w" outageQueue h (.idle, db') ∧
    (∀ t ∈ h, healthy t.source t.label = true) ∧ endedPasses h = backlog outageQueue :=
  exists_passes (by decide) (by decide) outageQueue (backlog outageQueue)

end PulseGraph
