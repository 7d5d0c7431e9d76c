/-
# What a step of a worker does

`WorkerMove` lists the steps of a worker, one constructor for each pair of a phase and
a step it can take, and `workerNext_move` says that there are no others.  From it:

* `WorkerMove.frame`: a worker writes the queue and the two tables of the breaker;
* `WorkerMove.rows`: what happens to every row of the queue (`RowStep`), and which
  rows are new (`WorkerRow`);
* `WorkerMove.held`: how the batch in hand changes.
-/

import PulseGraph.Outbox.Worker

namespace PulseGraph

open Library (Table)

variable {K : Type}

/-! ## The steps -/

section Moves

variable (rt : Runtime K) (w : String) (db : Database K)

/-- The steps of a worker, from a phase and a database to the next ones. -/
inductive WorkerMove : Phase → WorkerStep → Phase → Database K → Prop
  | wake : WorkerMove .idle .wake (.probing (allStates db)) db
  | look {now state states} : state.probeDue now = true →
      WorkerMove (.probing (state :: states)) (.look now) (.awaitingProbe state.channel states) db
  | skip {now state states} :
      WorkerMove (.probing (state :: states)) (.look now) (.probing states) db
  | probeRaises {now outcome channel states} : afterProbe rt now channel outcome db = none →
      WorkerMove (.awaitingProbe channel states) (.probeReturns now outcome) .idle db
  | probed {now outcome channel states db'} : afterProbe rt now channel outcome db = some db' →
      WorkerMove (.awaitingProbe channel states) (.probeReturns now outcome) (.probing states) db'
  | nothingUp {now} : WorkerMove (.probing []) (.poll now) .idle db
  | poll {now} : WorkerMove (.probing []) (.poll now)
      (.polled now (pollChannels db).1 (pollChannels db).2) db
  | coalesce {now available halfOpen} : WorkerMove (.polled now available halfOpen) .coalesce
      (.coalesced now available halfOpen) (coalesceAvailable available db)
  | claim {clock now available halfOpen} : WorkerMove (.coalesced now available halfOpen) (.claim clock)
      (.leased (secondsAfter clock rt.settings.outboxLeaseSeconds) halfOpen)
      (takeLease rt w available now (secondsAfter clock rt.settings.outboxLeaseSeconds) db)
  | select {leaseUntil halfOpen} : WorkerMove (.leased leaseUntil halfOpen) .select
      (.draining (trimHalfOpen halfOpen rt.settings.outboxHalfOpenAllowance (fun _ => 0)
        (leasedRows w leaseUntil db))) db
  | prepare {row batch} :
      WorkerMove (.draining (row :: batch)) .prepare (.prepared (prepareDispatch row db) batch) db
  | handOff {now d batch} : d.row.channel ∈ dispatchers →
      WorkerMove (.prepared d batch) (.handOff now) (.calling d batch) db
  | noDispatcher {now d batch} : d.row.channel ∉ dispatchers →
      WorkerMove (.prepared d batch) (.handOff now) (.draining batch)
        (deadLetter d.row.outboxId ("unknown channel: " ++ d.row.channel.text) db)
  | returned {now d batch newRef} :
      WorkerMove (.calling d batch) (.callReturns now (.ok newRef)) (.delivered d newRef batch) db
  | raised {now d batch exc} : WorkerMove (.calling d batch) (.callReturns now (.error exc))
      (.failed d (classify exc) batch) db
  | markSent {now d newRef batch} : WorkerMove (.delivered d newRef batch) (.settle now)
      (.marked d.row.channel batch) (markSent now d.row.outboxId newRef db)
  | recordSuccess {now channel batch} : WorkerMove (.marked channel batch) (.settle now)
      (.draining batch) (recordSuccess now channel db).2
  | recordRaises {now d verdict batch} : recordFailure rt now d.row.channel verdict db = none →
      WorkerMove (.failed d verdict batch) (.settle now) .idle db
  | recordFailure {now d verdict batch newlyDown db'} :
      recordFailure rt now d.row.channel verdict db = some (newlyDown, db') →
      WorkerMove (.failed d verdict batch) (.settle now)
        (.charged d verdict newlyDown (getState d.row.channel db').nextProbeAt batch) db'
  | reject {now d verdict newlyDown nextProbeAt batch} : verdict.kind = .MESSAGE_FATAL →
      WorkerMove (.charged d verdict newlyDown nextProbeAt batch) (.settle now) (.draining batch)
        (deadLetter d.row.outboxId verdict.reason db)
  | park {now d verdict newlyDown nextProbeAt batch} : verdict.kind = .CHANNEL_DOWN →
      WorkerMove (.charged d verdict newlyDown nextProbeAt batch) (.settle now)
        (if newlyDown then .failingOver d.row.channel batch else .draining batch)
        (park now d.row.outboxId nextProbeAt verdict.reason db)
  | retryRaises {now d verdict newlyDown nextProbeAt batch} : verdict.kind = .TRANSIENT →
      WorkerMove (.charged d verdict newlyDown nextProbeAt batch) (.settle now) .idle db
  | retry {now d verdict newlyDown nextProbeAt batch db'} : verdict.kind = .TRANSIENT →
      retryLater rt now d.row.outboxId d.row.attempts verdict.reason verdict.retryAfterSeconds db = some db' →
      WorkerMove (.charged d verdict newlyDown nextProbeAt batch) (.settle now) (.draining batch) db'
  | failOver {now channel batch} : WorkerMove (.failingOver channel batch) (.settle now)
      (.draining batch) (failoverPending now channel db)
  | sleep : WorkerMove (.draining []) .sleep .idle db
  | crash {phase} : WorkerMove phase .crash .idle db

end Moves

section Inversion

variable {rt : Runtime K} {w : String} {db db' : Database K} {phase phase' : Phase} {step : WorkerStep}

/-- The transactions that settle a row. -/
theorem settle_move {now : ℤ} (h : settle rt now phase db = some (phase', db')) :
    WorkerMove rt w db phase (.settle now) phase' db' := by
  unfold settle at h
  cases phase with
  | delivered d newRef batch =>
      obtain ⟨rfl, rfl⟩ := Prod.mk.inj (Option.some.inj h)
      exact .markSent
  | marked channel batch =>
      obtain ⟨rfl, rfl⟩ := Prod.mk.inj (Option.some.inj h)
      exact .recordSuccess
  | failed d verdict batch =>
      dsimp only at h
      split at h
      · next hr =>
          obtain ⟨rfl, rfl⟩ := Prod.mk.inj (Option.some.inj h)
          exact .recordRaises hr
      · next newlyDown db₁ hr =>
          obtain ⟨rfl, rfl⟩ := Prod.mk.inj (Option.some.inj h)
          exact .recordFailure hr
  | charged d verdict newlyDown nextProbeAt batch =>
      dsimp only at h
      cases hk : verdict.kind with
      | MESSAGE_FATAL =>
          rw [hk] at h
          obtain ⟨rfl, rfl⟩ := Prod.mk.inj (Option.some.inj h)
          exact .reject hk
      | CHANNEL_DOWN =>
          rw [hk] at h
          obtain ⟨rfl, rfl⟩ := Prod.mk.inj (Option.some.inj h)
          exact .park hk
      | TRANSIENT =>
          rw [hk] at h
          dsimp only at h
          split at h
          · obtain ⟨rfl, rfl⟩ := Prod.mk.inj (Option.some.inj h)
            exact .retryRaises hk
          · next db₁ hr =>
              obtain ⟨rfl, rfl⟩ := Prod.mk.inj (Option.some.inj h)
              exact .retry hk hr
  | failingOver channel batch =>
      obtain ⟨rfl, rfl⟩ := Prod.mk.inj (Option.some.inj h)
      exact .failOver
  | _ => cases h

/-- **Every step of a worker** is one of the moves. -/
theorem workerNext_move (h : workerNext rt w phase db step = some (phase', db')) :
    WorkerMove rt w db phase step phase' db' := by
  cases step with
  | wake =>
      cases phase with
      | idle => obtain ⟨rfl, rfl⟩ := Prod.mk.inj (Option.some.inj h); exact .wake
      | _ => cases h
  | look now =>
      cases phase with
      | probing states =>
          cases states with
          | nil => cases h
          | cons state states =>
              unfold workerNext at h
              dsimp only at h
              split_ifs at h with hdue
              · obtain ⟨rfl, rfl⟩ := Prod.mk.inj (Option.some.inj h); exact .look hdue.1
              · obtain ⟨rfl, rfl⟩ := Prod.mk.inj (Option.some.inj h); exact .skip
      | _ => cases h
  | probeReturns now outcome =>
      cases phase with
      | awaitingProbe channel states =>
          unfold workerNext at h
          dsimp only at h
          split at h
          · next hr => obtain ⟨rfl, rfl⟩ := Prod.mk.inj (Option.some.inj h); exact .probeRaises hr
          · next db₁ hr => obtain ⟨rfl, rfl⟩ := Prod.mk.inj (Option.some.inj h); exact .probed hr
      | _ => cases h
  | poll now =>
      cases phase with
      | probing states =>
          cases states with
          | nil =>
              unfold workerNext at h
              dsimp only at h
              split_ifs at h
              · obtain ⟨rfl, rfl⟩ := Prod.mk.inj (Option.some.inj h); exact .nothingUp
              · obtain ⟨rfl, rfl⟩ := Prod.mk.inj (Option.some.inj h); exact .poll
          | cons state states => cases h
      | _ => cases h
  | coalesce =>
      cases phase with
      | polled now available halfOpen =>
          obtain ⟨rfl, rfl⟩ := Prod.mk.inj (Option.some.inj h); exact .coalesce
      | _ => cases h
  | claim clock =>
      cases phase with
      | coalesced now available halfOpen =>
          obtain ⟨rfl, rfl⟩ := Prod.mk.inj (Option.some.inj h); exact .claim
      | _ => cases h
  | select =>
      cases phase with
      | leased leaseUntil halfOpen =>
          obtain ⟨rfl, rfl⟩ := Prod.mk.inj (Option.some.inj h); exact .select
      | _ => cases h
  | prepare =>
      cases phase with
      | draining rows =>
          cases rows with
          | nil => cases h
          | cons row batch => obtain ⟨rfl, rfl⟩ := Prod.mk.inj (Option.some.inj h); exact .prepare
      | _ => cases h
  | handOff now =>
      cases phase with
      | prepared d batch =>
          unfold workerNext at h
          dsimp only at h
          split_ifs at h with hd
          · obtain ⟨rfl, rfl⟩ := Prod.mk.inj (Option.some.inj h); exact .handOff hd
          · obtain ⟨rfl, rfl⟩ := Prod.mk.inj (Option.some.inj h); exact .noDispatcher hd
      | _ => cases h
  | callReturns now outcome =>
      cases phase with
      | calling d batch =>
          cases outcome with
          | ok newRef => obtain ⟨rfl, rfl⟩ := Prod.mk.inj (Option.some.inj h); exact .returned
          | error exc => obtain ⟨rfl, rfl⟩ := Prod.mk.inj (Option.some.inj h); exact .raised
      | _ => cases h
  | settle now => exact settle_move h
  | sleep =>
      cases phase with
      | draining rows =>
          cases rows with
          | nil => obtain ⟨rfl, rfl⟩ := Prod.mk.inj (Option.some.inj h); exact .sleep
          | cons row batch => cases h
      | _ => cases h
  | crash => obtain ⟨rfl, rfl⟩ := Prod.mk.inj (Option.some.inj h); exact .crash

end Inversion

/-! ## The tables a worker writes -/

/-- Two databases that differ in the queue and the two tables of the breaker at most. -/
def SameButDelivery (db db' : Database K) : Prop :=
  db' = { db with
    outbox := db'.outbox
    channelHealth := db'.channelHealth
    channelOutages := db'.channelOutages }

section Frame

variable {rt : Runtime K} {w : String} {db db' : Database K} {phase phase' : Phase} {step : WorkerStep}

theorem SameButDelivery.refl (db : Database K) : SameButDelivery db db := rfl

theorem SameButDelivery.trans {a b c : Database K} (h₁ : SameButDelivery a b)
    (h₂ : SameButDelivery b c) : SameButDelivery a c := by
  unfold SameButDelivery at *
  rw [h₂, h₁]

theorem SameButHealth.delivery (h : SameButHealth db db') : SameButDelivery db db' := by
  unfold SameButDelivery
  rw [h]

theorem SameButHealth.outbox (h : SameButHealth db db') : db'.outbox = db.outbox := by
  rw [h]

/-- A payload is filled from tables no worker writes. -/
theorem hydratePayload_congr (h : SameButDelivery db db') (x : String) (payload : Payload) :
    hydratePayload x payload db' = hydratePayload x payload db := by
  rw [h]
  rfl

theorem prepareBacklog_frame (now : ℤ) (channel : Channel) :
    SameButDelivery db (prepareBacklog now channel db) := by
  unfold prepareBacklog
  dsimp only
  split <;> rfl

theorem afterProbe_frame {now : ℤ} {channel : Channel} {outcome : Option Exc}
    (h : afterProbe rt now channel outcome db = some db') : SameButDelivery db db' := by
  unfold afterProbe at h
  obtain ⟨db₁, hr, rfl⟩ := Option.map_eq_some_iff.1 h
  have h₁ := (recordProbeResult_frame hr).delivery
  split_ifs
  · exact h₁.trans (prepareBacklog_frame now channel)
  · exact h₁

theorem coalesceAvailable_frame (available : List Channel) :
    SameButDelivery db (coalesceAvailable available db) := by
  unfold coalesceAvailable
  refine List.foldlRecOn (motive := fun a : Database K => SameButDelivery db a) _ _ ?_ ?_
  · rfl
  · exact fun a ha channel _ => ha.trans rfl

theorem failoverEach_frame {now : ℤ} {channel : Channel} {available : Channel → Bool}
    {s : ℕ × Database K} {row : ℕ × OutboxRow} :
    (failoverEach now channel available s row).2 =
      { s.2 with outbox := (failoverEach now channel available s row).2.outbox } := by
  unfold failoverEach
  split_ifs
  · split <;> rfl
  · rfl

theorem failoverPending_frame (now : ℤ) (channel : Channel) :
    SameButDelivery db (failoverPending now channel db) := by
  unfold failoverPending
  split_ifs
  · have hloop : SameButDelivery db ((failoverCandidates channel db).foldl
        (failoverEach now channel (failoverAvailable channel db)) (0, db)).2 := by
      refine List.foldlRecOn (motive := fun s : ℕ × Database K => SameButDelivery db s.2) _ _ ?_ ?_
      · rfl
      · intro s hs row _
        refine hs.trans ?_
        rw [failoverEach_frame]
        rfl
    dsimp only
    split_ifs
    · exact hloop
    · exact hloop.trans (markFailedOver_frame _).delivery
  · rfl

/-- **A worker writes the queue and the breakers.** -/
theorem WorkerMove.frame (h : WorkerMove rt w db phase step phase' db') : SameButDelivery db db' := by
  cases h with
  | probed hr => exact afterProbe_frame hr
  | coalesce => exact coalesceAvailable_frame _
  | recordSuccess => exact recordSuccess_frame.delivery
  | recordFailure hr => exact (recordFailure_frame hr).delivery
  | retry _ hr =>
      unfold retryLater at hr
      obtain ⟨t, -, rfl⟩ := Option.map_eq_some_iff.1 hr
      rfl
  | failOver => exact failoverPending_frame _ _
  | _ => rfl

end Frame

/-! ## The rows a worker writes -/

section Rows

variable (rt : Runtime K) (w : String) (phase : Phase) (db : Database K)

/-- A step that collapses channels, and the channels. -/
inductive CollapseStep : WorkerStep → (Channel → Prop) → Prop
  | coalesce {now available halfOpen} : phase = .polled now available halfOpen →
      CollapseStep .coalesce (· ∈ available)
  | probe {now channel states} : phase = .awaitingProbe channel states →
      CollapseStep (.probeReturns now none) (· = channel)

/-- What a step of a worker does to a row of the queue. -/
inductive RowStep : WorkerStep → ℕ → OutboxRow → OutboxRow → Prop
  | same {step k r} : RowStep step k r r
  | collapsed {step chs k r r'} : CollapseStep phase step chs → Collapsed db.outbox k r r' →
      chs r.channel → RowStep step k r r'
  | leased {clock now available halfOpen k r} : phase = .coalesced now available halfOpen →
      k ∈ claimIds rt available now db →
      RowStep (.claim clock) k r { r with
        lockedBy := some w
        lockedUntil := some (secondsAfter clock rt.settings.outboxLeaseSeconds) }
  | noDispatcher {now d batch r} : phase = .prepared d batch → d.row.channel ∉ dispatchers →
      RowStep (.handOff now) d.row.outboxId r { r.unlock with
        status := .dead
        lastError := some (clip ("unknown channel: " ++ d.row.channel.text)) }
  | sent {now d newRef batch r} : phase = .delivered d newRef batch →
      RowStep (.settle now) d.row.outboxId r { r.unlock with
        status := .sent
        sentAt := some now
        externalRef := newRef.or r.externalRef }
  | rejected {now d verdict newlyDown next batch r} :
      phase = .charged d verdict newlyDown next batch → verdict.kind = .MESSAGE_FATAL →
      RowStep (.settle now) d.row.outboxId r { r.unlock with
        status := .dead
        lastError := some (clip verdict.reason) }
  | parked {now d verdict newlyDown next batch r} :
      phase = .charged d verdict newlyDown next batch → verdict.kind = .CHANNEL_DOWN →
      RowStep (.settle now) d.row.outboxId r { r.unlock with
        nextAttemptAt := next.getD (now + 1000)
        lastError := some (clip ("channel_down:" ++ verdict.reason)) }
  | retried {now d verdict newlyDown next batch r nextAttemptAt} :
      phase = .charged d verdict newlyDown next batch → verdict.kind = .TRANSIENT →
      RowStep (.settle now) d.row.outboxId r { r.unlock with
        attempts := d.row.attempts + 1
        status := if rt.settings.outboxMaxAttempts ≤ d.row.attempts + 1 then .dead else .pending
        nextAttemptAt := nextAttemptAt
        lastError := some (clip verdict.reason) }
  | fellOver {now channel batch k r via} : phase = .failingOver channel batch →
      r.channel = channel → r.status = .pending → RowStep (.settle now) k r (r.markFallback via)

/-- A row a step of a worker adds to the queue: a digest, or the stand-in of an urgent
row on a fallback channel. -/
inductive WorkerRow : WorkerStep → OutboxRow → Prop
  | digest {now channel states digest} : phase = .awaitingProbe channel states →
      WorkerRow (.probeReturns now none) (digestRow now channel digest)
  | failover {now channel batch k r target} : phase = .failingOver channel batch →
      (k, r) ∈ failoverCandidates channel db → isFailoverWorthy r.priority = true →
      selectFailover channel r.action (failoverAvailable channel db) = some target →
      WorkerRow (.settle now) (failoverRow now channel target k r
        (hydratePayload r.incidentId r.payload db))

end Rows

section RowLemmas

variable {rt : Runtime K} {w : String} {db db' : Database K} {phase phase' : Phase} {step : WorkerStep}

/-- Channels collapsed one after the other. -/
theorem foldl_coalescePending_collapse {channels : List Channel} (hn : channels.Nodup)
    (db : Database K) : Collapse (· ∈ channels) db.outbox
      (channels.foldl (fun db channel => (coalescePending channel db).2) db).outbox := by
  induction channels generalizing db with
  | nil => exact Collapse.refl _ _
  | cons c cs ih =>
      obtain ⟨hc, hcs⟩ := List.nodup_cons.1 hn
      have hrest := ih hcs (coalescePending c db).2
      refine ((coalescePending_collapse c db).trans hrest ?_).mono ?_
      · rintro c' rfl
        exact hc
      · exact fun c' => List.mem_cons.2

theorem coalesceAvailable_collapse (available : List Channel) (db : Database K) :
    Collapse (· ∈ available) db.outbox (coalesceAvailable available db).outbox := by
  refine (foldl_coalescePending_collapse (List.Nodup.filter _ (by decide)) db).mono fun c hc => ?_
  exact List.contains_iff_mem.1 (List.mem_filter.1 hc).2

/-- **After the collapse of a pass one row at most waits for an incident** on each of its channels. -/
theorem coalesceAvailable_oneWaits {available : List Channel} {channel : Channel}
    (hc : channel ∈ available) (db : Database K) :
    OneWaits channel (coalesceAvailable available db).outbox := by
  have hmem : channel ∈ ([.email, .pagerduty, .slack] : List Channel).filter available.contains := by
    refine List.mem_filter.2 ⟨?_, List.contains_iff_mem.2 hc⟩
    cases channel <;> decide
  unfold coalesceAvailable
  refine Library.foldl_establishes (P := fun db : Database K => OneWaits channel db.outbox) hmem ?_ ?_
  · exact fun db => coalescePending_oneWaits channel db
  · exact fun db c hone => (coalescePending_collapse c db).oneWaits hone

/-- Whether a row written under one key is read under another. -/
theorem find?_modify_self {t : Table ℕ OutboxRow} {k : ℕ} {f : OutboxRow → OutboxRow} {r : OutboxRow}
    {j : ℕ} (hr : t.find? j = some r) : (t.modify k f).find? j = some (if j = k then f r else r) := by
  rw [Table.find?_modify]
  split_ifs with h
  · rw [← h, hr]; rfl
  · exact hr

/-- The rows after a failover. -/
structure FailsOver (now : ℤ) (channel : Channel) (db : Database K) (q : Table ℕ OutboxRow) : Prop where
  row : ∀ k r, db.outbox.find? k = some r → ∃ r', q.find? k = some r' ∧
    (r' = r ∨ r.channel = channel ∧ r.status = .pending ∧ ∃ via, r' = r.markFallback via)
  added : ∀ k r', db.outbox.find? k = none → q.find? k = some r' → ∃ k₀ r₀ target,
    (k₀, r₀) ∈ failoverCandidates channel db ∧ isFailoverWorthy r₀.priority = true ∧
      selectFailover channel r₀.action (failoverAvailable channel db) = some target ∧
      r' = failoverRow now channel target k₀ r₀ (hydratePayload r₀.incidentId r₀.payload db)

theorem mem_failoverCandidates {channel : Channel} {k : ℕ} {r : OutboxRow} :
    (k, r) ∈ failoverCandidates channel db ↔ db.outbox.find? k = some r ∧ r.channel = channel ∧
      r.status = .pending ∧ r.failoverOf = none := by
  rw [failoverCandidates, drainOrder, List.mem_insertionSort, Table.mem_select]
  simp only [Bool.and_eq_true, decide_eq_true_eq, Option.isNone_iff_eq_none, and_assoc]

/-- One row of a failover. -/
theorem FailsOver.next {now : ℤ} {channel : Channel} {s : ℕ × Database K} {row : ℕ × OutboxRow}
    (h : FailsOver now channel db s.2.outbox) (hframe : SameButDelivery db s.2)
    (hrow : row ∈ failoverCandidates channel db) : FailsOver now channel db
      (failoverEach now channel (failoverAvailable channel db) s row).2.outbox := by
  obtain ⟨k₀, r₀⟩ := row
  obtain ⟨hr₀, hc₀, hp₀, -⟩ := mem_failoverCandidates.1 hrow
  unfold failoverEach
  by_cases hworthy : isFailoverWorthy r₀.priority = true
  swap
  · rw [if_neg hworthy]; exact h
  rw [if_pos hworthy]
  cases hsel : selectFailover channel r₀.action (failoverAvailable channel db) with
  | none => exact h
  | some target =>
      dsimp only
      refine ⟨fun k r hr => ?_, fun k r' hk hr' => ?_⟩
      · obtain ⟨r₁, hr₁, hcases⟩ := h.row k r hr
        refine ⟨_, find?_modify_self (Table.find?_push_of_some hr₁), ?_⟩
        by_cases hkk : k = k₀
        · subst hkk
          obtain rfl := Option.some.inj (hr.symm.trans hr₀)
          rw [if_pos rfl]
          refine .inr ⟨hc₀, hp₀, .channel target.channel, ?_⟩
          rcases hcases with rfl | ⟨-, -, via, rfl⟩ <;> rfl
        · rw [if_neg hkk]
          exact hcases
      · have hkk : k ≠ k₀ := by
          rintro rfl
          rw [hk] at hr₀
          exact absurd hr₀ (by simp)
        rw [Table.find?_modify, if_neg hkk, Table.find?_push] at hr'
        split_ifs at hr' with hnew
        · obtain rfl := Option.some.inj hr'
          refine ⟨k₀, r₀, target, hrow, hworthy, hsel, ?_⟩
          rw [hydratePayload_congr hframe]
        · exact h.added k r' hk hr'

theorem failoverPending_failsOver (now : ℤ) (channel : Channel) (db : Database K) :
    FailsOver now channel db (failoverPending now channel db).outbox := by
  have hsame : FailsOver now channel db db.outbox :=
    ⟨fun k r hr => ⟨r, hr, .inl rfl⟩, fun k r' hk hr' => absurd hr' (by simp [hk])⟩
  unfold failoverPending
  split_ifs
  · have hloop : FailsOver now channel db ((failoverCandidates channel db).foldl
        (failoverEach now channel (failoverAvailable channel db)) (0, db)).2.outbox ∧
        SameButDelivery db ((failoverCandidates channel db).foldl
        (failoverEach now channel (failoverAvailable channel db)) (0, db)).2 := by
      refine List.foldlRecOn (motive := fun s : ℕ × Database K =>
        FailsOver now channel db s.2.outbox ∧ SameButDelivery db s.2) _ _ ?_ ?_
      · exact ⟨hsame, rfl⟩
      · rintro s ⟨hs, hframe⟩ row hrow
        refine ⟨hs.next hframe hrow, hframe.trans ?_⟩
        rw [failoverEach_frame]
        rfl
    dsimp only
    split_ifs
    · exact hloop.1
    · rw [(markFailedOver_frame _).outbox]
      exact hloop.1
  · exact hsame

/-- The queue after a probe: collapsed where the channel answers, with a digest at most. -/
theorem afterProbe_rows {now : ℤ} {channel : Channel} {outcome : Option Exc}
    (h : afterProbe rt now channel outcome db = some db') :
    (∀ k r, db.outbox.find? k = some r → ∃ r', db'.outbox.find? k = some r' ∧
      (r' = r ∨ outcome = none ∧ Collapsed db.outbox k r r' ∧ r.channel = channel)) ∧
    ∀ k r', db.outbox.find? k = none → db'.outbox.find? k = some r' →
      outcome = none ∧ ∃ digest, r' = digestRow now channel digest := by
  unfold afterProbe at h
  obtain ⟨db₁, hr, rfl⟩ := Option.map_eq_some_iff.1 h
  have hq := (recordProbeResult_frame hr).outbox
  split_ifs with hstate
  swap
  · rw [hq]
    exact ⟨fun k r hk => ⟨r, hk, .inl rfl⟩, fun k r' hk hk' => absurd hk' (by simp [hk])⟩
  -- only a probe that succeeds leaves the channel on trial
  have hout : outcome = none := by
    cases outcome with
    | none => rfl
    | some exc =>
        have hopen := recordProbeResult_state hr
        rw [hstate] at hopen
        exact absurd hopen (by simp)
  have hcol := coalescePending_collapse channel db₁
  rw [hq] at hcol
  have hrow : ∀ k r, db.outbox.find? k = some r → ∃ r',
      (coalescePending channel db₁).2.outbox.find? k = some r' ∧
        (r' = r ∨ outcome = none ∧ Collapsed db.outbox k r r' ∧ r.channel = channel) := by
    intro k r hk
    obtain ⟨r', hr', hc, hsame⟩ := hcol.row k r hk
    exact ⟨r', hr', hsame.imp_right fun hch => ⟨hout, hc, hch⟩⟩
  unfold prepareBacklog
  dsimp only
  split
  · next digest _ =>
      refine ⟨fun k r hk => ?_, fun k r' hk hk' => ⟨hout, ?_⟩⟩
      · obtain ⟨r', hr', hcases⟩ := hrow k r hk
        exact ⟨r', Table.find?_push_of_some hr', hcases⟩
      · change (Table.push _ _).find? k = _ at hk'
        rw [Table.find?_push, hcol.unread k hk] at hk'
        split_ifs at hk'
        exact ⟨digest, (Option.some.inj hk').symm⟩
  · exact ⟨hrow, fun k r' hk hk' => absurd hk' (by rw [hcol.unread k hk]; simp)⟩

/-- A step that rewrites the row it settles. -/
theorem rows_of_modify {k₀ : ℕ} {f : OutboxRow → OutboxRow} (hq : db'.outbox = db.outbox.modify k₀ f)
    (hf : ∀ r, RowStep rt w phase db step k₀ r (f r)) :
    (∀ k r, db.outbox.find? k = some r →
      ∃ r', db'.outbox.find? k = some r' ∧ RowStep rt w phase db step k r r') ∧
    ∀ k r', db.outbox.find? k = none → db'.outbox.find? k = some r' → WorkerRow phase db step r' := by
  refine ⟨fun k r hr => ⟨_, hq ▸ find?_modify_self hr, ?_⟩, fun k r' hk hk' => ?_⟩
  · split_ifs with h
    · exact h ▸ hf r
    · exact .same
  · rw [hq, Table.find?_modify] at hk'
    split_ifs at hk' with h
    · rw [← h, hk] at hk'
      exact absurd hk' (by simp)
    · rw [hk] at hk'
      exact absurd hk' (by simp)

/-- A step that leaves the queue alone. -/
theorem rows_of_eq (hq : db'.outbox = db.outbox) :
    (∀ k r, db.outbox.find? k = some r →
      ∃ r', db'.outbox.find? k = some r' ∧ RowStep rt w phase db step k r r') ∧
    ∀ k r', db.outbox.find? k = none → db'.outbox.find? k = some r' → WorkerRow phase db step r' := by
  rw [hq]
  exact ⟨fun k r hr => ⟨r, hr, .same⟩, fun k r' hk hk' => absurd hk' (by simp [hk])⟩

/-- **What a step of a worker does to the queue**: every row takes a `RowStep`, and a new
row is a `WorkerRow`. -/
theorem WorkerMove.rows (h : WorkerMove rt w db phase step phase' db') :
    (∀ k r, db.outbox.find? k = some r →
      ∃ r', db'.outbox.find? k = some r' ∧ RowStep rt w phase db step k r r') ∧
    ∀ k r', db.outbox.find? k = none → db'.outbox.find? k = some r' → WorkerRow phase db step r' := by
  cases h with
  | @probed now outcome channel states _ hr =>
      obtain ⟨hrow, hadded⟩ := afterProbe_rows hr
      refine ⟨fun k r hk => ?_, fun k r' hk hk' => ?_⟩
      · obtain ⟨r', hr', rfl | ⟨rfl, hc, hch⟩⟩ := hrow k r hk
        · exact ⟨r', hr', .same⟩
        · exact ⟨r', hr', .collapsed (.probe rfl) hc hch⟩
      · obtain ⟨rfl, digest, rfl⟩ := hadded k r' hk hk'
        exact .digest rfl
  | @coalesce now available halfOpen =>
      have hcol := coalesceAvailable_collapse available db
      refine ⟨fun k r hk => ?_, fun k r' hk hk' => absurd hk' (by rw [hcol.unread k hk]; simp)⟩
      obtain ⟨r', hr', hc, hsame⟩ := hcol.row k r hk
      rcases hsame with rfl | hch
      · exact ⟨r', hr', .same⟩
      · exact ⟨r', hr', .collapsed (.coalesce rfl) hc hch⟩
  | @claim clock now available halfOpen =>
      refine ⟨fun k r hk => ⟨_, (Table.find?_update _).trans (by rw [hk]; rfl), ?_⟩, fun k r' hk hk' => ?_⟩
      · split_ifs with hc
        · exact .leased rfl (List.contains_iff_mem.1 hc)
        · exact .same
      · change (Table.update _ _).find? k = _ at hk'
        rw [Table.find?_update, hk] at hk'
        exact absurd hk' (by simp)
  | noDispatcher hd => exact rows_of_modify rfl fun r => .noDispatcher rfl hd
  | markSent => exact rows_of_modify rfl fun r => .sent rfl
  | recordSuccess => exact rows_of_eq recordSuccess_frame.outbox
  | recordFailure hr => exact rows_of_eq (recordFailure_frame hr).outbox
  | reject hk => exact rows_of_modify rfl fun r => .rejected rfl hk
  | park hk => exact rows_of_modify rfl fun r => .parked rfl hk
  | retry hk hr =>
      unfold retryLater at hr
      obtain ⟨t, -, rfl⟩ := Option.map_eq_some_iff.1 hr
      exact rows_of_modify rfl fun r => .retried rfl hk
  | @failOver now channel batch =>
      have hfail := failoverPending_failsOver now channel db
      refine ⟨fun k r hk => ?_, fun k r' hk hk' => ?_⟩
      · obtain ⟨r', hr', rfl | ⟨hch, hp, via, rfl⟩⟩ := hfail.row k r hk
        · exact ⟨r', hr', .same⟩
        · exact ⟨_, hr', .fellOver rfl hch hp⟩
      · obtain ⟨k₀, r₀, target, hmem, hworthy, hsel, rfl⟩ := hfail.added k r' hk hk'
        exact .failover rfl hmem hworthy hsel
  | _ => exact rows_of_eq rfl

end RowLemmas

/-! ## The batch in hand -/

/-- The rows of the batch a worker has in hand, the one it is handing over first. -/
def Phase.inHand : Phase → List ClaimedRow
  | .draining batch => batch
  | .prepared d batch => d.row :: batch
  | .calling d batch => d.row :: batch
  | .delivered d _ batch => d.row :: batch
  | .marked _ batch => batch
  | .failed d _ batch => d.row :: batch
  | .charged d _ _ _ batch => d.row :: batch
  | .failingOver _ batch => batch
  | _ => []

section Held

variable {rt : Runtime K} {w : String} {db db' : Database K} {phase phase' : Phase} {step : WorkerStep}

theorem prepareDispatch_row (row : ClaimedRow) (db : Database K) : (prepareDispatch row db).row = row := by
  unfold prepareDispatch
  split_ifs <;> rfl

/-- A row that is no digest is dispatched as its incident stands: as a `resolve` when the
incident is resolved, and else as it was queued. -/
theorem prepareDispatch_action {row : ClaimedRow} {i : Incident} (hd : row.payload.digest = none)
    (hi : db.incidents.find? row.incidentId = some i) :
    (prepareDispatch row db).action = if i.status = .RESOLVED then .resolve else row.action := by
  unfold prepareDispatch
  rw [if_neg (by rw [hd]; decide)]
  show effectiveAction row.action (hydratePayload row.incidentId row.payload db).state = _
  rw [hydratePayload_state hi, effectiveAction]
  exact if_congr Option.some_inj rfl rfl

/-- A row that is selected waits under the lease it is selected by. -/
theorem mem_leasedRows {leaseUntil : ℤ} {row : ClaimedRow} (h : row ∈ leasedRows w leaseUntil db) :
    ∃ k r, db.outbox.find? k = some r ∧ row = claimedRow k r ∧ r.status = .pending ∧
      r.lockedBy = some w ∧ r.lockedUntil = some leaseUntil := by
  unfold leasedRows drainOrder at h
  obtain ⟨⟨k, r⟩, hmem, rfl⟩ := List.mem_map.1 h
  obtain ⟨hr, hsel⟩ := Table.mem_select.1 ((List.mem_insertionSort _).1 hmem)
  simp only [Bool.and_eq_true, decide_eq_true_eq, and_assoc] at hsel
  exact ⟨k, r, hr, rfl, hsel⟩

/-- No row is selected twice. -/
theorem nodup_leasedRows (leaseUntil : ℤ) :
    ((leasedRows w leaseUntil db).map (·.outboxId)).Nodup := by
  unfold leasedRows drainOrder
  rw [List.map_map]
  exact ((List.perm_insertionSort _ _).map Prod.fst).nodup_iff.2 (Table.nodup_select _ _)

/-- A row that waits after a step waited before, or is in hand. -/
theorem RowStep.live {k : ℕ} {r r' : OutboxRow} (hstep : RowStep rt w phase db step k r r') (hp : r'.status = .pending) :
    r.status = .pending ∨ ∃ row ∈ phase.inHand, row.outboxId = k := by
  cases hstep with
  | same => exact .inl hp
  | collapsed _ hc _ => cases hc with
    | same => exact .inl hp
    | winner _ hp' => exact .inl hp'
    | loser _ _ _ _ _ => cases hp
  | leased => exact .inl hp
  | noDispatcher hphase => exact .inr ⟨_, by rw [hphase]; exact List.mem_cons_self, rfl⟩
  | sent hphase => exact .inr ⟨_, by rw [hphase]; exact List.mem_cons_self, rfl⟩
  | rejected hphase => exact .inr ⟨_, by rw [hphase]; exact List.mem_cons_self, rfl⟩
  | parked hphase => exact .inr ⟨_, by rw [hphase]; exact List.mem_cons_self, rfl⟩
  | retried hphase => exact .inr ⟨_, by rw [hphase]; exact List.mem_cons_self, rfl⟩
  | fellOver _ _ hp' => exact .inl hp'

/-- **How the batch in hand changes**: it loses rows from its head, or is a new one. -/
theorem WorkerMove.inHand (h : WorkerMove rt w db phase step phase' db') :
    (∃ done, phase.inHand = done ++ phase'.inHand) ∨
    ∃ leaseUntil, step = .select ∧ phase.inHand = [] ∧ db' = db ∧
      phase'.inHand.Sublist (leasedRows w leaseUntil db) := by
  cases h with
  | @select leaseUntil halfOpen =>
      exact .inr ⟨leaseUntil, rfl, rfl, rfl, trimHalfOpen_sublist _ _ _ _⟩
  | @prepare row batch =>
      refine .inl ⟨[], ?_⟩
      rw [Phase.inHand, Phase.inHand, prepareDispatch_row]
      rfl
  | @noDispatcher now d batch => exact .inl ⟨[d.row], rfl⟩
  | @markSent now d newRef batch => exact .inl ⟨[d.row], rfl⟩
  | @reject now d verdict newlyDown next batch => exact .inl ⟨[d.row], rfl⟩
  | @park now d verdict newlyDown next batch =>
      refine .inl ⟨[d.row], ?_⟩
      split_ifs <;> rfl
  | @retry now d verdict newlyDown next batch => exact .inl ⟨[d.row], rfl⟩
  | @recordRaises now d verdict batch => exact .inl ⟨d.row :: batch, by simp [Phase.inHand]⟩
  | @retryRaises now d verdict newlyDown next batch =>
      exact .inl ⟨d.row :: batch, by simp [Phase.inHand]⟩
  | crash => exact .inl ⟨phase.inHand, by simp [Phase.inHand]⟩
  | _ => exact .inl ⟨[], rfl⟩

/-- A batch that is not selected now was in hand before. -/
theorem WorkerMove.hadInHand (h : WorkerMove rt w db phase step phase' db') (hstep : step ≠ .select)
    {row : ClaimedRow} (hrow : row ∈ phase'.inHand) : row ∈ phase.inHand := by
  rcases h.inHand with ⟨done, hdone⟩ | ⟨-, hselect, -⟩
  · rw [hdone]
    exact List.mem_append_right _ hrow
  · exact absurd hselect hstep

/-- No batch holds a row twice. -/
theorem WorkerMove.nodup_inHand (h : WorkerMove rt w db phase step phase' db')
    (hn : (phase.inHand.map (·.outboxId)).Nodup) : (phase'.inHand.map (·.outboxId)).Nodup := by
  rcases h.inHand with ⟨done, hdone⟩ | ⟨leaseUntil, -, -, -, hsub⟩
  · rw [hdone, List.map_append] at hn
    exact (List.nodup_append.1 hn).2.1
  · exact (hsub.map _).nodup (nodup_leasedRows leaseUntil)

/-- A row that is settled has left the batch. -/
theorem not_mem_of_settled {row d : ClaimedRow} {batch : List ClaimedRow}
    (hn : ((d :: batch).map (·.outboxId)).Nodup) (hk : d.outboxId = row.outboxId) : row ∉ batch := by
  intro hmem
  rw [List.map_cons, List.nodup_cons] at hn
  exact hn.1 (hk ▸ List.mem_map_of_mem hmem)

/-- **A step spares the rows that stay in hand**: one that is not settled gets a fallback
marker at most. -/
theorem WorkerMove.spares (h : WorkerMove rt w db phase step phase' db')
    (hn : (phase.inHand.map (·.outboxId)).Nodup) (hstep : step ≠ .select) {row : ClaimedRow}
    (hrow : row ∈ phase'.inHand) {r r' : OutboxRow} (hr : db.outbox.find? row.outboxId = some r)
    (hr' : db'.outbox.find? row.outboxId = some r') : r' = r ∨ ∃ via, r' = r.markFallback via := by
  have hheld := h.hadInHand hstep hrow
  obtain ⟨r₁, hr₁, hs⟩ := h.rows.1 _ r hr
  obtain rfl := Option.some.inj (hr₁.symm.trans hr')
  obtain ⟨k, hk⟩ : ∃ k, k = row.outboxId := ⟨_, rfl⟩
  rw [← hk] at hs
  cases hs with
  | same => exact .inl rfl
  | collapsed hc _ _ => cases hc with
    | coalesce hp => exact absurd hheld (by simp [hp, Phase.inHand])
    | probe hp => exact absurd hheld (by simp [hp, Phase.inHand])
  | leased hp _ => exact absurd hheld (by simp [hp, Phase.inHand])
  | noDispatcher hp hd =>
      subst hp
      cases h with
      | handOff hd' => exact absurd hd' hd
      | noDispatcher _ => exact absurd hrow (not_mem_of_settled hn hk)
  | sent hp =>
      subst hp
      cases h
      exact absurd hrow (not_mem_of_settled hn hk)
  | rejected hp hkind =>
      subst hp
      cases h with
      | reject _ => exact absurd hrow (not_mem_of_settled hn hk)
      | park hkind' => rw [hkind] at hkind'; cases hkind'
      | retryRaises _ => exact absurd hrow List.not_mem_nil
      | retry hkind' _ => rw [hkind] at hkind'; cases hkind'
  | parked hp hkind =>
      subst hp
      cases h with
      | reject hkind' => rw [hkind] at hkind'; cases hkind'
      | park _ =>
          refine absurd ?_ (not_mem_of_settled hn hk)
          split_ifs at hrow <;> exact hrow
      | retryRaises _ => exact absurd hrow List.not_mem_nil
      | retry hkind' _ => rw [hkind] at hkind'; cases hkind'
  | retried hp hkind =>
      subst hp
      cases h with
      | reject hkind' => rw [hkind] at hkind'; cases hkind'
      | park hkind' => rw [hkind] at hkind'; cases hkind'
      | retryRaises _ => exact absurd hrow List.not_mem_nil
      | retry _ _ => exact absurd hrow (not_mem_of_settled hn hk)
  | fellOver hp _ _ => exact .inr ⟨_, rfl⟩

/-- **What a worker knows of the rows it has in hand**: what a claim establishes of a row and its
copy, and a fallback marker keeps, holds of every row in hand after a step of the worker. -/
theorem WorkerMove.held {P : ClaimedRow → OutboxRow → Prop}
    (h : WorkerMove rt w db phase step phase' db') (hn : (phase.inHand.map (·.outboxId)).Nodup)
    (hclaimed : ∀ k r, r.status = .pending → r.lockedBy = some w → P (claimedRow k r) r)
    (hmarked : ∀ row r via, P row r → P row (r.markFallback via))
    (hI : ∀ row ∈ phase.inHand, ∃ r, db.outbox.find? row.outboxId = some r ∧ P row r) :
    ∀ row ∈ phase'.inHand, ∃ r, db'.outbox.find? row.outboxId = some r ∧ P row r := by
  intro row hrow
  by_cases hselect : step = .select
  · subst hselect
    cases h
    obtain ⟨k, r, hr, rfl, hp, hlock, -⟩ := mem_leasedRows ((trimHalfOpen_sublist _ _ _ _).subset hrow)
    exact ⟨r, hr, hclaimed k r hp hlock⟩
  · obtain ⟨r, hr, hP⟩ := hI row (h.hadInHand hselect hrow)
    obtain ⟨r', hr', -⟩ := h.rows.1 _ r hr
    refine ⟨r', hr', ?_⟩
    rcases h.spares hn hselect hrow hr hr' with rfl | ⟨via, rfl⟩
    · exact hP
    · exact hmarked row r via hP

/-- **Who writes a lock**: a claim takes one, and a row that is settled loses its own. -/
theorem RowStep.locks {k : ℕ} {r r' : OutboxRow} (h : RowStep rt w phase db step k r r') :
    r'.lockedBy = r.lockedBy ∨
    (∃ clock now available halfOpen, step = .claim clock ∧ phase = .coalesced now available halfOpen ∧
      k ∈ claimIds rt available now db ∧ r'.lockedBy = some w ∧ r'.status = r.status) ∨
    ∃ row ∈ phase.inHand, row.outboxId = k ∧ r'.lockedBy = none := by
  cases h with
  | same => exact .inl rfl
  | collapsed _ hc _ => exact .inl hc.frame.2.2.2.2.2.1
  | leased hp hk => exact .inr (.inl ⟨_, _, _, _, rfl, hp, hk, rfl, rfl⟩)
  | fellOver _ _ _ => exact .inl rfl
  | noDispatcher hp _ => exact .inr (.inr ⟨_, by rw [hp]; exact List.mem_cons_self, rfl, rfl⟩)
  | sent hp => exact .inr (.inr ⟨_, by rw [hp]; exact List.mem_cons_self, rfl, rfl⟩)
  | rejected hp _ => exact .inr (.inr ⟨_, by rw [hp]; exact List.mem_cons_self, rfl, rfl⟩)
  | parked hp _ => exact .inr (.inr ⟨_, by rw [hp]; exact List.mem_cons_self, rfl, rfl⟩)
  | retried hp _ => exact .inr (.inr ⟨_, by rw [hp]; exact List.mem_cons_self, rfl, rfl⟩)

end Held

end PulseGraph
