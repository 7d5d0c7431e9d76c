/-
# The outbox worker

`src/outbox/worker.py`: one pass probes the open channels, takes a lease on a batch
of rows, and hands them to their dispatchers one after the other.  A worker is a
`Phase`, what it holds between two commits, and `workerNext` is its next step: one
transaction under the write lock, a call that is made, or a call that returns.
Between two steps anything else may happen to the database.  A pass that raises
falls back to `idle` with the database as the last commit left it.
-/

import PulseGraph.Outbox.Recovery
import PulseGraph.Outbox.PagerDuty
import PulseGraph.Outbox.Routing
import Mathlib.Logic.Function.Basic

namespace PulseGraph

open Library (Table)

variable {K : Type} (rt : Runtime K)

/-- `_KNOWN_CHANNELS`. -/
def knownChannels : List Channel := [.slack, .pagerduty, .email]

/-- The keys of `_DISPATCHERS`. -/
def dispatchers : List Channel := [.slack, .pagerduty, .email]

/-- The keys of `_PROBES`. -/
def probes : List Channel := [.slack, .pagerduty, .email]

/-- Every channel has a dispatcher. -/
theorem mem_dispatchers (c : Channel) : c ∈ dispatchers := by cases c <;> decide

/-- A claimed copy of an outbox row. -/
structure ClaimedRow where
  outboxId : ℕ
  incidentId : String
  channel : Channel
  action : Action
  payload : Payload
  attempts : ℤ
  externalRef : Option String

/-- The columns the claim reads. -/
def claimedRow (outboxId : ℕ) (r : OutboxRow) : ClaimedRow where
  outboxId := outboxId
  incidentId := r.incidentId
  channel := r.channel
  action := r.action
  payload := r.payload
  attempts := r.attempts
  externalRef := r.externalRef

/-- What is handed to a dispatcher: a claimed row, and the arguments of the call. -/
structure Dispatch where
  row : ClaimedRow
  action : Action
  payload : Payload
  externalRef : Option String

/-! ## Probing and polling -/

/-- `_prepare_backlog`: collapse the queued backlog and queue the digest that explains it. -/
def prepareBacklog (now : ℤ) (channel : Channel) (db : Database K) : Database K :=
  let db := (coalescePending channel db).2
  match buildRecoveryDigest channel (openOutage channel db).1 now db with
  | some digest => enqueueRecoveryDigest now channel digest db
  | none => db

/-- What follows a probe: its result is recorded, and a channel that answers has its backlog prepared. -/
def afterProbe (now : ℤ) (channel : Channel) (outcome : Option Exc) (db : Database K) :
    Option (Database K) :=
  let detail := match outcome with
    | none => "probe_ok"
    | some exc => (classify exc).reason
  (recordProbeResult rt now channel outcome.isNone detail db).map fun db =>
    if (getState channel db).state = .HALF_OPEN then prepareBacklog now channel db else db

/-- The channels `_poll_once` finds available, and those of them on trial. -/
def pollChannels (db : Database K) : List Channel × List Channel :=
  (knownChannels.filter fun c => (getState c db).isAvailable,
    knownChannels.filter fun c => (getState c db).state = .HALF_OPEN)

/-- The collapse of every available channel, in the order of their names. -/
def coalesceAvailable (available : List Channel) (db : Database K) : Database K :=
  (([.email, .pagerduty, .slack] : List Channel).filter available.contains).foldl
    (fun db channel => (coalescePending channel db).2) db

/-! ## Claiming -/

/-- The rows a claim may take: waiting, due, on an available channel, and under no live lease. -/
def claimable (available : List Channel) (now : ℤ) (r : OutboxRow) : Bool :=
  r.status = .pending && decide (r.nextAttemptAt ≤ now) && available.contains r.channel &&
    r.lockedUntil.all fun t => decide (t ≤ now)

/-- `ORDER BY priority ASC, outbox_id ASC`. -/
def drainOrder (rows : List (ℕ × OutboxRow)) : List (ℕ × OutboxRow) :=
  rows.insertionSort fun a b => a.2.priority < b.2.priority ∨ a.2.priority = b.2.priority ∧ a.1 ≤ b.1

/-- The ids a claim takes. -/
def claimIds (available : List Channel) (now : ℤ) (db : Database K) : List ℕ :=
  (sqlLimit rt.settings.outboxBatchSize
    (drainOrder (db.outbox.select fun _ r => claimable available now r))).map Prod.fst

/-- The `UPDATE` of `_claim`: an exclusive, expiring lease on a batch of rows. -/
def takeLease (workerId : String) (available : List Channel) (now leaseUntil : ℤ)
    (db : Database K) : Database K :=
  let ids := claimIds rt available now db
  { db with
    outbox := db.outbox.update fun k r =>
      if ids.contains k then { r with lockedBy := some workerId, lockedUntil := some leaseUntil }
      else r }

/-- The `SELECT` of `_claim`. -/
def leasedRows (workerId : String) (leaseUntil : ℤ) (db : Database K) : List ClaimedRow :=
  (drainOrder (db.outbox.select fun _ r => r.status = .pending &&
    r.lockedBy = some workerId && r.lockedUntil = some leaseUntil)).map fun r => claimedRow r.1 r.2

/-- A channel on trial gets a small allowance, not the whole backlog. -/
def trimHalfOpen (halfOpen : List Channel) (allowance : ℤ) :
    (Channel → ℤ) → List ClaimedRow → List ClaimedRow
  | _, [] => []
  | counts, row :: rows =>
      if row.channel ∈ halfOpen then
        if allowance ≤ counts row.channel then trimHalfOpen halfOpen allowance counts rows
        else row :: trimHalfOpen halfOpen allowance
          (Function.update counts row.channel (counts row.channel + 1)) rows
      else row :: trimHalfOpen halfOpen allowance counts rows

theorem trimHalfOpen_sublist (halfOpen : List Channel) (allowance : ℤ) (counts : Channel → ℤ)
    (rows : List ClaimedRow) : (trimHalfOpen halfOpen allowance counts rows).Sublist rows := by
  induction rows generalizing counts with
  | nil => exact List.Sublist.refl _
  | cons row rows ih =>
      rw [trimHalfOpen]
      split_ifs
      · exact (ih _).cons _
      · exact (ih _).cons_cons _
      · exact (ih _).cons_cons _

/-! ## Dispatching -/

/-- `_resolve_external_ref`: the provider handle this incident already has on this channel. -/
def resolveExternalRef (incidentId : String) (channel : Channel) (db : Database K) : Option String :=
  (firstBy (fun a b => decide (b.1 < a.1)) (db.outbox.select fun _ r =>
    r.incidentId = incidentId && r.channel = channel && r.status = .sent && r.externalRef.isSome)).bind
      fun r => r.2.externalRef

/-- The arguments `_dispatch` calls a dispatcher with. -/
def prepareDispatch (row : ClaimedRow) (db : Database K) : Dispatch :=
  if row.payload.digest.isSome then ⟨row, row.action, row.payload, row.externalRef⟩
  else
    let payload := hydratePayload row.incidentId row.payload db
    ⟨row, effectiveAction row.action payload.state, payload,
      (truthy row.externalRef).or (resolveExternalRef row.incidentId row.channel db)⟩

/-! ## Row state transitions -/

/-- `locked_by = NULL, locked_until = NULL`. -/
def OutboxRow.unlock (r : OutboxRow) : OutboxRow := { r with lockedBy := none, lockedUntil := none }

/-- `_mark_sent`. -/
def markSent (now : ℤ) (outboxId : ℕ) (externalRef : Option String) (db : Database K) : Database K :=
  { db with
    outbox := db.outbox.modify outboxId fun r =>
      { r.unlock with
        status := .sent
        sentAt := some now
        externalRef := externalRef.or r.externalRef } }

/-- `_park`: hold a row until the channel is expected back, its attempts unchanged. -/
def park (now : ℤ) (outboxId : ℕ) (nextProbeAt : Option ℤ) (reason : String) (db : Database K) :
    Database K :=
  { db with
    outbox := db.outbox.modify outboxId fun r =>
      { r.unlock with
        nextAttemptAt := nextProbeAt.getD (now + 1000)
        lastError := some (clip ("channel_down:" ++ reason)) } }

/-- `_exponential_backoff`, in seconds. -/
def exponentialBackoff (attempts : ℤ) : ℚ := min (2 ^ attempts.toNat) 300

/-- `_retry_later`: charge an attempt and back off; raises on a delay that is no delay. -/
def retryLater (now : ℤ) (outboxId : ℕ) (attempts : ℤ) (reason : String)
    (retryAfterSeconds : Option Seconds) (db : Database K) : Option (Database K) :=
  let newAttempts := attempts + 1
  let delay := (retryAfterSeconds.filter Seconds.truthy).getD (.finite (exponentialBackoff newAttempts))
  (instantAfter now delay).map fun nextAttemptAt =>
    { db with
      outbox := db.outbox.modify outboxId fun r =>
        { r.unlock with
          attempts := newAttempts
          status := if rt.settings.outboxMaxAttempts ≤ newAttempts then .dead else .pending
          nextAttemptAt := nextAttemptAt
          lastError := some (clip reason) } }

/-- `_dead_letter`. -/
def deadLetter (outboxId : ℕ) (reason : String) (db : Database K) : Database K :=
  { db with
    outbox := db.outbox.modify outboxId fun r =>
      { r.unlock with status := .dead, lastError := some (clip reason) } }

/-! ## Failing over -/

/-- The row a fallback channel gets in place of one on a channel that is down. -/
def failoverRow (now : ℤ) (channel : Channel) (target : FailoverTarget) (outboxId : ℕ) (r : OutboxRow)
    (payload : Payload) : OutboxRow where
  incidentId := r.incidentId
  channel := target.channel
  action := target.action
  payload := { payload with failoverFrom := some channel }
  nextAttemptAt := now
  priority := r.priority
  failoverOf := some outboxId
  originChannel := channel
  createdAt := now

/-- The loop of `_failover_pending` over the rows of the channel that is down: how many
moved, and the database after. -/
def failoverEach (now : ℤ) (channel : Channel) (available : Channel → Bool) (s : ℕ × Database K)
    (row : ℕ × OutboxRow) : ℕ × Database K :=
  if isFailoverWorthy row.2.priority then
    match selectFailover channel row.2.action available with
    | none => s
    | some target =>
        let payload := hydratePayload row.2.incidentId row.2.payload s.2
        (s.1 + 1, { s.2 with
          outbox := (s.2.outbox.push (failoverRow now channel target row.1 row.2 payload)).modify row.1
            (OutboxRow.markFallback (.channel target.channel)) })
  else s

/-- The rows `_failover_pending` considers. -/
def failoverCandidates (channel : Channel) (db : Database K) : List (ℕ × OutboxRow) :=
  drainOrder (db.outbox.select fun _ r =>
    r.channel = channel && r.status = .pending && r.failoverOf.isNone)

/-- The channels a failover may go to. -/
def failoverAvailable (channel : Channel) (db : Database K) (candidate : Channel) : Bool :=
  knownChannels.contains candidate && candidate ≠ channel && (getState candidate db).isAvailable

/-- `_failover_pending`: re-route urgent queued traffic onto an independent provider. -/
def failoverPending (now : ℤ) (channel : Channel) (db : Database K) : Database K :=
  if knownChannels.any (failoverAvailable channel db) then
    let s := (failoverCandidates channel db).foldl
      (failoverEach now channel (failoverAvailable channel db)) (0, db)
    if s.1 = 0 then s.2 else markFailedOver channel s.1 s.2
  else db

/-! ## The steps of a worker -/

/-- Where a worker is between two commits, with what it has read. -/
inductive Phase where
  /-- between two passes -/
  | idle
  /-- about to look at the next breaker state of `_probe_open_channels` -/
  | probing (states : List ChannelState)
  /-- a probe is out -/
  | awaitingProbe (channel : Channel) (states : List ChannelState)
  /-- `_poll_once` has read the breakers -/
  | polled (now : ℤ) (available halfOpen : List Channel)
  /-- and has collapsed the queue -/
  | coalesced (now : ℤ) (available halfOpen : List Channel)
  /-- the lease is committed -/
  | leased (leaseUntil : ℤ) (halfOpen : List Channel)
  /-- the batch is in hand -/
  | draining (batch : List ClaimedRow)
  /-- the arguments of a dispatch are ready -/
  | prepared (dispatch : Dispatch) (batch : List ClaimedRow)
  /-- a dispatcher has been called -/
  | calling (dispatch : Dispatch) (batch : List ClaimedRow)
  /-- and has returned -/
  | delivered (dispatch : Dispatch) (newRef : Option String) (batch : List ClaimedRow)
  /-- the row is marked as sent -/
  | marked (channel : Channel) (batch : List ClaimedRow)
  /-- the dispatcher has raised -/
  | failed (dispatch : Dispatch) (verdict : FailureVerdict) (batch : List ClaimedRow)
  /-- the failure is recorded on the channel -/
  | charged (dispatch : Dispatch) (verdict : FailureVerdict) (newlyDown : Bool)
      (nextProbeAt : Option ℤ) (batch : List ClaimedRow)
  /-- the row is parked, and the channel newly down -/
  | failingOver (channel : Channel) (batch : List ClaimedRow)

/-- A step of a worker, with the clock it reads and what the network answers. -/
inductive WorkerStep where
  | wake
  | look (now : ℤ)
  | probeReturns (now : ℤ) (outcome : Option Exc)
  | poll (now : ℤ)
  | coalesce
  | claim (now : ℤ)
  | select
  | prepare
  | handOff (now : ℤ)
  | callReturns (now : ℤ) (outcome : Except Exc (Option String))
  | settle (now : ℤ)
  | sleep
  /-- the process dies, or the pass ends by an exception of the database -/
  | crash

/-- The transaction that settles a row whose call has ended. -/
def settle (now : ℤ) (phase : Phase) (db : Database K) : Option (Phase × Database K) :=
  match phase with
  | .delivered d newRef batch =>
      some (.marked d.row.channel batch, markSent now d.row.outboxId newRef db)
  | .marked channel batch => some (.draining batch, (recordSuccess now channel db).2)
  | .failed d verdict batch =>
      match recordFailure rt now d.row.channel verdict db with
      | none => some (.idle, db)
      | some (newlyDown, db) =>
          some (.charged d verdict newlyDown (getState d.row.channel db).nextProbeAt batch, db)
  | .charged d verdict newlyDown nextProbeAt batch =>
      match verdict.kind with
      | .MESSAGE_FATAL => some (.draining batch, deadLetter d.row.outboxId verdict.reason db)
      | .CHANNEL_DOWN =>
          some (if newlyDown then .failingOver d.row.channel batch else .draining batch,
            park now d.row.outboxId nextProbeAt verdict.reason db)
      | .TRANSIENT =>
          match retryLater rt now d.row.outboxId d.row.attempts verdict.reason
              verdict.retryAfterSeconds db with
          | none => some (.idle, db)
          | some db => some (.draining batch, db)
  | .failingOver channel batch => some (.draining batch, failoverPending now channel db)
  | _ => none

/-- One step of a worker. -/
def workerNext (workerId : String) (phase : Phase) (db : Database K) :
    WorkerStep → Option (Phase × Database K)
  | .wake => match phase with
    | .idle => some (.probing (allStates db), db)
    | _ => none
  | .look now => match phase with
    | .probing (state :: states) =>
        if state.probeDue now ∧ state.channel ∈ probes then
          some (.awaitingProbe state.channel states, db)
        else some (.probing states, db)
    | _ => none
  | .probeReturns now outcome => match phase with
    | .awaitingProbe channel states =>
        match afterProbe rt now channel outcome db with
        | none => some (.idle, db)
        | some db => some (.probing states, db)
    | _ => none
  | .poll now => match phase with
    | .probing [] =>
        let (available, halfOpen) := pollChannels db
        if available = [] then some (.idle, db) else some (.polled now available halfOpen, db)
    | _ => none
  | .coalesce => match phase with
    | .polled now available halfOpen =>
        some (.coalesced now available halfOpen, coalesceAvailable available db)
    | _ => none
  | .claim clock => match phase with
    | .coalesced now available halfOpen =>
        let leaseUntil := secondsAfter clock rt.settings.outboxLeaseSeconds
        some (.leased leaseUntil halfOpen, takeLease rt workerId available now leaseUntil db)
    | _ => none
  | .select => match phase with
    | .leased leaseUntil halfOpen =>
        some (.draining (trimHalfOpen halfOpen rt.settings.outboxHalfOpenAllowance (fun _ => 0)
          (leasedRows workerId leaseUntil db)), db)
    | _ => none
  | .prepare => match phase with
    | .draining (row :: batch) => some (.prepared (prepareDispatch row db) batch, db)
    | _ => none
  | .handOff _ => match phase with
    | .prepared d batch =>
        if d.row.channel ∈ dispatchers then some (.calling d batch, db)
        else some (.draining batch,
          deadLetter d.row.outboxId ("unknown channel: " ++ d.row.channel.text) db)
    | _ => none
  | .callReturns _ outcome => match phase with
    | .calling d batch =>
        match outcome with
        | .ok newRef => some (.delivered d newRef batch, db)
        | .error exc => some (.failed d (classify exc) batch, db)
    | _ => none
  | .settle now => settle rt now phase db
  | .sleep => match phase with
    | .draining [] => some (.idle, db)
    | _ => none
  | .crash => some (.idle, db)

end PulseGraph
