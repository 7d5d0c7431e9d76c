/-
# What a pass knows of the breakers

A worker reads the breakers when it wakes, to see which channels to probe, and once more
when it polls, to see where rows may go.  While it is the only one that records probes
and deliveries, what it has read stays true until it acts on it (`Phase.sees`): a channel
is probed while it is `OPEN`, and the channels a batch is claimed for are those that were
available at the poll.

**Proved here.**  `WorkerMove.breakers` lists the three calls by which a step of a worker
moves a breaker.  With a single worker every pass sees the breakers as they are
(`sees_of_run`), and an outage is in progress exactly while its channel is not closed
(`recorded_of_run`).
-/

import PulseGraph.Outbox.Coherence
import PulseGraph.Outbox.Failover

namespace PulseGraph

open Library (Table Run Transition)

variable {K : Type}

/-! ## The calls on a breaker -/

/-- Outages are rewritten in what says neither when they began nor when they ended. -/
def Annotates (t t' : Table ℕ ChannelOutage) : Prop :=
  ∃ f : ℕ → ChannelOutage → ChannelOutage, t' = t.update f ∧
    ∀ n o, (f n o).channel = o.channel ∧ (f n o).detectedAt = o.detectedAt ∧ (f n o).recoveredAt = o.recoveredAt

/-- How a step of a worker moves the breakers. -/
inductive BreakerMove (rt : Runtime K) (db db' : Database K) : Phase → WorkerStep → Phase → Prop
  /-- no breaker moves -/
  | still {phase step phase'} : (∀ c, getState c db' = getState c db) →
      Annotates db.channelOutages db'.channelOutages → BreakerMove rt db db' phase step phase'
  | probed {now outcome detail channel states db₁} :
      recordProbeResult rt now channel (Option.isNone outcome) detail db = some db₁ →
      db'.channelHealth = db₁.channelHealth → db'.channelOutages = db₁.channelOutages →
      BreakerMove rt db db' (.awaitingProbe channel states) (.probeReturns now outcome) (.probing states)
  | succeeded {now channel batch} : db' = (recordSuccess now channel db).2 →
      BreakerMove rt db db' (.marked channel batch) (.settle now) (.draining batch)
  | failed {now d verdict newlyDown next batch} :
      recordFailure rt now d.row.channel verdict db = some (newlyDown, db') →
      BreakerMove rt db db' (.failed d verdict batch) (.settle now) (.charged d verdict newlyDown next batch)

section Calls

variable {rt : Runtime K} {w : String} {db db' : Database K} {phase phase' : Phase} {step : WorkerStep}
  {c : Channel}

theorem Annotates.refl (t : Table ℕ ChannelOutage) : Annotates t t := by
  refine ⟨fun _ o => o, ?_, fun _ _ => ⟨rfl, rfl, rfl⟩⟩
  cases t
  simp [Table.update]

/-- Rewriting the outage in progress, of a table that is the same. -/
theorem annotates_modifyOpenOutage {f : ChannelOutage → ChannelOutage}
    (hf : ∀ o, (f o).channel = o.channel ∧ (f o).detectedAt = o.detectedAt ∧ (f o).recoveredAt = o.recoveredAt) :
    Annotates db.channelOutages (modifyOpenOutage c f db).channelOutages := by
  unfold modifyOpenOutage
  split
  · exact Annotates.refl _
  · next row _ =>
      refine ⟨fun n o => if n = row.1 then f o else o, rfl, fun n o => ?_⟩
      dsimp only
      split_ifs
      · exact hf o
      · exact ⟨rfl, rfl, rfl⟩

/-- Annotated outages are in progress as before. -/
theorem Annotates.openOutages (h : Annotates db.channelOutages db'.channelOutages) (c : Channel) :
    openOutages c db' = openOutages c db := by
  obtain ⟨f, hf, hsame⟩ := h
  simp only [PulseGraph.openOutages, Table.count_eq_sum, hf]
  refine Table.sum_update fun n o => ?_
  obtain ⟨hc, -, hr⟩ := hsame n o
  rw [hc, hr]

/-- The state of a channel is read from its row. -/
theorem getState_congr (h : db'.channelHealth = db.channelHealth) (c : Channel) :
    getState c db' = getState c db := by
  unfold getState
  rw [h]

/-- A step that writes the queue alone moves no breaker. -/
theorem BreakerMove.of_same {rt : Runtime K} (h : db'.channelHealth = db.channelHealth)
    (ho : db'.channelOutages = db.channelOutages) : BreakerMove rt db db' phase step phase' :=
  .still (getState_congr h) (ho ▸ Annotates.refl _)

theorem prepareBacklog_breakers (now : ℤ) (channel : Channel) :
    (prepareBacklog now channel db).channelHealth = db.channelHealth ∧
      (prepareBacklog now channel db).channelOutages = db.channelOutages := by
  unfold prepareBacklog
  dsimp only
  split <;> exact ⟨rfl, rfl⟩

theorem coalesceAvailable_breakers (available : List Channel) :
    (coalesceAvailable available db).channelHealth = db.channelHealth ∧
      (coalesceAvailable available db).channelOutages = db.channelOutages := by
  unfold coalesceAvailable
  refine List.foldlRecOn (motive := fun a : Database K =>
    a.channelHealth = db.channelHealth ∧ a.channelOutages = db.channelOutages) _ _ ⟨rfl, rfl⟩ ?_
  exact fun a ha channel _ => ha

/-- A failover annotates the outage it is for. -/
theorem failoverPending_outages (now : ℤ) (channel : Channel) :
    Annotates db.channelOutages (failoverPending now channel db).channelOutages := by
  unfold failoverPending
  split_ifs
  · have hloop : ((failoverCandidates channel db).foldl
        (failoverEach now channel (failoverAvailable channel db)) (0, db)).2.channelOutages =
        db.channelOutages := by
      refine List.foldlRecOn
        (motive := fun s : ℕ × Database K => s.2.channelOutages = db.channelOutages) _ _ rfl ?_
      intro s hs row _
      rw [failoverEach_frame]
      exact hs
    dsimp only
    split_ifs
    · rw [hloop]
      exact Annotates.refl _
    · rw [← hloop]
      exact annotates_modifyOpenOutage fun _ => ⟨rfl, rfl, rfl⟩
  · exact Annotates.refl _

/-- **A step of a worker moves a breaker by a probe, a success or a failure that it records.** -/
theorem WorkerMove.breakers (h : WorkerMove rt w db phase step phase' db') :
    BreakerMove rt db db' phase step phase' := by
  cases h with
  | @probed now outcome channel states db' hr =>
      unfold afterProbe at hr
      obtain ⟨db₁, hrecord, rfl⟩ := Option.map_eq_some_iff.1 hr
      refine .probed hrecord ?_ ?_
      · split_ifs
        · exact (prepareBacklog_breakers now channel).1
        · rfl
      · split_ifs
        · exact (prepareBacklog_breakers now channel).2
        · rfl
  | coalesce => exact .of_same (coalesceAvailable_breakers _).1 (coalesceAvailable_breakers _).2
  | recordSuccess => exact .succeeded rfl
  | recordFailure hr => exact .failed hr
  | retry _ hr =>
      unfold retryLater at hr
      obtain ⟨next, -, rfl⟩ := Option.map_eq_some_iff.1 hr
      exact .of_same rfl rfl
  | @failOver now channel batch =>
      exact .still (fun c => failoverPending_getState now channel) (failoverPending_outages now channel)
  | _ => exact .of_same rfl rfl

end Calls

/-! ## What a pass has read -/

/-- Breaker states as a worker read them, and what is still true of them. -/
structure Sees (db : Database K) (states : List ChannelState) : Prop where
  nodup : (states.map (·.channel)).Nodup
  opens : ∀ state ∈ states, state.state = .OPEN → (getState state.channel db).state = .OPEN

/-- What a worker has read of the breakers and will act on. -/
def Phase.sees (db : Database K) : Phase → Prop
  | .probing states => Sees db states
  | .awaitingProbe channel states => (getState channel db).state = .OPEN ∧
      channel ∉ states.map (·.channel) ∧ Sees db states
  | .polled _ available halfOpen => (available, halfOpen) = pollChannels db
  | .coalesced _ available halfOpen => (available, halfOpen) = pollChannels db
  | _ => True

section Passes

variable {rt : Runtime K} {w : String} {db db' : Database K} {phase phase' : Phase} {step : WorkerStep}

/-- A worker reads every breaker once. -/
theorem sees_allStates (db : Database K) : Sees db (allStates db) := by
  constructor
  · have hkeys : (allStates db).map (·.channel) = db.channelHealth.rows.map Prod.fst := by
      simp [allStates, rowToState, Function.comp_def]
    rw [hkeys]
    exact db.channelHealth.nodup
  · intro state hstate hopen
    obtain ⟨⟨c, row⟩, hrow, rfl⟩ := List.mem_map.1 hstate
    have hfind : db.channelHealth.find? c = some row := Table.find?_eq_some_iff.2 hrow
    show (getState c db).state = .OPEN
    rw [getState, hfind]
    exact hopen

theorem Sees.tail {state : ChannelState} {states : List ChannelState} (h : Sees db (state :: states)) :
    Sees db states :=
  ⟨(List.nodup_cons.1 h.nodup).2, fun st hst => h.opens st (List.mem_cons_of_mem _ hst)⟩

theorem Sees.congr {states : List ChannelState} (h : Sees db states)
    (hsame : ∀ st ∈ states, getState st.channel db' = getState st.channel db) : Sees db' states :=
  ⟨h.nodup, fun st hst hopen => by rw [hsame st hst]; exact h.opens st hst hopen⟩

theorem pollChannels_congr (h : ∀ c, getState c db' = getState c db) : pollChannels db' = pollChannels db := by
  unfold pollChannels
  simp only [h]

/-- What was read stays true while no breaker moves. -/
theorem Phase.sees.congr {phase : Phase} (h : phase.sees db) (hsame : ∀ c, getState c db' = getState c db) :
    phase.sees db' := by
  cases phase with
  | probing states => exact Sees.congr h fun st _ => hsame _
  | awaitingProbe channel states =>
      obtain ⟨hopen, hnew, hsees⟩ := h
      exact ⟨by rw [hsame]; exact hopen, hnew, hsees.congr fun st _ => hsame _⟩
  | polled now available halfOpen => exact Eq.trans h (pollChannels_congr hsame).symm
  | coalesced now available halfOpen => exact Eq.trans h (pollChannels_congr hsame).symm
  | _ => trivial

/-- **A step of the worker acts on what is still true**, and what it reads is true. -/
theorem Phase.sees.next (h : phase.sees db) (hmove : WorkerMove rt w db phase step phase' db') :
    phase'.sees db' := by
  cases hmove with
  | wake => exact sees_allStates db
  | @look now state states hdue =>
      have hopen : state.state = .OPEN := by
        have hboth : (decide (state.state = .OPEN) && state.nextProbeAt.all fun t => decide (t ≤ now)) = true := hdue
        exact of_decide_eq_true (Bool.and_eq_true_iff.1 hboth).1
      exact ⟨h.opens state List.mem_cons_self hopen, (List.nodup_cons.1 h.nodup).1, h.tail⟩
  | skip => exact Sees.tail h
  | @probed now outcome channel states db' hr =>
      obtain ⟨-, hnew, hsees⟩ := h
      unfold afterProbe at hr
      obtain ⟨db₁, hrecord, rfl⟩ := Option.map_eq_some_iff.1 hr
      refine hsees.congr fun st hst => ?_
      have hne : st.channel ≠ channel := fun he => hnew (he ▸ List.mem_map_of_mem hst)
      rw [← (recordProbeResult_move hrecord).1 _ hne]
      refine getState_congr ?_ _
      split_ifs
      · exact (prepareBacklog_breakers now channel).1
      · rfl
  | poll => exact rfl
  | @coalesce now available halfOpen =>
      exact Eq.trans h (pollChannels_congr (getState_congr (coalesceAvailable_breakers available).1)).symm
  | @park now d verdict newlyDown next batch hkind => split_ifs <;> trivial
  | _ => trivial

/-- A step of a worker that sees the breakers as they are keeps the record of their outages. -/
theorem Recorded.worker {c : Channel} (hc : Recorded c db) (hsees : phase.sees db)
    (hmove : WorkerMove rt w db phase step phase' db') : Recorded c db' := by
  cases hmove.breakers with
  | still hsame hout => exact hc.congr (hsame c) (hout.openOutages c)
  | @probed now outcome detail channel states db₁ hr hhealth hout =>
      have hne : (getState channel db).state ≠ .CLOSED := by
        rw [hsees.1]
        decide
      exact (hc.probeResult hr hne).congr (getState_congr hhealth c) (openOutages_congr hout c)
  | succeeded hdb =>
      rw [hdb]
      exact hc.success
  | failed hr => exact hc.failure hr

variable [Field K] [LinearOrder K] {s s' : Deployment K} {h : List (Transition (Deployment K) Turn)}

/-- **With a single worker** every pass acts on the breakers as they are. -/
theorem sees_of_run (r : DeploymentRun rt h s) (hone : ∀ t ∈ h, t.label.isOf [w] = true) :
    (s.phase w).sees s.db := by
  refine Run.induct_of_forall (C := fun t => t.label.isOf [w] = true)
    (I := fun _ s => (s.phase w).sees s.db) r hone ?_ ?_
  · rintro _ rfl
    exact trivial
  · rintro h s turn s' - - hsees hof hnext
    cases turn with
    | request q =>
        obtain ⟨hengine, hphase⟩ := deploymentNext_request hnext
        rw [hphase]
        exact hsees.congr (engineNext_getState hengine)
    | worker w' step =>
        obtain rfl : w' = w := List.mem_singleton.1 (List.contains_iff_mem.1 hof)
        exact hsees.next (deploymentNext_worker hnext).1

/-- **With a single worker** an outage is in progress exactly while its channel is not closed. -/
theorem recorded_of_run (r : DeploymentRun rt h s) (hone : ∀ t ∈ h, t.label.isOf [w] = true) (c : Channel) :
    Recorded c s.db := by
  refine Run.induct_of_forall (C := fun t => t.label.isOf [w] = true)
    (I := fun _ s => Recorded c s.db) r hone ?_ ?_
  · rintro _ rfl
    exact recorded_empty
  · rintro h s turn s' hrun hall hrec hof hnext
    cases turn with
    | request q =>
        have hengine := (deploymentNext_request hnext).1
        exact hrec.congr (engineNext_getState hengine c) (openOutages_congr (engineNext_breakers hengine).2 c)
    | worker w' step =>
        obtain rfl : w' = w := List.mem_singleton.1 (List.contains_iff_mem.1 hof)
        exact hrec.worker (sees_of_run hrun hall) (deploymentNext_worker hnext).1

end Passes

end PulseGraph
