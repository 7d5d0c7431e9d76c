/-
# When failover is complete

`routing.py`: what is critical or high is "re-routed immediately to an available channel rather
than sitting in a queue nobody is watching".  The worker re-routes once, right after the failure
that declares an outage: not what is queued during the outage, not what waits when a trial
fails or when a fallback comes up, and no row that is a fallback itself.

**Proved here.**  `Watched` says of a channel that each of its urgent rows has a stand-in where
there is a channel that could take one.  In every run of a single worker in which each step
finds the channels it takes down, or brings up, watched, and no request queues urgent rows on a
channel that is down, failover is complete whenever the worker is idle
(`failoverComplete_of_run`): one step keeps every channel that is down watched, or a failover
on its way to it (`WatchesDown.worker`, `WatchesDown.request`).
-/

import PulseGraph.Engine.Persists
import PulseGraph.Outbox.Probing
import PulseGraph.Outbox.StandIns
import PulseGraph.Outbox.Terminal

namespace PulseGraph

open Library (Table Run Transition)

variable {K : Type}

/-! ## Channels that are watched -/

/-- The breaker of the channel is not open. -/
def isUp (db : Database K) (f : Channel) : Bool := (getState f db).isAvailable

/-- **The channel is watched**, with these channels `up`: where one of them is a fallback of it, each
urgent row that waits on it has a stand-in on one, digests and the `excused` aside. -/
def Watched (up : Channel → Bool) (db : Database K) (c : Channel) (excused : OutboxRow → Prop) : Prop :=
  (∃ f ∈ failoverChain c, up f = true) → ∀ k r, db.outbox.find? k = some r → Urgent c r →
    r.payload.digest = none → excused r ∨ ∃ f ∈ failoverChain c, up f = true ∧ FailedOver db k c f

/-- Every channel that is down is watched, or a failover is on its way to its rows. -/
def WatchesDown (db : Database K) (phase : Phase) : Prop :=
  ∀ c, (getState c db).state = .OPEN →
    Watched (isUp db) db c fun r => phase.failsOver c ∧ r.failoverOf = none

section Watched

variable {db db' : Database K} {up up' : Channel → Bool} {c : Channel} {excused excused' : OutboxRow → Prop}

theorem firstFallback_isSome_iff : (firstFallback c db).isSome = true ↔ ∃ f ∈ failoverChain c, isUp db f = true := by
  rw [firstFallback, List.find?_isSome]
  rfl

/-- A fallback that is the first one is in the chain, and up. -/
theorem firstFallback_up {f : Channel} (h : firstFallback c db = some f) :
    f ∈ failoverChain c ∧ isUp db f = true := ⟨List.mem_of_find?_eq_some h, List.find?_some h⟩

theorem isUp_eq_true {f : Channel} : isUp db f = true ↔ (getState f db).state ≠ .OPEN := by
  simp [isUp, ChannelState.isAvailable]

/-- While no worker is on its way, that every channel that is down is watched is that failover is
complete. -/
theorem WatchesDown.complete (h : WatchesDown db .idle) : FailoverComplete (fun _ => true) db := by
  intro c hdown hsome k r hr hurgent hd _
  exact (h c hdown (firstFallback_isSome_iff.1 hsome) k r hr hurgent hd).resolve_left fun hphase => hphase.1

/-- A channel stays watched when its urgent rows were there with their stand-ins. -/
theorem Watched.of_rows (h : Watched up db c excused) (hup : ∀ f ∈ failoverChain c, up' f = up f)
    (hrows : ∀ k r', db'.outbox.find? k = some r' → Urgent c r' → r'.payload.digest = none →
      (∃ r, db.outbox.find? k = some r ∧ Urgent c r ∧ r.payload.digest = none ∧ (excused r → excused' r')) ∨
        excused' r')
    (hgiven : ∀ k f, FailedOver db k c f → FailedOver db' k c f) : Watched up' db' c excused' := by
  rintro ⟨f, hf, hfup⟩ k r' hr' hurgent' hd'
  rcases hrows k r' hr' hurgent' hd' with ⟨r, hr, hurgent, hd, hexcused⟩ | hexcused
  swap
  · exact .inl hexcused
  rcases h ⟨f, hf, hup f hf ▸ hfup⟩ k r hr hurgent hd with hex | ⟨f', hf', hfup', hfo⟩
  · exact .inl (hexcused hex)
  · exact .inr ⟨f', hf', (hup f' hf').trans hfup', hgiven k f' hfo⟩

end Watched

/-! ## What a step must find -/

/-- A failure of this kind takes the channel down. -/
def TakesDown (rt : Runtime K) (verdict : FailureVerdict) (c : Channel) (db : Database K) : Prop :=
  verdict.tripsBreaker = true ∧ (getState c db).state ≠ .OPEN ∧ ((getState c db).state = .CLOSED →
    rt.settings.outboxBreakerFailureThreshold ≤ (getState c db).consecutiveFailures + 1)

/-- A channel that is down comes up with the step: a probe of it answers, or a row is delivered. -/
inductive BringsUp (db : Database K) : Phase → WorkerStep → Channel → Prop
  | probe {now channel states} : (getState channel db).state = .OPEN →
      BringsUp db (.awaitingProbe channel states) (.probeReturns now none) channel
  | delivery {now channel batch} : (getState channel db).state = .OPEN →
      BringsUp db (.marked channel batch) (.settle now) channel

variable [Field K] [LinearOrder K]

/-- **What a turn must find for its channels to stay watched**, read off the state before it, with `w`
the only worker. -/
structure StaysWatched (rt : Runtime K) (w : String) (t : Transition (Deployment K) Turn) : Prop where
  single : t.label.isOf [w] = true
  /-- the worker does not die on its way to a failover -/
  lives : diesFailingOver t = false
  /-- no decision queues an urgent row on a channel that is down and has a fallback, unless a failover
  is on its way -/
  queues : ∀ q b d points, t.label = .request q → Persists rt t.source.db q b d points →
    isFailoverWorthy (priorityBySeverity d.severityFinal) = true → ∀ intent ∈ d.deliveryIntents,
    (getState intent.channel t.source.db).state = .OPEN →
    firstFallback intent.channel t.source.db = none ∨ (t.source.phase w).failsOver intent.channel
  /-- a failure that takes a channel down leaves the rows of every channel that is down watched without
  it, the rows that the failover will move aside -/
  takesDown : ∀ now d verdict batch, t.label = .worker w (.settle now) → t.source.phase w = .failed d verdict batch →
    TakesDown rt verdict d.row.channel t.source.db → ∀ c, c = d.row.channel ∨ (getState c t.source.db).state = .OPEN →
    Watched (fun f => f ≠ d.row.channel && isUp t.source.db f) t.source.db c fun r =>
      c = d.row.channel ∧ (getState c t.source.db).state = .CLOSED ∧ r.failoverOf = none
  /-- a channel that comes up leaves the rows of the others that are down watched with it -/
  bringsUp : ∀ step up, t.label = .worker w step → BringsUp t.source.db (t.source.phase w) step up →
    ∀ c, c ≠ up → (getState c t.source.db).state = .OPEN →
    Watched (fun f => f = up || isUp t.source.db f) t.source.db c fun _ => False

/-! ## Steps -/

section Steps

variable {rt : Runtime K} {w : String} {db db' : Database K} {phase phase' : Phase} {step : WorkerStep}
  {s s' : Deployment K} {c : Channel}

omit [Field K] [LinearOrder K] in
/-- **An urgent row after a step of the worker** was one before it, or is a stand-in on a channel
that is up. -/
theorem WorkerMove.urgent_row (h : WorkerMove rt w db phase step phase' db')
    (hheld : ∀ row ∈ phase.inHand, ∃ r, db.outbox.find? row.outboxId = some r ∧ r.status = .pending)
    {k : ℕ} {r' : OutboxRow} (hr' : db'.outbox.find? k = some r') (hurgent : Urgent c r')
    (hd : r'.payload.digest = none) :
    (∃ r, db.outbox.find? k = some r ∧ Urgent c r ∧ r.payload.digest = none ∧ r.failoverOf = r'.failoverOf) ∨
      (∀ c, getState c db' = getState c db) ∧ isUp db c = true := by
  cases hr : db.outbox.find? k with
  | some r =>
      obtain ⟨r₁, hr₁, hstep⟩ := h.rows.1 k r hr
      obtain rfl := Option.some.inj (hr₁.symm.trans hr')
      obtain ⟨-, hch, -, -, hdigest⟩ := hstep.names
      have hwaits : r.status = .pending := by
        rcases hstep.live hurgent.waits with hp | ⟨row, hrow, rfl⟩
        · exact hp
        · obtain ⟨r₀, hr₀, hp⟩ := hheld row hrow
          obtain rfl := Option.some.inj (hr.symm.trans hr₀)
          exact hp
      exact .inl ⟨r, rfl, ⟨hch ▸ hurgent.channel, hwaits, hstep.priority ▸ hurgent.worthy⟩, hdigest ▸ hd,
        hstep.origin.1.symm⟩
  | none =>
      have hnew := h.rows.2 k r' hr hr'
      cases hnew with
      | digest _ => cases hd
      | @failover now channel batch k₀ r₀ target hphase hmem hworthy hsel =>
          subst hphase
          refine .inr ?_
          cases h with
          | failOver =>
              refine ⟨fun c => failoverPending_getState now channel, ?_⟩
              obtain ⟨f, hf, rfl⟩ := Option.map_eq_some_iff.1 hsel
              obtain rfl : f = c := hurgent.channel
              have havailable := List.find?_some hf
              simp only [failoverAvailable, Bool.and_eq_true] at havailable
              exact havailable.2

/-- **A request keeps what is down watched.** -/
theorem WatchesDown.request {q : Request} (hI : WatchesDown s.db (s.phase w))
    (hnext : deploymentNext rt s (.request q) = some s') (hc : StaysWatched rt w ⟨s, .request q, s'⟩) :
    WatchesDown s'.db (s'.phase w) := by
  obtain ⟨hengine, hphase⟩ := deploymentNext_request hnext
  have hstates := fun c => engineNext_getState hengine c
  have hups : ∀ f, isUp s'.db f = isUp s.db f := fun f => by rw [isUp, isUp, hstates]
  intro c hdown hfallback
  rw [hstates] at hdown
  rw [hphase]
  refine (hI c hdown).of_rows (fun f _ => hups f) ?_ (fun k f h => h.request hengine) hfallback
  intro k r' hr' hurgent hd
  obtain ⟨r, hsource, hm⟩ := (engineNext_written hengine).source hr'
  have hframe := hm.frame
  have hurgent : Urgent c r := by
    rw [hframe] at hurgent
    exact ⟨hurgent.channel, hurgent.waits, hurgent.worthy⟩
  have hown : r'.failoverOf = r.failoverOf := by rw [hframe]
  have hdigest : r.payload.digest = none := by
    rw [hframe] at hd
    exact hd
  rcases hsource with hr | ⟨-, ⟨b, d, points, now, intent, hpersists, hintent, rfl⟩ | ⟨now, x, anchor, rfl⟩⟩
  · exact .inl ⟨r, hr, hurgent, hdigest, fun hex => ⟨hex.1, hown.trans hex.2⟩⟩
  · -- a row that is queued now: there is no fallback for it, or a failover is on its way
    obtain rfl : intent.channel = c := hurgent.channel
    rcases hc.queues q b d points rfl hpersists hurgent.worthy intent hintent hdown with hnone | hon
    · obtain ⟨f, hf, hup⟩ := hfallback
      have hsome := firstFallback_isSome_iff.2 ⟨f, hf, (hups f).symm.trans hup⟩
      rw [hnone] at hsome
      cases hsome
    · exact .inr ⟨hon, hown⟩
  · have hworthy : isFailoverWorthy defaultPriority = true := hurgent.worthy
    exact absurd hworthy (by decide)

omit [Field K] [LinearOrder K] in
/-- A step of the worker after which what is down was watched before, as the channels are up now. -/
theorem WatchesDown.of_watched (hmove : WorkerMove rt w db phase step phase' db')
    (hheld : ∀ row ∈ phase.inHand, ∃ r, db.outbox.find? row.outboxId = some r ∧ r.status = .pending)
    (h : ∀ c, (getState c db').state = .OPEN → ∃ (up : Channel → Bool) (excused : OutboxRow → Prop),
      Watched up db c excused ∧ (∀ f ∈ failoverChain c, isUp db' f = up f) ∧
        ∀ r, excused r → phase'.failsOver c ∧ r.failoverOf = none) : WatchesDown db' phase' := by
  intro c hdown
  obtain ⟨up, excused, hwatched, hup, hexcused⟩ := h c hdown
  refine hwatched.of_rows hup (fun k r' hr' hurgent hd => ?_) fun k f hfo => hfo.next hmove
  rcases hmove.urgent_row hheld hr' hurgent hd with ⟨r, hr, hurgent, hd, hown⟩ | ⟨hsame, hc⟩
  · exact .inl ⟨r, hr, hurgent, hd, fun hex => ⟨(hexcused r hex).1, hown.symm.trans (hexcused r hex).2⟩⟩
  · rw [hsame] at hdown
    exact absurd hdown (isUp_eq_true.1 hc)

omit [Field K] [LinearOrder K] in
/-- The step moves no breaker, and the worker is on its way to no failover. -/
theorem WatchesDown.of_same (hI : WatchesDown db phase) (hmove : WorkerMove rt w db phase step phase' db')
    (hheld : ∀ row ∈ phase.inHand, ∃ r, db.outbox.find? row.outboxId = some r ∧ r.status = .pending)
    (hsame : ∀ c, (getState c db').state = (getState c db).state) (hphase : ∀ c, ¬ phase.failsOver c) :
    WatchesDown db' phase' := by
  refine .of_watched hmove hheld fun c hdown => ⟨isUp db, _, hI c ((hsame c).symm.trans hdown), fun f _ => ?_, ?_⟩
  · rw [isUp, isUp, ChannelState.isAvailable, ChannelState.isAvailable, hsame]
  · exact fun r hex => absurd hex.1 (hphase c)

omit [Field K] [LinearOrder K] in
/-- The step brings a channel up. -/
theorem WatchesDown.of_up (up : Channel) (hmove : WorkerMove rt w db phase step phase' db')
    (hheld : ∀ row ∈ phase.inHand, ∃ r, db.outbox.find? row.outboxId = some r ∧ r.status = .pending)
    (hup : (getState up db').state ≠ .OPEN) (hothers : ∀ c, c ≠ up → getState c db' = getState c db)
    (h : ∀ c, c ≠ up → (getState c db).state = .OPEN → Watched (fun f => f = up || isUp db f) db c fun _ => False) :
    WatchesDown db' phase' := by
  refine .of_watched hmove hheld fun c hdown => ?_
  have hne : c ≠ up := by
    rintro rfl
    exact hup hdown
  rw [hothers c hne] at hdown
  refine ⟨_, _, h c hne hdown, fun f _ => ?_, fun r hex => hex.elim⟩
  by_cases hf : f = up
  · rw [hf, isUp_eq_true.2 hup]
    simp
  · rw [isUp, hothers f hf]
    simp [hf, isUp]

omit [Field K] [LinearOrder K] in
/-- The step takes a channel down. -/
theorem WatchesDown.of_down {down : Channel} (hmove : WorkerMove rt w db phase step phase' db')
    (hheld : ∀ row ∈ phase.inHand, ∃ r, db.outbox.find? row.outboxId = some r ∧ r.status = .pending)
    (hdown : (getState down db').state = .OPEN) (hothers : ∀ c, c ≠ down → getState c db' = getState c db)
    (hdeclared : (getState down db).state = .CLOSED → phase'.failsOver down)
    (h : ∀ c, c = down ∨ (getState c db).state = .OPEN → Watched (fun f => f ≠ down && isUp db f) db c fun r =>
      c = down ∧ (getState c db).state = .CLOSED ∧ r.failoverOf = none) : WatchesDown db' phase' := by
  refine .of_watched hmove hheld fun c hc => ?_
  have hsource : c = down ∨ (getState c db).state = .OPEN := by
    by_cases hne : c = down
    · exact .inl hne
    · exact .inr (hothers c hne ▸ hc)
  refine ⟨_, _, h c hsource, fun f _ => ?_, ?_⟩
  · by_cases hf : f = down
    · subst hf
      simp [isUp, ChannelState.isAvailable, hdown]
    · rw [isUp, hothers f hf]
      simp [hf, isUp]
  · rintro r ⟨rfl, hclosed, hown⟩
    exact ⟨hdeclared hclosed, hown⟩

omit [Field K] [LinearOrder K] in
/-- **A step of the worker keeps what is down watched.** -/
theorem WatchesDown.worker (hI : WatchesDown db phase) (hsees : phase.sees db)
    (hheld : ∀ row ∈ phase.inHand, ∃ r, db.outbox.find? row.outboxId = some r ∧ r.status = .pending)
    (hmove : WorkerMove rt w db phase step phase' db')
    (hlives : ∀ k c f, Awaits phase db k c f → step ≠ .crash)
    (htakes : ∀ now d verdict batch, step = .settle now → phase = .failed d verdict batch →
      TakesDown rt verdict d.row.channel db → ∀ c, c = d.row.channel ∨ (getState c db).state = .OPEN →
      Watched (fun f => f ≠ d.row.channel && isUp db f) db c fun r =>
        c = d.row.channel ∧ (getState c db).state = .CLOSED ∧ r.failoverOf = none)
    (hbrings : ∀ up, BringsUp db phase step up → ∀ c, c ≠ up → (getState c db).state = .OPEN →
      Watched (fun f => f = up || isUp db f) db c fun _ => False) : WatchesDown db' phase' := by
  cases hmove.breakers with
  | still hsame _ =>
      have hups : ∀ f, isUp db' f = isUp db f := fun f => by rw [isUp, isUp, hsame]
      rintro c hdown ⟨f, hf, hup⟩ k r' hr' hurgent hd
      rw [hsame] at hdown
      rw [hups] at hup
      rcases hmove.urgent_row hheld hr' hurgent hd with ⟨r, hr, hurgent, hd, hown⟩ | ⟨-, hc⟩
      swap
      · exact absurd hdown (isUp_eq_true.1 hc)
      rcases hI c hdown ⟨f, hf, hup⟩ k r hr hurgent hd with ⟨hphase, hnone⟩ | ⟨g, hg, hgup, hfo⟩
      · -- the failover that is on its way goes on, or gives the row its stand-in
        obtain ⟨g, hg⟩ := Option.isSome_iff_exists.1 (firstFallback_isSome_iff.2 ⟨f, hf, hup⟩)
        have hawaits : Awaits phase db k c g := ⟨hphase, ⟨r, hr, hurgent, hnone⟩, hg⟩
        rcases hawaits.next hmove (hlives k c g hawaits) with hawaits | hfo
        · exact .inl ⟨hawaits.phase, hown.symm.trans hnone⟩
        · obtain ⟨hchain, hgup⟩ := firstFallback_up hg
          exact .inr ⟨g, hchain, (hups g).trans hgup, hfo⟩
      · exact .inr ⟨g, hg, (hups g).trans hgup, hfo.next hmove⟩
  | @probed now outcome detail channel states db₁ hr hhealth hout =>
      obtain ⟨hothers, hresult⟩ := recordProbeResult_move hr
      have hread := getState_congr hhealth
      cases outcome with
      | none =>
          obtain ⟨-, hhalf, -⟩ := hresult.resolve_right fun h => by cases h.1
          refine .of_up channel hmove hheld (by rw [hread, hhalf]; decide)
            (fun c hc => (hread c).trans (hothers c hc)) (hbrings channel (.probe hsees.1))
      | some exc =>
          obtain ⟨-, hopen, -⟩ := hresult.resolve_left fun h => by cases h.1
          refine hI.of_same hmove hheld (fun c => ?_) fun c hphase => hphase
          by_cases hc : c = channel
          · rw [hc, hread, hopen, hsees.1]
          · rw [hread, hothers c hc]
  | @succeeded now channel batch hdb =>
      have hstate := fun c => @recordSuccess_state K db channel now c
      rw [← hdb] at hstate
      by_cases hopen : (getState channel db).state = .OPEN
      · refine .of_up channel hmove hheld ?_ ?_ (hbrings channel (.delivery hopen))
        · rw [hstate, if_pos rfl]
          decide
        · intro c hc
          rw [hdb]
          exact recordSuccess_move.2.1 c hc
      · refine .of_watched hmove hheld fun c hdown => ?_
        rw [hstate] at hdown
        split_ifs at hdown with hc
        refine ⟨isUp db, _, hI c hdown, fun f _ => ?_, fun r hex => absurd hex.1 id⟩
        rw [isUp, isUp, ChannelState.isAvailable, ChannelState.isAvailable, hstate]
        split_ifs with hf
        · subst hf
          simp [hopen]
        · rfl
  | @failed now d verdict newlyDown next batch hr =>
      obtain ⟨hfail, hothers⟩ := recordFailure_move hr
      have hsame : (getState d.row.channel db').state = (getState d.row.channel db).state →
          WatchesDown db' (.charged d verdict newlyDown next batch) := by
        refine fun hsame => hI.of_same hmove hheld (fun c => ?_) fun c hphase => hphase
        by_cases hc : c = d.row.channel
        · rw [hc, hsame]
        · rw [hothers c hc]
      have hdeclared : (getState d.row.channel db).state = .CLOSED → (getState d.row.channel db').state = .OPEN →
          Phase.failsOver d.row.channel (.charged d verdict newlyDown next batch) := by
        intro hclosed hopen
        obtain ⟨-, hnew, hkind, -⟩ := recordFailure_opens hr hclosed hopen
        exact ⟨rfl, hkind, hnew⟩
      cases hfail with
      | spared _ hstate _ => exact hsame (by rw [hstate])
      | counted _ _ _ hstate _ => exact hsame (by rw [hstate])
      | @setBack next htrips hne _ hopen =>
          by_cases hwas : (getState d.row.channel db).state = .OPEN
          · exact hsame (hopen.trans hwas.symm)
          · exact .of_down hmove hheld hopen hothers (fun hclosed => absurd hclosed hne)
              (htakes now d verdict batch rfl rfl ⟨htrips, hwas, fun hclosed => absurd hclosed hne⟩)
      | @declared next htrips hclosed hthr hstate _ =>
          have hopen : (getState d.row.channel db').state = .OPEN := by rw [hstate]
          exact .of_down hmove hheld hopen hothers (fun _ => hdeclared hclosed hopen)
            (htakes now d verdict batch rfl rfl ⟨htrips, by rw [hclosed]; decide, fun _ => hthr⟩)

end Steps

/-! ## Every run -/

section Runs

variable {rt : Runtime K} {w : String} {s : Deployment K} {h : List (Transition (Deployment K) Turn)}

/-- What is down is watched in every state of such a run. -/
theorem watchesDown_of_run (r : DeploymentRun rt h s) (hc : ∀ t ∈ h, StaysWatched rt w t) :
    WatchesDown s.db (s.phase w) := by
  refine Run.induct_of_forall (I := fun _ s => WatchesDown s.db (s.phase w)) r hc ?_ ?_
  · rintro s rfl c hdown
    cases hdown
  · rintro h s turn s' hrun hall hI ht hnext
    have hrun : DeploymentRun rt h s := hrun
    have hone : ∀ t ∈ h, t.label.isOf [w] = true := fun t ht => (hall t ht).single
    cases turn with
    | request q => exact hI.request hnext ht
    | worker w' step =>
        obtain rfl : w' = w := List.mem_singleton.1 (List.contains_iff_mem.1 ht.single)
        refine hI.worker (sees_of_run hrun hone) (heldWait_of_single hrun hone) (deploymentNext_worker hnext).1 ?_
          (fun now d verdict batch hstep => ?_) fun up => ht.bringsUp step up rfl
        · rintro k c f hawaits rfl
          exact absurd ht.lives (by simp [hawaits.dies])
        · exact ht.takesDown now d verdict batch (by rw [hstep])

/-- **When failover is complete**: in every run of a single worker whose steps find the channels they
take down or bring up watched, and whose requests queue nothing urgent on a channel that is down,
every urgent row on a channel that is down has a row on an available fallback, if there is one,
at the end of every pass and until the next one begins. -/
theorem failoverComplete_of_run (r : DeploymentRun rt h s) (hc : ∀ t ∈ h, StaysWatched rt w t)
    (hidle : s.phase w = .idle) : FailoverComplete (fun _ => true) s.db := by
  have hwatched := watchesDown_of_run r hc
  rw [hidle] at hwatched
  exact hwatched.complete

end Runs

/-! ## A run -/

/-- No channel is down. -/
def allUp (db : Database K) : Bool := knownChannels.all (isUp db)

/-- A check of a turn: what it takes down was up with all the others and has no stand-ins, nothing comes
up, and what it queues is not urgent or finds every channel up. -/
def staysWatched (rt : Runtime K) (w : String) (t : Transition (Deployment K) Turn) : Bool :=
  t.label.isOf [w] && !diesFailingOver t && match t.label with
    | .request (.ingest freshId _ now event) => (processEvent rt freshId now event t.source.db).toOption.all fun d =>
        !isFailoverWorthy (priorityBySeverity d.severityFinal) || allUp t.source.db
    | .request _ => false
    | .worker _ step => match t.source.phase w, step with
        | .failed d _ _, .settle _ => allUp t.source.db &&
            decide ((getState d.row.channel t.source.db).state = .CLOSED) &&
            t.source.db.outbox.rows.all fun r => r.2.channel ≠ d.row.channel || r.2.failoverOf.isNone
        | .marked channel _, .settle _ => isUp t.source.db channel
        | .awaitingProbe _ _, .probeReturns _ none => false
        | _, _ => true

omit [Field K] [LinearOrder K] in
theorem not_open_of_allUp {db : Database K} (h : allUp db = true) (c : Channel) : (getState c db).state ≠ .OPEN := by
  refine isUp_eq_true.1 (List.all_eq_true.1 h c ?_)
  cases c <;> decide

/-- The check is enough. -/
theorem staysWatched_of_check {rt : Runtime K} {w : String} {t : Transition (Deployment K) Turn}
    (ht : staysWatched rt w t = true) : StaysWatched rt w t := by
  unfold staysWatched at ht
  simp only [Bool.and_eq_true, Bool.not_eq_true'] at ht
  obtain ⟨⟨hone, hlives⟩, ht⟩ := ht
  refine ⟨hone, hlives, ?_, ?_, ?_⟩
  · intro q b d anchor hlabel hpersists hworthy intent _ hdown
    rw [hlabel] at ht
    cases hpersists with
    | ingest hd =>
        dsimp only at ht
        rw [hd] at ht
        simp only [Except.toOption, Option.all_some, hworthy, Bool.not_true, Bool.false_or] at ht
        exact absurd hdown (not_open_of_allUp ht _)
    | timer _ => cases ht
    | external _ _ => cases ht
    | sweep _ _ _ _ _ => cases ht
  · rintro now d verdict batch hlabel hphase - c hc ⟨f, -, -⟩ k r hr hurgent -
    rw [hlabel] at ht
    dsimp only at ht
    rw [hphase] at ht
    simp only [Bool.and_eq_true, decide_eq_true_eq] at ht
    obtain ⟨⟨hup, hclosed⟩, hrows⟩ := ht
    obtain rfl : c = d.row.channel := hc.resolve_right (not_open_of_allUp hup c)
    have hrow := List.all_eq_true.1 hrows (k, r) (Table.find?_eq_some_iff.1 hr)
    refine .inl ⟨rfl, hclosed, ?_⟩
    simpa [hurgent.channel] using hrow
  · intro step up hlabel hbrings
    rw [hlabel] at ht
    dsimp only at ht
    generalize t.source.phase w = phase at ht hbrings
    cases hbrings with
    | probe _ => cases ht
    | delivery hopen => exact absurd hopen (isUp_eq_true.1 ht)

/-- Slack is declared down with a high card in its queue, and then a service raises a mere warning. -/
def warnedWhileDown : List Turn :=
  slackDown ++ [.request (.ingest "B" "unused" 6500 { alertOf "api" "2" with severityRaw := "warning" })]

/-- The card has its stand-in, and the warning waits. -/
theorem failoverComplete_of_run_warned : ∃ h s, DeploymentRun Runtime.reference h s ∧
    (getState .slack s.db).state = .OPEN ∧ (firstFallback .slack s.db).isSome = true ∧
    s.db.outbox.rows.map (fun r => (r.2.channel, isFailoverWorthy r.2.priority, r.2.failoverOf)) =
      [(.slack, true, none), (.pagerduty, true, some 1), (.slack, false, none)] ∧
    FailoverComplete (fun _ => true) s.db := by
  have hreplay : (Library.replay (deploymentNext Runtime.reference) warnedWhileDown
      ([], Deployment.initial)).map (fun s =>
        (s.2.db.outbox.rows.map (fun r => (r.2.channel, isFailoverWorthy r.2.priority, r.2.failoverOf)),
          decide ((getState .slack s.2.db).state = .OPEN) && (firstFallback .slack s.2.db).isSome &&
            (s.2.phase "w").isIdle && s.1.all fun t => staysWatched Runtime.reference "w" t)) =
      some ([(.slack, true, none), (.pagerduty, true, some 1), (.slack, false, none)], true) := by
    decide +kernel
  obtain ⟨h, s, hrun, heq⟩ := DeploymentRun.of_replay hreplay
  obtain ⟨hrows, heq⟩ := Prod.mk.inj heq
  simp only [Bool.and_eq_true, decide_eq_true_eq] at heq
  obtain ⟨⟨⟨hdown, hsome⟩, hidle⟩, hcheck⟩ := heq
  refine ⟨h, s, hrun, hdown, hsome, hrows, @failoverComplete_of_run _ _ _ _ "w" s h hrun
    (fun t ht => staysWatched_of_check (List.all_eq_true.1 hcheck t ht)) ?_⟩
  unfold Phase.isIdle at hidle
  split at hidle
  · next hp => exact hp
  · cases hidle

end PulseGraph
