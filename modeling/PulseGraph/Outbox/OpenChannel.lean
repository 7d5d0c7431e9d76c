/-
# No traffic to a channel that is down

`channel_health.py`: `OPEN` means that the worker "stops dispatching to it entirely - no row
burns an attempt against a dead endpoint".  `_poll_once` asks for the channels that are
available once, for the whole batch, and drains the batch row by row whatever happens to a
breaker on the way; and a failure that is recorded while a channel is `OPEN` lengthens its
probe interval as a failed probe does.

**Proved here.**  With a single worker no row is handed to a channel that is `OPEN`, and
`probe_backoff_step` counts the failed probes and trials of the outage, in every run in which
the failure that opens a breaker is the last of its batch on that channel, no row waits on an
`OPEN` channel under the very lease that a claim takes, and every failed probe has a next
instant (`noTraffic_of_run`).  `not_noTraffic` has a batch of four cards and Slack down.
-/

import PulseGraph.Outbox.Probing

namespace PulseGraph

open Library (Table Run Transition)

variable {K : Type}

/-! ## Setbacks -/

/-- A step by which a probe of the channel fails, or a row handed to it on trial. -/
def Phase.setsBack (c : Channel) (db : Database K) : Phase → WorkerStep → Bool
  | .awaitingProbe channel _, .probeReturns _ (some _) => channel = c
  | .failed d verdict _, .settle _ => d.row.channel = c && verdict.tripsBreaker &&
      decide ((getState c db).state = .HALF_OPEN)
  | _, _ => false

/-- The outage of the channel is declared. -/
def declaresDown (c : Channel) (t : Transition (Deployment K) Turn) : Bool :=
  decide ((getState c t.source.db).state = .CLOSED) && decide ((getState c t.target.db).state = .OPEN)

/-- A probe of the channel, or a trial, fails in a turn. -/
def setsBack (c : Channel) (t : Transition (Deployment K) Turn) : Bool :=
  match t.label with
  | .request _ => false
  | .worker w step => (t.source.phase w).setsBack c t.source.db step

/-- The failed probes and trials of the channel since its outage was declared. -/
def setbacks (c : Channel) : List (Transition (Deployment K) Turn) → ℕ
  | [] => 0
  | t :: h => if declaresDown c t then 0 else setbacks c h + if setsBack c t then 1 else 0

/-- The channel a row is handed to. -/
def handedTo (t : Transition (Deployment K) Turn) : Option Channel :=
  match t.label with
  | .worker w (.handOff _) => match t.source.phase w with
    | .prepared d _ => if d.row.channel ∈ dispatchers then some d.row.channel else none
    | _ => none
  | _ => none

/-- **No traffic to an open channel**, and a backoff step that counts the setbacks of the outage. -/
structure NoTraffic (h : List (Transition (Deployment K) Turn)) (s : Deployment K) : Prop where
  spared : ∀ t ∈ h, ∀ c, handedTo t = some c → (getState c t.source.db).state ≠ .OPEN
  backoff : ∀ c, (getState c s.db).state ≠ .CLOSED → (getState c s.db).probeBackoffStep = setbacks c h

/-- What keeps a worker from a channel that is down, in one of its steps. -/
structure SparesOpen (rt : Runtime K) (w : String) (db : Database K) (phase : Phase) (step : WorkerStep) :
    Prop where
  /-- after a failure that opens the breaker of its channel no row of the batch is for that channel -/
  batch : ∀ now d verdict batch, step = .settle now → phase = .failed d verdict batch →
    verdict.tripsBreaker = true → ((getState d.row.channel db).state = .CLOSED →
      rt.settings.outboxBreakerFailureThreshold ≤ (getState d.row.channel db).consecutiveFailures + 1) →
    ∀ row ∈ batch, row.channel ≠ d.row.channel
  /-- no row waits on a channel that is down under the very lease the claim takes -/
  lease : ∀ clock now available halfOpen, step = .claim clock → phase = .coalesced now available halfOpen →
    ∀ k r, db.outbox.find? k = some r → r.status = .pending → r.lockedBy = some w →
    r.lockedUntil = some (secondsAfter clock rt.settings.outboxLeaseSeconds) →
    (getState r.channel db).state ≠ .OPEN
  /-- the next probe after a failed one has an instant -/
  backoff : ∀ c, phase.setsBack c db step = true → ∀ now,
    (step = .settle now ∨ ∃ outcome, step = .probeReturns now outcome) →
    (nextProbe rt now ((getState c db).probeBackoffStep + 1)).isSome = true

/-! ## The rows a worker goes on with -/

/-- The rows a worker has yet to hand over, and the one whose outcome is not recorded. -/
def Phase.ahead : Phase → List ClaimedRow
  | .draining batch => batch
  | .prepared d batch => d.row :: batch
  | .calling d batch => d.row :: batch
  | .delivered d _ batch => d.row :: batch
  | .marked _ batch => batch
  | .failed d _ batch => d.row :: batch
  | .charged _ _ _ _ batch => batch
  | .failingOver _ batch => batch
  | _ => []

/-- A worker goes on with rows of channels that are up. -/
structure GoesOn (w : String) (db : Database K) (phase : Phase) : Prop where
  rows : ∀ row ∈ phase.ahead, (getState row.channel db).state ≠ .OPEN
  lease : ∀ leaseUntil halfOpen, phase = .leased leaseUntil halfOpen → ∀ k r,
    db.outbox.find? k = some r → r.status = .pending → r.lockedBy = some w →
    r.lockedUntil = some leaseUntil → (getState r.channel db).state ≠ .OPEN

section Steps

variable {rt : Runtime K} {w : String} {db db' : Database K} {phase phase' : Phase} {step : WorkerStep}
  {c : Channel}

/-- The rows ahead were so before, or are taken by their lease. -/
theorem WorkerMove.ahead (h : WorkerMove rt w db phase step phase' db') {row : ClaimedRow}
    (hrow : row ∈ phase'.ahead) : row ∈ phase.ahead ∨
      ∃ leaseUntil halfOpen, phase = .leased leaseUntil halfOpen ∧ db' = db ∧ row ∈ leasedRows w leaseUntil db := by
  cases h with
  | @select leaseUntil halfOpen =>
      exact .inr ⟨leaseUntil, halfOpen, rfl, rfl, (trimHalfOpen_sublist _ _ _ _).subset hrow⟩
  | @prepare first batch =>
      have hahead : row ∈ (prepareDispatch first db).row :: batch := hrow
      rw [prepareDispatch_row] at hahead
      exact .inl hahead
  | noDispatcher _ => exact .inl (List.mem_cons_of_mem _ hrow)
  | markSent => exact .inl (List.mem_cons_of_mem _ hrow)
  | recordFailure _ => exact .inl (List.mem_cons_of_mem _ hrow)
  | @park now d verdict newlyDown next batch _ =>
      refine .inl ?_
      split_ifs at hrow <;> exact hrow
  | wake => exact absurd hrow List.not_mem_nil
  | crash => exact absurd hrow List.not_mem_nil
  | recordRaises _ => exact absurd hrow List.not_mem_nil
  | retryRaises _ => exact absurd hrow List.not_mem_nil
  | _ => exact .inl hrow

/-- A lease is taken by a claim. -/
theorem WorkerMove.claims {leaseUntil : ℤ} {halfOpen : List Channel}
    (h : WorkerMove rt w db phase step phase' db') (hphase : phase' = .leased leaseUntil halfOpen) :
    ∃ clock now available, phase = .coalesced now available halfOpen ∧ step = .claim clock ∧
      leaseUntil = secondsAfter clock rt.settings.outboxLeaseSeconds ∧
      db' = takeLease rt w available now leaseUntil db := by
  cases h with
  | @claim clock now available halfOpen' =>
      cases hphase
      exact ⟨clock, now, available, rfl, rfl, rfl, rfl⟩
  | park _ =>
      split_ifs at hphase
  | _ => cases hphase

/-- **A failure spares the rows ahead**: it opens the breaker of its own channel alone. -/
theorem recordFailure_spares {now : ℤ} {verdict : FailureVerdict} {newlyDown : Bool}
    {channel : Channel} (hr : recordFailure rt now channel verdict db = some (newlyDown, db'))
    (hup : (getState c db).state ≠ .OPEN)
    (hne : verdict.tripsBreaker = true → ((getState channel db).state = .CLOSED →
      rt.settings.outboxBreakerFailureThreshold ≤ (getState channel db).consecutiveFailures + 1) → c ≠ channel) :
    (getState c db').state ≠ .OPEN := by
  obtain ⟨hfail, hothers⟩ := recordFailure_move hr
  by_cases hc : c = channel
  swap
  · rw [hothers c hc]
    exact hup
  subst hc
  cases hfail with
  | spared _ hstate _ =>
      rw [hstate]
      exact hup
  | setBack htrips hnot => exact absurd rfl (hne htrips fun hclosed => absurd hclosed hnot)
  | counted _ _ _ hstate _ =>
      rw [hstate]
      exact hup
  | declared htrips _ hthr => exact absurd rfl (hne htrips fun _ => hthr)

/-- **A step keeps the worker to channels that are up.** -/
theorem GoesOn.next (hI : GoesOn w db phase) (hsees : phase.sees db)
    (hspares : SparesOpen rt w db phase step) (hmove : WorkerMove rt w db phase step phase' db') :
    GoesOn w db' phase' := by
  constructor
  · intro row hrow
    rcases hmove.ahead hrow with hahead | ⟨leaseUntil, halfOpen, rfl, rfl, hleased⟩
    · have hup := hI.rows row hahead
      cases hmove.breakers with
      | still hsame _ =>
          rw [hsame]
          exact hup
      | probed _ _ _ => exact absurd hrow List.not_mem_nil
      | @succeeded now channel batch hdb =>
          rw [hdb, recordSuccess_state]
          split_ifs
          · decide
          · exact hup
      | @failed now d verdict newlyDown next batch hr =>
          exact recordFailure_spares hr hup fun htrips hthr =>
            hspares.batch now d verdict batch rfl rfl htrips hthr row hrow
    · obtain ⟨k, r, hr, rfl, hp, hlock, huntil⟩ := mem_leasedRows hleased
      exact hI.lease leaseUntil halfOpen rfl k r hr hp hlock huntil
  · intro leaseUntil halfOpen hphase k r' hr' hp hlock huntil
    obtain ⟨clock, now, available, rfl, rfl, rfl, rfl⟩ := hmove.claims hphase
    show (getState r'.channel db).state ≠ .OPEN
    obtain ⟨r, hr, rfl⟩ := Option.map_eq_some_iff.1 ((Table.find?_update _).symm.trans hr')
    split_ifs at hp hlock huntil ⊢ with hids
    · -- the claim takes rows of the channels the poll found available
      obtain ⟨r₀, hr₀, hclaimable⟩ := mem_claimIds (List.contains_iff_mem.1 hids)
      obtain rfl := Option.some.inj (hr.symm.trans hr₀)
      have havail : r.channel ∈ available := by
        simp only [claimable, Bool.and_eq_true] at hclaimable
        exact List.contains_iff_mem.1 hclaimable.1.2
      have hpoll : (available, halfOpen) = pollChannels db := hsees
      rw [(Prod.mk.inj hpoll).1] at havail
      exact of_decide_eq_true (List.mem_filter.1 havail).2
    · exact hspares.lease clock now available halfOpen rfl rfl k r hr hp hlock huntil

/-- **What a step does to the backoff of a channel** that is not closed after it: an outage begins
with none, and every setback adds one. -/
theorem WorkerMove.backoff (h : WorkerMove rt w db phase step phase' db') (hsees : phase.sees db)
    (hI : GoesOn w db phase) (hspares : SparesOpen rt w db phase step)
    (hdown : (getState c db').state ≠ .CLOSED) :
    (getState c db').probeBackoffStep = if (getState c db).state = .CLOSED then 0
      else (getState c db).probeBackoffStep + if phase.setsBack c db step then 1 else 0 := by
  have hstill : (getState c db' = getState c db) → phase.setsBack c db step = false →
      (getState c db').probeBackoffStep = if (getState c db).state = .CLOSED then 0
        else (getState c db).probeBackoffStep + if phase.setsBack c db step then 1 else 0 := by
    intro hsame hno
    rw [hsame] at hdown ⊢
    rw [if_neg hdown, hno]
    rfl
  cases h with
  | @probeRaises now outcome channel states hr =>
      cases outcome with
      | none => exact hstill rfl rfl
      | some exc =>
          refine hstill rfl (Bool.eq_false_iff.2 fun hback => ?_)
          obtain ⟨next, hnext⟩ := Option.isSome_iff_exists.1 (hspares.backoff c hback now (.inr ⟨_, rfl⟩))
          obtain rfl : channel = c := of_decide_eq_true hback
          simp [afterProbe, recordProbeResult, hnext] at hr
  | @probed now outcome channel states db' hr =>
      unfold afterProbe at hr
      obtain ⟨db₁, hrecord, rfl⟩ := Option.map_eq_some_iff.1 hr
      obtain ⟨hothers, hmoved⟩ := recordProbeResult_move hrecord
      have hsame : ∀ c, getState c (if (getState channel db₁).state = .HALF_OPEN then
          prepareBacklog now channel db₁ else db₁) = getState c db₁ := by
        intro c
        refine getState_congr ?_ c
        split_ifs
        · exact (prepareBacklog_breakers now channel).1
        · rfl
      by_cases hc : c = channel
      · subst hc
        rw [hsame, if_neg (by rw [hsees.1]; decide)]
        rcases hmoved with ⟨hout, -, hstep, -⟩ | ⟨hout, -, hstep, -⟩
        · obtain rfl := Option.isNone_iff_eq_none.1 hout
          exact hstep
        · obtain ⟨exc, rfl⟩ :=
            Option.ne_none_iff_exists'.1 (Option.isNone_eq_false_iff.1 hout |> Option.isSome_iff_ne_none.1)
          rw [hstep, Phase.setsBack, if_pos (decide_eq_true rfl)]
      · refine hstill ((hsame c).trans (hothers c hc)) ?_
        cases outcome with
        | none => rfl
        | some exc => exact decide_eq_false fun he => hc he.symm
  | @recordSuccess now channel batch =>
      obtain ⟨⟨hclosed, -⟩, hothers, -⟩ := @recordSuccess_move _ db channel now
      have hc : c ≠ channel := by
        rintro rfl
        exact hdown hclosed
      exact hstill (hothers c hc) rfl
  | @recordRaises now d verdict batch hr =>
      refine hstill rfl (Bool.eq_false_iff.2 fun hback => ?_)
      obtain ⟨next, hnext⟩ := Option.isSome_iff_exists.1 (hspares.backoff c hback now (.inl rfl))
      simp only [Phase.setsBack, Bool.and_eq_true, decide_eq_true_eq] at hback
      obtain ⟨⟨rfl, htrips⟩, hhalf⟩ := hback
      simp [PulseGraph.recordFailure, htrips, hhalf, hnext] at hr
  | @recordFailure now d verdict batch newlyDown db' hr =>
      obtain ⟨hfail, hothers⟩ := recordFailure_move hr
      by_cases hc : c = d.row.channel
      swap
      · refine hstill (hothers c hc) (Bool.eq_false_iff.2 fun hback => ?_)
        simp only [Phase.setsBack, Bool.and_eq_true, decide_eq_true_eq] at hback
        exact hc hback.1.1.symm
      subst hc
      have hup : (getState d.row.channel db).state ≠ .OPEN := hI.rows d.row List.mem_cons_self
      cases hfail with
      | spared htrips hstate _ =>
          rw [hstate] at hdown ⊢
          rw [if_neg hdown, Phase.setsBack, htrips, Bool.and_false, Bool.false_and]
          rfl
      | setBack htrips hne _ _ _ hstep _ _ =>
          have hhalf : (getState d.row.channel db).state = .HALF_OPEN := by
            cases hs : (getState d.row.channel db).state with
            | CLOSED => exact absurd hs hne
            | OPEN => exact absurd hs hup
            | HALF_OPEN => rfl
          rw [if_neg hne, hstep, Phase.setsBack, htrips, hhalf]
          simp
      | counted _ hclosed _ hstate _ =>
          rw [hstate] at hdown
          exact absurd hclosed hdown
      | declared _ hclosed _ hstate _ =>
          rw [if_pos hclosed, hstate]
  | @retry now d verdict newlyDown next batch db' hkind hr =>
      refine hstill ?_ rfl
      unfold retryLater at hr
      obtain ⟨t, -, rfl⟩ := Option.map_eq_some_iff.1 hr
      rfl
  | @coalesce now available halfOpen =>
      exact hstill (getState_congr (coalesceAvailable_breakers available).1 c) rfl
  | failOver => exact hstill (failoverPending_getState _ _) rfl
  | crash => exact hstill rfl (by cases phase <;> rfl)
  | _ => exact hstill rfl rfl

/-- A channel that is closed goes down by the declaration of an outage. -/
theorem WorkerMove.opens (h : WorkerMove rt w db phase step phase' db') (hsees : phase.sees db)
    (hclosed : (getState c db).state = .CLOSED) (hdown : (getState c db').state ≠ .CLOSED) :
    (getState c db').state = .OPEN := by
  cases h.breakers with
  | still hsame _ =>
      rw [hsame] at hdown
      exact absurd hclosed hdown
  | @probed now outcome detail channel states db₁ hr hhealth _ =>
      rw [getState_congr hhealth] at hdown ⊢
      by_cases hc : c = channel
      · subst hc
        exact absurd (hclosed.symm.trans hsees.1) (by decide)
      · rw [(recordProbeResult_move hr).1 c hc] at hdown
        exact absurd hclosed hdown
  | @succeeded now channel batch hdb =>
      rw [hdb, recordSuccess_state] at hdown
      split_ifs at hdown
      · exact absurd rfl hdown
      · exact absurd hclosed hdown
  | @failed now d verdict newlyDown next batch hr =>
      obtain ⟨hfail, hothers⟩ := recordFailure_move hr
      by_cases hc : c = d.row.channel
      swap
      · rw [hothers c hc] at hdown
        exact absurd hclosed hdown
      subst hc
      cases hfail with
      | spared _ hstate _ =>
          rw [hstate] at hdown
          exact absurd hclosed hdown
      | setBack _ hne => exact absurd hclosed hne
      | counted _ _ _ hstate _ =>
          rw [hstate] at hdown
          exact absurd hclosed hdown
      | declared _ _ _ hstate _ => rw [hstate]

end Steps

/-! ## Over runs -/

section Runs

variable [Field K] [LinearOrder K] {rt : Runtime K} {w : String} {s s' : Deployment K}
  {h : List (Transition (Deployment K) Turn)}

/-- A turn of a deployment with a single worker that is kept from the channels that are down. -/
structure SparesChannels (rt : Runtime K) (w : String) (t : Transition (Deployment K) Turn) : Prop where
  one : t.label.isOf [w] = true
  spares : ∀ step, t.label = .worker w step → SparesOpen rt w t.source.db (t.source.phase w) step

omit [Field K] [LinearOrder K] in
/-- A row is handed over by the worker that has prepared it. -/
theorem prepared_of_handedTo {t : Transition (Deployment K) Turn} {c : Channel} (hc : handedTo t = some c)
    (hone : t.label.isOf [w] = true) : ∃ d batch, t.source.phase w = .prepared d batch ∧ d.row.channel = c := by
  unfold handedTo at hc
  split at hc
  · next w' now hlabel =>
      rw [hlabel] at hone
      obtain rfl : w' = w := List.mem_singleton.1 (List.contains_iff_mem.1 hone)
      split at hc
      · next d batch hphase =>
          split_ifs at hc
          exact ⟨d, batch, hphase, Option.some.inj hc⟩
      · cases hc
  · cases hc

/-- **No row is handed to a channel that is down, and its backoff step counts the setbacks of the
outage**, in every run of a single worker whose batches and leases spare the channels that are down. -/
theorem noTraffic_of_run (r : DeploymentRun rt h s) (hc : ∀ t ∈ h, SparesChannels rt w t) :
    NoTraffic h s := by
  have hinv : GoesOn w s.db (s.phase w) ∧ NoTraffic h s := by
    refine Run.induct_of_forall (C := SparesChannels rt w)
      (I := fun h s => GoesOn w s.db (s.phase w) ∧ NoTraffic h s) r hc ?_ ?_
    · rintro _ rfl
      refine ⟨⟨fun row hrow => absurd hrow List.not_mem_nil, fun _ _ hphase => by cases hphase⟩, ?_⟩
      exact ⟨fun t ht => absurd ht List.not_mem_nil, fun c hdown => absurd rfl hdown⟩
    · rintro h s turn s' hrun hall ⟨hgoes, htraffic⟩ ⟨hone, hspares⟩ hnext
      have hsees := sees_of_run hrun fun t ht => (hall t ht).one
      have hspared : ∀ t ∈ (⟨s, turn, s'⟩ : Transition (Deployment K) Turn) :: h, ∀ c,
          handedTo t = some c → (getState c t.source.db).state ≠ .OPEN := by
        intro t ht c hto
        rcases List.mem_cons.1 ht with rfl | ht
        · obtain ⟨d, batch, hphase, rfl⟩ := prepared_of_handedTo hto hone
          have hphase : s.phase w = .prepared d batch := hphase
          exact hgoes.rows d.row (by rw [hphase]; exact List.mem_cons_self)
        · exact htraffic.spared t ht c hto
      cases turn with
      | request q =>
          obtain ⟨hengine, hphase⟩ := deploymentNext_request hnext
          have hsame := fun c => engineNext_getState hengine c
          rw [hphase]
          refine ⟨⟨fun row hrow => ?_, fun leaseUntil halfOpen hp k r' hr' hpending hlock huntil => ?_⟩, hspared,
            fun c hdown => ?_⟩
          · rw [hsame]
            exact hgoes.rows row hrow
          · rw [hsame]
            obtain ⟨r, hr | ⟨-, hnew, -⟩, hm⟩ := (engineNext_queuedTo hengine).source hr'
            all_goals rw [hm.frame] at hpending hlock huntil ⊢
            · exact hgoes.lease leaseUntil halfOpen hp k r hr hpending hlock huntil
            · rw [hnew.1.unlocked] at hlock
              cases hlock
          · rw [hsame] at hdown ⊢
            rw [htraffic.backoff c hdown, setbacks]
            simp [declaresDown, setsBack, hsame, hdown]
      | worker w' step =>
          obtain rfl : w' = w := List.mem_singleton.1 (List.contains_iff_mem.1 hone)
          have hmove := (deploymentNext_worker hnext).1
          have hspare := hspares step rfl
          refine ⟨hgoes.next hsees hspare hmove, hspared, fun c hdown => ?_⟩
          rw [hmove.backoff hsees hgoes hspare hdown, setbacks]
          by_cases hclosed : (getState c s.db).state = .CLOSED
          · have hopen := hmove.opens hsees hclosed hdown
            have hdeclares : declaresDown c ⟨s, .worker w' step, s'⟩ = true := by
              rw [declaresDown, hclosed, hopen]
              rfl
            rw [if_pos hclosed, if_pos hdeclares]
          · have hnot : ¬ declaresDown c ⟨s, .worker w' step, s'⟩ = true := by
              simp [declaresDown, hclosed]
            rw [if_neg hclosed, if_neg hnot, htraffic.backoff c hclosed]
            rfl
  exact hinv.2

end Runs

/-! ## Two runs -/

/-- Every channel that a step sets back has a next probe. -/
def probesAgain (rt : Runtime K) (now : ℤ) (db : Database K) (phase : Phase) (step : WorkerStep) : Bool :=
  knownChannels.all fun c => !phase.setsBack c db step ||
    (nextProbe rt now ((getState c db).probeBackoffStep + 1)).isSome

/-- More than `SparesChannels` asks for: batches of one row, and no lease that outlives its pass. -/
def sparesChannels (rt : Runtime K) (w : String) (t : Transition (Deployment K) Turn) : Bool :=
  t.label.isOf [w] && match t.label with
  | .worker _ (.settle now) => (match t.source.phase w with
      | .failed _ _ batch => batch.isEmpty
      | _ => true) && probesAgain rt now t.source.db (t.source.phase w) (.settle now)
  | .worker _ (.claim _) => t.source.db.outbox.rows.all fun r => r.2.lockedBy ≠ some w
  | .worker _ (.probeReturns now outcome) =>
      probesAgain rt now t.source.db (t.source.phase w) (.probeReturns now outcome)
  | _ => true

theorem sparesChannels_of_check {rt : Runtime K} {w : String} {t : Transition (Deployment K) Turn}
    (h : sparesChannels rt w t = true) : SparesChannels rt w t := by
  obtain ⟨hone, hcheck⟩ := Bool.and_eq_true_iff.1 h
  have hagain : ∀ {now c step}, probesAgain rt now t.source.db (t.source.phase w) step = true →
      (t.source.phase w).setsBack c t.source.db step = true →
      (nextProbe rt now ((getState c t.source.db).probeBackoffStep + 1)).isSome = true := by
    intro now c step hall hback
    have hc := List.all_eq_true.1 hall c (by cases c <;> decide)
    rw [hback] at hc
    exact hc
  refine ⟨hone, fun step hlabel => ?_⟩
  rw [hlabel] at hcheck
  refine ⟨?_, ?_, ?_⟩
  · rintro now d verdict batch rfl hphase - - row hrow
    dsimp only at hcheck
    rw [hphase] at hcheck
    obtain rfl := List.isEmpty_iff.1 (Bool.and_eq_true_iff.1 hcheck).1
    exact absurd hrow List.not_mem_nil
  · rintro clock now available halfOpen rfl - k r hr - hlock
    exact absurd hlock (of_decide_eq_true (List.all_eq_true.1 hcheck _ (Table.find?_eq_some_iff.1 hr)))
  · rintro c hback now (rfl | ⟨outcome, rfl⟩)
    · exact hagain (Bool.and_eq_true_iff.1 hcheck).2 hback
    · exact hagain hcheck hback

variable [Field K] [LinearOrder K]

/-- Slack is down, and a probe finds it so. -/
def slackProbed : List Turn :=
  slackDown ++ ([.wake, .look 60000, .probeReturns 60100 (some (.transportError "ConnectTimeout"))] :
    List WorkerStep).map (.worker "w")

/-- One probe has failed. -/
theorem noTraffic_of_run_probed : ∃ h s, DeploymentRun Runtime.reference h s ∧ NoTraffic h s ∧
    (getState .slack s.db).state = .OPEN ∧ (getState .slack s.db).probeBackoffStep = 1 := by
  have hreplay : (Library.replay (deploymentNext Runtime.reference) slackProbed
      ([], Deployment.initial)).map (fun s => (s.1.all (sparesChannels Runtime.reference "w"),
        (getState .slack s.2.db).state, (getState .slack s.2.db).probeBackoffStep)) =
      some (true, .OPEN, 1) := by decide +kernel
  obtain ⟨h, s, r, heq⟩ := DeploymentRun.of_replay hreplay
  obtain ⟨hall, hstate⟩ := Prod.mk.inj heq
  obtain ⟨hopen, hstep⟩ := Prod.mk.inj hstate
  have hspares : ∀ t ∈ h, SparesChannels Runtime.reference "w" t := fun t ht =>
    sparesChannels_of_check (List.all_eq_true.1 hall t ht)
  exact ⟨h, s, r, noTraffic_of_run r hspares, hopen, hstep⟩

/-- Four incidents have a card each, and Slack cannot be reached for any of them. -/
def burst : List Turn :=
  [("A", "disk"), ("B", "api"), ("C", "queue"), ("D", "mail")].map (fun i =>
      .request (.ingest i.1 "unused" 1000 (alertOf i.2 i.1))) ++
    claimTurns "w" 2000 0 ++ failTurns "w" 2000 ++ failTurns "w" 3000 ++ failTurns "w" 4000 ++
    .worker "w" (.settle 4200) :: failTurns "w" 5000

/-- **A batch goes on after its channel is down**: the fourth card is handed to Slack while its
breaker is `OPEN`, and its failure counts as a setback. -/
theorem not_noTraffic :
    (¬ ∀ h s, DeploymentRun Runtime.reference h s → (∀ t ∈ h, t.label.isOf ["w"] = true) →
      ∀ t ∈ h, ∀ c, handedTo t = some c → (getState c t.source.db).state ≠ .OPEN) ∧
    ¬ ∀ h s, DeploymentRun Runtime.reference h s → (∀ t ∈ h, t.label.isOf ["w"] = true) →
      ∀ c, (getState c s.db).state ≠ .CLOSED → (getState c s.db).probeBackoffStep = setbacks c h := by
  have hreplay : (Library.replay (deploymentNext Runtime.reference) burst
      ([], Deployment.initial)).map (fun s => (s.1.all fun t => t.label.isOf ["w"],
        s.1.any fun t => handedTo t = some .slack && decide ((getState .slack t.source.db).state = .OPEN),
        (getState .slack s.2.db).state, (getState .slack s.2.db).probeBackoffStep, setbacks .slack s.1)) =
      some (true, true, .OPEN, 1, 0) := by decide +kernel
  obtain ⟨h, s, r, heq⟩ := DeploymentRun.of_replay hreplay
  obtain ⟨hone, heq⟩ := Prod.mk.inj heq
  obtain ⟨hany, heq⟩ := Prod.mk.inj heq
  obtain ⟨hopen, heq⟩ := Prod.mk.inj heq
  obtain ⟨hstep, hsetbacks⟩ := Prod.mk.inj heq
  have hsingle : ∀ t ∈ h, t.label.isOf ["w"] = true := List.all_eq_true.1 hone
  constructor
  · intro hall
    obtain ⟨t, ht, hboth⟩ := List.any_eq_true.1 hany
    obtain ⟨hto, hdown⟩ := Bool.and_eq_true_iff.1 hboth
    exact hall h s r hsingle t ht .slack (of_decide_eq_true hto) (of_decide_eq_true hdown)
  · intro hall
    have hcount := hall h s r hsingle .slack (by rw [hopen]; decide)
    rw [hstep, hsetbacks] at hcount
    cases hcount

end PulseGraph
