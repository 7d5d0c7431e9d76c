/-
# Failing over when an outage is declared

`_handle_failure` fails urgent rows over once, right after the failed delivery that takes the
breaker of their channel from `CLOSED` to `OPEN`.  What is queued later waits for the channel,
and so does the stand-in of a row whose own channel goes down.

**Proved here.**  With a single worker that does not die in between, every urgent row that
waits on the channel when the outage is declared, and is no stand-in itself, has a stand-in on
the first fallback that was available then, from the end of that pass on (`failedOver_of_run`).
`not_failoverComplete` has a row that came later and a stand-in, both without one; what keeps
every urgent row supplied with a stand-in over a whole run is in `Rerouting`.
-/

import Mathlib.Data.List.Find
import PulseGraph.Engine.Frames
import PulseGraph.Outbox.Lease

namespace PulseGraph

open Library (Table Run Transition bind_eq_ok)

variable {K : Type}

/-! ## Stand-ins -/

/-- The first fallback of the channel whose own breaker is not open. -/
def firstFallback (c : Channel) (db : Database K) : Option Channel :=
  (failoverChain c).find? fun f => (getState f db).isAvailable

/-- The row `k` of channel `c` has been given a row on channel `f`. -/
def FailedOver (db : Database K) (k : ℕ) (c f : Channel) : Prop :=
  ∃ j r, db.outbox.find? j = some r ∧ r.failoverOf = some k ∧ r.originChannel = c ∧ r.channel = f

/-- A row of a critical or high severity waits on the channel. -/
structure Urgent (c : Channel) (r : OutboxRow) : Prop where
  channel : r.channel = c
  waits : r.status = .pending
  worthy : isFailoverWorthy r.priority = true

/-- **Failover is complete** for the rows of a kind: while a channel is down and a fallback is
available, every urgent row on it that is no digest has a row on an available fallback. -/
def FailoverComplete (kind : OutboxRow → Bool) (db : Database K) : Prop :=
  ∀ c, (getState c db).state = .OPEN → (firstFallback c db).isSome = true →
    ∀ k r, db.outbox.find? k = some r → Urgent c r → r.payload.digest = none → kind r = true →
      ∃ f ∈ failoverChain c, (getState f db).isAvailable = true ∧ FailedOver db k c f

/-- A failed delivery takes the breaker of the channel from `CLOSED` to `OPEN`. -/
def Declares (t : Transition (Deployment K) Turn) (c : Channel) : Prop :=
  (∃ w now, t.label = .worker w (.settle now)) ∧
    (getState c t.source.db).state = .CLOSED ∧ (getState c t.target.db).state = .OPEN

/-- A worker dies between an outage it has declared and its failover. -/
def diesFailingOver (t : Transition (Deployment K) Turn) : Bool :=
  match t.label with
  | .worker w .crash => match t.source.phase w with
    | .charged _ _ newlyDown _ _ => newlyDown
    | .failingOver _ _ => true
    | _ => false
  | _ => false

/-- A worker is on its way from the declaration of an outage to the failover. -/
def Phase.failsOver (c : Channel) : Phase → Prop
  | .charged d verdict newlyDown _ _ => d.row.channel = c ∧ verdict.kind = .CHANNEL_DOWN ∧ newlyDown = true
  | .failingOver channel _ => channel = c
  | _ => False

/-- A request leaves the state of every channel alone. -/
theorem engineNext_getState [Field K] [LinearOrder K] {rt : Runtime K} {db db' : Database K}
    {q : Request} (h : engineNext rt db q = some db') (c : Channel) : getState c db' = getState c db := by
  unfold getState
  rw [(engineNext_breakers h).1]

/-! ## What a failover gives -/

section Gives

variable {db : Database K} {k : ℕ} {c f : Channel}

/-- The fallback a row is moved to is the first one that is available. -/
theorem selectFailover_firstFallback (h : firstFallback c db = some f) (action : Action) :
    selectFailover c action (failoverAvailable c db) = some ⟨f, translateAction f action⟩ := by
  have hfind : (failoverChain c).find? (failoverAvailable c db) = some f := by
    rw [← h, firstFallback]
    refine List.find?_congr fun f' hf' => ?_
    -- no channel is in its own chain
    have hne : f' ≠ c := by
      rintro rfl
      cases f' <;> simp [failoverChain] at hf'
    cases f' <;> simp [failoverAvailable, knownChannels, hne]
  rw [selectFailover, hfind]
  rfl

/-- A stand-in stays one when rows are added and marked. -/
theorem FailedOver.each {now : ℤ} {available : Channel → Bool} {s : ℕ × Database K}
    (h : FailedOver s.2 k c f) (row : ℕ × OutboxRow) : FailedOver (failoverEach now c available s row).2 k c f := by
  obtain ⟨j, r, hr, hof, horigin, hch⟩ := h
  unfold failoverEach
  split_ifs
  · split
    · exact ⟨j, r, hr, hof, horigin, hch⟩
    · refine ⟨j, _, find?_modify_self (Table.find?_push_of_some hr), ?_⟩
      split_ifs <;> exact ⟨hof, horigin, hch⟩
  · exact ⟨j, r, hr, hof, horigin, hch⟩

/-- **A failover gives a stand-in to every urgent row** that has none of its own, where a fallback is
available. -/
theorem failoverPending_gives {now : ℤ} {r : OutboxRow} (hr : db.outbox.find? k = some r)
    (hurgent : Urgent c r) (hown : r.failoverOf = none) (hf : firstFallback c db = some f) :
    FailedOver (failoverPending now c db) k c f := by
  have hsel := selectFailover_firstFallback hf r.action
  have hmem : (k, r) ∈ failoverCandidates c db :=
    mem_failoverCandidates.2 ⟨hr, hurgent.channel, hurgent.waits, hown⟩
  have hany : knownChannels.any (failoverAvailable c db) = true := by
    obtain ⟨f', hf', -⟩ := Option.map_eq_some_iff.1 hsel
    refine List.any_eq_true.2 ⟨f', ?_, List.find?_some hf'⟩
    cases f' <;> decide
  have hloop : FailedOver ((failoverCandidates c db).foldl
      (failoverEach now c (failoverAvailable c db)) (0, db)).2 k c f := by
    refine Library.foldl_establishes (P := fun s : ℕ × Database K => FailedOver s.2 k c f) hmem
      (fun s => ?_) fun s row hs => hs.each row
    unfold failoverEach
    rw [if_pos hurgent.worthy, hsel]
    refine ⟨s.2.outbox.nextKey, _, find?_modify_self (Table.find?_push.trans (if_pos rfl)), ?_⟩
    split_ifs <;> exact ⟨rfl, rfl, rfl⟩
  unfold failoverPending
  rw [if_pos hany]
  dsimp only
  split_ifs
  · exact hloop
  · obtain ⟨j, r', hr', hrest⟩ := hloop
    exact ⟨j, r', by rw [(markFailedOver_frame _).outbox]; exact hr', hrest⟩

end Gives

/-! ## From the declaration to the failover -/

/-- A worker is on its way to give the row a stand-in on channel `f`. -/
structure Awaits (phase : Phase) (db : Database K) (k : ℕ) (c f : Channel) : Prop where
  phase : phase.failsOver c
  row : ∃ r, db.outbox.find? k = some r ∧ Urgent c r ∧ r.failoverOf = none
  fallback : firstFallback c db = some f

section Steps

variable {rt : Runtime K} {w : String} {db db' : Database K} {phase phase' : Phase} {step : WorkerStep}
  {k : ℕ} {c f : Channel}

/-- The first fallback is read off the breakers of the other channels. -/
theorem firstFallback_congr (h : ∀ f, f ≠ c → getState f db' = getState f db) :
    firstFallback c db' = firstFallback c db := by
  refine List.find?_congr fun f hf => ?_
  have hne : f ≠ c := by
    rintro rfl
    cases f <;> simp [failoverChain] at hf
  rw [h f hne]

/-- Which row a row stands in for is written once. -/
theorem RowStep.origin {r r' : OutboxRow} (h : RowStep rt w phase db step k r r') :
    r'.failoverOf = r.failoverOf ∧ r'.originChannel = r.originChannel := by
  cases h with
  | collapsed _ hcol _ => cases hcol <;> exact ⟨rfl, rfl⟩
  | _ => exact ⟨rfl, rfl⟩

/-- A failover writes no breaker's state. -/
theorem failoverPending_getState (now : ℤ) (channel : Channel) :
    getState c (failoverPending now channel db) = getState c db := by
  unfold failoverPending
  split_ifs
  · have hloop : getState c ((failoverCandidates channel db).foldl
        (failoverEach now channel (failoverAvailable channel db)) (0, db)).2 = getState c db := by
      refine List.foldlRecOn (motive := fun s : ℕ × Database K => getState c s.2 = getState c db) _ _ rfl ?_
      intro s hs row _
      rw [failoverEach_frame]
      exact hs
    dsimp only
    split_ifs
    · exact hloop
    · rw [markFailedOver, getState_modifyOpenOutage, hloop]
  · rfl

/-- **Which steps open a breaker**: the one that records a failure, of that channel. -/
theorem WorkerMove.declares {now : ℤ} (h : WorkerMove rt w db phase (.settle now) phase' db')
    (hclosed : (getState c db).state = .CLOSED) (hopen : (getState c db').state = .OPEN) :
    phase'.failsOver c ∧ db'.outbox = db.outbox ∧ ∀ f, f ≠ c → getState f db' = getState f db := by
  have hsame : (getState c db').state ≠ (getState c db).state := by
    rw [hopen, hclosed]
    decide
  cases h with
  | markSent => exact absurd rfl hsame
  | recordSuccess =>
      rw [recordSuccess_state] at hopen
      split_ifs at hopen
      rw [hclosed] at hopen
      cases hopen
  | recordRaises _ => exact absurd rfl hsame
  | recordFailure hr =>
      obtain ⟨rfl, rfl, hkind, hothers⟩ := recordFailure_opens hr hclosed hopen
      exact ⟨⟨rfl, hkind, rfl⟩, (recordFailure_frame hr).outbox, hothers⟩
  | reject _ => exact absurd rfl hsame
  | park _ => exact absurd rfl hsame
  | retryRaises _ => exact absurd rfl hsame
  | retry _ hr =>
      unfold retryLater at hr
      obtain ⟨next, -, rfl⟩ := Option.map_eq_some_iff.1 hr
      exact absurd rfl hsame
  | @failOver now channel batch =>
      rw [failoverPending_getState] at hsame
      exact absurd rfl hsame

/-- **The way to a stand-in**: a worker that has declared an outage parks the row that failed and
fails over, or dies. -/
theorem Awaits.next (h : Awaits phase db k c f) (hmove : WorkerMove rt w db phase step phase' db')
    (hlives : step ≠ .crash) : Awaits phase' db' k c f ∨ FailedOver db' k c f := by
  obtain ⟨r, hr, hurgent, hown⟩ := h.row
  have hphase := h.phase
  cases hmove with
  | @reject now d verdict newlyDown next batch hkind =>
      obtain ⟨-, hdown, -⟩ := hphase
      rw [hkind] at hdown
      cases hdown
  | @park now d verdict newlyDown next batch hkind =>
      obtain ⟨rfl, -, rfl⟩ := hphase
      refine .inl ⟨rfl, ⟨_, find?_modify_self hr, ?_⟩, h.fallback⟩
      split_ifs
      · exact ⟨⟨hurgent.channel, hurgent.waits, hurgent.worthy⟩, hown⟩
      · exact ⟨hurgent, hown⟩
  | @retryRaises now d verdict newlyDown next batch hkind =>
      obtain ⟨-, hdown, -⟩ := hphase
      rw [hkind] at hdown
      cases hdown
  | @retry now d verdict newlyDown next batch db' hkind =>
      obtain ⟨-, hdown, -⟩ := hphase
      rw [hkind] at hdown
      cases hdown
  | @failOver now channel batch =>
      obtain rfl : channel = c := hphase
      exact .inr (failoverPending_gives hr hurgent hown h.fallback)
  | crash => exact absurd rfl hlives
  | _ => exact hphase.elim

/-- A worker that dies on that way dies failing over. -/
theorem Awaits.dies {s s' : Deployment K} (h : Awaits (s.phase w) db k c f) :
    diesFailingOver ⟨s, .worker w .crash, s'⟩ = true := by
  have hphase := h.phase
  unfold diesFailingOver
  dsimp only
  cases hp : s.phase w with
  | charged d verdict newlyDown next batch =>
      rw [hp] at hphase
      exact hphase.2.2
  | failingOver channel batch => rfl
  | _ =>
      rw [hp] at hphase
      exact hphase.elim

/-- A stand-in stays one through every step of a worker. -/
theorem FailedOver.next (h : FailedOver db k c f) (hmove : WorkerMove rt w db phase step phase' db') :
    FailedOver db' k c f := by
  obtain ⟨j, r, hr, hof, horigin, hch⟩ := h
  obtain ⟨r', hr', hs⟩ := hmove.rows.1 j r hr
  obtain ⟨hof', horigin'⟩ := hs.origin
  exact ⟨j, r', hr', hof'.trans hof, horigin'.trans horigin, hs.names.2.1.trans hch⟩

variable [Field K] [LinearOrder K]

/-- A request keeps what a worker is on its way to. -/
theorem Awaits.request {q : Request} (h : Awaits phase db k c f) (hq : engineNext rt db q = some db') :
    Awaits phase db' k c f := by
  obtain ⟨hphase, ⟨r, hr, hurgent, hown⟩, hf⟩ := h
  obtain ⟨r', hr', hm⟩ := (engineNext_queuedTo hq).kept k r hr
  refine ⟨hphase, ⟨r', hr', ?_⟩, (firstFallback_congr fun f _ => engineNext_getState hq f).trans hf⟩
  rw [hm.frame]
  exact ⟨⟨hurgent.channel, hurgent.waits, hurgent.worthy⟩, hown⟩

/-- And what it has done. -/
theorem FailedOver.request {q : Request} (h : FailedOver db k c f) (hq : engineNext rt db q = some db') :
    FailedOver db' k c f := by
  obtain ⟨j, r, hr, hof, horigin, hch⟩ := h
  obtain ⟨r', hr', hm⟩ := (engineNext_queuedTo hq).kept j r hr
  refine ⟨j, r', hr', ?_⟩
  rw [hm.frame]
  exact ⟨hof, horigin, hch⟩

end Steps

/-! ## Every run -/

section Run

variable [Field K] [LinearOrder K] {rt : Runtime K} {w : String} {s s' : Deployment K}
  {h : List (Transition (Deployment K) Turn)}

/-- Every urgent row that waited on its channel when an outage was declared, and is no stand-in
itself, is `given` one on the first fallback that was available then, if there was one. -/
def AtDeclaration (given : ℕ → Channel → Channel → Prop) (h : List (Transition (Deployment K) Turn)) :
    Prop :=
  ∀ t ∈ h, ∀ c, Declares t c → ∀ k r, t.source.db.outbox.find? k = some r → Urgent c r →
    r.failoverOf = none → ∀ f, firstFallback c t.source.db = some f → given k c f

/-- **After every declared outage the urgent rows of the channel have stand-ins**, from the end of
the pass on. -/
theorem failedOver_of_run (r : DeploymentRun rt h s)
    (hc : ∀ t ∈ h, t.label.isOf [w] = true ∧ diesFailingOver t = false) (hidle : s.phase w = .idle) :
    AtDeclaration (FailedOver s.db) h := by
  have hI : AtDeclaration (fun k c f => Awaits (s.phase w) s.db k c f ∨ FailedOver s.db k c f) h := by
    refine Run.induct_of_forall (I := fun h s => AtDeclaration (fun k c f =>
      Awaits (s.phase w) s.db k c f ∨ FailedOver s.db k c f) h) r hc ?_ ?_
    · rintro s -
      exact fun t ht => absurd ht List.not_mem_nil
    rintro h s turn s' - - hI ⟨hone, hlives⟩ hnext t ht c hdeclares k row hrow hurgent hown f hf
    rcases List.mem_cons.1 ht with rfl | ht
    · -- the outage is declared now
      obtain ⟨⟨w', now, hlabel⟩, hclosed, hopen⟩ := hdeclares
      obtain rfl : turn = .worker w' (.settle now) := hlabel
      obtain rfl : w' = w := List.mem_singleton.1 (List.contains_iff_mem.1 hone)
      obtain ⟨hphase, houtbox, hothers⟩ := (deploymentNext_worker hnext).1.declares hclosed hopen
      exact .inl ⟨hphase, ⟨row, houtbox ▸ hrow, hurgent, hown⟩, (firstFallback_congr hothers).trans hf⟩
    · have hbefore := hI t ht c hdeclares k row hrow hurgent hown f hf
      cases turn with
      | request q =>
          obtain ⟨hengine, hphase⟩ := deploymentNext_request hnext
          rw [hphase]
          exact hbefore.imp (·.request hengine) (·.request hengine)
      | worker w' step =>
          obtain rfl : w' = w := List.mem_singleton.1 (List.contains_iff_mem.1 hone)
          have hmove := (deploymentNext_worker hnext).1
          rcases hbefore with hawaits | hdone
          · refine hawaits.next hmove ?_
            rintro rfl
            exact absurd hlives (by simp [hawaits.dies])
          · exact .inr (hdone.next hmove)
  intro t ht c hdeclares k row hrow hurgent hown f hf
  rcases hI t ht c hdeclares k row hrow hurgent hown f hf with hawaits | hdone
  · have hphase := hawaits.phase
    rw [hidle] at hphase
    exact hphase.elim
  · exact hdone

end Run

/-! ## Two runs -/

/-- An urgent row of a kind waits on a channel that is down, with a fallback available and no
stand-in. -/
def stranded (kind : OutboxRow → Bool) (k : ℕ) (c : Channel) (db : Database K) : Bool :=
  ((getState c db).state = .OPEN && ((firstFallback c db).isSome &&
    (db.outbox.find? k).any fun r => r.channel = c && (r.status = .pending &&
      (isFailoverWorthy r.priority && (r.payload.digest.isNone && kind r))))) &&
  db.outbox.rows.all fun r => r.2.failoverOf ≠ some k

theorem not_failoverComplete_of_stranded {kind : OutboxRow → Bool} {k : ℕ} {c : Channel}
    {db : Database K} (h : stranded kind k c db = true) : ¬ FailoverComplete kind db := by
  simp only [stranded, Bool.and_eq_true, decide_eq_true_eq, Option.any_eq_true, List.all_eq_true,
    Option.isNone_iff_eq_none] at h
  obtain ⟨⟨hdown, hfallback, r, hr, hc, hp, hworthy, hd, hkind⟩, hnone⟩ := h
  intro hcomplete
  obtain ⟨f, -, -, j, r', hr', hof, -⟩ := hcomplete c hdown hfallback k r hr ⟨hc, hp, hworthy⟩ hd hkind
  exact hnone (j, r') (Table.find?_eq_some_iff.1 hr') hof

variable [Field K] [LinearOrder K]

/-- The last turn ends a pass of the worker. -/
def endsPass (w : String) : List (Transition (Deployment K) Turn) → Bool
  | ⟨_, .worker w' .sleep, _⟩ :: _ => w' = w
  | _ => false

/-- A high alert opens an incident, and Slack does not answer: with the third failure it is declared
down. -/
def slackDown : List Turn :=
  .request (.ingest "A" "unused" 1000 (alertOf "disk" "1")) ::
    claimTurns "w" 2000 0 ++ failTurns "w" 2000 ++ .worker "w" .sleep ::
    claimTurns "w" 4000 1 ++ failTurns "w" 4000 ++ .worker "w" .sleep ::
    claimTurns "w" 6000 1 ++ failTurns "w" 6000 ++ [.worker "w" (.settle 6200), .worker "w" .sleep]

/-- A worker between two polls. -/
def Phase.isIdle : Phase → Bool
  | .idle => true
  | _ => false

/-- The card has a stand-in for PagerDuty. -/
theorem failedOver_of_run_slackDown : ∃ h s, DeploymentRun Runtime.reference h s ∧
    s.db.outbox.rows.map (fun r => (r.1, r.2.channel, r.2.failoverOf)) =
      [(1, .slack, none), (2, .pagerduty, some 1)] ∧ AtDeclaration (FailedOver s.db) h := by
  have hreplay : (Library.replay (deploymentNext Runtime.reference) slackDown
      ([], Deployment.initial)).map (fun s =>
        (s.2.db.outbox.rows.map (fun r => (r.1, r.2.channel, r.2.failoverOf)),
          (s.2.phase "w").isIdle,
          s.1.all fun t => t.label.isOf ["w"] && !diesFailingOver t)) =
      some ([(1, .slack, none), (2, .pagerduty, some 1)], true, true) := by decide +kernel
  obtain ⟨h, s, hrun, heq⟩ := DeploymentRun.of_replay hreplay
  obtain ⟨hrows, heq⟩ := Prod.mk.inj heq
  obtain ⟨hidle, hcheck⟩ := Prod.mk.inj heq
  simp only [List.all_eq_true, Bool.and_eq_true, Bool.not_eq_true'] at hcheck
  refine ⟨h, s, hrun, hrows, @failedOver_of_run _ _ _ _ "w" s h hrun hcheck ?_⟩
  unfold Phase.isIdle at hidle
  split at hidle
  · next hp => exact hp
  · cases hidle

/-- Another high alert comes while Slack is down, and PagerDuty goes down with the stand-in of the
first one. -/
def pagerDutyDown : List Turn :=
  slackDown ++ .request (.ingest "B" "unused" 6500 (alertOf "api" "2")) ::
    claimTurns "w" 7000 1 ++ failTurns "w" 7000 ++ .worker "w" .sleep ::
    claimTurns "w" 8200 2 ++ failTurns "w" 8200 ++ .worker "w" .sleep ::
    claimTurns "w" 9400 2 ++ failTurns "w" 9400 ++ [.worker "w" (.settle 9600), .worker "w" .sleep]

/-- **A row that came late, and a stand-in**: both wait on a channel that is down while mail could
be sent. -/
theorem not_failoverComplete :
    (¬ ∀ h s, DeploymentRun Runtime.reference h s →
      (∀ t ∈ h, t.label.isOf ["w"] = true ∧ crashes t = false) → endsPass "w" h = true →
      FailoverComplete (·.failoverOf.isNone) s.db) ∧
    ¬ ∀ h s, DeploymentRun Runtime.reference h s →
      (∀ t ∈ h, t.label.isOf ["w"] = true ∧ crashes t = false) → endsPass "w" h = true →
      FailoverComplete (·.failoverOf.isSome) s.db := by
  have hreplay : (Library.replay (deploymentNext Runtime.reference) pagerDutyDown
      ([], Deployment.initial)).map (fun s =>
        (s.1.all (fun t => t.label.isOf ["w"] && !crashes t), endsPass "w" s.1,
          stranded (·.failoverOf.isNone) 3 .slack s.2.db,
          stranded (·.failoverOf.isSome) 2 .pagerduty s.2.db)) =
      some (true, true, true, true) := by decide +kernel
  obtain ⟨h, s, hrun, heq⟩ := DeploymentRun.of_replay hreplay
  obtain ⟨hsingle, heq⟩ := Prod.mk.inj heq
  obtain ⟨hends, heq⟩ := Prod.mk.inj heq
  obtain ⟨hlate, hstandIn⟩ := Prod.mk.inj heq
  simp only [List.all_eq_true, Bool.and_eq_true, Bool.not_eq_true'] at hsingle
  exact ⟨fun hclaim => not_failoverComplete_of_stranded hlate (hclaim h s hrun hsingle hends),
    fun hclaim => not_failoverComplete_of_stranded hstandIn (hclaim h s hrun hsingle hends)⟩

end PulseGraph
