/-
# Where a row ends

A row that is sent, dead or superseded is done with.  `_mark_sent`, `_retry_later` and
`_dead_letter` name the row they settle by its id alone, so a row that another worker has
settled or superseded since it was claimed is settled once more.

**Proved here.**  As long as no claim takes a row that another worker has in hand, and no
collapse supersedes one, a row that no longer waits keeps its status for ever
(`statusKept_of_run`).  `not_statusKept` has a superseded row that is marked as sent.
-/

import PulseGraph.Outbox.Lease

namespace PulseGraph

open Library (Table Run Transition)

variable {K : Type}

/-- **Terminal statuses are absorbing**: a row that no longer waited in an earlier state of
the run has the status it had then. -/
def StatusKept (h : List (Transition (Deployment K) Turn)) (s : Deployment K) : Prop :=
  ∀ t ∈ h, ∀ k r, t.source.db.outbox.find? k = some r → r.status ≠ .pending →
    ∃ r', s.db.outbox.find? k = some r' ∧ r'.status = r.status

/-- **No collapse supersedes what another worker has in hand**: where a worker collapses a
channel, a row that another worker has in hand is the newest one that waits for its incident. -/
def SparesHeld (t : Transition (Deployment K) Turn) : Prop :=
  ∀ w step chs, t.label = .worker w step → CollapseStep (t.source.phase w) step chs →
    ∀ w' ≠ w, ∀ row ∈ (t.source.phase w').inHand, ∀ r,
      t.source.db.outbox.find? row.outboxId = some r → chs r.channel →
      ∀ j r', t.source.db.outbox.find? j = some r' →
        isPendingFor r.channel r.incidentId r' = true → j ≤ row.outboxId

/-- Every row in hand still waits. -/
def HeldWait (s : Deployment K) : Prop :=
  ∀ w, ∀ row ∈ (s.phase w).inHand, ∃ r, s.db.outbox.find? row.outboxId = some r ∧ r.status = .pending

section Invariant

variable [Field K] [LinearOrder K] {rt : Runtime K} {s s' : Deployment K}
  {h : List (Transition (Deployment K) Turn)}

omit [Field K] [LinearOrder K] in
/-- A step that settles a row settles one in hand; any other leaves a row waiting that waits,
unless it supersedes it. -/
theorem RowStep.waits {w : String} {phase : Phase} {db : Database K} {step : WorkerStep} {k : ℕ}
    {r r' : OutboxRow} (h : RowStep rt w phase db step k r r') (hp : r.status = .pending) :
    r'.status = .pending ∨ (∃ row ∈ phase.inHand, row.outboxId = k) ∨
      ∃ chs j newest, CollapseStep phase step chs ∧ chs r.channel ∧ k < j ∧
        db.outbox.find? j = some newest ∧ isPendingFor r.channel r.incidentId newest = true := by
  cases h with
  | same => exact .inl hp
  | collapsed hcs hcol hch =>
      cases hcol with
      | same => exact .inl hp
      | winner _ _ => exact .inl hp
      | loser _ hlt hj hpend _ => exact .inr (.inr ⟨_, _, _, hcs, hch, hlt, hj, hpend⟩)
  | leased _ _ => exact .inl hp
  | fellOver _ _ _ => exact .inl hp
  | noDispatcher hph _ => exact .inr (.inl ⟨_, by rw [hph]; exact List.mem_cons_self, rfl⟩)
  | sent hph => exact .inr (.inl ⟨_, by rw [hph]; exact List.mem_cons_self, rfl⟩)
  | rejected hph _ => exact .inr (.inl ⟨_, by rw [hph]; exact List.mem_cons_self, rfl⟩)
  | parked hph _ => exact .inr (.inl ⟨_, by rw [hph]; exact List.mem_cons_self, rfl⟩)
  | retried hph _ => exact .inr (.inl ⟨_, by rw [hph]; exact List.mem_cons_self, rfl⟩)

/-- **The rows in hand go on waiting.** -/
theorem HeldWait.next {turn : Turn} (hI : HeldWait s) (hl : Locked s) (hrun : DeploymentRun rt h s)
    (hnext : deploymentNext rt s turn = some s') (hc : SparesHeld ⟨s, turn, s'⟩) : HeldWait s' := by
  intro w row hrow
  cases turn with
  | request q =>
      obtain ⟨hengine, hphase⟩ := deploymentNext_request hnext
      rw [hphase] at hrow
      obtain ⟨r, hr, hp⟩ := hI w row hrow
      obtain ⟨r', hr', -, hstatus⟩ := engineNext_lock hengine hr
      exact ⟨r', hr', hstatus.trans hp⟩
  | worker w' step =>
      obtain ⟨hmove, hothers⟩ := deploymentNext_worker hnext
      by_cases hw : w = w'
      swap
      · -- another worker's row: it is not settled, and not superseded
        rw [hothers w hw] at hrow
        obtain ⟨r, hr, hp⟩ := hI w row hrow
        obtain ⟨r', hr', hs⟩ := hmove.rows.1 _ r hr
        refine ⟨r', hr', ?_⟩
        rcases hs.waits hp with hwaits | ⟨row', hrow', hk⟩ | ⟨chs, j, newest, hcs, hch, hlt, hj, hpend⟩
        · exact hwaits
        · exact absurd (hl.unique hrow hrow' hk.symm) hw
        · have hle := hc w' step chs rfl hcs w hw row hrow r hr hch j newest hj hpend
          exact absurd hlt (not_lt.2 hle)
      subst hw
      exact hmove.held (P := fun _ r => r.status = .pending) (hrun.nodup_inHand w)
        (fun _ _ hp _ => hp) (fun _ _ _ => id) (hI w) row hrow

/-- **With a single worker** the rows in its hand go on waiting. -/
theorem heldWait_of_single {w : String} (r : DeploymentRun rt h s) (hone : ∀ t ∈ h, t.label.isOf [w] = true) :
    ∀ row ∈ (s.phase w).inHand, ∃ r, s.db.outbox.find? row.outboxId = some r ∧ r.status = .pending := by
  refine Run.induct_of_forall (C := fun t => t.label.isOf [w] = true) (I := fun _ s =>
    ∀ row ∈ (s.phase w).inHand, ∃ r, s.db.outbox.find? row.outboxId = some r ∧ r.status = .pending) r hone ?_ ?_
  · rintro s rfl row hrow
    exact absurd hrow List.not_mem_nil
  · rintro h s turn s' hrun - hI hof hnext row hrow
    have hrun : DeploymentRun rt h s := hrun
    cases turn with
    | request q =>
        obtain ⟨hengine, hphase⟩ := deploymentNext_request hnext
        rw [hphase] at hrow
        obtain ⟨r, hr, hp⟩ := hI row hrow
        obtain ⟨r', hr', -, hstatus⟩ := engineNext_lock hengine hr
        exact ⟨r', hr', hstatus.trans hp⟩
    | worker w' step =>
        obtain rfl : w' = w := List.mem_singleton.1 (List.contains_iff_mem.1 hof)
        exact (deploymentNext_worker hnext).1.held (P := fun _ r => r.status = .pending) (hrun.nodup_inHand w')
          (fun _ _ hp _ => hp) (fun _ _ _ => id) hI row hrow

/-- One turn keeps the status of every row that no longer waits. -/
theorem HeldWait.keeps {turn : Turn} (hI : HeldWait s) (hnext : deploymentNext rt s turn = some s')
    {k : ℕ} {r : OutboxRow} (hr : s.db.outbox.find? k = some r) (hp : r.status ≠ .pending) :
    ∃ r', s'.db.outbox.find? k = some r' ∧ r'.status = r.status := by
  cases turn with
  | request q =>
      obtain ⟨r', hr', -, hstatus⟩ := engineNext_lock (deploymentNext_request hnext).1 hr
      exact ⟨r', hr', hstatus⟩
  | worker w step =>
      obtain ⟨r', hr', hs⟩ := (deploymentNext_worker hnext).1.rows.1 k r hr
      refine ⟨r', hr', ?_⟩
      rw [hs.eq_of_settled hr hp]
      rintro row hrow rfl
      obtain ⟨r₁, hr₁, hwaits⟩ := hI w row hrow
      obtain rfl := Option.some.inj (hr.symm.trans hr₁)
      exact hp hwaits

/-- What a run keeps in which no worker takes or supersedes what another one has in hand. -/
theorem heldWait_of_run (r : DeploymentRun rt h s) (hc : ∀ t ∈ h, NoOverlap t ∧ SparesHeld t) :
    Locked s ∧ HeldWait s := by
  refine Run.induct_of_forall (I := fun _ s => Locked s ∧ HeldWait s) r hc ?_ ?_
  · rintro s rfl
    exact ⟨fun w row hrow => absurd hrow List.not_mem_nil, fun w row hrow => absurd hrow List.not_mem_nil⟩
  · rintro h s turn s' hrun - ⟨hl, hI⟩ ⟨hoverlap, hspares⟩ hnext
    exact ⟨hl.next hrun hnext hoverlap, hI.next hl hrun hnext hspares⟩

/-- **A row that no longer waits keeps its status for ever**, in every run of any number of
workers that neither take nor supersede what another one has in hand. -/
theorem statusKept_of_run (r : DeploymentRun rt h s) (hc : ∀ t ∈ h, NoOverlap t ∧ SparesHeld t) :
    StatusKept h s := by
  refine Run.induct_of_forall (I := StatusKept) r hc ?_ ?_
  · rintro s -
    exact fun t ht => absurd ht List.not_mem_nil
  · rintro h s turn s' hrun hc hI - hnext t ht k r hr hp
    have hheld := (heldWait_of_run hrun hc).2
    rcases List.mem_cons.1 ht with rfl | ht
    · exact hheld.keeps hnext hr hp
    · obtain ⟨r₁, hr₁, hstatus⟩ := hI t ht k r hr hp
      obtain ⟨r', hr', hkept⟩ := hheld.keeps hnext hr₁ (hstatus ▸ hp)
      exact ⟨r', hr', hkept.trans hstatus⟩

/-- What `SparesHeld` asks for, of the workers there are. -/
def sparesHeld (ws : List String) (t : Transition (Deployment K) Turn) : Bool :=
  match t.label with
  | .worker w .coalesce => ws.all fun w' => w' = w || (t.source.phase w').inHand.isEmpty
  | .worker w (.probeReturns _ _) => ws.all fun w' => w' = w || (t.source.phase w').inHand.isEmpty
  | _ => true

/-- What is checked for the workers there are holds for all workers. -/
theorem sparesHeld_of_check {ws : List String} (r : DeploymentRun rt h s)
    (hws : ∀ t ∈ h, t.label.isOf ws = true) {t : Transition (Deployment K) Turn} (ht : t ∈ h)
    (hcheck : sparesHeld ws t = true) : SparesHeld t := by
  intro w step chs hlabel hcs w' hw' row hrow
  have hempty : ∀ w' ∈ ws, w' ≠ w → (t.source.phase w').inHand = [] := by
    intro w' hmem hne
    have hall : ws.all (fun w' => w' = w || (t.source.phase w').inHand.isEmpty) = true := by
      unfold sparesHeld at hcheck
      rw [hlabel] at hcheck
      cases hcs <;> exact hcheck
    have hone := List.all_eq_true.1 hall w' hmem
    rw [Bool.or_eq_true, decide_eq_true_eq] at hone
    exact List.isEmpty_iff.1 (hone.resolve_left hne)
  by_cases hmem : w' ∈ ws
  · rw [hempty w' hmem hw'] at hrow
    exact absurd hrow List.not_mem_nil
  · rw [(r.idle hws hmem).2 t ht] at hrow
    exact absurd hrow List.not_mem_nil

end Invariant

/-- Two cards are sent by two workers one after the other, and stay sent. -/
theorem statusKept_of_run_inTurn : ∃ h s, DeploymentRun Runtime.reference h s ∧
    s.db.outbox.rows.map (fun r => (r.1, r.2.status)) = [(1, .sent), (2, .sent)] ∧ StatusKept h s := by
  have hreplay : (Library.replay (deploymentNext Runtime.reference) inTurn
      ([], Deployment.initial)).map (fun s => (s.2.db.outbox.rows.map (fun r => (r.1, r.2.status)),
        s.1.all fun t => t.label.isOf ["v", "w"] &&
          (overlapFree ["v", "w"] t && sparesHeld ["v", "w"] t))) =
      some ([(1, .sent), (2, .sent)], true) := by decide +kernel
  obtain ⟨h, s, hrun, heq⟩ := DeploymentRun.of_replay hreplay
  obtain ⟨hrows, hcheck⟩ := Prod.mk.inj heq
  simp only [List.all_eq_true, Bool.and_eq_true] at hcheck
  refine ⟨h, s, hrun, hrows, statusKept_of_run hrun fun t ht => ?_⟩
  obtain ⟨-, hfree, hspares⟩ := hcheck t ht
  have hws := fun t ht => (hcheck t ht).1
  exact ⟨noOverlap_of_check hrun hws ht hfree, sparesHeld_of_check hrun hws ht hspares⟩

/-- A worker has a card in hand; the incident's next alert queues an edit of it, and another
worker collapses the two and has the card superseded; then the card is delivered. -/
def collapsedInHand : List Turn :=
  .request (.ingest "A" "unused" 0 (alertOf "disk" "1")) :: claimTurns "v" 1000 0 ++
    .request (.ingest "unused" "unused" 2000 (alertOf "disk" "2")) :: claimTurns "w" 3000 0 ++
    callTurns "v" 3000 3500 (.ok (some "ts-1")) ++ settleTurns "v" 3500

/-- Some row had a status in some state of the run, and has another one in the last. -/
def statusChange (k : ℕ) (before after : OutboxStatus)
    (s : List (Transition (Deployment K) Turn) × Deployment K) : Bool :=
  (s.1.any fun t => (t.source.db.outbox.find? k).map (·.status) = some before) &&
    decide ((s.2.db.outbox.find? k).map (·.status) = some after)

/-- **A superseded row that is marked as sent.** -/
theorem not_statusKept : ¬ ∀ h s, DeploymentRun Runtime.reference h s → StatusKept h s := by
  intro hclaim
  have hreplay : (Library.replay (deploymentNext Runtime.reference) collapsedInHand
      ([], Deployment.initial)).map (statusChange 1 .superseded .sent) = some true := by decide +kernel
  obtain ⟨h, s, hrun, heq⟩ := DeploymentRun.of_replay hreplay
  simp only [statusChange, Bool.and_eq_true, List.any_eq_true, decide_eq_true_eq] at heq
  obtain ⟨⟨t, ht, hbefore⟩, hafter⟩ := heq
  obtain ⟨r, hr, hsuperseded⟩ := Option.map_eq_some_iff.1 hbefore
  obtain ⟨r', hr', hsame⟩ := hclaim h s hrun t ht 1 r hr (by rw [hsuperseded]; decide)
  rw [hr', Option.map_some, hsame, hsuperseded] at hafter
  cases hafter

end PulseGraph
