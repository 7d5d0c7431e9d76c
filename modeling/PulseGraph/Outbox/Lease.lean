/-
# Handed over once

A worker takes one lease on a whole batch and hands its rows over one after the other,
so the last row of a batch may be handed over long after the lease has run out.  No
lease is looked at between the claim and the call.

**Proved here.**  As long as no process dies and no claim takes a row that another
worker still has in hand, a row that a dispatcher has taken is never handed over again
(`handedOnce_of_noOverlap`).  Short calls are not enough: a batch of two rows, each
sent in less than a lease, is sent once and a half (`not_handedOnce`).
-/

import PulseGraph.Outbox.Deployment

namespace PulseGraph

open Library (Table Run Transition)

variable {K : Type}

/-! ## Calls in a history -/

/-- The row a transition hands to a dispatcher. -/
def handOffOf (t : Transition (Deployment K) Turn) : Option ℕ :=
  match t.label with
  | .worker w (.handOff _) => match t.source.phase w with
    | .prepared d _ => if d.row.channel ∈ dispatchers then some d.row.outboxId else none
    | _ => none
  | _ => none

/-- The row whose dispatcher returns success in a transition. -/
def successOf (t : Transition (Deployment K) Turn) : Option ℕ :=
  match t.label with
  | .worker w (.callReturns _ (.ok _)) => match t.source.phase w with
    | .calling d _ => some d.row.outboxId
    | _ => none
  | _ => none

/-- No row for which a call has returned success is handed to a dispatcher afterwards;
the history is newest first. -/
def HandedOnce (h : List (Transition (Deployment K) Turn)) : Prop :=
  h.Pairwise fun later earlier => handOffOf later = none ∨ handOffOf later ≠ successOf earlier

/-- A process dies, or a pass ends by an exception of the database. -/
def crashes (t : Transition (Deployment K) Turn) : Bool :=
  match t.label with
  | .worker _ .crash => true
  | _ => false

/-- When a worker last handed a row over. -/
def lastHandOff (w : String) : List (Transition (Deployment K) Turn) → Option ℤ
  | [] => none
  | t :: h => match t.label with
    | .worker w' (.handOff now) => if w' = w then some now else lastHandOff w h
    | _ => lastHandOff w h

/-- Every call of a dispatcher takes less than `limit` milliseconds. -/
def callsWithin (limit : ℤ) : List (Transition (Deployment K) Turn) → Bool
  | [] => true
  | t :: h => (match t.label with
      | .worker w (.callReturns now _) => (lastHandOff w h).all fun start => now - start < limit
      | _ => true) && callsWithin limit h

/-- **No batch outlives its lease** in the eyes of another worker: where a worker is about
to claim, it can claim no row that another worker still has in hand. -/
def NoOverlap (t : Transition (Deployment K) Turn) : Prop :=
  ∀ w clock now available halfOpen, t.label = .worker w (.claim clock) →
    t.source.phase w = .coalesced now available halfOpen →
    ∀ w' ≠ w, ∀ row ∈ (t.source.phase w').inHand, ∀ r,
      t.source.db.outbox.find? row.outboxId = some r → claimable available now r = false

/-! ## The invariant -/

/-- A row in hand is locked by the worker that has it. -/
def Locked (s : Deployment K) : Prop :=
  ∀ w, ∀ row ∈ (s.phase w).inHand, ∃ r, s.db.outbox.find? row.outboxId = some r ∧ r.lockedBy = some w

/-- A worker is about to mark the row as sent. -/
def Phase.delivering (k : ℕ) : Phase → Prop
  | .delivered d _ _ => d.row.outboxId = k
  | _ => False

/-- A row that a dispatcher has taken is marked as sent, or about to be. -/
def Settled (h : List (Transition (Deployment K) Turn)) (s : Deployment K) : Prop :=
  ∀ t ∈ h, ∀ k, successOf t = some k →
    (∃ w, (s.phase w).delivering k) ∨
      ∃ r, s.db.outbox.find? k = some r ∧ r.status = .sent ∧ r.lockedBy = none

section Invariant

variable [Field K] [LinearOrder K] {rt : Runtime K} {s s' : Deployment K}
  {h : List (Transition (Deployment K) Turn)}

omit [Field K] [LinearOrder K] in
/-- A claim takes rows it can claim. -/
theorem mem_claimIds {available : List Channel} {now : ℤ} {db : Database K} {k : ℕ}
    (hk : k ∈ claimIds rt available now db) :
    ∃ r, db.outbox.find? k = some r ∧ claimable available now r = true := by
  unfold claimIds drainOrder at hk
  obtain ⟨⟨k', r⟩, hmem, rfl⟩ := List.mem_map.1 hk
  have hsel := (List.mem_insertionSort _).1 ((sqlLimit_sublist _ _).subset hmem)
  exact ⟨r, Table.mem_select.1 hsel⟩

omit [Field K] [LinearOrder K] in
/-- The row a worker is about to mark is in its hand. -/
theorem Phase.delivering.inHand {phase : Phase} {k : ℕ} (h : phase.delivering k) :
    ∃ row ∈ phase.inHand, row.outboxId = k := by
  cases phase with
  | delivered d newRef batch => exact ⟨d.row, List.mem_cons_self, h⟩
  | _ => exact h.elim

omit [Field K] [LinearOrder K] in
/-- Two workers have no row in common. -/
theorem Locked.unique (hl : Locked s) {w w' : String} {row row' : ClaimedRow}
    (hrow : row ∈ (s.phase w).inHand) (hrow' : row' ∈ (s.phase w').inHand)
    (hk : row.outboxId = row'.outboxId) : w = w' := by
  obtain ⟨r, hr, hw⟩ := hl w row hrow
  obtain ⟨r', hr', hw'⟩ := hl w' row' hrow'
  rw [hk, hr'] at hr
  obtain rfl := Option.some.inj hr
  exact Option.some.inj (hw.symm.trans hw')

/-- A request writes no lock. -/
theorem engineNext_lock {db db' : Database K} {q : Request} (h : engineNext rt db q = some db')
    {k : ℕ} {r : OutboxRow} (hr : db.outbox.find? k = some r) :
    ∃ r', db'.outbox.find? k = some r' ∧ r'.lockedBy = r.lockedBy ∧ r'.status = r.status := by
  obtain ⟨r', hr', hm⟩ := (engineNext_queued h).kept k r hr
  refine ⟨r', hr', ?_⟩
  rw [hm.frame]
  exact ⟨rfl, rfl⟩

/-- **The rows in hand stay locked.** -/
theorem Locked.next {turn : Turn} (hl : Locked s) (hrun : DeploymentRun rt h s)
    (hnext : deploymentNext rt s turn = some s') (hc : NoOverlap ⟨s, turn, s'⟩) : Locked s' := by
  intro w row hrow
  cases turn with
  | request q =>
      obtain ⟨hengine, hphase⟩ := deploymentNext_request hnext
      rw [hphase] at hrow
      obtain ⟨r, hr, hw⟩ := hl w row hrow
      obtain ⟨r', hr', hlock, -⟩ := engineNext_lock hengine hr
      exact ⟨r', hr', hlock.trans hw⟩
  | worker w' step =>
      obtain ⟨hmove, hothers⟩ := deploymentNext_worker hnext
      by_cases hw : w = w'
      swap
      · -- another worker's row: it is not claimed, and not settled
        rw [hothers w hw] at hrow
        obtain ⟨r, hr, hlock⟩ := hl w row hrow
        obtain ⟨r', hr', hs⟩ := hmove.rows.1 _ r hr
        refine ⟨r', hr', ?_⟩
        rcases hs.locks with hsame | ⟨clock, now, available, halfOpen, rfl, hp, hmem, -⟩ | ⟨row', hrow', hk, -⟩
        · exact hsame.trans hlock
        · obtain ⟨r₁, hr₁, hclaimable⟩ := mem_claimIds hmem
          have hnot := hc w' clock now available halfOpen rfl hp w hw row hrow r₁ hr₁
          rw [hclaimable] at hnot
          cases hnot
        · exact absurd (hl.unique hrow hrow' hk.symm) hw
      subst hw
      exact hmove.held (P := fun _ r => r.lockedBy = some w) (hrun.nodup_inHand w)
        (fun _ _ _ hlock => hlock) (fun _ _ _ => id) (hl w) row hrow

omit [Field K] [LinearOrder K] in
/-- A row that no longer waits and is in no hand stays as it is. -/
theorem RowStep.eq_of_settled {w : String} {phase : Phase} {db : Database K} {step : WorkerStep} {k : ℕ}
    {r r' : OutboxRow} (h : RowStep rt w phase db step k r r') (hr : db.outbox.find? k = some r)
    (hpending : r.status ≠ .pending) (hfree : ∀ row ∈ phase.inHand, row.outboxId ≠ k) : r' = r := by
  cases h with
  | same => rfl
  | collapsed _ hcol _ =>
      cases hcol with
      | same => rfl
      | winner _ hp => exact absurd hp hpending
      | loser hp _ _ _ _ => exact absurd hp hpending
  | leased _ hk =>
      obtain ⟨r₁, hr₁, hclaimable⟩ := mem_claimIds hk
      obtain rfl := Option.some.inj (hr.symm.trans hr₁)
      simp only [claimable, Bool.and_eq_true, decide_eq_true_eq] at hclaimable
      exact absurd hclaimable.1.1.1 hpending
  | fellOver _ _ hp => exact absurd hp hpending
  | noDispatcher hp _ => exact absurd rfl (hfree _ (by rw [hp]; exact List.mem_cons_self))
  | sent hp => exact absurd rfl (hfree _ (by rw [hp]; exact List.mem_cons_self))
  | rejected hp _ => exact absurd rfl (hfree _ (by rw [hp]; exact List.mem_cons_self))
  | parked hp _ => exact absurd rfl (hfree _ (by rw [hp]; exact List.mem_cons_self))
  | retried hp _ => exact absurd rfl (hfree _ (by rw [hp]; exact List.mem_cons_self))

/-- A call that returns success, and what its worker does next. -/
theorem delivering_of_success {t : Transition (Deployment K) Turn} {k : ℕ}
    (hnext : deploymentNext rt t.source t.label = some t.target) (hk : successOf t = some k) :
    ∃ w, (t.target.phase w).delivering k := by
  obtain ⟨s, turn, s'⟩ := t
  unfold successOf at hk
  dsimp only at hk hnext ⊢
  split at hk
  · next w now newRef =>
      split at hk
      · next d batch hp =>
          obtain rfl := Option.some.inj hk
          refine ⟨w, ?_⟩
          obtain ⟨hmove, -⟩ := deploymentNext_worker hnext
          rw [hp] at hmove
          generalize s'.phase w = phase', s'.db = db' at hmove ⊢
          cases hmove
          rfl
      · cases hk
  · cases hk

/-- **A row that a dispatcher has taken stays settled**, when no process dies. -/
theorem Settled.next {turn : Turn} (hs : Settled h s) (hl : Locked s)
    (hnext : deploymentNext rt s turn = some s') (hc : crashes ⟨s, turn, s'⟩ = false) :
    Settled (⟨s, turn, s'⟩ :: h) s' := by
  intro t ht k hk
  rcases List.mem_cons.1 ht with rfl | ht
  · exact .inl (delivering_of_success hnext hk)
  rcases hs t ht k hk with ⟨w, hw⟩ | ⟨r, hr, hsent, hlock⟩
  · -- the worker that was told so has not yet marked the row, or does it now
    obtain ⟨row, hrow, hrowk⟩ := hw.inHand
    cases turn with
    | request q => exact .inl ⟨w, by rwa [(deploymentNext_request hnext).2]⟩
    | worker w' step =>
        obtain ⟨hmove, hothers⟩ := deploymentNext_worker hnext
        by_cases hww : w = w'
        swap
        · exact .inl ⟨w, by rwa [hothers w hww]⟩
        subst hww
        obtain ⟨r, hr, -⟩ := hl w row hrow
        rw [hrowk] at hr
        cases hp : s.phase w with
        | delivered d newRef batch =>
            rw [hp] at hmove hw
            have hdk : d.row.outboxId = k := hw
            generalize s'.phase w = phase', s'.db = db' at hmove ⊢
            cases hmove with
            | @markSent now =>
                refine .inr ⟨{ r.unlock with
                  status := .sent
                  sentAt := some now
                  externalRef := newRef.or r.externalRef }, ?_, rfl, rfl⟩
                rw [markSent, Table.find?_modify, if_pos hdk.symm, hdk, hr]
                rfl
            | crash => cases hc
        | _ =>
            rw [hp] at hw
            exact hw.elim
  · refine .inr ?_
    cases turn with
    | request q =>
        obtain ⟨r', hr', hlock', hstatus⟩ := engineNext_lock (deploymentNext_request hnext).1 hr
        exact ⟨r', hr', hstatus.trans hsent, hlock'.trans hlock⟩
    | worker w step =>
        obtain ⟨hmove, -⟩ := deploymentNext_worker hnext
        obtain ⟨r', hr', hstep⟩ := hmove.rows.1 k r hr
        refine ⟨r, ?_, hsent, hlock⟩
        rw [hr', hstep.eq_of_settled hr (by rw [hsent]; decide)]
        rintro row hrow rfl
        obtain ⟨r₁, hr₁, hheld⟩ := hl w row hrow
        obtain rfl := Option.some.inj (hr.symm.trans hr₁)
        rw [hlock] at hheld
        cases hheld

omit [Field K] [LinearOrder K] in
/-- A hand-over is of a row in hand that no call has returned for. -/
theorem handOff_prepared {t : Transition (Deployment K) Turn} {k : ℕ} (hk : handOffOf t = some k) :
    ∃ w d batch, t.source.phase w = .prepared d batch ∧ d.row.outboxId = k := by
  unfold handOffOf at hk
  split at hk
  · next w now _ =>
      split at hk
      · next d batch hp =>
          split_ifs at hk
          exact ⟨w, d, batch, hp, Option.some.inj hk⟩
      · cases hk
  · cases hk

/-! ## Every run -/

/-- **A row that a dispatcher has taken is never handed over again**, in any run of any
number of workers in which no process dies and no batch outlives its lease. -/
theorem handedOnce_of_noOverlap (r : DeploymentRun rt h s)
    (hc : ∀ t ∈ h, crashes t = false ∧ NoOverlap t) : HandedOnce h := by
  have hI : Locked s ∧ Settled h s ∧ HandedOnce h := by
    refine Run.induct_of_forall (I := fun h s => Locked s ∧ Settled h s ∧ HandedOnce h) r hc ?_ ?_
    · rintro s rfl
      refine ⟨fun w row hrow => ?_, fun t ht => absurd ht List.not_mem_nil, List.Pairwise.nil⟩
      exact absurd hrow List.not_mem_nil
    · rintro h s turn s' hrun - ⟨hl, hs, honce⟩ ⟨hcrash, hoverlap⟩ hnext
      refine ⟨hl.next hrun hnext hoverlap, hs.next hl hnext hcrash, List.pairwise_cons.2 ⟨?_, honce⟩⟩
      intro t ht
      by_contra hboth
      push Not at hboth
      obtain ⟨hsome, heq⟩ := hboth
      obtain ⟨k, hk⟩ := Option.ne_none_iff_exists'.1 hsome
      obtain ⟨w, d, batch, hp, hdk⟩ := handOff_prepared hk
      have hheld : d.row ∈ (s.phase w).inHand := by
        have hp' : s.phase w = .prepared d batch := hp
        rw [hp']
        exact List.mem_cons_self
      rcases hs t ht k (heq.symm.trans hk) with ⟨w', hw'⟩ | ⟨r, hr, -, hlock⟩
      · -- two workers would have the row in hand
        obtain ⟨row, hrow, hrowk⟩ := hw'.inHand
        obtain rfl := hl.unique hheld hrow (hdk.trans hrowk.symm)
        have hp' : s.phase w = .prepared d batch := hp
        rw [hp'] at hw'
        exact hw'
      · -- the row would be locked and not
        obtain ⟨r₁, hr₁, hw⟩ := hl w d.row hheld
        rw [hdk, hr] at hr₁
        obtain rfl := Option.some.inj hr₁
        rw [hlock] at hw
        cases hw
  exact hI.2.2

/-- What `NoOverlap` asks for, of the workers there are. -/
def overlapFree (ws : List String) (t : Transition (Deployment K) Turn) : Bool :=
  match t.label with
  | .worker w (.claim _) => match t.source.phase w with
    | .coalesced now available _ => ws.all fun w' => w' = w ||
        (t.source.phase w').inHand.all fun row =>
          (t.source.db.outbox.find? row.outboxId).all fun r => !claimable available now r
    | _ => true
  | _ => true

/-- What is checked for the workers there are holds for all workers. -/
theorem noOverlap_of_check {ws : List String} (r : DeploymentRun rt h s)
    (hws : ∀ t ∈ h, t.label.isOf ws = true) {t : Transition (Deployment K) Turn} (ht : t ∈ h)
    (hcheck : overlapFree ws t = true) : NoOverlap t := by
  intro w clock now available halfOpen hlabel hp w' hw' row hrow r₁ hr₁
  by_cases hmem : w' ∈ ws
  · unfold overlapFree at hcheck
    simp only [hlabel, hp, List.all_eq_true] at hcheck
    have hrows := hcheck w' hmem
    rw [Bool.or_eq_true, decide_eq_true_eq] at hrows
    have hone := List.all_eq_true.1 (hrows.resolve_left hw') row hrow
    rw [hr₁] at hone
    simpa using hone
  · rw [(r.idle hws hmem).2 t ht] at hrow
    exact absurd hrow List.not_mem_nil

end Invariant

/-- Two cards for Slack. -/
def twoCards : List Turn :=
  [.request (.ingest "A" "unused" 0 (alertOf "disk" "1")),
    .request (.ingest "B" "unused" 0 (alertOf "api" "2"))]

/-- One worker sends both cards, and another one comes after it. -/
def inTurn : List Turn :=
  twoCards ++ claimTurns "v" 1000 0 ++ callTurns "v" 1000 2000 (.ok (some "ts-1")) ++
    settleTurns "v" 2000 ++ callTurns "v" 2000 3000 (.ok (some "ts-2")) ++ settleTurns "v" 3000 ++
    claimTurns "w" 4000 1

/-- Two cards are sent, by two workers one after the other. -/
theorem handedOnce_of_noOverlap_inTurn : ∃ h s, DeploymentRun Runtime.reference h s ∧
    h.filterMap successOf = [2, 1] ∧ HandedOnce h := by
  have hreplay : (Library.replay (deploymentNext Runtime.reference) inTurn
      ([], Deployment.initial)).map (fun s => (s.1.filterMap successOf,
        s.1.all fun t => t.label.isOf ["v", "w"] && !crashes t && overlapFree ["v", "w"] t)) =
      some ([2, 1], true) := by decide +kernel
  obtain ⟨h, s, hrun, heq⟩ := DeploymentRun.of_replay hreplay
  obtain ⟨hsuccess, hcheck⟩ := Prod.mk.inj heq
  simp only [List.all_eq_true, Bool.and_eq_true, Bool.not_eq_true'] at hcheck
  refine ⟨h, s, hrun, hsuccess, handedOnce_of_noOverlap hrun fun t ht => ?_⟩
  obtain ⟨⟨-, hcrash⟩, hfree⟩ := hcheck t ht
  exact ⟨hcrash, noOverlap_of_check hrun (fun t ht => (hcheck t ht).1.1) ht hfree⟩

/-- A worker takes both cards and needs 59 s for the first one; another worker takes the
second one and sends it; the first worker sends it again. -/
def overlapping : List Turn :=
  twoCards ++ claimTurns "v" 1000 0 ++ callTurns "v" 1000 60000 (.ok (some "ts-1")) ++
    settleTurns "v" 60000 ++ claimTurns "w" 61000 1 ++
    callTurns "w" 61000 61500 (.ok (some "ts-2")) ++ settleTurns "w" 61500 ++
    callTurns "v" 62000 62500 (.ok (some "ts-3"))

instance (h : List (Transition (Deployment K) Turn)) : Decidable (HandedOnce h) :=
  inferInstanceAs (Decidable (h.Pairwise _))

/-- **Short calls are not enough.** -/
theorem not_handedOnce : ¬ ∀ h s, DeploymentRun Runtime.reference h s →
    (∀ t ∈ h, crashes t = false) →
    callsWithin (secondsAfter 0 Runtime.reference.settings.outboxLeaseSeconds) h = true →
    HandedOnce h := by
  intro hclaim
  have hreplay : (Library.replay (deploymentNext Runtime.reference) overlapping
      ([], Deployment.initial)).map (fun s => (s.1.all fun t => !crashes t,
        callsWithin (secondsAfter 0 Runtime.reference.settings.outboxLeaseSeconds) s.1,
        decide (HandedOnce s.1))) = some (true, true, false) := by decide +kernel
  obtain ⟨h, s, hrun, heq⟩ := DeploymentRun.of_replay hreplay
  obtain ⟨hcrash, heq⟩ := Prod.mk.inj heq
  obtain ⟨hshort, htwice⟩ := Prod.mk.inj heq
  simp only [List.all_eq_true, Bool.not_eq_true'] at hcrash
  exact of_decide_eq_false htwice (hclaim h s hrun hcrash hshort)

end PulseGraph
