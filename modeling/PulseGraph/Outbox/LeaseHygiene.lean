/-
# Leases after a pass

`_poll_once` takes a lease on a batch of rows and sends them, or parks them, or requeues them, or
gives them up: each of these takes the lease off the row.  Between the claim and the dispatch the
batch is trimmed for the channels on trial, and a row that is trimmed keeps its lease until the
lease expires, as does a row under the worker's name that an earlier pass left behind.

**Proved here.**  `workerSteps_leases`: the dispatching of a batch, whatever its calls return, takes
the lease off the rows of the batch and off no others.  From it `leasesReleased_iff`: after a pass no
waiting row is under the worker's name if and only if the claim took all that are, and no channel
on trial had more of them than its allowance.  `not_leasesReleased` is a channel on trial with four
rows.
-/

import PulseGraph.Outbox.FailureHandling
import PulseGraph.Outbox.Lease

namespace PulseGraph

open Library (Table)

variable {K : Type} (rt : Runtime K)

/-! ## A pass -/

/-- The row waits under the worker's name. -/
def LeasedBy (w : String) (db : Database K) (k : ℕ) : Prop :=
  ∃ r, db.outbox.find? k = some r ∧ r.status = .pending ∧ r.lockedBy = some w

/-- The step goes on with the pass. -/
def WorkerStep.goesOn : WorkerStep → Prop
  | .wake => False
  | .crash => False
  | _ => True

/-- A `_poll_once` that returns normally, while nobody else writes: with no channel available, or with
the batch drained. -/
inductive PollsOnce (w : String) (now clock : ℤ) (db db' : Database K) : Prop
  | nothingUp : workerSteps rt w [.poll now] (.probing [], db) = some (.idle, db') → PollsOnce w now clock db db'
  | drained {steps : List WorkerStep} : (∀ step ∈ steps, step.goesOn) →
      workerSteps rt w (.poll now :: .coalesce :: .claim clock :: .select :: (steps ++ [.sleep]))
        (.probing [], db) = some (.idle, db') → PollsOnce w now clock db db'

/-- The queue as the claim finds it. -/
def collapsedQueue (db : Database K) : Database K := coalesceAvailable (pollChannels db).1 db

/-- The expiry of the leases that a claim takes. -/
def leaseExpiry (clock : ℤ) : ℤ := secondsAfter clock rt.settings.outboxLeaseSeconds

/-- The queue as the claim leaves it. -/
def claimedQueue (w : String) (now clock : ℤ) (db : Database K) : Database K :=
  takeLease rt w (pollChannels db).1 now (leaseExpiry rt clock) (collapsedQueue db)

/-- The rows that are read back. -/
def claimedRows (w : String) (now clock : ℤ) (db : Database K) : List ClaimedRow :=
  leasedRows w (leaseExpiry rt clock) (claimedQueue rt w now clock db)

/-- The claim takes every waiting row under the worker's name, and no channel on trial has more of
them than its allowance; where no channel is available, there is no such row. -/
structure TakesAll (w : String) (now clock : ℤ) (db : Database K) : Prop where
  nothingUp : (pollChannels db).1 = [] → ∀ k, ¬ LeasedBy w db k
  claimed : ∀ k r, (collapsedQueue db).outbox.find? k = some r → r.status = .pending → r.lockedBy = some w →
    k ∈ claimIds rt (pollChannels db).1 now (collapsedQueue db) ∨ r.lockedUntil = some (leaseExpiry rt clock)
  allowed : ∀ channel ∈ (pollChannels db).2,
    (claimedRows rt w now clock db).countP (fun row => row.channel = channel) ≤
      rt.settings.outboxHalfOpenAllowance.toNat

/-! ## Trimming -/

/-- **Trimming keeps every row** exactly when each channel on trial stays within its allowance. -/
theorem trimHalfOpen_eq_self_iff {halfOpen : List Channel} {allowance : ℤ} {counts : Channel → ℤ}
    {rows : List ClaimedRow} : trimHalfOpen halfOpen allowance counts rows = rows ↔
      ∀ c ∈ halfOpen, rows.countP (fun row => row.channel = c) = 0 ∨
        counts c + rows.countP (fun row => row.channel = c) ≤ allowance := by
  induction rows generalizing counts with
  | nil => simp [trimHalfOpen]
  | cons row rows ih =>
      have hself : (row :: rows).countP (fun r => r.channel = row.channel) =
          rows.countP (fun r => r.channel = row.channel) + 1 := by simp
      have hother : ∀ c, c ≠ row.channel → (row :: rows).countP (fun r => r.channel = c) =
          rows.countP (fun r => r.channel = c) := by
        intro c hc
        rw [List.countP_cons_of_neg (by simpa using Ne.symm hc)]
      rw [trimHalfOpen]
      split_ifs with htrial hfull
      · -- the allowance of the row's channel is used up
        constructor
        · intro h
          have hlen := (trimHalfOpen_sublist halfOpen allowance counts rows).length_le
          rw [h] at hlen
          simp at hlen
        · intro h
          rcases h row.channel htrial with hzero | hle <;> omega
      · rw [List.cons.injEq, eq_self_iff_true, true_and, ih]
        refine forall₂_congr fun c _ => ?_
        by_cases hc : c = row.channel
        · subst hc
          rw [Function.update_self, hself]
          omega
        · rw [Function.update_of_ne hc, hother c hc]
      · rw [List.cons.injEq, eq_self_iff_true, true_and, ih]
        refine forall₂_congr fun c hmem => ?_
        rw [hother c fun hc => htrial (hc ▸ hmem)]

/-! ## Draining -/

/-- The worker has its batch. -/
def Phase.drains : Phase → Prop
  | .draining _ => True
  | .prepared _ _ => True
  | .calling _ _ => True
  | .delivered _ _ _ => True
  | .marked _ _ => True
  | .failed _ _ _ => True
  | .charged _ _ _ _ _ => True
  | .failingOver _ _ => True
  | _ => False

/-- The ids of the batch in hand. -/
def Phase.idsInHand (phase : Phase) : List ℕ := phase.inHand.map (·.outboxId)

section Drain

variable {rt} {w : String} {db db' : Database K} {phase phase' : Phase} {step : WorkerStep} {k : ℕ}
  {r r' : OutboxRow}

/-- A pass that has its batch goes on draining it, or is over. -/
theorem WorkerMove.drains (h : WorkerMove rt w db phase step phase' db') (hphase : phase.drains) :
    phase'.drains ∨ phase' = .idle := by
  cases h with
  | @park now d verdict newlyDown nextProbeAt batch _ => cases newlyDown <;> exact .inl trivial
  | wake => exact hphase.elim
  | look _ => exact hphase.elim
  | skip => exact hphase.elim
  | probed _ => exact hphase.elim
  | poll => exact hphase.elim
  | coalesce => exact hphase.elim
  | claim => exact hphase.elim
  | select => exact hphase.elim
  | probeRaises _ => exact .inr rfl
  | nothingUp => exact .inr rfl
  | recordRaises _ => exact .inr rfl
  | retryRaises _ => exact .inr rfl
  | sleep => exact .inr rfl
  | crash => exact .inr rfl
  | _ => exact .inl trivial

/-- **A row that leaves the batch is settled**, and its lease taken off. -/
theorem WorkerMove.unlocks (h : WorkerMove rt w db phase step phase' db') (hphase' : phase'.drains)
    (hk : k ∈ phase.idsInHand) (hk' : k ∉ phase'.idsInHand)
    (hr' : db'.outbox.find? k = some r') : r'.lockedBy = none := by
  have hmodify : ∀ {t : Table ℕ OutboxRow} {f : OutboxRow → OutboxRow}, (∀ r, (f r).lockedBy = none) →
      (t.modify k f).find? k = some r' → r'.lockedBy = none := by
    intro t f hf hfind
    rw [Table.find?_modify, if_pos rfl] at hfind
    obtain ⟨r, -, rfl⟩ := Option.map_eq_some_iff.1 hfind
    exact hf r
  have hhead : ∀ {d : ClaimedRow} {batch : List ClaimedRow}, k ∈ (d :: batch).map (·.outboxId) →
      k ∉ batch.map (·.outboxId) → d.outboxId = k := by
    intro d batch hmem hnot
    rcases List.mem_cons.1 hmem with rfl | hmem
    · rfl
    · exact absurd hmem hnot
  cases h with
  | noDispatcher _ =>
      obtain rfl := hhead hk hk'
      exact hmodify (fun _ => rfl) hr'
  | markSent =>
      obtain rfl := hhead hk hk'
      exact hmodify (fun _ => rfl) hr'
  | reject _ =>
      obtain rfl := hhead hk hk'
      exact hmodify (fun _ => rfl) hr'
  | @park now d verdict newlyDown nextProbeAt batch _ =>
      have hhand : k ∉ batch.map (·.outboxId) := by
        cases newlyDown <;> exact hk'
      obtain rfl := hhead hk hhand
      exact hmodify (fun _ => rfl) hr'
  | retry _ hretry =>
      obtain rfl := hhead hk hk'
      unfold retryLater at hretry
      obtain ⟨t, -, rfl⟩ := Option.map_eq_some_iff.1 hretry
      exact hmodify (fun _ => rfl) hr'
  | @prepare row batch =>
      rw [Phase.idsInHand, Phase.inHand, prepareDispatch_row] at hk'
      exact absurd hk hk'
  | select => exact absurd hk List.not_mem_nil
  | recordRaises _ => exact hphase'.elim
  | retryRaises _ => exact hphase'.elim
  | crash => exact hphase'.elim
  | _ => exact absurd hk hk'

/-- While a batch is drained, a step leaves a row's lease, or takes it off the row in hand. -/
theorem RowStep.lease (h : RowStep rt w phase db step k r r') (hphase : phase.drains) :
    (r'.status = r.status ∧ r'.lockedBy = r.lockedBy) ∨ (k ∈ phase.idsInHand ∧ r'.lockedBy = none) := by
  have hhead : ∀ {d : ClaimedRow} {batch : List ClaimedRow}, phase.inHand = d :: batch →
      d.outboxId ∈ phase.idsInHand := by
    intro d batch hhand
    rw [Phase.idsInHand, hhand]
    exact List.mem_cons_self
  cases h with
  | same => exact .inl ⟨rfl, rfl⟩
  | collapsed hc _ _ =>
      cases hc with
      | coalesce hp => subst hp; exact hphase.elim
      | probe hp => subst hp; exact hphase.elim
  | leased hp _ => subst hp; exact hphase.elim
  | fellOver _ _ _ => exact .inl ⟨rfl, rfl⟩
  | noDispatcher hp _ => exact .inr ⟨hhead (by rw [hp]; rfl), rfl⟩
  | sent hp => exact .inr ⟨hhead (by rw [hp]; rfl), rfl⟩
  | rejected hp _ => exact .inr ⟨hhead (by rw [hp]; rfl), rfl⟩
  | parked hp _ => exact .inr ⟨hhead (by rw [hp]; rfl), rfl⟩
  | retried hp _ => exact .inr ⟨hhead (by rw [hp]; rfl), rfl⟩

/-- So a row that waits under a lock did so before. -/
theorem RowStep.leased_before (h : RowStep rt w phase db step k r r') (hphase : phase.drains)
    (hpending : r'.status = .pending) (hlocked : r'.lockedBy = some w) :
    r.status = .pending ∧ r.lockedBy = some w := by
  rcases h.lease hphase with ⟨hstatus, hlock⟩ | ⟨-, hfree⟩
  · exact ⟨hstatus ▸ hpending, hlock ▸ hlocked⟩
  · rw [hfree] at hlocked
    cases hlocked

/-- And a row that is not in hand keeps its lease. -/
theorem RowStep.leased_after (h : RowStep rt w phase db step k r r') (hphase : phase.drains)
    (hk : k ∉ phase.idsInHand) (hpending : r.status = .pending) (hlocked : r.lockedBy = some w) :
    r'.status = .pending ∧ r'.lockedBy = some w := by
  rcases h.lease hphase with ⟨hstatus, hlock⟩ | ⟨hmem, -⟩
  · exact ⟨hstatus.trans hpending, hlock.trans hlocked⟩
  · exact absurd hmem hk

/-- A row that a step adds is under no lock. -/
theorem WorkerRow.unlocked (h : WorkerRow phase db step r) : r.lockedBy = none := by
  cases h <;> rfl

/-- **One step of the draining** keeps the leases that are not in hand. -/
theorem WorkerMove.leases (h : WorkerMove rt w db phase step phase' db') (hphase : phase.drains)
    (hphase' : phase'.drains) : LeasedBy w db' k ∧ k ∉ phase'.idsInHand ↔ LeasedBy w db k ∧ k ∉ phase.idsInHand := by
  have hselect : step ≠ .select := by
    rintro rfl
    cases h
    exact hphase
  have hsubset : k ∈ phase'.idsInHand → k ∈ phase.idsInHand := by
    intro hmem
    obtain ⟨row, hrow, rfl⟩ := List.mem_map.1 hmem
    exact List.mem_map_of_mem (h.hadInHand hselect hrow)
  obtain ⟨hrows, hadded⟩ := h.rows
  constructor
  · rintro ⟨⟨r', hr', hpending, hlocked⟩, hk'⟩
    cases hr : db.outbox.find? k with
    | none =>
        have hnew := (hadded k r' hr hr').unlocked
        rw [hlocked] at hnew
        cases hnew
    | some r =>
        obtain ⟨r₁, hr₁, hstep⟩ := hrows k r hr
        obtain rfl := Option.some.inj (hr'.symm.trans hr₁)
        obtain ⟨hp, hl⟩ := hstep.leased_before hphase hpending hlocked
        refine ⟨⟨r, hr, hp, hl⟩, fun hk => ?_⟩
        have hfree := h.unlocks hphase' hk hk' hr'
        rw [hlocked] at hfree
        cases hfree
  · rintro ⟨⟨r, hr, hpending, hlocked⟩, hk⟩
    obtain ⟨r', hr', hstep⟩ := hrows k r hr
    obtain ⟨hp, hl⟩ := hstep.leased_after hphase hk hpending hlocked
    exact ⟨⟨r', hr', hp, hl⟩, fun hk' => hk (hsubset hk')⟩

/-- **The draining of a batch takes the leases off its rows**, and off no others. -/
theorem workerSteps_leases {steps : List WorkerStep} (hphase : phase.drains)
    (hsteps : ∀ step ∈ steps, step.goesOn)
    (h : workerSteps rt w (steps ++ [.sleep]) (phase, db) = some (.idle, db')) :
    LeasedBy w db' k ↔ LeasedBy w db k ∧ k ∉ phase.idsInHand := by
  induction steps generalizing phase db with
  | nil =>
      rw [List.nil_append, workerSteps] at h
      obtain ⟨⟨phase₁, db₁⟩, hstep, hrest⟩ := Option.bind_eq_some_iff.1 h
      obtain ⟨-, rfl⟩ := Prod.mk.inj (Option.some.inj hrest)
      have hmove := workerNext_move hstep
      cases hmove
      simp [Phase.idsInHand, Phase.inHand]
  | cons step steps ih =>
      rw [List.cons_append, workerSteps] at h
      obtain ⟨⟨phase₁, db₁⟩, hstep, hrest⟩ := Option.bind_eq_some_iff.1 h
      have hmove := workerNext_move hstep
      have hlater : ∀ step ∈ steps, step.goesOn := fun s hs => hsteps s (List.mem_cons_of_mem _ hs)
      have hdrains : phase₁.drains := by
        rcases hmove.drains hphase with hd | rfl
        · exact hd
        · -- nothing but a new pass follows an exception
          cases steps with
          | nil => cases hrest
          | cons next steps =>
              have hnext := hlater next List.mem_cons_self
              cases next with
              | wake => exact hnext.elim
              | crash => exact hnext.elim
              | _ => cases hrest
      rw [ih hdrains hlater hrest, hmove.leases hphase hdrains]

end Drain

/-! ## The claim -/

section Claim

variable {rt} {w : String} {db db' : Database K} {available : List Channel} {now clock leaseUntil : ℤ} {k : ℕ}

/-- A row after the claim. -/
theorem find?_takeLease : (takeLease rt w available now leaseUntil db).outbox.find? k =
    (db.outbox.find? k).map fun r =>
      if (claimIds rt available now db).contains k then { r with lockedBy := some w, lockedUntil := some leaseUntil }
      else r :=
  Table.find?_update _

/-- The rows under the worker's name after the claim: those it takes, and those that were. -/
theorem leasedBy_takeLease : LeasedBy w (takeLease rt w available now leaseUntil db) k ↔
    k ∈ claimIds rt available now db ∨ LeasedBy w db k := by
  constructor
  · rintro ⟨r', hr', hpending, hlocked⟩
    rw [find?_takeLease] at hr'
    obtain ⟨r, hr, rfl⟩ := Option.map_eq_some_iff.1 hr'
    by_cases hk : (claimIds rt available now db).contains k = true
    · exact .inl (List.contains_iff_mem.1 hk)
    · rw [if_neg hk] at hpending hlocked
      exact .inr ⟨r, hr, hpending, hlocked⟩
  · intro h
    by_cases hk : k ∈ claimIds rt available now db
    · obtain ⟨r, hr, hclaimable⟩ := mem_claimIds hk
      simp only [claimable, Bool.and_eq_true, decide_eq_true_eq] at hclaimable
      refine ⟨{ r with lockedBy := some w, lockedUntil := some leaseUntil }, ?_, hclaimable.1.1.1, rfl⟩
      rw [find?_takeLease, hr, Option.map_some, if_pos (List.contains_iff_mem.2 hk)]
    · obtain ⟨r, hr, hpending, hlocked⟩ := h.resolve_left hk
      refine ⟨r, ?_, hpending, hlocked⟩
      rw [find?_takeLease, hr, Option.map_some, if_neg (mt List.contains_iff_mem.1 hk)]

/-- The ids of the rows that are read back. -/
theorem mem_leasedRows_ids : k ∈ (leasedRows w leaseUntil db).map (·.outboxId) ↔
    ∃ r, db.outbox.find? k = some r ∧ r.status = .pending ∧ r.lockedBy = some w ∧
      r.lockedUntil = some leaseUntil := by
  constructor
  · intro hk
    obtain ⟨row, hrow, rfl⟩ := List.mem_map.1 hk
    obtain ⟨k, r, hr, rfl, hlease⟩ := mem_leasedRows hrow
    exact ⟨r, hr, hlease⟩
  · rintro ⟨r, hr, hpending, hlocked, huntil⟩
    refine List.mem_map.2 ⟨claimedRow k r, List.mem_map.2 ⟨(k, r), ?_, rfl⟩, rfl⟩
    unfold drainOrder
    rw [List.mem_insertionSort, Table.mem_select]
    simp [hr, hpending, hlocked, huntil]

/-- **The batch has every row under the worker's name** exactly when the claim took all that are and
no channel on trial exceeds its allowance. -/
theorem all_in_batch_iff {halfOpen : List Channel} {allowance : ℤ} :
    (∀ k, LeasedBy w (takeLease rt w available now leaseUntil db) k → k ∈ (trimHalfOpen halfOpen allowance
      (fun _ => 0) (leasedRows w leaseUntil (takeLease rt w available now leaseUntil db))).map (·.outboxId)) ↔
    (∀ k r, db.outbox.find? k = some r → r.status = .pending → r.lockedBy = some w →
      k ∈ claimIds rt available now db ∨ r.lockedUntil = some leaseUntil) ∧
    ∀ channel ∈ halfOpen, (leasedRows w leaseUntil (takeLease rt w available now leaseUntil db)).countP
      (fun row => row.channel = channel) ≤ allowance.toNat := by
  obtain ⟨rows, hrows⟩ : ∃ rows, leasedRows w leaseUntil (takeLease rt w available now leaseUntil db) = rows :=
    ⟨_, rfl⟩
  have hids : ∀ k, k ∈ rows.map (·.outboxId) ↔ LeasedBy w (takeLease rt w available now leaseUntil db) k ∧
      (k ∈ claimIds rt available now db ∨ ∀ r, db.outbox.find? k = some r → r.lockedUntil = some leaseUntil) := by
    intro k
    rw [← hrows, mem_leasedRows_ids]
    constructor
    · rintro ⟨r', hr', hpending, hlocked, huntil⟩
      refine ⟨⟨r', hr', hpending, hlocked⟩, ?_⟩
      by_cases hk : k ∈ claimIds rt available now db
      · exact .inl hk
      · refine .inr fun r hr => ?_
        rw [find?_takeLease, hr, Option.map_some, if_neg (mt List.contains_iff_mem.1 hk)] at hr'
        obtain rfl := Option.some.inj hr'
        exact huntil
    · rintro ⟨⟨r', hr', hpending, hlocked⟩, hlease⟩
      refine ⟨r', hr', hpending, hlocked, ?_⟩
      rw [find?_takeLease] at hr'
      obtain ⟨r, hr, rfl⟩ := Option.map_eq_some_iff.1 hr'
      split_ifs with hk
      · rfl
      · exact (hlease.resolve_left (mt List.contains_iff_mem.2 hk)) r hr
  have htrim : trimHalfOpen halfOpen allowance (fun _ => 0) rows = rows ↔
      ∀ channel ∈ halfOpen, rows.countP (fun row => row.channel = channel) ≤ allowance.toNat := by
    rw [trimHalfOpen_eq_self_iff]
    refine forall₂_congr fun c _ => ?_
    omega
  have hsub := trimHalfOpen_sublist halfOpen allowance (fun _ => 0) rows
  rw [hrows, ← htrim]
  constructor
  · intro hall
    refine ⟨fun k r hr hpending hlocked => ?_, ?_⟩
    · have hmem := hall k (leasedBy_takeLease.2 (.inr ⟨r, hr, hpending, hlocked⟩))
      rcases ((hids k).1 ((hsub.map _).subset hmem)).2 with hk | hlease
      · exact .inl hk
      · exact .inr (hlease r hr)
    · -- every row that was read back is in the batch, so none was trimmed
      have hnodup : (rows.map (·.outboxId)).Nodup := hrows ▸ nodup_leasedRows leaseUntil
      have hsubset : rows.map (·.outboxId) ⊆
          (trimHalfOpen halfOpen allowance (fun _ => 0) rows).map (·.outboxId) :=
        fun k hk => hall k ((hids k).1 hk).1
      have hlen := (hnodup.subperm hsubset).length_le
      rw [List.length_map, List.length_map] at hlen
      exact hsub.eq_of_length (le_antisymm hsub.length_le hlen)
  · rintro ⟨htaken, hkept⟩ k hk
    rw [hkept, hids k]
    refine ⟨hk, ?_⟩
    by_cases hclaimed : k ∈ claimIds rt available now db
    · exact .inl hclaimed
    · obtain ⟨r, hr, hpending, hlocked⟩ := (leasedBy_takeLease.1 hk).resolve_left hclaimed
      refine .inr fun r₁ hr₁ => ?_
      obtain rfl := Option.some.inj (hr.symm.trans hr₁)
      exact (htaken k r hr hpending hlocked).resolve_left hclaimed

end Claim

/-- **A pass leaves no lease behind** exactly when its claim and its batch take all: whatever the queue,
the breakers and the outcomes of the calls. -/
theorem leasesReleased_iff {w : String} {now clock : ℤ} {db db' : Database K}
    (h : PollsOnce rt w now clock db db') : (∀ k, ¬ LeasedBy w db' k) ↔ TakesAll rt w now clock db := by
  cases h with
  | nothingUp hrun =>
      obtain ⟨⟨phase₁, db₁⟩, hstep, hrest⟩ := Option.bind_eq_some_iff.1 hrun
      obtain ⟨rfl, rfl⟩ := Prod.mk.inj (Option.some.inj hrest)
      unfold workerNext at hstep
      dsimp only at hstep
      by_cases havailable : (pollChannels db).1 = []
      swap
      · rw [if_neg havailable] at hstep
        cases hstep
      rw [if_pos havailable] at hstep
      obtain ⟨-, rfl⟩ := Prod.mk.inj (Option.some.inj hstep)
      constructor
      · intro hnone
        have hqueue : collapsedQueue db = db := by
          rw [collapsedQueue, havailable]
          rfl
        refine ⟨fun _ => hnone, fun k r hr hpending hlocked => ?_, fun channel hchannel => ?_⟩
        · rw [hqueue] at hr
          exact absurd ⟨r, hr, hpending, hlocked⟩ (hnone k)
        · -- a channel on trial is available
          have hmem : channel ∈ (pollChannels db).1 := by
            obtain ⟨hknown, hstate⟩ := List.mem_filter.1 hchannel
            refine List.mem_filter.2 ⟨hknown, ?_⟩
            simp only [decide_eq_true_eq] at hstate
            simp [ChannelState.isAvailable, hstate]
          rw [havailable] at hmem
          exact absurd hmem List.not_mem_nil
      · exact fun htakes => htakes.nothingUp havailable
  | @drained steps hsteps hrun =>
      rw [workerSteps] at hrun
      obtain ⟨⟨phase₁, db₁⟩, hstep, hrun⟩ := Option.bind_eq_some_iff.1 hrun
      unfold workerNext at hstep
      dsimp only at hstep
      by_cases havailable : (pollChannels db).1 = []
      · rw [if_pos havailable] at hstep
        obtain ⟨rfl, rfl⟩ := Prod.mk.inj (Option.some.inj hstep)
        cases hrun
      rw [if_neg havailable] at hstep
      obtain ⟨rfl, rfl⟩ := Prod.mk.inj (Option.some.inj hstep)
      -- the collapse, the claim and the reading back are computed
      have hdrain := fun k => @workerSteps_leases _ rt w (claimedQueue rt w now clock db) db'
        (.draining (trimHalfOpen (pollChannels db).2 rt.settings.outboxHalfOpenAllowance (fun _ => 0)
          (claimedRows rt w now clock db))) k steps trivial hsteps hrun
      have hall := @all_in_batch_iff _ rt w (collapsedQueue db) (pollChannels db).1 now (leaseExpiry rt clock)
        (pollChannels db).2 rt.settings.outboxHalfOpenAllowance
      constructor
      · intro hnone
        obtain ⟨hclaimed, hallowed⟩ := hall.1 fun k hk => by
          by_contra hnot
          exact hnone k ((hdrain k).2 ⟨hk, hnot⟩)
        exact ⟨fun hnil => absurd hnil havailable, hclaimed, hallowed⟩
      · rintro ⟨-, hclaimed, hallowed⟩ k hk
        obtain ⟨hleased, hnot⟩ := (hdrain k).1 hk
        exact hnot (hall.2 ⟨hclaimed, hallowed⟩ k hleased)

/-! ## Slack on trial -/

/-- A card that waits. -/
def waitingCard (incidentId : String) : OutboxRow :=
  { claimedCard with incidentId := incidentId, lockedBy := none, lockedUntil := none }

/-- A queue of cards for Slack, which is on trial. -/
def trialQueue (incidentIds : List String) : Database ℚ :=
  { Database.empty with
    outbox := Table.empty.pushAll (incidentIds.map waitingCard)
    channelHealth := Table.empty.insert .slack { state := .HALF_OPEN, updatedAt := 0 } }

/-- So many rows are handed over, and Slack takes them. -/
def deliverySteps (rows : ℕ) : List WorkerStep :=
  (List.replicate rows
    [WorkerStep.prepare, .handOff 1000, .callReturns 1000 (.ok none), .settle 1000, .settle 1000]).flatten

/-- None of these steps ends a pass. -/
theorem deliverySteps_goOn (rows : ℕ) : ∀ step ∈ deliverySteps rows, step.goesOn := by
  intro step hstep
  obtain ⟨steps, hsteps, hmem⟩ := List.mem_flatten.1 hstep
  rw [List.eq_of_mem_replicate hsteps] at hmem
  simp only [List.mem_cons, List.not_mem_nil, or_false] at hmem
  rcases hmem with rfl | rfl | rfl | rfl | rfl <;> trivial

/-- The pass over such a queue. -/
def trialPass (incidentIds : List String) (rows : ℕ) : Option (Phase × Database ℚ) :=
  workerSteps Runtime.reference "w"
    (.poll 1000 :: .coalesce :: .claim 1000 :: .select :: (deliverySteps rows ++ [.sleep]))
    (.probing [], trialQueue incidentIds)

/-- What a pass that goes to sleep leaves. -/
theorem pollsOnce_of_trialPass {incidentIds : List String} {rows : ℕ} {β : Type} {f : Database ℚ → β} {b : β}
    (h : (trialPass incidentIds rows).map (fun s => (s.1 matches .idle, f s.2)) = some (true, b)) :
    ∃ db', PollsOnce Runtime.reference "w" 1000 1000 (trialQueue incidentIds) db' ∧ f db' = b := by
  obtain ⟨⟨phase, db'⟩, hrun, hvalue⟩ := Option.map_eq_some_iff.1 h
  obtain ⟨hphase, hf⟩ := Prod.mk.inj hvalue
  cases phase with
  | idle => exact ⟨db', .drained (deliverySteps_goOn rows) hrun, hf⟩
  | _ => cases hphase

/-- Three cards are within the allowance: the claim and the batch take all, and no lease is left. -/
theorem leasesReleased_iff_three : ∃ db', PollsOnce Runtime.reference "w" 1000 1000
    (trialQueue ["A", "B", "C"]) db' ∧ db'.outbox.rows.map (fun r => r.2.lockedBy) = [none, none, none] ∧
    (∀ k, ¬ LeasedBy "w" db' k) ∧ TakesAll Runtime.reference "w" 1000 1000 (trialQueue ["A", "B", "C"]) := by
  have hrun : (trialPass ["A", "B", "C"] 3).map (fun s => (s.1 matches .idle,
      s.2.outbox.rows.map fun r => r.2.lockedBy)) = some (true, [none, none, none]) := by decide +kernel
  obtain ⟨db', hpass, hlocks⟩ := pollsOnce_of_trialPass
    (f := fun db => db.outbox.rows.map fun r => r.2.lockedBy) hrun
  have hnone : ∀ k, ¬ LeasedBy "w" db' k := by
    rintro k ⟨r, hr, -, hlocked⟩
    have hmem := List.mem_map_of_mem (f := fun r : ℕ × OutboxRow => r.2.lockedBy) (Table.find?_eq_some_iff.1 hr)
    rw [hlocks] at hmem
    simp [hlocked] at hmem
  exact ⟨db', hpass, hlocks, hnone, (leasesReleased_iff Runtime.reference hpass).1 hnone⟩

/-- **The fourth card keeps its lease**: the claim takes it, and the allowance drops it. -/
theorem not_leasesReleased : ¬ ∀ db db' : Database ℚ, PollsOnce Runtime.reference "w" 1000 1000 db db' →
    ∀ k, ¬ LeasedBy "w" db' k := by
  intro hall
  have hrun : (trialPass ["A", "B", "C", "D"] 3).map (fun s => (s.1 matches .idle,
      (s.2.outbox.find? 4).map fun r => (r.status, r.lockedBy))) =
      some (true, some (.pending, some "w")) := by decide +kernel
  obtain ⟨db', hpass, hrow⟩ := pollsOnce_of_trialPass
    (f := fun db => (db.outbox.find? 4).map fun r => (r.status, r.lockedBy)) hrun
  obtain ⟨r, hr, hvalue⟩ := Option.map_eq_some_iff.1 hrow
  obtain ⟨hpending, hlocked⟩ := Prod.mk.inj hvalue
  exact hall _ db' hpass 4 ⟨r, hr, hpending, hlocked⟩

end PulseGraph
