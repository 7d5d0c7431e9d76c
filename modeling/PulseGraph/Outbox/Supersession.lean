/-
# What became of a superseded row

A collapse supersedes a row by the newest one that waits for the same incident on the same
channel, and leaves its key in `superseded_by`.  The winner may be redirected, failed over,
sent, retried, given up, or superseded in its turn.

**Proved here.**  In every state of a run, with any number of workers, every row there ever
was is still there, a superseded row names a later row of its own channel
(`Linked`), and following the links ends at a row that waits, or was sent, or was given up
(`supersession_of_run`).
-/

import PulseGraph.Outbox.Deployment

namespace PulseGraph

open Library (Table Run Transition)

variable {K : Type}

/-! ## Links -/

/-- Following `superseded_by` from the row `k` as long as there is a superseded row ends at the
row `j`. -/
inductive Leads (q : Table ℕ OutboxRow) : ℕ → ℕ → Prop
  | stop {k r} : q.find? k = some r → r.status ≠ .superseded → Leads q k k
  | follow {k r m j} : q.find? k = some r → r.status = .superseded → r.supersededBy = some m →
      Leads q m j → Leads q k j

/-- The row `k` names a later row on its channel as the one that superseded it. -/
def LinksOn (q : Table ℕ OutboxRow) (k : ℕ) (r : OutboxRow) : Prop :=
  ∃ j winner, r.supersededBy = some j ∧ k < j ∧ q.find? j = some winner ∧ winner.channel = r.channel

/-- Every superseded row is superseded by a later row on its channel. -/
def Linked (q : Table ℕ OutboxRow) : Prop :=
  ∀ k r, q.find? k = some r → r.status = .superseded → LinksOn q k r

section Links

variable {q q' : Table ℕ OutboxRow} {k j : ℕ} {r : OutboxRow}

theorem linked_empty : Linked Table.empty := fun k r hr => by simp at hr

/-- The links end at one row. -/
theorem Leads.unique {i : ℕ} (h : Leads q k i) (h' : Leads q k j) : i = j := by
  induction h with
  | stop hr hs =>
      cases h' with
      | stop _ _ => rfl
      | follow hr' hs' _ _ =>
          obtain rfl := Option.some.inj (hr.symm.trans hr')
          exact absurd hs' hs
  | follow hr hs hm _ ih =>
      cases h' with
      | stop hr' hs' =>
          obtain rfl := Option.some.inj (hr.symm.trans hr')
          exact absurd hs hs'
      | follow hr' _ hm' hrest =>
          obtain rfl := Option.some.inj (hr.symm.trans hr')
          obtain rfl := Option.some.inj (hm.symm.trans hm')
          exact ih hrest

/-- The row the links end at is not superseded. -/
theorem Leads.ends (h : Leads q k j) : ∃ last, q.find? j = some last ∧ last.status ≠ .superseded := by
  induction h with
  | stop hr hs => exact ⟨_, hr, hs⟩
  | follow _ _ _ _ ih => exact ih

/-- **Following the links ends**: every link leads to a later row, and the rows are finite. -/
theorem Linked.leads (h : Linked q) (hr : q.find? k = some r) : ∃ j, Leads q k j := by
  -- the induction is on the keys that are left above the row
  obtain ⟨n, hn⟩ : ∃ n, q.nextKey - k ≤ n := ⟨_, le_rfl⟩
  induction n generalizing k r with
  | zero =>
      have hlt := Table.lt_nextKey hr
      omega
  | succ n ih =>
      by_cases hs : r.status = .superseded
      swap
      · exact ⟨k, .stop hr hs⟩
      obtain ⟨m, winner, hm, hlt, hwinner, -⟩ := h k r hr hs
      obtain ⟨j, hj⟩ := ih hwinner (by omega)
      exact ⟨j, .follow hr hs hm hj⟩

/-- A link stays one where the rows keep their channels. -/
theorem LinksOn.keep {r' : OutboxRow} (h : LinksOn q k r) (hlink : r'.supersededBy = r.supersededBy)
    (hchannel : r'.channel = r.channel)
    (hrows : ∀ j winner, q.find? j = some winner →
      ∃ winner', q'.find? j = some winner' ∧ winner'.channel = winner.channel) : LinksOn q' k r' := by
  obtain ⟨j, winner, hj, hlt, hwinner, hch⟩ := h
  obtain ⟨winner', hwinner', hch'⟩ := hrows j winner hwinner
  exact ⟨j, winner', hlink.trans hj, hlt, hwinner', hch'.trans (hch.trans hchannel.symm)⟩

end Links

/-! ## Turns -/

section Turns

variable [Field K] [LinearOrder K] {rt : Runtime K} {s s' : Deployment K}
  {h : List (Transition (Deployment K) Turn)}

/-- No turn moves a row to another channel. -/
theorem deploymentNext_channel {turn : Turn} (hnext : deploymentNext rt s turn = some s') {k : ℕ}
    {r : OutboxRow} (hr : s.db.outbox.find? k = some r) :
    ∃ r', s'.db.outbox.find? k = some r' ∧ r'.channel = r.channel := by
  cases turn with
  | request q =>
      obtain ⟨r', hr', hm⟩ := (engineNext_queued (deploymentNext_request hnext).1).kept k r hr
      exact ⟨r', hr', by rw [hm.frame]⟩
  | worker w step =>
      obtain ⟨r', hr', hs⟩ := (deploymentNext_worker hnext).1.rows.1 k r hr
      exact ⟨r', hr', hs.names.2.1⟩

omit [Field K] [LinearOrder K] in
/-- A row that is superseded after a step of a worker was so before, by the same row, or is
superseded now by a later row on its channel. -/
theorem RowStep.superseded {w : String} {phase : Phase} {db : Database K} {step : WorkerStep} {k : ℕ}
    {r r' : OutboxRow} (h : RowStep rt w phase db step k r r') (hs : r'.status = .superseded) :
    (r.status = .superseded ∧ r'.supersededBy = r.supersededBy) ∨ LinksOn db.outbox k r' := by
  cases h with
  | same => exact .inl ⟨hs, rfl⟩
  | collapsed _ hcol _ =>
      cases hcol with
      | same => exact .inl ⟨hs, rfl⟩
      | winner _ _ => exact .inl ⟨hs, rfl⟩
      | loser _ hlt hj hpend _ =>
          exact .inr ⟨_, _, rfl, hlt, hj, (isPendingFor_iff.1 hpend).1⟩
  | leased _ _ => exact .inl ⟨hs, rfl⟩
  | noDispatcher _ _ => cases hs
  | sent _ => cases hs
  | rejected _ _ => cases hs
  | parked _ _ => exact .inl ⟨hs, rfl⟩
  | retried _ _ =>
      dsimp only at hs
      split_ifs at hs
  | fellOver _ _ _ => exact .inl ⟨hs, rfl⟩

/-- **A turn keeps the links.** -/
theorem Linked.next {turn : Turn} (hI : Linked s.db.outbox)
    (hnext : deploymentNext rt s turn = some s') : Linked s'.db.outbox := by
  have hrows : ∀ j winner, s.db.outbox.find? j = some winner →
      ∃ winner', s'.db.outbox.find? j = some winner' ∧ winner'.channel = winner.channel :=
    fun j winner hwinner => deploymentNext_channel hnext hwinner
  intro k r' hr' hsuperseded
  cases turn with
  | request q =>
      have hq := engineNext_queued (deploymentNext_request hnext).1
      cases hr : s.db.outbox.find? k with
      | some r =>
          obtain ⟨r₁, hr₁, hm⟩ := hq.kept k r hr
          obtain rfl := Option.some.inj (hr₁.symm.trans hr')
          have hstatus : r₁.status = r.status := by rw [hm.frame]
          exact (hI k r hr (hstatus.symm.trans hsuperseded)).keep (by rw [hm.frame]) (by rw [hm.frame]) hrows
      | none =>
          -- what a request adds waits
          obtain ⟨r, ⟨hnew, -⟩, hm⟩ := hq.added k r' hr hr'
          rw [hm.frame] at hsuperseded
          have hwaits : r.status = .superseded := hsuperseded
          rw [hnew.pending] at hwaits
          cases hwaits
  | worker w step =>
      obtain ⟨hkept, hadded⟩ := (deploymentNext_worker hnext).1.rows
      cases hr : s.db.outbox.find? k with
      | some r =>
          obtain ⟨r₁, hr₁, hs⟩ := hkept k r hr
          obtain rfl := Option.some.inj (hr₁.symm.trans hr')
          rcases hs.superseded hsuperseded with ⟨hbefore, hlink⟩ | hnow
          · exact (hI k r hr hbefore).keep hlink hs.names.2.1 hrows
          · exact hnow.keep rfl rfl hrows
      | none => cases hadded k r' hr hr' <;> cases hsuperseded

/-! ## Every run -/

theorem linked_of_run (r : DeploymentRun rt h s) : Linked s.db.outbox := by
  refine r.induct (I := fun _ s => Linked s.db.outbox) (fun s hs => hs ▸ linked_empty) ?_
  intro h s turn s' _ hI hnext
  exact hI.next hnext

/-- Every row there was in a state of the run is there in the last. -/
theorem rows_of_run (r : DeploymentRun rt h s) : ∀ t ∈ h, ∀ k row,
    t.source.db.outbox.find? k = some row → ∃ row', s.db.outbox.find? k = some row' := by
  refine r.induct (I := fun h s => ∀ t ∈ h, ∀ k row, t.source.db.outbox.find? k = some row →
    ∃ row', s.db.outbox.find? k = some row') (fun _ _ t ht => absurd ht List.not_mem_nil) ?_
  intro h s turn s' _ hI hnext t ht k row hrow
  rcases List.mem_cons.1 ht with rfl | ht
  · exact deploymentNext_row hnext hrow
  · obtain ⟨row₁, hrow₁⟩ := hI t ht k row hrow
    exact deploymentNext_row hnext hrow₁

/-- **No intent is lost through supersession**: no row is ever deleted, a superseded row names
a later row of its channel, and the links end at a row that waits, was sent or was given up. -/
theorem supersession_of_run (r : DeploymentRun rt h s) :
    (∀ t ∈ h, ∀ k row, t.source.db.outbox.find? k = some row →
      ∃ row', s.db.outbox.find? k = some row') ∧
    ∀ k row, s.db.outbox.find? k = some row → row.status = .superseded →
      (∃ j winner, row.supersededBy = some j ∧ k < j ∧ s.db.outbox.find? j = some winner ∧
        winner.channel = row.channel) ∧
      ∃ j last, Leads s.db.outbox k j ∧ s.db.outbox.find? j = some last ∧
        (last.status = .pending ∨ last.status = .sent ∨ last.status = .dead) := by
  have hI := linked_of_run r
  refine ⟨rows_of_run r, fun k row hrow hs => ⟨hI k row hrow hs, ?_⟩⟩
  obtain ⟨j, hj⟩ := hI.leads hrow
  obtain ⟨last, hlast, hstatus⟩ := hj.ends
  refine ⟨j, last, hj, hlast, ?_⟩
  cases hl : last.status with
  | pending => exact .inl rfl
  | sent => exact .inr (.inl rfl)
  | dead => exact .inr (.inr rfl)
  | superseded => exact absurd hl hstatus

end Turns

/-- Two edits of a card are queued one after the other, each time before the worker's next pass. -/
def editedTwice : List Turn :=
  [.request (.ingest "A" "unused" 0 (alertOf "disk" "1")),
    .request (.ingest "unused" "unused" 1000 (alertOf "disk" "2"))] ++ claimTurns "w" 2000 0 ++
  (.worker "w" .crash :: .request (.ingest "unused" "unused" 70000 (alertOf "disk" "3")) ::
    claimTurns "w" 80000 0) ++ callTurns "w" 80000 80500 (.ok (some "ts-1")) ++ settleTurns "w" 80500

/-- A card gives way to an edit, and the edit to the next one, which is sent. -/
theorem supersession_of_run_twice : ∃ h s, DeploymentRun Runtime.reference h s ∧
    s.db.outbox.rows.map (fun r => (r.1, r.2.status, r.2.supersededBy)) =
      [(1, .superseded, some 2), (2, .superseded, some 3), (3, .sent, none)] ∧
    ((∀ t ∈ h, ∀ k row, t.source.db.outbox.find? k = some row →
      ∃ row', s.db.outbox.find? k = some row') ∧
    ∀ k row, s.db.outbox.find? k = some row → row.status = .superseded →
      (∃ j winner, row.supersededBy = some j ∧ k < j ∧ s.db.outbox.find? j = some winner ∧
        winner.channel = row.channel) ∧
      ∃ j last, Leads s.db.outbox k j ∧ s.db.outbox.find? j = some last ∧
        (last.status = .pending ∨ last.status = .sent ∨ last.status = .dead)) := by
  have hreplay : (Library.replay (deploymentNext Runtime.reference) editedTwice
      ([], Deployment.initial)).map (fun s =>
        s.2.db.outbox.rows.map fun r => (r.1, r.2.status, r.2.supersededBy)) =
      some [(1, .superseded, some 2), (2, .superseded, some 3), (3, .sent, none)] := by decide +kernel
  obtain ⟨h, s, hrun, hrows⟩ := DeploymentRun.of_replay hreplay
  exact ⟨h, s, hrun, hrows, supersession_of_run hrun⟩

end PulseGraph
