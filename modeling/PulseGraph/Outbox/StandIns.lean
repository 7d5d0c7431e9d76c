/-
# One stand-in for a row

When a channel is declared down, `_failover_pending` gives a stand-in to every row that waits
on it with a priority of `high` or more urgent.  It reads neither the `delivered_via_fallback`
marker nor `failover_of` of the other rows, so a row that is still waiting when its channel goes
down for the second time is given another one; and the priority `-1` of a digest is more urgent
than any.

**Proved here.**  In every run, with any number of workers, no row has two stand-ins and
only rows of incidents that were critical or high when they were queued have one, exactly when
no failover finds a digest, or a row with a stand-in, among those it moves
(`failsOverOnce_iff`).  `not_failsOverOnce` has a digest that pages, and a card that is moved
twice.
-/

import PulseGraph.Engine.Grades
import PulseGraph.Outbox.Failover

namespace PulseGraph

open Library (Table Run Transition)

variable {K : Type}

/-! ## Stand-ins -/

/-- The row `j` stands in for the row `k`. -/
def StandIn (db : Database K) (k j : ℕ) : Prop := ∃ r, db.outbox.find? j = some r ∧ r.failoverOf = some k

/-- No row has two stand-ins. -/
def OneStandIn (db : Database K) : Prop := ∀ k j j', StandIn db k j → StandIn db k j' → j = j'

/-- The row was queued for an incident that was critical or high then. -/
def QueuedUrgent (h : List (Transition (Deployment K) Turn)) (k : ℕ) (r : OutboxRow) : Prop :=
  ∃ t ∈ h, ∃ x severity, r.payload.incidentId = some x ∧ t.source.db.outbox.find? k = none ∧
    (t.target.db.outbox.find? k).isSome = true ∧ severityIn t.target.db x = some severity ∧
    (severity = .critical ∨ severity = .high)

/-- **Rows are failed over once**, and those of critical and high incidents alone. -/
structure FailsOverOnce (h : List (Transition (Deployment K) Turn)) (db : Database K) : Prop where
  unique : OneStandIn db
  urgent : ∀ k j, StandIn db k j →
    ∃ r, db.outbox.find? k = some r ∧ r.payload.digest = none ∧ QueuedUrgent h k r

/-- The rows a failover moves. -/
def Rerouted (channel : Channel) (db : Database K) (k : ℕ) (r : OutboxRow) : Prop :=
  (k, r) ∈ failoverCandidates channel db ∧ isFailoverWorthy r.priority = true ∧
    (selectFailover channel r.action (failoverAvailable channel db)).isSome = true

/-- A failover moves no digest, and no row that has a stand-in. -/
def SparesStandIns (t : Transition (Deployment K) Turn) : Prop :=
  ∀ w now channel batch, t.label = .worker w (.settle now) → t.source.phase w = .failingOver channel batch →
    ∀ k r, Rerouted channel t.source.db k r → r.payload.digest = none ∧ ∀ j, ¬ StandIn t.source.db k j

/-! ## What a failover adds -/

section Loop

variable {db : Database K} {now : ℤ} {channel : Channel} {available : Channel → Bool}
  {s : ℕ × Database K} {k j : ℕ}

/-- The rows of the queue are there after one more row was looked at. -/
theorem failoverEach_kept (row : ℕ × OutboxRow) {r : OutboxRow} (hr : s.2.outbox.find? j = some r) :
    ∃ r', (failoverEach now channel available s row).2.outbox.find? j = some r' := by
  unfold failoverEach
  split_ifs
  · split
    · exact ⟨r, hr⟩
    · exact ⟨_, find?_modify_self (Table.find?_push_of_some hr)⟩
  · exact ⟨r, hr⟩

/-- A row that is not moved changes nothing. -/
theorem failoverEach_same {row : ℕ × OutboxRow} (h : ¬ (isFailoverWorthy row.2.priority = true ∧
    (selectFailover channel row.2.action available).isSome = true)) :
    failoverEach now channel available s row = s := by
  unfold failoverEach
  split_ifs with hworthy
  · cases hsel : selectFailover channel row.2.action available with
    | none => rfl
    | some target => exact absurd ⟨hworthy, by rw [hsel]; rfl⟩ h
  · rfl

/-- **A row that is moved is given one stand-in**, under the next key. -/
theorem standIn_failoverEach {row : ℕ × OutboxRow} (hworthy : isFailoverWorthy row.2.priority = true)
    (hsel : (selectFailover channel row.2.action available).isSome = true) :
    StandIn (failoverEach now channel available s row).2 k j ↔
      StandIn s.2 k j ∨ row.1 = k ∧ j = s.2.outbox.nextKey := by
  obtain ⟨target, htarget⟩ := Option.isSome_iff_exists.1 hsel
  unfold failoverEach
  rw [if_pos hworthy, htarget]
  dsimp only
  generalize hnew : failoverRow now channel target row.1 row.2 _ = new
  have hof : new.failoverOf = some row.1 := by rw [← hnew]; rfl
  -- the marker is written to a row without touching what it stands in for
  have hmark : ∀ q : Table ℕ OutboxRow, (∃ r, (q.modify row.1
      (OutboxRow.markFallback (.channel target.channel))).find? j = some r ∧ r.failoverOf = some k) ↔
      ∃ r, q.find? j = some r ∧ r.failoverOf = some k := by
    intro q
    rw [Table.find?_modify]
    split_ifs with hj
    · rw [hj]
      cases q.find? row.1 with
      | none => simp
      | some r => simp [OutboxRow.markFallback]
    · rfl
  unfold StandIn
  rw [hmark, Table.find?_push]
  split_ifs with hj
  · subst hj
    rw [Table.find?_nextKey]
    constructor
    · rintro ⟨r, hr, hk⟩
      obtain rfl := Option.some.inj hr
      exact .inr ⟨Option.some.inj (hof.symm.trans hk), rfl⟩
    · rintro (⟨r, hr, -⟩ | ⟨hk, -⟩)
      · cases hr
      · exact ⟨new, rfl, hof.trans (congrArg some hk)⟩
  · exact ⟨.inl, fun h => h.resolve_right fun hboth => hj hboth.2⟩

/-- A stand-in stays one while more rows are looked at. -/
theorem StandIn.each (h : StandIn s.2 k j) (row : ℕ × OutboxRow) :
    StandIn (failoverEach now channel available s row).2 k j := by
  by_cases hmoved : isFailoverWorthy row.2.priority = true ∧
      (selectFailover channel row.2.action available).isSome = true
  · exact (standIn_failoverEach hmoved.1 hmoved.2).2 (.inl h)
  · rw [failoverEach_same hmoved]
    exact h

/-- **Rows without a stand-in are given one each.** -/
theorem foldl_failoverEach_once {rows : List (ℕ × OutboxRow)} (hn : (rows.map Prod.fst).Nodup)
    (hfree : ∀ row ∈ rows, isFailoverWorthy row.2.priority = true →
      (selectFailover channel row.2.action available).isSome = true → ∀ j, ¬ StandIn s.2 row.1 j)
    (hone : OneStandIn s.2) : OneStandIn (rows.foldl (failoverEach now channel available) s).2 := by
  induction rows generalizing s with
  | nil => exact hone
  | cons row rows ih =>
      obtain ⟨hnew, hn⟩ := List.nodup_cons.1 hn
      rw [List.foldl_cons]
      by_cases hmoved : isFailoverWorthy row.2.priority = true ∧
          (selectFailover channel row.2.action available).isSome = true
      swap
      · rw [failoverEach_same hmoved]
        exact ih hn (fun row' hrow' => hfree row' (List.mem_cons_of_mem _ hrow')) hone
      have hstands := fun {k j} => @standIn_failoverEach K now channel available s k j row hmoved.1 hmoved.2
      have hnone := hfree row List.mem_cons_self hmoved.1 hmoved.2
      refine ih hn (fun row' hrow' hworthy hsel j hj => ?_) fun k j j' hj hj' => ?_
      · rcases hstands.1 hj with hj | ⟨hk, -⟩
        · exact hfree row' (List.mem_cons_of_mem _ hrow') hworthy hsel j hj
        · exact hnew (hk ▸ List.mem_map_of_mem hrow')
      · rcases hstands.1 hj with hj | ⟨rfl, rfl⟩
        · rcases hstands.1 hj' with hj' | ⟨rfl, -⟩
          · exact hone k j j' hj hj'
          · exact absurd hj (hnone j)
        · rcases hstands.1 hj' with hj' | ⟨-, rfl⟩
          · exact absurd hj' (hnone j')
          · rfl

theorem nodup_failoverCandidates (channel : Channel) (db : Database K) :
    ((failoverCandidates channel db).map Prod.fst).Nodup := by
  unfold failoverCandidates drainOrder
  exact ((List.perm_insertionSort _ _).map Prod.fst).nodup_iff.2 (Table.nodup_select _ _)

/-- The stand-ins after a failover are those its loop leaves. -/
theorem standIn_failoverPending (hany : knownChannels.any (failoverAvailable channel db) = true) :
    StandIn (failoverPending now channel db) k j ↔ StandIn ((failoverCandidates channel db).foldl
      (failoverEach now channel (failoverAvailable channel db)) (0, db)).2 k j := by
  unfold failoverPending StandIn
  rw [if_pos hany]
  dsimp only
  split_ifs
  · rfl
  · rw [(markFailedOver_frame _).outbox]

/-- Where a row is moved there is a fallback. -/
theorem Rerouted.any {r : OutboxRow} (h : Rerouted channel db k r) :
    knownChannels.any (failoverAvailable channel db) = true := by
  obtain ⟨target, hsel⟩ := Option.isSome_iff_exists.1 h.2.2
  obtain ⟨f, hf, -⟩ := Option.map_eq_some_iff.1 hsel
  refine List.any_eq_true.2 ⟨f, ?_, List.find?_some hf⟩
  cases f <;> decide

/-- **A failover that moves no row with a stand-in** leaves each row one at most. -/
theorem OneStandIn.failover (hone : OneStandIn db)
    (hfree : ∀ k r, Rerouted channel db k r → ∀ j, ¬ StandIn db k j) :
    OneStandIn (failoverPending now channel db) := by
  by_cases hany : knownChannels.any (failoverAvailable channel db) = true
  · have honce := @foldl_failoverEach_once K now channel (failoverAvailable channel db) (0, db)
      (failoverCandidates channel db) (nodup_failoverCandidates channel db)
      (fun row hrow hworthy hsel => hfree row.1 row.2 ⟨hrow, hworthy, hsel⟩) hone
    exact fun k j j' hj hj' => honce k j j' ((standIn_failoverPending hany).1 hj)
      ((standIn_failoverPending hany).1 hj')
  · unfold failoverPending
    rw [if_neg hany]
    exact hone

/-- **A row that is moved is given a new stand-in.** -/
theorem Rerouted.gives {r : OutboxRow} (h : Rerouted channel db k r) :
    ∃ j, db.outbox.find? j = none ∧ StandIn (failoverPending now channel db) k j := by
  obtain ⟨before, after, hsplit⟩ := List.append_of_mem h.1
  -- the rows of the queue are there when the row is reached
  have hkept : ∀ j r, db.outbox.find? j = some r → ∃ r', (before.foldl
      (failoverEach now channel (failoverAvailable channel db)) (0, db)).2.outbox.find? j = some r' := by
    intro j r₀ hr₀
    refine List.foldlRecOn (motive := fun s : ℕ × Database K => ∃ r', s.2.outbox.find? j = some r') _ _
      ⟨r₀, hr₀⟩ ?_
    rintro s ⟨r', hr'⟩ row -
    exact failoverEach_kept row hr'
  generalize hs : before.foldl (failoverEach now channel (failoverAvailable channel db)) (0, db) = s at hkept
  refine ⟨s.2.outbox.nextKey, ?_, ?_⟩
  · cases hread : db.outbox.find? s.2.outbox.nextKey with
    | none => rfl
    | some r₀ =>
        obtain ⟨r', hr'⟩ := hkept _ r₀ hread
        rw [Table.find?_nextKey] at hr'
        cases hr'
  · rw [standIn_failoverPending h.any, hsplit, List.foldl_append, hs, List.foldl_cons]
    refine List.foldlRecOn (motive := fun s' : ℕ × Database K => StandIn s'.2 k s.2.outbox.nextKey) _ _ ?_
      fun s' hs' row _ => hs'.each row
    exact (standIn_failoverEach h.2.1 h.2.2).2 (.inr ⟨rfl, rfl⟩)

end Loop

/-! ## Every run -/

section Steps

variable {rt : Runtime K} {w : String} {db db' : Database K} {phase phase' : Phase} {step : WorkerStep}
  {k j : ℕ}

/-- The priority of a row is written once. -/
theorem RowStep.priority {r r' : OutboxRow} (h : RowStep rt w phase db step k r r') :
    r'.priority = r.priority := by
  cases h with
  | collapsed _ hcol _ => cases hcol <;> rfl
  | _ => rfl

/-- A step of a worker that fails nothing over adds no stand-in. -/
theorem WorkerMove.standIn (h : WorkerMove rt w db phase step phase' db') (hj : StandIn db' k j) :
    StandIn db k j ∨ db.outbox.find? j = none ∧ ∃ now channel batch r, step = .settle now ∧
      phase = .failingOver channel batch ∧ Rerouted channel db k r := by
  obtain ⟨r', hr', hof'⟩ := hj
  obtain ⟨hrows, hnew⟩ := h.rows
  cases hr : db.outbox.find? j with
  | some r =>
      obtain ⟨r₁, hr₁, hs⟩ := hrows j r hr
      obtain rfl := Option.some.inj (hr₁.symm.trans hr')
      exact .inl ⟨r, hr, hs.origin.1.symm.trans hof'⟩
  | none =>
      have hadded := hnew j r' hr hr'
      cases hadded with
      | digest _ => cases hof'
      | @failover now channel batch k₀ r₀ target hphase hmem hworthy hsel =>
          obtain rfl : k₀ = k := Option.some.inj hof'
          exact .inr ⟨rfl, now, channel, batch, r₀, rfl, hphase, hmem, hworthy, by rw [hsel]; rfl⟩

/-- A stand-in stays one. -/
theorem StandIn.worker (h : StandIn db k j) (hmove : WorkerMove rt w db phase step phase' db') :
    StandIn db' k j := by
  obtain ⟨r, hr, hof⟩ := h
  obtain ⟨r', hr', hs⟩ := hmove.rows.1 j r hr
  exact ⟨r', hr', hs.origin.1.trans hof⟩

end Steps

section Runs

variable [Field K] [LinearOrder K] {rt : Runtime K} {s s' : Deployment K}
  {h : List (Transition (Deployment K) Turn)} {k j : ℕ}

omit [Field K] [LinearOrder K] in
theorem QueuedUrgent.cons {r : OutboxRow} {t : Transition (Deployment K) Turn} (hq : QueuedUrgent h k r) :
    QueuedUrgent (t :: h) k r := by
  obtain ⟨u, hu, hrest⟩ := hq
  exact ⟨u, List.mem_cons_of_mem _ hu, hrest⟩

omit [Field K] [LinearOrder K] in
theorem FailsOverOnce.cons {db : Database K} {t : Transition (Deployment K) Turn} (ho : FailsOverOnce h db) :
    FailsOverOnce (t :: h) db := by
  refine ⟨ho.unique, fun k j hj => ?_⟩
  obtain ⟨r, hr, hd, hq⟩ := ho.urgent k j hj
  exact ⟨r, hr, hd, hq.cons⟩

/-- A request adds no stand-in. -/
theorem standIn_request {q : Request} {db db' : Database K} (h : engineNext rt db q = some db') :
    StandIn db' k j ↔ StandIn db k j := by
  have hq := engineNext_graded h
  constructor
  · rintro ⟨r', hr', hof⟩
    obtain ⟨r, hr, hm⟩ := hq.source hr'
    rw [hm.frame] at hof
    rcases hr with hr | ⟨-, hgraded⟩
    · exact ⟨r, hr, hof⟩
    · cases hgraded.primary.symm.trans hof
  · rintro ⟨r, hr, hof⟩
    obtain ⟨r', hr', hm⟩ := hq.kept j r hr
    refine ⟨r', hr', ?_⟩
    rw [hm.frame]
    exact hof

/-- A stand-in stays one. -/
theorem StandIn.next {turn : Turn} (hj : StandIn s.db k j) (hnext : deploymentNext rt s turn = some s') :
    StandIn s'.db k j := by
  cases turn with
  | request q => exact (standIn_request (deploymentNext_request hnext).1).2 hj
  | worker w step => exact hj.worker (deploymentNext_worker hnext).1

/-- **The priority of a row is that of its incident** when it was queued, of every row that is no
digest and no stand-in. -/
def GradedRows (h : List (Transition (Deployment K) Turn)) (db : Database K) : Prop :=
  ∀ k r, db.outbox.find? k = some r → r.payload.digest = none → r.failoverOf = none →
    r.priority = defaultPriority ∨ ∃ t ∈ h, ∃ x severity, r.payload.incidentId = some x ∧
      t.source.db.outbox.find? k = none ∧ (t.target.db.outbox.find? k).isSome = true ∧
      severityIn t.target.db x = some severity ∧ r.priority = priorityBySeverity severity

theorem gradedRows_of_run (r : DeploymentRun rt h s) : GradedRows h s.db := by
  refine r.induct (I := fun h s => GradedRows h s.db) ?_ ?_
  · rintro s rfl k r hr
    simp [Deployment.initial, Database.empty] at hr
  · rintro h s turn s' - ih hnext k r' hr' hd hprimary
    -- a row that was there has the priority and the incident it had
    have hkept : ∀ {r}, s.db.outbox.find? k = some r → r'.payload.digest = r.payload.digest →
        r'.failoverOf = r.failoverOf → r'.priority = r.priority →
        r'.payload.incidentId = r.payload.incidentId →
        r'.priority = defaultPriority ∨ ∃ t ∈ (⟨s, turn, s'⟩ :: h : List (Transition (Deployment K) Turn)),
          ∃ x severity, r'.payload.incidentId = some x ∧ t.source.db.outbox.find? k = none ∧
          (t.target.db.outbox.find? k).isSome = true ∧ severityIn t.target.db x = some severity ∧
          r'.priority = priorityBySeverity severity := by
      intro r hr hdig hof hpri hinc
      rw [hpri, hinc]
      refine (ih k r hr (hdig ▸ hd) (hof ▸ hprimary)).imp_right ?_
      rintro ⟨t, ht, hrest⟩
      exact ⟨t, List.mem_cons_of_mem _ ht, hrest⟩
    cases turn with
    | request q =>
        obtain ⟨r, hr, hm⟩ := (engineNext_graded (deploymentNext_request hnext).1).source hr'
        have hframe := hm.frame
        rcases hr with hr | ⟨hunread, hgraded⟩
        · refine hkept hr ?_ ?_ ?_ ?_ <;> rw [hframe]
        · refine (hm.graded hgraded).priority.imp_right ?_
          rintro ⟨x, severity, hx, hsev, hpri⟩
          exact ⟨_, List.mem_cons_self, x, severity, hx, hunread, by rw [hr']; rfl, hsev, hpri⟩
    | worker w step =>
        have hmove := (deploymentNext_worker hnext).1
        cases hr : s.db.outbox.find? k with
        | some r =>
            obtain ⟨r₁, hr₁, hs⟩ := hmove.rows.1 k r hr
            obtain rfl := Option.some.inj (hr₁.symm.trans hr')
            obtain ⟨-, -, -, hinc, hdig⟩ := hs.names
            exact hkept hr hdig hs.origin.1 hs.priority hinc
        | none =>
            have hadded := hmove.rows.2 k r' hr hr'
            cases hadded with
            | digest _ => cases hd
            | failover _ _ _ _ => cases hprimary

omit [Field K] [LinearOrder K] in
/-- What is urgent enough to fail over, and no digest, is of an incident that was critical or high. -/
theorem GradedRows.urgent {db : Database K} (hg : GradedRows h db) {r : OutboxRow}
    (hr : db.outbox.find? k = some r) (hd : r.payload.digest = none) (hprimary : r.failoverOf = none)
    (hworthy : isFailoverWorthy r.priority = true) : QueuedUrgent h k r := by
  rcases hg k r hr hd hprimary with hdefault | ⟨t, ht, x, severity, hx, hunread, hread, hsev, hpri⟩
  · rw [hdefault] at hworthy
    cases hworthy
  · refine ⟨t, ht, x, severity, hx, hunread, hread, hsev, ?_⟩
    rw [hpri] at hworthy
    cases severity with
    | critical => exact .inl rfl
    | high => exact .inr rfl
    | medium => cases hworthy
    | low => cases hworthy

/-- **A turn that spares the stand-ins** leaves every row one at most. -/
theorem FailsOverOnce.next {turn : Turn} (ho : FailsOverOnce h s.db) (hrun : DeploymentRun rt h s)
    (hc : SparesStandIns ⟨s, turn, s'⟩) (hnext : deploymentNext rt s turn = some s') :
    FailsOverOnce (⟨s, turn, s'⟩ :: h) s'.db := by
  cases turn with
  | request q =>
      have hengine := (deploymentNext_request hnext).1
      refine ⟨fun k j j' hj hj' => ?_, fun k j hj => ?_⟩
      · exact ho.unique k j j' ((standIn_request hengine).1 hj) ((standIn_request hengine).1 hj')
      · obtain ⟨r, hr, hd, hq⟩ := ho.urgent k j ((standIn_request hengine).1 hj)
        obtain ⟨r', hr', hm⟩ := (engineNext_queuedTo hengine).kept k r hr
        refine ⟨r', hr', ?_⟩
        rw [hm.frame]
        exact ⟨hd, hq.cons⟩
  | worker w step =>
      have hmove := (deploymentNext_worker hnext).1
      constructor
      · by_cases hfails : ∃ now channel batch, step = .settle now ∧ s.phase w = .failingOver channel batch
        · obtain ⟨now, channel, batch, rfl, hp⟩ := hfails
          have hfree := fun k r (hr : Rerouted channel s.db k r) => (hc w now channel batch rfl hp k r hr).2
          rw [hp] at hmove
          generalize s'.phase w = phase', s'.db = db' at hmove
          cases hmove with
          | failOver => exact ho.unique.failover hfree
        · intro k j j' hj hj'
          have hold : ∀ {i}, StandIn s'.db k i → StandIn s.db k i := by
            intro i hi
            refine (hmove.standIn hi).resolve_right ?_
            rintro ⟨-, now, channel, batch, r, hs, hp, -⟩
            exact hfails ⟨now, channel, batch, hs, hp⟩
          exact ho.unique k j j' (hold hj) (hold hj')
      · intro k j hj
        -- the row was moved before, or is moved now
        have hsource : ∃ r, s.db.outbox.find? k = some r ∧ r.payload.digest = none ∧ QueuedUrgent h k r := by
          rcases hmove.standIn hj with hj | ⟨-, now, channel, batch, r, rfl, hp, hmoved⟩
          · exact ho.urgent k j hj
          · obtain ⟨hr, -, -, hprimary⟩ := mem_failoverCandidates.1 hmoved.1
            have hd := (hc w now channel batch rfl hp k r hmoved).1
            exact ⟨r, hr, hd, (gradedRows_of_run hrun).urgent hr hd hprimary hmoved.2.1⟩
        obtain ⟨r, hr, hd, t, ht, x, severity, hx, hrest⟩ := hsource
        obtain ⟨r', hr', hs⟩ := hmove.rows.1 k r hr
        obtain ⟨-, -, -, hinc, hdig⟩ := hs.names
        exact ⟨r', hr', hdig.trans hd, t, List.mem_cons_of_mem _ ht, x, severity, hinc.trans hx, hrest⟩

/-- **When rows are failed over once**: in every state of a run no row has two stand-ins, and only
rows of incidents that were critical or high when they were queued have one, exactly when no
failover of the run finds a digest, or a row with a stand-in, among the rows it moves. -/
theorem failsOverOnce_iff (r : DeploymentRun rt h s) :
    (∀ x ∈ s :: h.map (·.source), FailsOverOnce h x.db) ↔ ∀ t ∈ h, SparesStandIns t := by
  constructor
  · rintro hall ⟨s₀, turn, s₁⟩ ht w now channel batch hlabel hp k row hmoved
    obtain ⟨-, -, hnext⟩ := r.source_run ht
    obtain rfl : turn = .worker w (.settle now) := hlabel
    have hsource := hall s₀ (List.mem_cons_of_mem _ (List.mem_map_of_mem ht))
    have htarget := hall s₁ (r.target_mem ht)
    have hmove := (deploymentNext_worker hnext).1
    have hgives : ∃ j, s₀.db.outbox.find? j = none ∧ StandIn s₁.db k j := by
      have hp' : s₀.phase w = .failingOver channel batch := hp
      dsimp only at hmove
      rw [hp'] at hmove
      generalize s₁.phase w = phase', s₁.db = db' at hmove ⊢
      cases hmove with
      | failOver => exact hmoved.gives
    obtain ⟨j, hunread, hj⟩ := hgives
    constructor
    · obtain ⟨row', hrow', hd, -⟩ := htarget.urgent k j hj
      obtain ⟨row₁, hrow₁, hs⟩ := hmove.rows.1 k row (mem_failoverCandidates.1 hmoved.1).1
      obtain rfl := Option.some.inj (hrow₁.symm.trans hrow')
      obtain ⟨-, -, -, -, hdig⟩ := hs.names
      exact hdig.symm.trans hd
    · intro j' hj'
      obtain rfl := htarget.unique k j j' hj (hj'.worker hmove)
      obtain ⟨row', hrow', -⟩ := hj'
      cases hunread.symm.trans hrow'
  · intro hc
    refine Run.induct_of_forall (I := fun h s => ∀ x ∈ s :: h.map (·.source), FailsOverOnce h x.db)
      r hc ?_ ?_
    · rintro s rfl x hx
      obtain rfl := List.mem_singleton.1 hx
      have hnone : ∀ k j, ¬ StandIn (Deployment.initial : Deployment K).db k j := by
        rintro k j ⟨row, hrow, -⟩
        simp [Deployment.initial, Database.empty] at hrow
      exact ⟨fun k j j' hj => absurd hj (hnone k j), fun k j hj => absurd hj (hnone k j)⟩
    · intro h s turn s' hrun _ ih hc hnext x hx
      rcases List.mem_cons.1 hx with rfl | hx
      · exact (ih s List.mem_cons_self).next hrun hc hnext
      · exact (ih x hx).cons

end Runs

/-! ## Two runs -/

/-- What `SparesStandIns` asks for. -/
def sparesStandIns (t : Transition (Deployment K) Turn) : Bool :=
  match t.label with
  | .worker w (.settle _) => match t.source.phase w with
    | .failingOver channel _ => (failoverCandidates channel t.source.db).all fun row =>
        !(isFailoverWorthy row.2.priority &&
          (selectFailover channel row.2.action (failoverAvailable channel t.source.db)).isSome) ||
        row.2.payload.digest.isNone && t.source.db.outbox.rows.all fun r => r.2.failoverOf ≠ some row.1
    | _ => true
  | _ => true

theorem sparesStandIns_of_check {t : Transition (Deployment K) Turn} (h : sparesStandIns t = true) :
    SparesStandIns t := by
  rintro w now channel batch hlabel hp k r ⟨hmem, hworthy, hsel⟩
  unfold sparesStandIns at h
  rw [hlabel] at h
  dsimp only at h
  rw [hp] at h
  have hrow := List.all_eq_true.1 h (k, r) hmem
  simp only [hworthy, hsel, Bool.and_self, Bool.not_true, Bool.false_or, Bool.and_eq_true,
    Option.isNone_iff_eq_none] at hrow
  refine ⟨hrow.1, ?_⟩
  rintro j ⟨r', hr', hof⟩
  exact absurd hof (of_decide_eq_true (List.all_eq_true.1 hrow.2 _ (Table.find?_eq_some_iff.1 hr')))

/-- One card is failed over, once. -/
theorem failsOverOnce_iff_slackDown : ∃ h s, DeploymentRun Runtime.reference h s ∧
    s.db.outbox.rows.map (fun r => (r.1, r.2.failoverOf)) = [(1, none), (2, some 1)] ∧
    FailsOverOnce h s.db := by
  have hreplay : (Library.replay (deploymentNext Runtime.reference) slackDown
      ([], Deployment.initial)).map (fun s => (s.2.db.outbox.rows.map (fun r => (r.1, r.2.failoverOf)),
        s.1.all sparesStandIns)) = some ([(1, none), (2, some 1)], true) := by decide +kernel
  obtain ⟨h, s, r, heq⟩ := DeploymentRun.of_replay hreplay
  obtain ⟨hrows, hcheck⟩ := Prod.mk.inj heq
  have hspares : ∀ t ∈ h, SparesStandIns t := fun t ht =>
    sparesStandIns_of_check (List.all_eq_true.1 hcheck t ht)
  exact ⟨h, s, r, hrows, (failsOverOnce_iff r).2 hspares s List.mem_cons_self⟩

/-- A rate limit, for the row that is handed over next. -/
def limitTurns (w : String) (now : ℤ) : List Turn :=
  callTurns w now (now + 100) (.error (.httpStatusError { statusCode := 429 })) ++ settleTurns w (now + 100)

/-- Slack is down and comes back: the digest and the card of `A` are put off by a rate limit, and
the card of `B` is sent.  Then Slack goes down again. -/
def slackDownTwice : List Turn :=
  slackDown ++ .request (.ingest "B" "unused" 50000 (alertOf "api" "2")) ::
    ([.wake, .look 60000, .probeReturns 60100 none, .poll 60100, .coalesce, .claim 60100, .select] :
      List WorkerStep).map (.worker "w") ++
    limitTurns "w" 60200 ++ limitTurns "w" 60400 ++
    callTurns "w" 60600 60700 (.ok (some "A")) ++ settleTurns "w" 60700 ++
    callTurns "w" 60800 60900 (.ok (some "ts-1")) ++ settleTurns "w" 60900 ++ .worker "w" .sleep ::
    claimTurns "w" 100000 2 ++ failTurns "w" 100000 ++ failTurns "w" 101000 ++ .worker "w" .sleep ::
    claimTurns "w" 200000 2 ++ failTurns "w" 200000 ++ [.worker "w" (.settle 200200)]

/-- **A digest pages, and a card is moved twice**: rows 5 and 6 are for PagerDuty. -/
theorem not_failsOverOnce :
    (¬ ∀ h s, DeploymentRun Runtime.reference h s → (∀ t ∈ h, t.label.isOf ["w"] = true) →
      OneStandIn s.db) ∧
    ¬ ∀ h s, DeploymentRun Runtime.reference h s → (∀ t ∈ h, t.label.isOf ["w"] = true) →
      ∀ k j, StandIn s.db k j → ∀ r, s.db.outbox.find? k = some r → r.payload.digest = none := by
  have hreplay : (Library.replay (deploymentNext Runtime.reference) slackDownTwice
      ([], Deployment.initial)).map (fun s => (s.1.all fun t => t.label.isOf ["w"],
        s.2.db.outbox.rows.map (fun r => (r.1, r.2.failoverOf, r.2.channel, r.2.payload.digest.isSome)))) =
      some (true, [(1, none, .slack, false), (2, some 1, .pagerduty, false), (3, none, .slack, false),
        (4, none, .slack, true), (5, some 4, .pagerduty, true), (6, some 1, .pagerduty, false)]) := by
    decide +kernel
  obtain ⟨h, s, r, heq⟩ := DeploymentRun.of_replay hreplay
  obtain ⟨hone, hrows⟩ := Prod.mk.inj heq
  have hsingle : ∀ t ∈ h, t.label.isOf ["w"] = true := List.all_eq_true.1 hone
  have hread : ∀ {j : ℕ} {of : Option ℕ} {c : Channel} {d : Bool},
      (j, of, c, d) ∈ s.db.outbox.rows.map
        (fun r => (r.1, r.2.failoverOf, r.2.channel, r.2.payload.digest.isSome)) →
      ∃ row, s.db.outbox.find? j = some row ∧ row.failoverOf = of ∧ row.payload.digest.isSome = d := by
    intro j of c d hmem
    obtain ⟨⟨j', row⟩, hrow, heq⟩ := List.mem_map.1 hmem
    cases heq
    exact ⟨row, Table.find?_eq_some_iff.2 hrow, rfl, rfl⟩
  constructor
  · intro hall
    obtain ⟨first, hfirst, hof, -⟩ := @hread 2 (some 1) .pagerduty false (by rw [hrows]; simp)
    obtain ⟨second, hsecond, hof', -⟩ := @hread 6 (some 1) .pagerduty false (by rw [hrows]; simp)
    exact absurd (hall h s r hsingle 1 2 6 ⟨first, hfirst, hof⟩ ⟨second, hsecond, hof'⟩) (by decide)
  · intro hall
    obtain ⟨digest, hdigest, -, hd⟩ := @hread 4 none .slack true (by rw [hrows]; simp)
    obtain ⟨page, hpage, hof, -⟩ := @hread 5 (some 4) .pagerduty true (by rw [hrows]; simp)
    rw [hall h s r hsingle 4 5 ⟨page, hpage, hof⟩ digest hdigest] at hd
    cases hd

end PulseGraph
