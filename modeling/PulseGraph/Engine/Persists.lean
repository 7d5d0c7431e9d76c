/-
# The decisions of a request

A request persists one decision, or for a sweep one for each of its actions, and each of them
finds the database its predecessors left.  `Persists` has these decisions with what they find
and whose card the rows of their incident are pointed at afterwards; `sweepOnce_finds` is the
induction along a sweep, and `engineNext_written` says that the rows a request adds to the
queue are those of its decisions, and notices of a merge.
-/

import PulseGraph.Engine.Notices

namespace PulseGraph

open Library (Table bind_eq_ok foldlM_steps)

variable {K : Type} (rt : Runtime K) [Field K] [LinearOrder K]

/-- What a sweep has made of the database after some of its actions. -/
inductive SweepFinds (freshEventIds : ℕ → String) (now moment : ℤ) (db : Database K) : ℕ → Database K → Prop
  | start : SweepFinds freshEventIds now moment db 0 db
  | next {n b b' overdue o result} : SweepFinds freshEventIds now moment db n b →
      candidates rt moment db = .ok overdue → overdue[n]? = some o →
      applyExternalAction rt (freshEventIds n) now (sweepAction moment o) b = .ok (result, b') →
      SweepFinds freshEventIds now moment db (n + 1) b'

/-- **The decisions of a request**, each with the database it is written to and the anchors at which the
rows of its incident may be pointed afterwards, read off that database. -/
inductive Persists (db : Database K) : Request → Database K → EngineDecision → (String → Prop) → Prop
  | ingest {freshId freshGroupId now event d} : processEvent rt freshId now event db = .ok d →
      Persists db (.ingest freshId freshGroupId now event) db d
        fun a => d.isCriticalBypass = false ∧ BelongsOn rt now d db d.incidentId a
  | timer {freshEventId now incidentId quietAtMs d} :
      deadlineDecision freshEventId { incidentId, quietAtMs } db = some d →
      Persists db (.timer freshEventId now incidentId quietAtMs) db d fun _ => False
  | external {freshEventId now action i next d} : Applies action db i next →
      buildDecision freshEventId i (db.latestEvent action.incidentId) action next = .ok d →
      Persists db (.external freshEventId now action) db d fun a => anchorIn db action.incidentId = some a
  | sweep {freshEventIds now moment n b overdue o i next d} : SweepFinds rt freshEventIds now moment db n b →
      candidates rt moment db = .ok overdue → overdue[n]? = some o → Applies (sweepAction moment o) b i next →
      buildDecision (freshEventIds n) i (b.latestEvent o.incidentId) (sweepAction moment o) next = .ok d →
      Persists db (.sweep freshEventIds now moment) b d fun a => anchorIn b o.incidentId = some a

variable {rt} {db db' : Database K}

/-- **Along a sweep**, action after action, each on what the ones before it left. -/
theorem sweepOnce_finds {P : Database K → Prop} {freshEventIds : ℕ → String} {now moment : ℤ} {n : ℕ}
    (h : sweepOnce rt freshEventIds now moment db = .ok (n, db')) (h0 : P db)
    (hs : ∀ b b' m overdue o result, SweepFinds rt freshEventIds now moment db m b →
      candidates rt moment db = .ok overdue → overdue[m]? = some o → P b →
      applyExternalAction rt (freshEventIds m) now (sweepAction moment o) b = .ok (result, b') → P b') : P db' := by
  unfold sweepOnce at h
  obtain ⟨overdue, hc, h⟩ := bind_eq_ok.1 h
  unfold sweepActions at h
  refine And.right (foldlM_steps (P := fun m s => SweepFinds rt freshEventIds now moment db m s.2 ∧ P s.2) h
    ⟨.start, h0⟩ fun m w s s' hw ⟨hfinds, hP⟩ hstep => ?_)
  obtain ⟨⟨result, b⟩, ha, hstep⟩ := bind_eq_ok.1 hstep
  obtain rfl := Except.ok.inj hstep
  rw [List.getElem?_mapIdx] at hw
  obtain ⟨o, ho, rfl⟩ := Option.map_eq_some_iff.1 hw
  exact ⟨.next hfinds hc ho ha, hs s.2 b m overdue o result hfinds hc ho hP ha⟩

/-! ## What a request writes to the queue -/

/-- A row that a request writes: of an intent of one of its decisions, or a notice of a merge. -/
def Written (rt : Runtime K) (db : Database K) (q : Request) (r : OutboxRow) : Prop :=
  (∃ b d points now intent, Persists rt db q b d points ∧ intent ∈ d.deliveryIntents ∧ r = outboxRow now d intent) ∨
    ∃ now x anchor, r = mergedNotice now x anchor

omit [Field K] [LinearOrder K] in
/-- The rows of a decision are pushed. -/
theorem queuedTo_outboxRows {new : OutboxRow → Prop} {target : String → String → Prop} {now : ℤ}
    {d : EngineDecision} (h : ∀ intent ∈ d.deliveryIntents, new (outboxRow now d intent)) :
    QueuedTo new target db.outbox (persisted rt now d db).outbox := by
  refine (queuedTo_pushAll _).mono (fun r hr => ?_) fun _ _ => id
  obtain ⟨intent, hi, rfl⟩ := List.mem_map.1 hr
  exact h intent hi

omit [Field K] [LinearOrder K] in
/-- And a redirection may add a notice. -/
theorem queuedTo_redirectFor_notice {new : OutboxRow → Prop} {now : ℤ} {x : String} (g : Option GroupAssignment)
    (h : ∀ anchor, new (mergedNotice now x anchor)) :
    QueuedTo new (fun _ _ => True) db.outbox (redirectFor now x g db).outbox := by
  refine (queuedTo_redirectFor g).mono ?_ fun _ _ _ => trivial
  rintro r ⟨anchor, rfl⟩
  exact h anchor

/-- What an external action writes. -/
theorem applyExternalAction_writes {new : OutboxRow → Prop} {freshEventId : String} {now : ℤ}
    {action : ExternalAction} {result : ReconcileResult}
    (h : applyExternalAction rt freshEventId now action db = .ok (result, db'))
    (hnew : ∀ i next d, Applies action db i next →
      buildDecision freshEventId i (db.latestEvent action.incidentId) action next = .ok d →
      ∀ intent ∈ d.deliveryIntents, new (outboxRow now d intent))
    (hnotice : ∀ x anchor, new (mergedNotice now x anchor)) :
    QueuedTo new (fun _ _ => True) db.outbox db'.outbox := by
  rcases applyExternalAction_cases h with ⟨-, -, hdb⟩ | ⟨-, i, next, d, db₁, ha, hd, hp, rfl⟩
  · rw [hdb]
    exact QueuedTo.refl _
  obtain ⟨-, rfl⟩ := persistDecision_ok.1 hp
  obtain ⟨g, db₂, houtbox, hsettled, -⟩ := settleAction_redirects now action i.status next (persisted rt now d db)
  have hpush : QueuedTo new (fun _ _ => True) db.outbox (persisted rt now d db).outbox :=
    queuedTo_outboxRows (hnew i next d ha hd)
  refine hpush.trans ?_
  rw [hsettled, ← houtbox]
  exact queuedTo_redirectFor_notice g (hnotice _)

/-- **What a request writes to the queue**: the rows of its decisions, and notices. -/
theorem engineNext_written {q : Request} (h : engineNext rt db q = some db') :
    QueuedTo (Written rt db q) (fun _ _ => True) db.outbox db'.outbox := by
  unfold engineNext at h
  split_ifs at h
  obtain rfl := Option.some.inj h
  have hnotice : ∀ now x anchor, Written rt db q (mergedNotice now x anchor) :=
    fun now x anchor => .inr ⟨now, x, anchor, rfl⟩
  cases q with
  | ingest freshId freshGroupId now event =>
      cases hr : ingestEvent rt freshId freshGroupId now event db with
      | error e => rw [serve, hr]; exact QueuedTo.refl _
      | ok result =>
          obtain ⟨d, db'⟩ := result
          rw [serve, hr]
          obtain ⟨hd, db₁, hpersist, hrest⟩ := ingestEvent_parts hr
          obtain ⟨-, rfl⟩ := persistDecision_ok.1 hpersist
          have hpush : QueuedTo (Written rt db (.ingest freshId freshGroupId now event)) (fun _ _ => True)
              db.outbox (persisted rt now d db).outbox :=
            queuedTo_outboxRows fun intent hi => .inl ⟨db, d, _, now, intent, .ingest hd, hi, rfl⟩
          rcases hrest with ⟨-, rfl⟩ | ⟨-, db₂, hobs, rfl⟩
          · exact hpush
          have hsame : (regroup freshGroupId now d.incidentId d.scopeKey db₂).2.outbox =
              (persisted rt now d db).outbox := by
            rw [regroup_outbox, observeIncident_frame hobs]
          refine hpush.trans ?_
          rw [← hsame]
          exact queuedTo_redirectFor_notice _ (hnotice now _)
  | timer freshEventId now incidentId quietAtMs =>
      cases hr : persistTrigger rt freshEventId now { incidentId, quietAtMs } db with
      | error e => rw [serve, hr]; exact QueuedTo.refl _
      | ok result =>
          rw [serve, hr]
          rcases persistTrigger_commits hr with ⟨-, hsame⟩ | ⟨d, hd, hp⟩
          · rw [afterTransaction, hsame]
            exact QueuedTo.refl _
          · obtain ⟨-, hdb⟩ := persistDecision_ok.1 hp
            rw [afterTransaction, hdb]
            exact queuedTo_outboxRows fun intent hi => .inl ⟨db, d, _, now, intent, .timer hd, hi, rfl⟩
  | external freshEventId now action =>
      cases hr : applyExternalAction rt freshEventId now action db with
      | error e => rw [serve, hr]; exact QueuedTo.refl _
      | ok result =>
          rw [serve, hr]
          exact applyExternalAction_writes hr (fun i next d ha hd intent hi =>
            .inl ⟨db, d, _, now, intent, .external ha hd, hi, rfl⟩) (hnotice now)
  | sweep freshEventIds now moment =>
      cases hr : sweepOnce rt freshEventIds now moment db with
      | error e => rw [serve, hr]; exact QueuedTo.refl _
      | ok result =>
          rw [serve, hr]
          refine sweepOnce_finds (P := fun b => QueuedTo (Written rt db (.sweep freshEventIds now moment))
            (fun _ _ => True) db.outbox b.outbox) hr (QueuedTo.refl _) ?_
          intro b b' m overdue o outcome hfinds hover ho hq hstep
          exact hq.trans (applyExternalAction_writes hstep (fun i next d ha hd intent hi =>
            .inl ⟨b, d, _, now, intent, .sweep hfinds hover ho ha hd, hi, rfl⟩) (hnotice now))

end PulseGraph
