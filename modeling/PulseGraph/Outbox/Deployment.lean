/-
# Runs of a deployment

One database, the engine that serves requests on it, and any number of outbox
workers, each in its own phase.  A turn is one request or one step of one worker, so a
run is any interleaving of their transactions, of the calls they make and of the
answers they get.

What every run keeps: the storms (`DeploymentRun.storms`), which ids the incidents and
the rows of the queue name (`DeploymentRun.named`, `DeploymentRun.addressees`), and that
no worker holds a row twice (`DeploymentRun.nodup_inHand`).
-/

import PulseGraph.Engine.Queue
import PulseGraph.Outbox.WorkerEffects

namespace PulseGraph

open Library (Table Run Transition)

variable {K : Type} [Field K] [LinearOrder K] (rt : Runtime K)

/-! ## The runs -/

/-- A request that is served, or a step of a worker. -/
inductive Turn where
  | request (q : Request)
  | worker (w : String) (step : WorkerStep)

/-- The database and the phase of every worker. -/
structure Deployment (K : Type) where
  db : Database K
  phase : String → Phase

/-- An empty database and idle workers. -/
def Deployment.initial : Deployment K where
  db := Database.empty
  phase _ := .idle

/-- One turn. -/
def deploymentNext (s : Deployment K) : Turn → Option (Deployment K)
  | .request q => (engineNext rt s.db q).map fun db => { s with db := db }
  | .worker w step => (workerNext rt w (s.phase w) s.db step).map fun next =>
      { db := next.2, phase := Function.update s.phase w next.1 }

/-- **The runs of a deployment**, with their history. -/
def DeploymentRun : List (Transition (Deployment K) Turn) → Deployment K → Prop :=
  Run (· = Deployment.initial) fun s turn s' => deploymentNext rt s turn = some s'

section Turns

variable {rt} {s s' : Deployment K} {h : List (Transition (Deployment K) Turn)}

/-- What a replay from the initial state computes is true of a run. -/
theorem DeploymentRun.of_replay {turns : List Turn} {β : Type}
    {f : List (Transition (Deployment K) Turn) × Deployment K → β} {b : β}
    (h : (Library.replay (deploymentNext rt) turns ([], Deployment.initial)).map f = some b) :
    ∃ h s, DeploymentRun rt h s ∧ f (h, s) = b :=
  @Run.exists_of_replay _ _ (· = Deployment.initial) _ _ _ _ _ _ rfl h

/-- A request leaves the workers where they are. -/
theorem deploymentNext_request {q : Request} (h : deploymentNext rt s (.request q) = some s') :
    engineNext rt s.db q = some s'.db ∧ s'.phase = s.phase := by
  obtain ⟨db, hdb, rfl⟩ := Option.map_eq_some_iff.1 h
  exact ⟨hdb, rfl⟩

/-- A step of a worker is one of its moves, and leaves the other workers where they are. -/
theorem deploymentNext_worker {w : String} {step : WorkerStep}
    (h : deploymentNext rt s (.worker w step) = some s') :
    WorkerMove rt w s.db (s.phase w) step (s'.phase w) s'.db ∧ ∀ w', w' ≠ w → s'.phase w' = s.phase w' := by
  obtain ⟨⟨phase, db⟩, hnext, rfl⟩ := Option.map_eq_some_iff.1 h
  refine ⟨?_, fun w' hw' => Function.update_of_ne hw' _ _⟩
  dsimp only
  rw [Function.update_self]
  exact workerNext_move hnext

/-- No row leaves the queue. -/
theorem deploymentNext_row {turn : Turn} (h : deploymentNext rt s turn = some s') {k : ℕ}
    {r : OutboxRow} (hr : s.db.outbox.find? k = some r) : ∃ r', s'.db.outbox.find? k = some r' := by
  cases turn with
  | request q =>
      obtain ⟨r', hr', -⟩ := (engineNext_queued (deploymentNext_request h).1).kept k r hr
      exact ⟨r', hr'⟩
  | worker w step =>
      obtain ⟨r', hr', -⟩ := (deploymentNext_worker h).1.rows.1 k r hr
      exact ⟨r', hr'⟩

end Turns

/-! ## Storms -/

section Invariants

variable {rt} {s s' : Deployment K} {h : List (Transition (Deployment K) Turn)}

/-- **Storms are coherent in every state of a deployment**: no worker writes one. -/
theorem DeploymentRun.storms (r : DeploymentRun rt h s) : StormsBut none s.db := by
  refine r.induct (I := fun _ s => StormsBut none s.db) (fun s hs => hs ▸ stormsBut_empty) ?_
  intro h s turn s' _ hs hnext
  cases turn with
  | request q => exact engineNext_storms (deploymentNext_request hnext).1 hs
  | worker w step =>
      have hframe := (deploymentNext_worker hnext).1.frame
      exact hs.congr_tables (by rw [hframe]) (by rw [hframe])

/-! ## Names -/

/-- The database has a row of the incident. -/
def Known (db : Database K) (x : String) : Prop := (db.incidents.find? x).isSome = true

omit [Field K] [LinearOrder K] in
theorem known_iff_core {db : Database K} {x : String} : Known db x ↔ (db.core x).isSome = true := by
  rw [Known, Database.core, Option.isSome_map]

/-- A request keeps the incidents there are; one it adds has no digest's name. -/
theorem engineNext_known {db db' : Database K} {q : Request} (h : engineNext rt db q = some db') :
    (∀ x, Known db x → Known db' x) ∧ ∀ x, Known db' x → Known db x ∨ isDigestId x = false := by
  simp only [known_iff_core]
  rcases engineNext_cases h with ⟨freshId, freshGroupId, now, event, d, rfl, hfresh, hr⟩ | ⟨-, heff⟩
  · obtain ⟨hc, hcases⟩ := ingest_cases hfresh hr
    refine ⟨fun x hx => ?_, fun x hx => ?_⟩
    · by_cases hxd : x = d.incidentId
      · rw [hxd, hc.core_self]
        rfl
      · rwa [hc.core_of_ne hxd]
    · by_cases hxd : x = d.incidentId
      swap
      · exact .inl (by rwa [← hc.core_of_ne hxd])
      rcases hcases with ho | ⟨i, hk⟩
      · refine .inr ?_
        simp only [Request.fresh, Bool.and_eq_true, Bool.not_eq_true'] at hfresh
        rw [hxd, ho.incidentId]
        exact hfresh.2
      · refine .inl ?_
        rw [hxd, hk.known]
        rfl
  · have hsame : ∀ x, (db'.core x).isSome = (db.core x).isSome := by
      intro x
      rcases heff.incidents x with ⟨hcore, -⟩ | ⟨-, i, i', row, hi, hi', -⟩
      · rw [hcore]
      · rw [hi, hi']
        rfl
    exact ⟨fun x hx => (hsame x).trans hx, fun x hx => .inl ((hsame x).symm.trans hx)⟩

/-- The incident of a row that a request adds is there after it. -/
theorem engineNext_subject {db db' : Database K} {q : Request} {x : String}
    (h : engineNext rt db q = some db') (hx : Subject rt db q x) : Known db' x := by
  cases q with
  | ingest freshId freshGroupId now event =>
      obtain ⟨d, db₁, hok, rfl⟩ := hx
      obtain rfl : db₁ = db' := by
        unfold engineNext at h
        split_ifs at h
        rw [serve, hok] at h
        exact Option.some.inj h
      rw [known_iff_core, (ingestEvent_commits hok).2.core_self]
      rfl
  | _ => exact (engineNext_known h).1 _ hx

/-- **Which names stand where**: no incident is named like a digest, the rows of digests
are, and every other row is about an incident that is there. -/
structure Named (db : Database K) : Prop where
  incident : ∀ x, Known db x → isDigestId x = false
  digest : ∀ k r, db.outbox.find? k = some r → r.payload.digest.isSome = true →
    isDigestId r.incidentId = true
  about : ∀ k r, db.outbox.find? k = some r → r.payload.digest = none →
    ∃ x, r.payload.incidentId = some x ∧ Known db x

omit [Field K] [LinearOrder K] in
theorem named_empty : Named (Database.empty : Database K) where
  incident x hx := by simp [Known, Database.empty] at hx
  digest k r hr := by simp [Database.empty] at hr
  about k r hr := by simp [Database.empty] at hr

omit [Field K] [LinearOrder K] in
theorem isDigestId_digestRow (now : ℤ) (channel : Channel) (digest : RecoveryDigest × ℕ) :
    isDigestId (digestRow now channel digest).incidentId = true := by
  simp [digestRow, isDigestId, String.toList_append]

/-- A request keeps the names. -/
theorem engineNext_named {db db' : Database K} {q : Request} (h : engineNext rt db q = some db')
    (hn : Named db) : Named db' := by
  obtain ⟨hkeeps, hadds⟩ := engineNext_known h
  have hincident : ∀ x, Known db' x → isDigestId x = false := fun x hx =>
    (hadds x hx).elim (hn.incident x) id
  -- a digest stays where it is: what is moved waits for an incident
  have hmovable : ∀ {x}, (Touches rt db q x ∧ NonAnchor db' x) → isDigestId x = false := by
    rintro x ⟨-, i, g, group, hi, -⟩
    refine hincident x ?_
    rw [Known, hi]
    rfl
  have hrow : ∀ k r', db'.outbox.find? k = some r' → ∃ r,
      (db.outbox.find? k = some r ∨ RequestRow rt db q r) ∧
        Moves (fun x => Touches rt db q x ∧ NonAnchor db' x) r r' := by
    intro k r' hr'
    obtain ⟨r, hr, hm⟩ := (engineNext_queuedTo h).source hr'
    exact ⟨r, hr.imp_right fun hnew => hnew.2.1, hm.moves fun x a hx => ⟨hx.1, hx.2.nonAnchor⟩⟩
  refine ⟨hincident, fun k r' hr' hd => ?_, fun k r' hr' hd => ?_⟩
  · obtain ⟨r, hr, hm⟩ := hrow k r' hr'
    have hpayload : r'.payload = r.payload := by rw [hm.frame]
    rw [hpayload] at hd
    rcases hr with hr | hnew
    · have hdigest := hn.digest k r hr hd
      rw [hm.eq_of_not fun _ hx => absurd (hmovable hx) (by simp [hdigest])]
      exact hdigest
    · rw [hnew.1.no_digest] at hd
      cases hd
  · obtain ⟨r, hr, hm⟩ := hrow k r' hr'
    have hpayload : r'.payload = r.payload := by rw [hm.frame]
    rw [hpayload] at hd ⊢
    rcases hr with hr | hnew
    · obtain ⟨x, hx, hknown⟩ := hn.about k r hr hd
      exact ⟨x, hx, hkeeps x hknown⟩
    · exact ⟨r.incidentId, hnew.1.about, engineNext_subject h hnew.2.1⟩

omit [Field K] [LinearOrder K] in
/-- What a step of a worker keeps of a row's names. -/
theorem RowStep.names {w : String} {phase : Phase} {db : Database K} {step : WorkerStep} {k : ℕ}
    {r r' : OutboxRow} (h : RowStep rt w phase db step k r r') :
    r'.incidentId = r.incidentId ∧ r'.channel = r.channel ∧ r'.action = r.action ∧
      r'.payload.incidentId = r.payload.incidentId ∧ r'.payload.digest = r.payload.digest := by
  cases h with
  | collapsed _ hc _ =>
      obtain ⟨hid, hch, hact, -, -, -, -, hpid, hdig⟩ := hc.frame
      exact ⟨hid, hch, hact, hpid, hdig⟩
  | _ => exact ⟨rfl, rfl, rfl, rfl, rfl⟩

omit [Field K] [LinearOrder K] in
/-- A step of a worker keeps the names. -/
theorem WorkerMove.named {w : String} {phase phase' : Phase} {db db' : Database K} {step : WorkerStep}
    (h : WorkerMove rt w db phase step phase' db') (hn : Named db) : Named db' := by
  have hknown : ∀ x, Known db' x ↔ Known db x := by
    intro x
    unfold Known
    rw [h.frame]
  obtain ⟨hrows, hnew⟩ := h.rows
  refine ⟨fun x hx => hn.incident x ((hknown x).1 hx), fun k r' hr' hd => ?_, fun k r' hr' hd => ?_⟩
  · cases hr : db.outbox.find? k with
    | some r =>
        obtain ⟨r₁, hr₁, hs⟩ := hrows k r hr
        obtain rfl := Option.some.inj (hr₁.symm.trans hr')
        obtain ⟨hid, -, -, -, hdig⟩ := hs.names
        rw [hid]
        exact hn.digest k r hr (hdig ▸ hd)
    | none =>
        cases hnew k r' hr hr' with
        | digest _ => exact isDigestId_digestRow _ _ _
        | @failover now channel batch k₀ r₀ target _ hmem _ _ =>
            have hd' : (hydratePayload r₀.incidentId r₀.payload db).digest.isSome = true := hd
            rw [hydratePayload_digest] at hd'
            show isDigestId r₀.incidentId = true
            exact hn.digest k₀ r₀ (mem_failoverCandidates.1 hmem).1 hd'
  · cases hr : db.outbox.find? k with
    | some r =>
        obtain ⟨r₁, hr₁, hs⟩ := hrows k r hr
        obtain rfl := Option.some.inj (hr₁.symm.trans hr')
        obtain ⟨-, -, -, hpid, hdig⟩ := hs.names
        obtain ⟨x, hx, hkx⟩ := hn.about k r hr (hdig ▸ hd)
        exact ⟨x, hpid ▸ hx, (hknown x).2 hkx⟩
    | none =>
        cases hnew k r' hr hr' with
        | digest _ => exact absurd hd (by simp [digestRow])
        | @failover now channel batch k₀ r₀ target _ hmem _ _ =>
            have hd' : (hydratePayload r₀.incidentId r₀.payload db).digest = none := hd
            rw [hydratePayload_digest] at hd'
            obtain ⟨x, hx, hkx⟩ := hn.about _ _ (mem_failoverCandidates.1 hmem).1 hd'
            refine ⟨x, ?_, (hknown x).2 hkx⟩
            show (hydratePayload r₀.incidentId r₀.payload db).incidentId = some x
            rcases @hydratePayload_incidentId _ db r₀.incidentId r₀.payload with hsame | hfilled
            · rw [hsame, hx]
            · rw [hfilled, hx]
              rfl

/-- **The names of every state of a deployment.** -/
theorem DeploymentRun.named (r : DeploymentRun rt h s) : Named s.db := by
  refine r.induct (I := fun _ s => Named s.db) (fun s hs => hs ▸ named_empty) ?_
  intro h s turn s' _ hn hnext
  cases turn with
  | request q => exact engineNext_named (deploymentNext_request hnext).1 hn
  | worker w step => exact (deploymentNext_worker hnext).1.named hn

/-- **Every row that is no digest waits for an incident that is there.** -/
def Addressees (db : Database K) : Prop :=
  ∀ k r, db.outbox.find? k = some r → r.payload.digest = none → Known db r.incidentId

/-- A request adds rows for incidents that are there, and moves rows to anchors, which are. -/
theorem engineNext_addressees {db db' : Database K} {q : Request} (h : engineNext rt db q = some db')
    (hstorms : StormsBut none db) (ha : Addressees db) : Addressees db' := by
  have hq := engineNext_queuedTo h
  have hstorms' := engineNext_storms h hstorms
  have hmoved : ∀ {r r'}, MovesTo (fun x a => Touches rt db q x ∧ AnchorOf db' x a) r r' →
      Known db' r.incidentId → Known db' r'.incidentId := by
    intro r r' hm
    induction hm with
    | refl => exact id
    | @head r r' anchor _ hx _ ih =>
        refine fun _ => ih ?_
        obtain ⟨-, i, g, group, -, -, hgroup, rfl, -⟩ := hx
        obtain ⟨j, hj⟩ := Option.isSome_iff_exists.1 (hstorms'.shape g group hgroup).anchor
        show (db'.incidents.find? group.anchorIncidentId).isSome = true
        rw [(member_eq_some.1 hj).1]
        rfl
  intro k r' hr' hd
  obtain ⟨r, hr, hm⟩ := hq.source hr'
  refine hmoved hm ?_
  rcases hr with hr | ⟨-, ⟨-, hsubject, -⟩, -⟩
  · rw [hm.frame] at hd
    exact (engineNext_known h).1 _ (ha k r hr hd)
  · exact engineNext_subject h hsubject

omit [Field K] [LinearOrder K] in
/-- A step of a worker keeps the addressees: a stand-in waits for the incident of its row. -/
theorem WorkerMove.addressees {w : String} {phase phase' : Phase} {db db' : Database K}
    {step : WorkerStep} (h : WorkerMove rt w db phase step phase' db') (ha : Addressees db) :
    Addressees db' := by
  have hknown : ∀ x, Known db x → Known db' x := by
    intro x hx
    unfold Known
    rw [h.frame]
    exact hx
  obtain ⟨hrows, hnew⟩ := h.rows
  intro k r' hr' hd
  cases hr : db.outbox.find? k with
  | some r =>
      obtain ⟨r₁, hr₁, hs⟩ := hrows k r hr
      obtain rfl := Option.some.inj (hr₁.symm.trans hr')
      obtain ⟨hid, -, -, -, hdig⟩ := hs.names
      rw [hid]
      exact hknown _ (ha k r hr (hdig ▸ hd))
  | none =>
      cases hnew k r' hr hr' with
      | digest _ => cases hd
      | @failover now channel batch k₀ r₀ target _ hmem _ _ =>
          have hd' : (hydratePayload r₀.incidentId r₀.payload db).digest = none := hd
          rw [hydratePayload_digest] at hd'
          exact hknown _ (ha k₀ r₀ (mem_failoverCandidates.1 hmem).1 hd')

/-- **The addressees of every state of a deployment.** -/
theorem DeploymentRun.addressees (r : DeploymentRun rt h s) : Addressees s.db := by
  refine r.induct (I := fun _ s => StormsBut none s.db ∧ Addressees s.db) ?_ ?_ |>.2
  · rintro s rfl
    exact ⟨stormsBut_empty, fun k r hr => by simp [Deployment.initial, Database.empty] at hr⟩
  · rintro h s turn s' - ⟨hstorms, ha⟩ hnext
    cases turn with
    | request q =>
        have hengine := (deploymentNext_request hnext).1
        exact ⟨engineNext_storms hengine hstorms, engineNext_addressees hengine hstorms ha⟩
    | worker w step =>
        have hmove := (deploymentNext_worker hnext).1
        have hframe := hmove.frame
        exact ⟨hstorms.congr_tables (by rw [hframe]) (by rw [hframe]), hmove.addressees ha⟩

/-! ## Batches -/

/-- **No worker holds a row twice.** -/
theorem DeploymentRun.nodup_inHand (r : DeploymentRun rt h s) (w : String) :
    ((s.phase w).inHand.map (·.outboxId)).Nodup := by
  refine r.induct (I := fun _ s => ((s.phase w).inHand.map (·.outboxId)).Nodup) ?_ ?_
  · rintro s rfl
    exact List.nodup_nil
  · intro h s turn s' _ hn hnext
    cases turn with
    | request q => rwa [(deploymentNext_request hnext).2]
    | worker w' step =>
        obtain ⟨hmove, hothers⟩ := deploymentNext_worker hnext
        by_cases hw : w = w'
        · subst hw
          exact hmove.nodup_inHand hn
        · rwa [hothers w hw]

/-! ## Which workers there are -/

/-- A request, or a step of one of the workers. -/
def Turn.isOf (ws : List String) : Turn → Bool
  | .request _ => true
  | .worker w _ => ws.contains w

/-- A worker that takes no turn stays idle. -/
theorem DeploymentRun.idle {ws : List String} (r : DeploymentRun rt h s)
    (hws : ∀ t ∈ h, t.label.isOf ws = true) {w : String} (hw : w ∉ ws) :
    s.phase w = .idle ∧ ∀ t ∈ h, t.source.phase w = .idle := by
  refine Run.induct_of_forall
    (I := fun h s => s.phase w = .idle ∧ ∀ t ∈ h, t.source.phase w = .idle) r hws ?_ ?_
  · rintro s rfl
    exact ⟨rfl, fun t ht => absurd ht List.not_mem_nil⟩
  · rintro h s turn s' - - ⟨hidle, hall⟩ hturn hnext
    refine ⟨?_, fun t ht => ?_⟩
    · cases turn with
      | request q => rwa [(deploymentNext_request hnext).2]
      | worker w' step =>
          rw [(deploymentNext_worker hnext).2 w ?_]
          · exact hidle
          · rintro rfl
            exact hw (List.contains_iff_mem.1 hturn)
    · rcases List.mem_cons.1 ht with rfl | ht
      · exact hidle
      · exact hall t ht

end Invariants

/-! ## Turns to run a deployment on -/

/-- A worker looks at so many breakers, none of which is due for a probe, and takes a batch. -/
def claimTurns (w : String) (now : ℤ) (breakers : ℕ) : List Turn :=
  (WorkerStep.wake :: List.replicate breakers (.look now) ++
    [WorkerStep.poll now, .coalesce, .claim now, .select]).map (.worker w)

/-- A worker hands over the next row of its batch, and the dispatcher returns. -/
def callTurns (w : String) (start stop : ℤ) (outcome : Except Exc (Option String)) : List Turn :=
  [WorkerStep.prepare, .handOff start, .callReturns stop outcome].map (.worker w)

/-- The two transactions after a call. -/
def settleTurns (w : String) (now : ℤ) : List Turn :=
  [WorkerStep.settle now, .settle now].map (.worker w)

/-- A worker hands over the next row of its batch, and the provider cannot be reached. -/
def failTurns (w : String) (now : ℤ) : List Turn :=
  callTurns w now (now + 100) (.error (.transportError "ConnectTimeout")) ++ settleTurns w (now + 100)

end PulseGraph
