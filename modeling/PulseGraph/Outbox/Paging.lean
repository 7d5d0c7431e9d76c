/-
# What PagerDuty is told

A row for PagerDuty is enqueued for an incident with an action, and PagerDuty opens,
acknowledges or resolves what the `dedup_key` of a request names.  Between the two stand
three mechanisms made for Slack's cards: a storm redirects what waits for its members, a
collapse keeps the newest row of an incident, and a failover copies a row of another
channel.

**Proved here.**  `KeepsPages` says of one turn that none of the three goes wrong in it; in
every run of such turns with one worker, a page is sent as a trigger and a resolve as a
resolve, with the incident's own id (`pagesKept_of_run`).  `not_pagesKept` has a resolve
that is sent as an acknowledge.
-/

import PulseGraph.Outbox.Pages

namespace PulseGraph

open Library (Table Run Transition)

variable {K : Type}

/-! ## What is sent -/

/-- The request a dispatch makes to PagerDuty. -/
def Dispatch.request (d : Dispatch) : Except Exc PagerDutyRequest :=
  pagerdutyRequest d.action d.payload d.externalRef

/-- A row is sent to PagerDuty with an event action for an incident. -/
def Sends (db : Database K) (row : ClaimedRow) (e : EventAction) (x : String) : Prop :=
  ∃ req, (prepareDispatch row db).request = .ok req ∧ req.eventAction = e ∧ req.dedupKey = some x

/-- A call for PagerDuty that returns success, with the dispatch it was made for. -/
def Delivers (t : Transition (Deployment K) Turn) (d : Dispatch) (newRef : Option String) : Prop :=
  ∃ w now batch, t.label = .worker w (.callReturns now (.ok newRef)) ∧
    t.source.phase w = .calling d batch ∧ d.row.channel = .pagerduty

/-- A trigger for the incident is delivered. -/
def DeliversTrigger (t : Transition (Deployment K) Turn) (x : String) : Prop :=
  ∃ d newRef req, Delivers t d newRef ∧ d.request = .ok req ∧ req.eventAction = .trigger ∧
    req.dedupKey = some x

/-- A call succeeds for a request only, and PagerDuty's answer repeats its `dedup_key`. -/
def AnswersWithKey (t : Transition (Deployment K) Turn) : Prop :=
  ∀ d newRef, Delivers t d newRef →
    ∃ req, d.request = .ok req ∧ ∀ key, req.dedupKey = some key → newRef = some key

variable [Field K] [LinearOrder K] (rt : Runtime K)

/-- A transition adds the row `k` for PagerDuty, on the incident `x` with the action `a`:
a request what it has for PagerDuty, a worker its stand-in for a row of another channel. -/
def Enqueues (t : Transition (Deployment K) Turn) (k : ℕ) (x : String) (a : Action) : Prop :=
  t.source.db.outbox.find? k = none ∧
    ∃ r, t.target.db.outbox.find? k = some r ∧ ForPagerDuty r ∧
      match t.label with
      | .request q => r.payload.incidentId = some x ∧ Pages rt t.source.db q x a
      | .worker _ _ => r.incidentId = x ∧ r.action = a

/-- **Intents keep their meaning.**  When a worker is about to dispatch a row that a page of
an unresolved incident with no trigger so far was enqueued as, or that has taken its
place, it sends a trigger for the incident; a row that was enqueued as a resolve, it
sends as a resolve of its incident. -/
def PagesKept (h : List (Transition (Deployment K) Turn)) (s : Deployment K) : Prop :=
  ∀ w row batch, s.phase w = .draining (row :: batch) →
    (∀ t ∈ h, ∀ k x, Enqueues rt t k x .create → Stands s.db.outbox k row.outboxId →
      ¬ Resolved s.db x → (∀ t ∈ h, ¬ DeliversTrigger t x) → Sends s.db row .trigger x) ∧
    ∀ t ∈ h, ∀ x, Enqueues rt t row.outboxId x .resolve → Sends s.db row .resolve x

/-- What keeps the meaning of the intents, in one turn. -/
structure KeepsPages (t : Transition (Deployment K) Turn) : Prop where
  /-- no request redirects a member of a storm that has a row for PagerDuty waiting, or
  that it adds one for -/
  redirect : ∀ q, t.label = .request q → ∀ x, Touches rt t.source.db q x → NonAnchor t.target.db x →
    (∀ k r, t.source.db.outbox.find? k = some r → r.channel = .pagerduty → r.status = .pending →
      r.incidentId ≠ x) ∧ ∀ a, ¬ Pages rt t.source.db q x a
  /-- no request reopens an incident while a row that is no page waits in place of its page -/
  reopen : ∀ q, t.label = .request q → ∀ j r, t.source.db.outbox.find? j = some r →
    r.channel = .pagerduty → r.status = .pending → r.action ≠ .create → Covers t.source.db j →
    Resolved t.source.db r.incidentId → Resolved t.target.db r.incidentId
  /-- where PagerDuty's rows are collapsed, a page gives way to a row that is none only if
  its incident is resolved -/
  collapse : ∀ w step chs, t.label = .worker w step → CollapseStep (t.source.phase w) step chs →
    chs .pagerduty → ∀ k r j newest, t.source.db.outbox.find? k = some r → r.channel = .pagerduty →
    r.status = .pending → r.action = .create →
    Newest t.source.db.outbox r.incidentId j newest → newest.action ≠ .create →
    Resolved t.source.db r.incidentId
  /-- what fails over to PagerDuty is about the incident it waits for -/
  failover : ∀ w now channel batch, t.label = .worker w (.settle now) →
    t.source.phase w = .failingOver channel batch → ∀ k r target,
    (k, r) ∈ failoverCandidates channel t.source.db → isFailoverWorthy r.priority = true →
    selectFailover channel r.action (failoverAvailable channel t.source.db) = some target →
    target.channel = .pagerduty → r.payload.digest = none → r.payload.incidentId = some r.incidentId

/-! ## Requests -/

section Requests

variable {rt} {s s' : Deployment K} {q : Request}

/-- A request leaves the rows for PagerDuty where they are. -/
theorem KeepsPages.stays (hc : KeepsPages rt ⟨s, .request q, s'⟩)
    (hnext : deploymentNext rt s (.request q) = some s') {k : ℕ} {r : OutboxRow}
    (hr : s.db.outbox.find? k = some r) (hch : r.channel = .pagerduty) :
    s'.db.outbox.find? k = some r := by
  obtain ⟨r', hr', hm⟩ := (engineNext_queued (deploymentNext_request hnext).1).kept k r hr
  rw [hr', hm.eq_of_not]
  rintro hp ⟨htouch, hnon⟩
  exact (hc.redirect q rfl _ htouch hnon).1 k r hr hch hp rfl

/-- A row for PagerDuty that a request adds stays as it is added. -/
theorem KeepsPages.adds (hc : KeepsPages rt ⟨s, .request q, s'⟩)
    (hnext : deploymentNext rt s (.request q) = some s') {k : ℕ} {r' : OutboxRow}
    (hk : s.db.outbox.find? k = none) (hr' : s'.db.outbox.find? k = some r')
    (hch : r'.channel = .pagerduty) :
    NewRow r' ∧ Pages rt s.db q r'.incidentId r'.action := by
  obtain ⟨r, ⟨hnew, -, hpages⟩, hm⟩ :=
    (engineNext_queued (deploymentNext_request hnext).1).added k r' hk hr'
  have hpage : Pages rt s.db q r.incidentId r.action := hpages (by rw [hm.frame] at hch; exact hch)
  rw [hm.eq_of_not]
  · exact ⟨hnew, hpage⟩
  · rintro - ⟨htouch, hnon⟩
    exact (hc.redirect q rfl _ htouch hnon).2 _ hpage

/-- **A request is a page step.** -/
theorem KeepsPages.request_pageStep (hc : KeepsPages rt ⟨s, .request q, s'⟩)
    (hnext : deploymentNext rt s (.request q) = some s') : PageStep s.db s'.db := by
  refine ⟨fun k r hr hch => ⟨r, hc.stays hnext hr hch, ?_⟩, fun k r' hr' hch => ?_,
    hc.reopen q rfl⟩
  · exact ⟨rfl, rfl, rfl, rfl, rfl, id, fun _ e he => .inl he, .inl rfl⟩
  · cases hr : s.db.outbox.find? k with
    | some r =>
        obtain ⟨r₁, hr₁, hm⟩ := (engineNext_queued (deploymentNext_request hnext).1).kept k r hr
        obtain rfl := Option.some.inj (hr₁.symm.trans hr')
        rw [hm.frame] at hch
        exact .inl ⟨r, rfl, hch⟩
    | none =>
        obtain ⟨hnew, -⟩ := hc.adds hnext hr hr' hch
        exact .inr ⟨rfl, hnew.unlinked, hnew.unsent, fun _ => hnew.about⟩

/-- What a request tells PagerDuty, where it tells it anything. -/
def Request.pageAction : Request → Action
  | .ingest .. => .create
  | .external _ _ action => if action.kind = .resolve then .resolve else .update
  | _ => .resolve

/-- A request has one thing to tell PagerDuty. -/
theorem Pages.action_eq {db : Database K} {x : String} {a : Action} (h : Pages rt db q x a) :
    a = q.pageAction := by
  cases h <;> rfl

end Requests

/-! ## The worker -/

section Worker

variable {rt} {s s' : Deployment K} {w : String} {step : WorkerStep} {row : ClaimedRow}

/-- The dispatch of a row for PagerDuty names the row's own incident. -/
def Addressed (d : Dispatch) : Prop :=
  d.row.channel = .pagerduty → d.row.payload.digest = none →
    d.payload.incidentId = some d.row.incidentId ∧ ∀ e, d.externalRef = some e → e = d.row.incidentId

/-- So does every call, and every answer a worker is about to record. -/
def Phase.addressed : Phase → Prop
  | .prepared d _ => Addressed d
  | .calling d _ => Addressed d
  | .delivered d newRef _ => d.row.channel = .pagerduty → d.row.payload.digest = none →
      ∀ e, newRef = some e → e = d.row.incidentId
  | _ => True

/-- A copy in hand is of a row that waits, and says what the row says. -/
structure Copied (db : Database K) (row : ClaimedRow) (r : OutboxRow) : Prop where
  find : db.outbox.find? row.outboxId = some r
  waits : r.status = .pending
  channel : row.channel = r.channel
  same : r.channel = .pagerduty → row.incidentId = r.incidentId ∧ row.action = r.action ∧
    row.payload.incidentId = r.payload.incidentId ∧ row.payload.digest = r.payload.digest ∧
    row.externalRef = r.externalRef

omit [Field K] [LinearOrder K] in
/-- No worker writes an incident. -/
theorem WorkerMove.resolved {db db' : Database K} {phase phase' : Phase}
    (h : WorkerMove rt w db phase step phase' db') (x : String) : Resolved db' x ↔ Resolved db x := by
  unfold Resolved
  rw [h.frame]

omit [Field K] [LinearOrder K] in
/-- The newest row that waits goes on waiting when its channel is collapsed. -/
theorem RowStep.newest_waits {db : Database K} {phase : Phase} {chs : Channel → Prop} {x : String}
    {j : ℕ} {r r' : OutboxRow} (hcs : CollapseStep phase step chs) (hn : Newest db.outbox x j r)
    (h : RowStep rt w phase db step j r r') : r'.status = .pending := by
  obtain ⟨hc, hp, hx⟩ := isPendingFor_iff.1 hn.waits
  cases h with
  | same => exact hp
  | collapsed _ hcol _ =>
      cases hcol with
      | same => exact hp
      | winner _ _ => exact hp
      | loser _ hlt hw hpend _ =>
          rw [hc, hx] at hpend
          exact absurd (hn.last _ _ hw hpend) (by omega)
  | _ => cases hcs

/-- **What a step of a worker does to a row for PagerDuty.** -/
theorem KeepsPages.rowStep (hc : KeepsPages rt ⟨s, .worker w step, s'⟩)
    (hmove : WorkerMove rt w s.db (s.phase w) step (s'.phase w) s'.db)
    (hcopied : ∀ row ∈ (s.phase w).inHand, ∃ r, Copied s.db row r)
    (haddressed : (s.phase w).addressed) {k : ℕ} {r r' : OutboxRow}
    (hr : s.db.outbox.find? k = some r) (hch : r.channel = .pagerduty)
    (hs : RowStep rt w (s.phase w) s.db step k r r') : PageKept s.db s'.db r r' := by
  -- the row in hand that is settled is the row it is a copy of
  have hcopy : ∀ {row : ClaimedRow}, row ∈ (s.phase w).inHand → row.outboxId = k → Copied s.db row r := by
    rintro row hrow rfl
    obtain ⟨r₁, hr₁⟩ := hcopied row hrow
    obtain rfl := Option.some.inj (hr.symm.trans hr₁.find)
    exact hr₁
  obtain ⟨hid, hchannel, hact, habout, hdigest⟩ := hs.names
  suffices hrest : (r'.status = .pending → r.status = .pending) ∧
      (ForPagerDuty r → ∀ e, r'.externalRef = some e → r.externalRef = some e ∨ e = r.incidentId) ∧
      (r'.supersededBy = r.supersededBy ∨ Loses s.db s'.db r r') from
    ⟨hchannel, hid, hact, habout, hdigest, hrest.1, hrest.2.1, hrest.2.2⟩
  cases hs with
  | same => exact ⟨id, fun _ e he => .inl he, .inl rfl⟩
  | @collapsed _ chs _ _ _ hcs hcol hchs =>
      cases hcol with
      | same => exact ⟨id, fun _ e he => .inl he, .inl rfl⟩
      | winner _ _ => exact ⟨id, fun _ e he => .inl he, .inl rfl⟩
      | @loser j newest hp hlt hj hpend hmax =>
          have hnewest : Newest s.db.outbox r.incidentId j newest :=
            ⟨hj, hch ▸ hpend, fun k' r' hk' hp' => hmax k' r' hk' (hch ▸ hp')⟩
          obtain ⟨newest', hj', hs'⟩ := hmove.rows.1 j newest hj
          have hwaits : (s'.db.outbox.find? j).map (·.status) = some .pending := by
            rw [hj', Option.map_some, hs'.newest_waits hcs hnewest]
          have hpage : r.action = .create → newest.action ≠ .create → Resolved s.db r.incidentId :=
            fun hact => hc.collapse w step chs rfl hcs (hch ▸ hchs) k r j newest hr hch hp hact hnewest
          refine ⟨fun h => (by cases h), fun _ e he => .inl he, .inr ⟨hp, by simp [OutboxRow.supersede],
            ⟨j, newest, rfl, hnewest, hwaits, hpage⟩, fun x => (hmove.resolved x).2⟩⟩
  | leased _ _ => exact ⟨id, fun _ e he => .inl he, .inl rfl⟩
  | noDispatcher _ hd => exact absurd (mem_dispatchers _) hd
  | @sent now d newRef batch _ hp =>
      have hd : Copied s.db d.row r := hcopy (by rw [hp]; exact List.mem_cons_self) rfl
      refine ⟨fun h => (by cases h), fun hpd e he => ?_, .inl rfl⟩
      cases hn : newRef with
      | none =>
          rw [hn] at he
          exact .inl he
      | some e' =>
          rw [hn] at he
          obtain rfl : e' = e := Option.some.inj he
          obtain ⟨hid, -, -, hdig, -⟩ := hd.same hch
          rw [hp] at haddressed
          exact .inr ((haddressed (hd.channel.trans hch) (hdig.trans hpd.no_digest) e' hn).trans hid)
  | rejected _ _ => exact ⟨fun h => (by cases h), fun _ e he => .inl he, .inl rfl⟩
  | parked _ _ => exact ⟨id, fun _ e he => .inl he, .inl rfl⟩
  | retried hp _ =>
      have hd := hcopy (by rw [hp]; exact List.mem_cons_self) rfl
      exact ⟨fun _ => hd.waits, fun _ e he => .inl he, .inl rfl⟩
  | fellOver _ _ _ => exact ⟨id, fun _ e he => .inl he, .inl rfl⟩

omit [Field K] [LinearOrder K] in
/-- A row for PagerDuty that a worker adds, where what fails over to PagerDuty is about the
incident it waits for. -/
theorem WorkerRow.forPagerDuty {phase : Phase} {db : Database K} {r' : OutboxRow}
    (hs : WorkerRow phase db step r') (hch : r'.channel = .pagerduty)
    (hc : ∀ now channel batch, step = .settle now → phase = .failingOver channel batch → ∀ k r target,
      (k, r) ∈ failoverCandidates channel db → isFailoverWorthy r.priority = true →
      selectFailover channel r.action (failoverAvailable channel db) = some target →
      target.channel = .pagerduty → r.payload.digest = none → r.payload.incidentId = some r.incidentId) :
    r'.supersededBy = none ∧ r'.externalRef = none ∧
      (r'.payload.digest = none → r'.payload.incidentId = some r'.incidentId) := by
  cases hs with
  | digest _ => exact ⟨rfl, rfl, fun h => absurd h (by simp [digestRow])⟩
  | @failover now channel batch k r target hp hmem hworthy hsel =>
      refine ⟨rfl, rfl, fun hd => ?_⟩
      have hd' : (hydratePayload r.incidentId r.payload db).digest = none := hd
      rw [hydratePayload_digest] at hd'
      have habout := hc now channel batch rfl hp k r target hmem hworthy hsel hch hd'
      show (hydratePayload r.incidentId r.payload db).incidentId = some r.incidentId
      rcases @hydratePayload_incidentId _ db r.incidentId r.payload with hsame | hfilled
      · rw [hsame, habout]
      · rw [hfilled, habout]
        rfl

/-- **A step of a worker is a page step.** -/
theorem KeepsPages.worker_pageStep (hc : KeepsPages rt ⟨s, .worker w step, s'⟩)
    (hnext : deploymentNext rt s (.worker w step) = some s')
    (hcopied : ∀ row ∈ (s.phase w).inHand, ∃ r, Copied s.db row r)
    (haddressed : (s.phase w).addressed) : PageStep s.db s'.db := by
  obtain ⟨hmove, -⟩ := deploymentNext_worker hnext
  obtain ⟨hrows, hnew⟩ := hmove.rows
  refine ⟨fun k r hr hch => ?_, fun k r' hr' hch => ?_, fun j r _ _ _ _ _ hres =>
    (hmove.resolved _).2 hres⟩
  · obtain ⟨r', hr', hs⟩ := hrows k r hr
    exact ⟨r', hr', hc.rowStep hmove hcopied haddressed hr hch hs⟩
  · cases hr : s.db.outbox.find? k with
    | some r =>
        obtain ⟨r₁, hr₁, hs⟩ := hrows k r hr
        obtain rfl := Option.some.inj (hr₁.symm.trans hr')
        exact .inl ⟨r, rfl, hs.names.2.1 ▸ hch⟩
    | none =>
        refine .inr ⟨rfl, (hnew k r' hr hr').forPagerDuty hch ?_⟩
        exact fun now channel batch hstep => hc.failover w now channel batch (congrArg (Turn.worker w) hstep)

/-- The copies in hand stay copies, through a request. -/
theorem KeepsPages.copied_request {q : Request} {r : OutboxRow} (hc : KeepsPages rt ⟨s, .request q, s'⟩)
    (hnext : deploymentNext rt s (.request q) = some s') (h : Copied s.db row r) :
    ∃ r', Copied s'.db row r' := by
  by_cases hch : r.channel = .pagerduty
  · exact ⟨r, hc.stays hnext h.find hch, h.waits, h.channel, h.same⟩
  · obtain ⟨r', hr', hm⟩ := (engineNext_queued (deploymentNext_request hnext).1).kept _ r h.find
    have hstatus : r'.status = r.status := by rw [hm.frame]
    have hchannel : r'.channel = r.channel := by rw [hm.frame]
    exact ⟨r', hr', hstatus.trans h.waits, h.channel.trans hchannel.symm,
      fun hc' => absurd (hchannel ▸ hc') hch⟩

omit [Field K] [LinearOrder K] in
/-- And through a step of the worker that has them. -/
theorem WorkerMove.copied {db db' : Database K} {phase phase' : Phase}
    (hmove : WorkerMove rt w db phase step phase' db') (hn : (phase.inHand.map (·.outboxId)).Nodup)
    (hcopied : ∀ row ∈ phase.inHand, ∃ r, Copied db row r) (hrow : row ∈ phase'.inHand) :
    ∃ r, Copied db' row r := by
  have hheld : ∀ row ∈ phase.inHand, ∃ r, db.outbox.find? row.outboxId = some r ∧
      r.status = .pending ∧ row.channel = r.channel ∧
      (r.channel = .pagerduty → row.incidentId = r.incidentId ∧ row.action = r.action ∧
        row.payload.incidentId = r.payload.incidentId ∧ row.payload.digest = r.payload.digest ∧
        row.externalRef = r.externalRef) := by
    intro row hrow
    obtain ⟨r, hr⟩ := hcopied row hrow
    exact ⟨r, hr.find, hr.waits, hr.channel, hr.same⟩
  obtain ⟨r, hr, hp, hch, hsame⟩ := hmove.held hn
    (fun _ _ hp _ => ⟨hp, rfl, fun _ => ⟨rfl, rfl, rfl, rfl, rfl⟩⟩) (fun _ _ _ => id) hheld row hrow
  exact ⟨r, hr, hp, hch, hsame⟩

end Worker

/-! ## Dispatching a row for PagerDuty -/

section Dispatching

variable {db : Database K} {row : ClaimedRow} {r : OutboxRow}

omit [Field K] [LinearOrder K] in
/-- The handle an incident is found to have on a channel is on one of its rows. -/
theorem resolveExternalRef_eq_some {x e : String} {c : Channel}
    (he : resolveExternalRef x c db = some e) : ∃ k r, db.outbox.find? k = some r ∧ r.channel = c ∧
      r.incidentId = x ∧ r.status = .sent ∧ r.externalRef = some e := by
  unfold resolveExternalRef at he
  obtain ⟨⟨k, r⟩, hmem, hr⟩ := Option.bind_eq_some_iff.1 he
  obtain ⟨hfind, hsel⟩ := Table.mem_select.1 (firstBy_mem hmem)
  simp only [Bool.and_eq_true, decide_eq_true_eq] at hsel
  exact ⟨k, r, hfind, hsel.1.1.2, hsel.1.1.1, hsel.1.2, hr⟩

omit [Field K] [LinearOrder K] in
/-- The handle an incident has on PagerDuty is its own id. -/
theorem NamesOwn.resolveExternalRef (hown : NamesOwn db) (hn : Named db) {x e : String}
    (hx : Known db x) (he : resolveExternalRef x .pagerduty db = some e) : e = x := by
  obtain ⟨k, r, hfind, hch, hid, -, hr⟩ := resolveExternalRef_eq_some he
  have hd : r.payload.digest = none := by
    by_contra hdigest
    have hname := hn.digest k r hfind (Option.ne_none_iff_isSome.1 hdigest)
    rw [hid, hn.incident x hx] at hname
    cases hname
  exact ((hown k r hfind ⟨hch, hd⟩).2 e hr).trans hid

omit [Field K] [LinearOrder K] in
/-- **The dispatch of a row in hand names the row's own incident**, where the copy names what the
row names, and its handle too. -/
theorem NamesOwn.addressed (hown : NamesOwn db) (hn : Named db)
    (hr : db.outbox.find? row.outboxId = some r) (hchannel : row.channel = r.channel)
    (hsame : r.channel = .pagerduty → row.incidentId = r.incidentId ∧
      row.payload.incidentId = r.payload.incidentId ∧ row.payload.digest = r.payload.digest)
    (href : row.channel = .pagerduty → row.payload.digest = none →
      ∀ e, row.externalRef = some e → e = row.incidentId) :
    Addressed (prepareDispatch row db) := by
  intro hch hd
  rw [prepareDispatch_row] at hch hd ⊢
  obtain ⟨hid, habout, hdig⟩ := hsame (hchannel ▸ hch)
  have hpd : ForPagerDuty r := ⟨hchannel ▸ hch, hdig ▸ hd⟩
  obtain ⟨hown', -⟩ := hown _ r hr hpd
  have hknown : Known db r.incidentId := by
    obtain ⟨x, hx, hknown⟩ := hn.about _ r hr hpd.no_digest
    obtain rfl := Option.some.inj (hx.symm.trans hown')
    exact hknown
  unfold prepareDispatch
  rw [if_neg (by rw [hd]; decide)]
  refine ⟨?_, fun e he => ?_⟩
  · show (hydratePayload row.incidentId row.payload db).incidentId = some row.incidentId
    rcases @hydratePayload_incidentId _ db row.incidentId row.payload with hkept | hfilled
    · rw [hkept, habout, hown', hid]
    · rw [hfilled, habout, hown', hid]
      rfl
  · have he' : (truthy row.externalRef).or
        (PulseGraph.resolveExternalRef row.incidentId row.channel db) = some e := he
    rcases Option.or_eq_some_iff.1 he' with hrow | ⟨-, hresolved⟩
    · exact href hch hd e (Option.filter_eq_some_iff.1 hrow).1
    · rw [hch, hid] at hresolved
      exact (hown.resolveExternalRef hn hknown hresolved).trans hid.symm

omit [Field K] [LinearOrder K] in
/-- The dispatch of a copy names the row's own incident. -/
theorem addressed_prepareDispatch (hI : PageInvariant db) (hn : Named db) (hcopy : Copied db row r) :
    Addressed (prepareDispatch row db) := by
  have hown : NamesOwn db := hI.own
  refine hown.addressed hn hcopy.find hcopy.channel (fun hch => ?_) fun hch hd e he => ?_
  · obtain ⟨hid, -, habout, hdig, -⟩ := hcopy.same hch
    exact ⟨hid, habout, hdig⟩
  · obtain ⟨hid, -, -, hdig, href⟩ := hcopy.same (hcopy.channel ▸ hch)
    have hpd : ForPagerDuty r := ⟨hcopy.channel ▸ hch, hdig ▸ hd⟩
    exact ((hown _ r hcopy.find hpd).2 e (href ▸ he)).trans hid.symm

omit [Field K] [LinearOrder K] in
/-- The request of a dispatch that names its incident. -/
theorem Addressed.dedupKey {d : Dispatch} {req : PagerDutyRequest} (h : Addressed d)
    (hch : d.row.channel = .pagerduty) (hd : d.row.payload.digest = none)
    (hreq : d.request = .ok req) : req.dedupKey = some d.row.incidentId := by
  obtain ⟨habout, hhandle⟩ := h hch hd
  unfold Dispatch.request pagerdutyRequest at hreq
  split at hreq
  · cases hreq
  · obtain rfl := Except.ok.inj hreq
    show ((d.externalRef.filter (· ≠ "")).or d.payload.incidentId) = some d.row.incidentId
    cases hf : d.externalRef.filter (· ≠ "") with
    | none => exact habout
    | some e => exact congrArg some (hhandle e (Option.filter_eq_some_iff.1 hf).1)

omit [Field K] [LinearOrder K] in
/-- What a copy of a row for PagerDuty is sent as. -/
theorem sends_of_copied (hI : PageInvariant db) (hn : Named db) (hcopy : Copied db row r)
    (hpd : ForPagerDuty r) {a : Action} {e : EventAction} (ha : pagerdutyAction a = some e)
    (hact : (prepareDispatch row db).action = a) : Sends db row e r.incidentId := by
  obtain ⟨hid, -, -, hdig, -⟩ := hcopy.same hpd.channel
  have haddr := addressed_prepareDispatch hI hn hcopy
  have hreq : (prepareDispatch row db).request = .ok
      { eventAction := e
        dedupKey := ((prepareDispatch row db).externalRef.filter (· ≠ "")).or
          (prepareDispatch row db).payload.incidentId
        payload := if e = .trigger then some (buildEventPayload (prepareDispatch row db).payload) else none } := by
    unfold Dispatch.request pagerdutyRequest
    rw [hact, ha]
  refine ⟨_, hreq, rfl, ?_⟩
  have hkey := haddr.dedupKey (by rw [prepareDispatch_row]; exact hcopy.channel.trans hpd.channel)
    (by rw [prepareDispatch_row]; exact hdig.trans hpd.no_digest) hreq
  rw [prepareDispatch_row, hid] at hkey
  exact hkey

end Dispatching

/-! ## The invariant -/

/-- What a run of the worker `w` keeps: the queue for PagerDuty is in order, the copies in
hand are copies, calls name their incident, and rows are what they were enqueued as. -/
structure PagingInvariant (w : String) (h : List (Transition (Deployment K) Turn)) (s : Deployment K) :
    Prop where
  pages : PageInvariant s.db
  copied : ∀ row ∈ (s.phase w).inHand, ∃ r, Copied s.db row r
  addressed : (s.phase w).addressed
  enqueued : ∀ t ∈ h, ∀ k x a, Enqueues rt t k x a →
    ∃ r, s.db.outbox.find? k = some r ∧ ForPagerDuty r ∧ r.incidentId = x ∧ r.action = a

section Invariant

variable {rt} {s s' : Deployment K} {h : List (Transition (Deployment K) Turn)} {w : String}

omit [Field K] [LinearOrder K] in
/-- A row stays what it was enqueued as. -/
theorem PageStep.keeps {db db' : Database K} (hstep : PageStep db db') {k : ℕ} {r : OutboxRow}
    (hr : db.outbox.find? k = some r) (hpd : ForPagerDuty r) : ∃ r', db'.outbox.find? k = some r' ∧
      ForPagerDuty r' ∧ r'.incidentId = r.incidentId ∧ r'.action = r.action := by
  obtain ⟨r', hr', hkept⟩ := hstep.kept k r hr hpd.channel
  exact ⟨r', hr', ⟨hkept.channel.trans hpd.channel, hkept.digest.trans hpd.no_digest⟩,
    hkept.incidentId, hkept.action⟩

/-- A request keeps the invariant. -/
theorem PagingInvariant.request {q : Request} (hI : PagingInvariant rt w h s)
    (hc : KeepsPages rt ⟨s, .request q, s'⟩) (hnext : deploymentNext rt s (.request q) = some s') :
    PagingInvariant rt w (⟨s, .request q, s'⟩ :: h) s' := by
  have hstep := hc.request_pageStep hnext
  obtain ⟨-, hphase⟩ := deploymentNext_request hnext
  refine ⟨hI.pages.step hstep, fun row hrow => ?_, hphase ▸ hI.addressed, fun t ht k x a he => ?_⟩
  · rw [hphase] at hrow
    obtain ⟨r, hr⟩ := hI.copied row hrow
    exact hc.copied_request hnext hr
  · rcases List.mem_cons.1 ht with rfl | ht
    · obtain ⟨hk, r', hr', hpd, habout, hpages⟩ := he
      obtain ⟨hnew, hpage⟩ := hc.adds hnext hk hr' hpd.channel
      refine ⟨r', hr', hpd, Option.some.inj (hnew.about.symm.trans habout), ?_⟩
      exact hpage.action_eq.trans hpages.action_eq.symm
    · obtain ⟨r, hr, hpd, hx, ha⟩ := hI.enqueued t ht k x a he
      obtain ⟨r', hr', hpd', hx', ha'⟩ := hstep.keeps hr hpd
      exact ⟨r', hr', hpd', hx'.trans hx, ha'.trans ha⟩

omit [Field K] [LinearOrder K] in
/-- What a worker is about to send, or to record, names the incident. -/
theorem WorkerMove.addressed {db db' : Database K} {phase phase' : Phase} {step : WorkerStep}
    (hmove : WorkerMove rt w db phase step phase' db') (haddressed : phase.addressed)
    (hprepare : ∀ row ∈ phase.inHand, Addressed (prepareDispatch row db))
    (hanswer : ∀ d batch newRef now, phase = .calling d batch → step = .callReturns now (.ok newRef) →
      d.row.channel = .pagerduty →
      ∃ req, d.request = .ok req ∧ ∀ key, req.dedupKey = some key → newRef = some key) :
    phase'.addressed := by
  cases hmove with
  | prepare => exact hprepare _ List.mem_cons_self
  | handOff _ => exact haddressed
  | @returned now d batch newRef =>
      intro hch hd e he
      obtain ⟨req, hreq, hkey⟩ := hanswer d batch newRef now rfl rfl hch
      have haddr : Addressed d := haddressed
      have hnewRef := hkey _ (haddr.dedupKey hch hd hreq)
      exact Option.some.inj (he.symm.trans hnewRef)
  | park _ => split_ifs <;> exact trivial
  | _ => exact trivial

/-- A step of the worker keeps the invariant. -/
theorem PagingInvariant.worker {step : WorkerStep} (hI : PagingInvariant rt w h s)
    (hrun : DeploymentRun rt h s) (hc : KeepsPages rt ⟨s, .worker w step, s'⟩)
    (hanswer : AnswersWithKey (⟨s, .worker w step, s'⟩ : Transition (Deployment K) Turn))
    (hnext : deploymentNext rt s (.worker w step) = some s') :
    PagingInvariant rt w (⟨s, .worker w step, s'⟩ :: h) s' := by
  have hstep := hc.worker_pageStep hnext hI.copied hI.addressed
  obtain ⟨hmove, -⟩ := deploymentNext_worker hnext
  refine ⟨hI.pages.step hstep, fun row hrow => hmove.copied (hrun.nodup_inHand w) hI.copied hrow, ?_,
    fun t ht k x a he => ?_⟩
  · refine hmove.addressed hI.addressed (fun row hrow => ?_) ?_
    · obtain ⟨r, hr⟩ := hI.copied row hrow
      exact addressed_prepareDispatch hI.pages hrun.named hr
    · rintro d batch newRef now hp rfl hch
      exact hanswer d newRef ⟨w, now, batch, rfl, hp, hch⟩
  · rcases List.mem_cons.1 ht with rfl | ht
    · obtain ⟨-, r', hr', hpd, hx, ha⟩ := he
      exact ⟨r', hr', hpd, hx, ha⟩
    · obtain ⟨r, hr, hpd, hx, ha⟩ := hI.enqueued t ht k x a he
      obtain ⟨r', hr', hpd', hx', ha'⟩ := hstep.keeps hr hpd
      exact ⟨r', hr', hpd', hx'.trans hx, ha'.trans ha⟩

theorem pagingInvariant_of_run (r : DeploymentRun rt h s)
    (hc : ∀ t ∈ h, t.label.isOf [w] = true ∧ AnswersWithKey t ∧ KeepsPages rt t) :
    PagingInvariant rt w h s := by
  refine Run.induct_of_forall (I := PagingInvariant rt w) r hc ?_ ?_
  · rintro s rfl
    refine ⟨pageInvariant_empty, fun row hrow => ?_, trivial, fun t ht => ?_⟩
    · exact absurd hrow List.not_mem_nil
    · exact absurd ht List.not_mem_nil
  · rintro h s turn s' hrun - hI ⟨hone, hanswer, hkeeps⟩ hnext
    cases turn with
    | request q => exact hI.request hkeeps hnext
    | worker w' step =>
        obtain rfl : w' = w := List.mem_singleton.1 (List.contains_iff_mem.1 hone)
        exact hI.worker hrun hkeeps hanswer hnext

/-! ## Every run -/

/-- **Intents keep their meaning** in every run of one worker in which PagerDuty answers
with the key it is sent and no turn redirects, collapses, reopens or fails over what it
must not. -/
theorem pagesKept_of_run (r : DeploymentRun rt h s)
    (hc : ∀ t ∈ h, t.label.isOf [w] = true ∧ AnswersWithKey t ∧ KeepsPages rt t) :
    PagesKept rt h s := by
  have hI := pagingInvariant_of_run r hc
  have hn := r.named
  intro w' row batch hphase
  obtain rfl : w' = w := by
    by_contra hw
    have hidle := (r.idle (fun t ht => (hc t ht).1) (fun hmem => hw (List.mem_singleton.1 hmem))).1
    rw [hphase] at hidle
    cases hidle
  obtain ⟨j, hcopy⟩ := hI.copied row (by rw [hphase]; exact List.mem_cons_self)
  refine ⟨fun t ht k x he hs hactive _ => ?_, fun t ht x he => ?_⟩
  · obtain ⟨rk, hrk, hpdk, rfl, hcreate⟩ := hI.enqueued t ht k x .create he
    obtain ⟨r₁, hr₁, hch, hx⟩ := hI.pages.stands hs hrk hpdk.channel
    obtain rfl := Option.some.inj (hr₁.symm.trans hcopy.find)
    obtain ⟨y, hy, hknown⟩ := hn.about k rk hrk hpdk.no_digest
    obtain rfl := Option.some.inj (hy.symm.trans (hI.pages.own k rk hrk hpdk).1)
    have hd : r₁.payload.digest = none := by
      by_contra hdigest
      have hname := hn.digest _ r₁ hr₁ (Option.ne_none_iff_isSome.1 hdigest)
      rw [hx, hn.incident _ hknown] at hname
      cases hname
    obtain ⟨i, hi⟩ := Option.isSome_iff_exists.1 hknown
    have hopen : i.status ≠ .RESOLVED := by
      intro hres
      exact hactive (by rw [Resolved, hi, Option.map_some, hres])
    -- a row that is no page would stand for a page of a resolved incident
    have hpage : r₁.action = .create := by
      by_contra hne
      have hres := hI.pages.covered _ r₁ hr₁ hch hcopy.waits hne ⟨k, rk, hrk, hpdk, hcreate, hs⟩
      exact hactive (hx ▸ hres)
    obtain ⟨hid, hact, -, hdig, -⟩ := hcopy.same hch
    rw [← hx]
    refine sends_of_copied hI.pages hn hcopy ⟨hch, hd⟩ (a := .create) rfl ?_
    rw [prepareDispatch_action (hdig.trans hd) (hid.trans hx ▸ hi), if_neg hopen, hact, hpage]
  · obtain ⟨r₁, hr₁, hpd, rfl, hresolve⟩ := hI.enqueued t ht _ x .resolve he
    obtain rfl := Option.some.inj (hr₁.symm.trans hcopy.find)
    obtain ⟨hid, hact, -, hdig, -⟩ := hcopy.same hpd.channel
    obtain ⟨y, hy, hknown⟩ := hn.about _ r₁ hr₁ hpd.no_digest
    obtain rfl := Option.some.inj (hy.symm.trans (hI.pages.own _ r₁ hr₁ hpd).1)
    obtain ⟨i, hi⟩ := Option.isSome_iff_exists.1 hknown
    refine sends_of_copied hI.pages hn hcopy hpd (a := .resolve) rfl ?_
    rw [prepareDispatch_action (hdig.trans hpd.no_digest) (hid ▸ hi), hact, hresolve, ite_self]

end Invariant

/-! ## Two runs -/

/-- What is enough for a turn to keep the pages: no storms, nothing resolved, only pages for
PagerDuty, and no failover. -/
def plain (t : Transition (Deployment K) Turn) : Bool :=
  t.target.db.incidentGroups.rows.isEmpty &&
    (t.source.db.incidents.rows.all fun i => i.2.status ≠ .RESOLVED) &&
    (t.source.db.outbox.rows.all fun r => r.2.channel ≠ .pagerduty || r.2.action = .create) &&
    match t.label with
    | .worker w _ => match t.source.phase w with
      | .failingOver _ _ => false
      | _ => true
    | .request _ => true

/-- No call for PagerDuty ends in the turn. -/
def noAnswer (t : Transition (Deployment K) Turn) : Bool :=
  match t.label with
  | .worker w (.callReturns _ _) => match t.source.phase w with
    | .calling d _ => d.row.channel ≠ .pagerduty
    | _ => true
  | _ => true

omit [Field K] [LinearOrder K] in
theorem answersWithKey_of_noAnswer {t : Transition (Deployment K) Turn} (h : noAnswer t = true) :
    AnswersWithKey t := by
  rintro d newRef ⟨w, now, batch, hlabel, hp, hch⟩
  simp [noAnswer, hlabel, hp, hch] at h

variable {rt} in
theorem keepsPages_of_plain {t : Transition (Deployment K) Turn} (h : plain t = true) :
    KeepsPages rt t := by
  simp only [plain, Bool.and_eq_true, List.isEmpty_iff, List.all_eq_true, decide_eq_true_eq,
    Bool.or_eq_true] at h
  obtain ⟨⟨⟨hgroups, hactive⟩, hpages⟩, hphase⟩ := h
  have hpage : ∀ {k r}, t.source.db.outbox.find? k = some r → r.channel = .pagerduty →
      r.action = .create := fun hr hch =>
    (hpages _ (Table.find?_eq_some_iff.1 hr)).resolve_left (by simp [hch])
  refine ⟨fun q _ x _ hnon => ?_, fun q _ j r hr hch _ hne => absurd (hpage hr hch) hne,
    fun w step chs _ _ _ k r j newest _ _ _ _ hn hne => ?_, fun w now channel batch hlabel hp => ?_⟩
  · obtain ⟨i, g, group, -, -, hg, -⟩ := hnon
    have hmem := Table.find?_eq_some_iff.1 hg
    rw [hgroups] at hmem
    exact absurd hmem List.not_mem_nil
  · exact absurd (hpage hn.find (isPendingFor_iff.1 hn.waits).1) hne
  · rw [hlabel] at hphase
    dsimp only at hphase
    rw [hp] at hphase
    cases hphase

/-- A critical alert pages, and the worker takes the page. -/
def pageTurns : List Turn :=
  .request (.ingest "A" "unused" 1000 (sampleEvent "1" "critical" .firing 1000)) ::
    claimTurns "w" 2000 0

/-- The page of a critical alert, about to be sent. -/
theorem pagesKept_of_run_critical : ∃ h s, DeploymentRun Runtime.reference h s ∧
    (s.phase "w").inHand.map (fun row => (row.channel, row.action)) =
      [(.pagerduty, .create), (.slack, .create)] ∧ PagesKept Runtime.reference h s := by
  have hreplay : (Library.replay (deploymentNext Runtime.reference) pageTurns
      ([], Deployment.initial)).map (fun s =>
        ((s.2.phase "w").inHand.map fun row => (row.channel, row.action),
          s.1.all fun t => t.label.isOf ["w"] && (noAnswer t && plain t))) =
      some ([(.pagerduty, .create), (.slack, .create)], true) := by decide +kernel
  obtain ⟨h, s, hrun, heq⟩ := DeploymentRun.of_replay hreplay
  obtain ⟨hinHand, hcheck⟩ := Prod.mk.inj heq
  refine ⟨h, s, hrun, hinHand, @pagesKept_of_run _ _ _ _ s h "w" hrun fun t ht => ?_⟩
  have hone := List.all_eq_true.1 hcheck t ht
  simp only [Bool.and_eq_true] at hone
  exact ⟨hone.1, answersWithKey_of_noAnswer hone.2.1, keepsPages_of_plain hone.2.2⟩

/-- **Every row for PagerDuty that a request adds is enqueued**, for the incident its payload
is about. -/
theorem enqueues_of_request {rt : Runtime K} {s s' : Deployment K} {q : Request} {k : ℕ} {x : String}
    {r' : OutboxRow} (hnext : deploymentNext rt s (.request q) = some s')
    (hk : s.db.outbox.find? k = none) (hr' : s'.db.outbox.find? k = some r') (hpd : ForPagerDuty r')
    (hx : r'.payload.incidentId = some x) : Enqueues rt ⟨s, .request q, s'⟩ k x q.pageAction := by
  obtain ⟨r, ⟨hnew, -, hpages⟩, hm⟩ :=
    (engineNext_queued (deploymentNext_request hnext).1).added k r' hk hr'
  have hchannel : r'.channel = r.channel := by rw [hm.frame]
  have hpayload : r'.payload = r.payload := by rw [hm.frame]
  have hpage := hpages (hchannel ▸ hpd.channel)
  rw [hpage.action_eq] at hpage
  obtain rfl : x = r.incidentId := Option.some.inj (hx.symm.trans (hpayload ▸ hnew.about))
  exact ⟨hk, r', hr', hpd, hx, hpage⟩

/-- A request adds a row for PagerDuty that is to resolve the incident. -/
def addsResolve (k : ℕ) (x : String) (t : Transition (Deployment K) Turn) : Bool :=
  match t.label with
  | .request q => (t.source.db.outbox.find? k).isNone && decide (q.pageAction = .resolve) &&
      (t.target.db.outbox.find? k).any fun r =>
        r.channel = .pagerduty && r.payload.digest.isNone && r.payload.incidentId = some x
  | .worker _ _ => false

theorem enqueues_of_addsResolve {rt : Runtime K} {h : List (Transition (Deployment K) Turn)}
    {s : Deployment K} (hrun : DeploymentRun rt h s) {t : Transition (Deployment K) Turn} (ht : t ∈ h)
    {k : ℕ} {x : String} (hadds : addsResolve k x t = true) : Enqueues rt t k x .resolve := by
  obtain ⟨-, -, hnext⟩ := hrun.source_run ht
  obtain ⟨s₁, turn, s₂⟩ := t
  cases turn with
  | worker w step => cases hadds
  | request q =>
      simp only [addsResolve, Bool.and_eq_true, Option.isNone_iff_eq_none, decide_eq_true_eq,
        Option.any_eq_true] at hadds
      obtain ⟨⟨hk, haction⟩, r', hr', ⟨hch, hd⟩, hx⟩ := hadds
      rw [← haction]
      exact enqueues_of_request hnext hk hr' ⟨hch, hd⟩ hx

/-- A member of a storm is resolved in Slack; the worker sends the card, and comes to the row
that is to resolve the member in PagerDuty. -/
def redirectedTurns : List Turn :=
  (stormRequests ++ [Request.external "R" 2000 (slackAction "click" .resolve "B")]).map .request ++
    claimTurns "w" 3000 0 ++ callTurns "w" 3000 3500 (.ok (some "ts-1")) ++ settleTurns "w" 3500

/-- The row a worker is about to dispatch, and what PagerDuty would be sent for it. -/
def nextForPagerDuty (s : Deployment K) (w : String) : Option (ℕ × Option EventAction) :=
  match s.phase w with
  | .draining (row :: _) =>
      some (row.outboxId, (prepareDispatch row s.db).request.toOption.map (·.eventAction))
  | _ => none

/-- **A resolve that is sent as an acknowledge**: its incident is in a storm that another one
is the anchor of. -/
theorem not_pagesKept : ¬ ∀ h s, DeploymentRun Runtime.reference h s →
    (∀ t ∈ h, t.label.isOf ["w"] = true ∧ AnswersWithKey t) → PagesKept Runtime.reference h s := by
  intro hclaim
  have hreplay : (Library.replay (deploymentNext Runtime.reference) redirectedTurns
      ([], Deployment.initial)).map (fun s => (nextForPagerDuty s.2 "w",
        s.1.any (addsResolve 4 "B"), s.1.all fun t => t.label.isOf ["w"] && noAnswer t)) =
      some (some (4, some .acknowledge), true, true) := by decide +kernel
  obtain ⟨h, s, hrun, heq⟩ := DeploymentRun.of_replay hreplay
  obtain ⟨hnext, heq⟩ := Prod.mk.inj heq
  obtain ⟨hadds, hcheck⟩ := Prod.mk.inj heq
  obtain ⟨t, ht, hadds⟩ := List.any_eq_true.1 hadds
  simp only [List.all_eq_true, Bool.and_eq_true] at hcheck
  have hkept := hclaim h s hrun fun t ht => ⟨(hcheck t ht).1, answersWithKey_of_noAnswer (hcheck t ht).2⟩
  unfold nextForPagerDuty at hnext
  split at hnext
  · next row batch hphase =>
      obtain ⟨hrow, hevent⟩ := Prod.mk.inj (Option.some.inj hnext)
      obtain ⟨req, hreq, hresolve, -⟩ := (hkept "w" row batch hphase).2 t ht "B"
        (hrow ▸ enqueues_of_addsResolve hrun ht hadds)
      rw [hreq] at hevent
      have hacknowledge : req.eventAction = .acknowledge := Option.some.inj hevent
      rw [hresolve] at hacknowledge
      cases hacknowledge
  · cases hnext

end PulseGraph
