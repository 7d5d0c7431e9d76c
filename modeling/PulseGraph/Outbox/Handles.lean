/-
# Whose message a handle is of

A call that succeeds answers with a handle: the `ts` of a Slack message, PagerDuty's
`dedup_key`, the `Message-ID` of a mail.  The worker stores it on the row it has sent, and
later rows of the same incident on the same channel are sent as edits of that message.
Between the claim and the answer a storm may rewrite the incident of the row.

**Proved here.**  As long as no request redirects a row that is in a worker's hand, has a
handle, or is for PagerDuty, every handle on a row, and every handle a call is made with, is
of a message that was sent for the incident of that row (`handles_of_run`).
`not_handles` has a card that carries the `ts` of another incident's card.
-/

import PulseGraph.Outbox.Paging
import PulseGraph.Outbox.Slack

namespace PulseGraph

open Library (Table Run Transition)

variable {K : Type}

/-! ## Messages -/

/-- The dispatch whose call succeeds in a transition, and the handle it answers with. -/
def answerOf (t : Transition (Deployment K) Turn) : Option (Dispatch × Option String) :=
  match t.label with
  | .worker w (.callReturns _ (.ok newRef)) => match t.source.phase w with
    | .calling d _ => some (d, newRef)
    | _ => none
  | _ => none

/-- The request a dispatch makes to Slack. -/
def Dispatch.slackRequest (d : Dispatch) : Except Exc SlackRequest :=
  PulseGraph.slackRequest d.action d.payload d.externalRef

/-- **The message is the incident's own**: a message that is posted to Slack, an event that
names the row's incident to PagerDuty, a mail; a digest is always a message of its own. -/
def Dispatch.ownMessage (d : Dispatch) : Prop :=
  match d.row.channel with
  | .slack => ∃ req, d.slackRequest = .ok req ∧ req.method = .postMessage
  | .pagerduty => d.row.payload.digest.isSome = true ∨
      ∃ req, d.request = .ok req ∧ req.dedupKey = some d.row.incidentId
  | .email => True

/-- The handle is of a message that was sent for the incident on the channel. -/
def Handle (h : List (Transition (Deployment K) Turn)) (c : Channel) (x e : String) : Prop :=
  ∃ t ∈ h, ∃ d, answerOf t = some (d, some e) ∧ d.row.channel = c ∧ d.row.incidentId = x ∧ d.ownMessage

/-- `chat.update` answers with the `ts` it is given, and a call succeeds for a request only. -/
def AnswersWithTs (t : Transition (Deployment K) Turn) : Prop :=
  ∀ d newRef, answerOf t = some (d, newRef) → d.row.channel = .slack →
    ∃ req, d.slackRequest = .ok req ∧ ∀ ts, req.ts = some ts → newRef = some ts

variable [Field K] [LinearOrder K] (rt : Runtime K)

/-- What keeps handles with their incidents, in one turn. -/
structure KeepsHandles (t : Transition (Deployment K) Turn) : Prop where
  /-- no request redirects a row that is in hand, has a handle, or is for PagerDuty -/
  redirect : ∀ q, t.label = .request q → ∀ x, Touches rt t.source.db q x → NonAnchor t.target.db x →
    (∀ k r, t.source.db.outbox.find? k = some r → r.status = .pending → r.incidentId = x →
      r.externalRef = none ∧ r.channel ≠ .pagerduty ∧
        ∀ w, ∀ row ∈ (t.source.phase w).inHand, row.outboxId ≠ k) ∧
    ∀ a, ¬ Pages rt t.source.db q x a
  /-- what fails over to PagerDuty is about the incident it waits for -/
  failover : ∀ w now channel batch, t.label = .worker w (.settle now) →
    t.source.phase w = .failingOver channel batch → ∀ k r target,
    (k, r) ∈ failoverCandidates channel t.source.db → isFailoverWorthy r.priority = true →
    selectFailover channel r.action (failoverAvailable channel t.source.db) = some target →
    target.channel = .pagerduty → r.payload.digest = none → r.payload.incidentId = some r.incidentId

/-! ## The invariant -/

/-- A copy in hand names what its row names. -/
structure SameNames (row : ClaimedRow) (r : OutboxRow) : Prop where
  channel : row.channel = r.channel
  incidentId : row.incidentId = r.incidentId
  about : row.payload.incidentId = r.payload.incidentId
  digest : row.payload.digest = r.payload.digest

/-- A copy in hand has its incident's handle, which on PagerDuty is the incident's id. -/
structure CopiedHandle (h : List (Transition (Deployment K) Turn)) (row : ClaimedRow) : Prop where
  handle : ∀ e, row.externalRef = some e → Handle h row.channel row.incidentId e
  named : row.channel = .pagerduty → row.payload.digest = none →
    ∀ e, row.externalRef = some e → e = row.incidentId

/-- What a worker is about to send, or to record, has the handle of its incident. -/
def Phase.ownHandles (h : List (Transition (Deployment K) Turn)) : Phase → Prop
  | .prepared d _ => ∀ e, d.externalRef = some e → Handle h d.row.channel d.row.incidentId e
  | .calling d _ => ∀ e, d.externalRef = some e → Handle h d.row.channel d.row.incidentId e
  | .delivered d newRef _ => ∀ e, newRef = some e → Handle h d.row.channel d.row.incidentId e
  | _ => True

/-- Every handle is of a message of its incident. -/
structure HandleInvariant (h : List (Transition (Deployment K) Turn)) (s : Deployment K) : Prop where
  own : NamesOwn s.db
  handle : ∀ k r, s.db.outbox.find? k = some r → ∀ e, r.externalRef = some e →
    Handle h r.channel r.incidentId e
  copied : ∀ w, ∀ row ∈ (s.phase w).inHand,
    (∃ r, s.db.outbox.find? row.outboxId = some r ∧ SameNames row r) ∧ CopiedHandle h row
  addressed : ∀ w, (s.phase w).addressed
  sends : ∀ w, (s.phase w).ownHandles h

section Invariant

variable {rt} {s s' : Deployment K} {h : List (Transition (Deployment K) Turn)}

omit [Field K] [LinearOrder K] in
/-- What was sent stays sent. -/
theorem Handle.cons {c : Channel} {x e : String} {t : Transition (Deployment K) Turn}
    (hh : Handle h c x e) : Handle (t :: h) c x e := by
  obtain ⟨u, hu, hrest⟩ := hh
  exact ⟨u, List.mem_cons_of_mem _ hu, hrest⟩

omit [Field K] [LinearOrder K] in
theorem CopiedHandle.cons {row : ClaimedRow} {t : Transition (Deployment K) Turn}
    (hc : CopiedHandle h row) : CopiedHandle (t :: h) row :=
  ⟨fun e he => (hc.handle e he).cons, hc.named⟩

omit [Field K] [LinearOrder K] in
theorem Phase.ownHandles.cons {phase : Phase} {t : Transition (Deployment K) Turn}
    (ho : phase.ownHandles h) : phase.ownHandles (t :: h) := by
  cases phase with
  | prepared d batch => exact fun e he => (ho e he).cons
  | calling d batch => exact fun e he => (ho e he).cons
  | delivered d newRef batch => exact fun e he => (ho e he).cons
  | _ => exact trivial

omit [Field K] [LinearOrder K] in
/-- Who writes a handle: the row that is marked as sent. -/
theorem RowStep.externalRef {w : String} {phase : Phase} {db : Database K} {step : WorkerStep} {k : ℕ}
    {r r' : OutboxRow} (hs : RowStep rt w phase db step k r r') :
    r'.externalRef = r.externalRef ∨ ∃ d newRef batch, phase = .delivered d newRef batch ∧
      d.row.outboxId = k ∧ r'.externalRef = newRef.or r.externalRef := by
  cases hs with
  | collapsed _ hc _ => exact .inl hc.frame.2.2.2.2.1
  | sent hp => exact .inr ⟨_, _, _, hp, rfl, rfl⟩
  | _ => exact .inl rfl

omit [Field K] [LinearOrder K] in
/-- A copy keeps the names of its row, through a step of any worker. -/
theorem SameNames.step {w : String} {phase : Phase} {db : Database K} {step : WorkerStep} {k : ℕ}
    {r r' : OutboxRow} {row : ClaimedRow} (h : SameNames row r)
    (hs : RowStep rt w phase db step k r r') : SameNames row r' := by
  obtain ⟨hid, hch, -, habout, hdig⟩ := hs.names
  exact ⟨h.channel.trans hch.symm, h.incidentId.trans hid.symm, h.about.trans habout.symm,
    h.digest.trans hdig.symm⟩

omit [Field K] [LinearOrder K] in
/-- **A dispatch is prepared with its incident's handle.** -/
theorem HandleInvariant.prepares (hI : HandleInvariant h s) {w : String} {row : ClaimedRow}
    (hrow : row ∈ (s.phase w).inHand) : ∀ e, (prepareDispatch row s.db).externalRef = some e →
      Handle h row.channel row.incidentId e := by
  obtain ⟨-, hcopied⟩ := hI.copied w row hrow
  intro e he
  unfold prepareDispatch at he
  split_ifs at he
  · exact hcopied.handle e he
  · rcases Option.or_eq_some_iff.1 he with he | ⟨-, he⟩
    · exact hcopied.handle e (Option.filter_eq_some_iff.1 he).1
    · obtain ⟨k, r, hr, hc, hx, -, href⟩ := resolveExternalRef_eq_some he
      rw [← hc, ← hx]
      exact hI.handle k r hr e href

omit [Field K] [LinearOrder K] in
/-- And names its incident to PagerDuty. -/
theorem HandleInvariant.addresses (hI : HandleInvariant h s) (hn : Named s.db) {w : String}
    {row : ClaimedRow} (hrow : row ∈ (s.phase w).inHand) : Addressed (prepareDispatch row s.db) := by
  obtain ⟨⟨r, hr, hsame⟩, hcopied⟩ := hI.copied w row hrow
  exact hI.own.addressed hn hr hsame.channel
    (fun _ => ⟨hsame.incidentId, hsame.about, hsame.digest⟩) hcopied.named

omit [Field K] [LinearOrder K] in
/-- A call that succeeds was out. -/
theorem answerOf_eq_some {t : Transition (Deployment K) Turn} {d : Dispatch} {newRef : Option String}
    (h : answerOf t = some (d, newRef)) : ∃ w now batch,
      t.label = .worker w (.callReturns now (.ok newRef)) ∧ t.source.phase w = .calling d batch := by
  unfold answerOf at h
  split at h
  · next w now newRef' hlabel =>
      split at h
      · next d' batch hp =>
          obtain ⟨rfl, rfl⟩ := Prod.mk.inj (Option.some.inj h)
          exact ⟨w, now, batch, hlabel, hp⟩
      · cases h
  · cases h

omit [Field K] [LinearOrder K] in
/-- An answer of PagerDuty is a delivery to it. -/
theorem delivers_of_answerOf {t : Transition (Deployment K) Turn} {d : Dispatch} {newRef : Option String}
    (h : answerOf t = some (d, newRef)) (hc : d.row.channel = .pagerduty) : Delivers t d newRef := by
  obtain ⟨w, now, batch, hlabel, hp⟩ := answerOf_eq_some h
  exact ⟨w, now, batch, hlabel, hp, hc⟩

omit [Field K] [LinearOrder K] in
/-- **The handle a call answers with is its incident's**: of the message it sends, or of the one it
edits, which is the incident's. -/
theorem handle_of_answer {t : Transition (Deployment K) Turn} {d : Dispatch} {e : String}
    (hhandle : ∀ e, d.externalRef = some e → Handle h d.row.channel d.row.incidentId e)
    (haddressed : Addressed d) (ht : answerOf t = some (d, some e)) (hts : AnswersWithTs t)
    (hkey : AnswersWithKey t) : Handle (t :: h) d.row.channel d.row.incidentId e := by
  have hown : d.ownMessage → Handle (t :: h) d.row.channel d.row.incidentId e :=
    fun hm => ⟨t, List.mem_cons_self, d, ht, rfl, rfl, hm⟩
  unfold Dispatch.ownMessage at hown
  cases hc : d.row.channel with
  | email =>
      rw [hc] at hown
      exact hown trivial
  | slack =>
      obtain ⟨req, hreq, hanswer⟩ := hts d (some e) ht hc
      rcases slackRequest_cases hreq with ⟨hpost, -⟩ | ⟨-, -, ts, href, hreqts⟩
      · rw [hc] at hown
        exact hown ⟨req, hreq, hpost⟩
      · obtain rfl := Option.some.inj (hanswer ts hreqts)
        rw [← hc]
        exact (hhandle _ href).cons
  | pagerduty =>
      rw [hc] at hown
      refine hown ?_
      cases hd : d.row.payload.digest with
      | some _ => exact .inl rfl
      | none =>
          obtain ⟨req, hreq, -⟩ := hkey d (some e) (delivers_of_answerOf ht hc)
          exact .inr ⟨req, hreq, haddressed.dedupKey hc hd hreq⟩

end Invariant

/-! ## Turns -/

section Turns

variable {rt} {s s' : Deployment K} {h : List (Transition (Deployment K) Turn)}

/-- A request leaves a row where it is that is for PagerDuty, has a handle, or is in hand. -/
theorem KeepsHandles.stays {q : Request} (hc : KeepsHandles rt ⟨s, .request q, s'⟩)
    (hnext : deploymentNext rt s (.request q) = some s') {k : ℕ} {r : OutboxRow}
    (hr : s.db.outbox.find? k = some r)
    (hkept : r.channel = .pagerduty ∨ r.externalRef ≠ none ∨
      ∃ w, ∃ row ∈ (s.phase w).inHand, row.outboxId = k) : s'.db.outbox.find? k = some r := by
  obtain ⟨r', hr', hm⟩ := (engineNext_queued (deploymentNext_request hnext).1).kept k r hr
  rw [hr', hm.eq_of_not]
  rintro hp ⟨htouch, hnon⟩
  obtain ⟨hnone, hch, hfree⟩ := (hc.redirect q rfl _ htouch hnon).1 k r hr hp rfl
  rcases hkept with hpd | href | ⟨w, row, hrow, hk⟩
  · exact hch hpd
  · exact href hnone
  · exact hfree w row hrow hk

/-- A row for PagerDuty that a request adds names its incident. -/
theorem KeepsHandles.adds {q : Request} (hc : KeepsHandles rt ⟨s, .request q, s'⟩)
    (hnext : deploymentNext rt s (.request q) = some s') {k : ℕ} {r' : OutboxRow}
    (hk : s.db.outbox.find? k = none) (hr' : s'.db.outbox.find? k = some r') :
    r'.externalRef = none ∧ (r'.channel = .pagerduty → r'.payload.incidentId = some r'.incidentId) := by
  obtain ⟨r, ⟨hnew, -, hpages⟩, hm⟩ :=
    (engineNext_queued (deploymentNext_request hnext).1).added k r' hk hr'
  refine ⟨?_, fun hch => ?_⟩
  · rw [hm.frame]
    exact hnew.unsent
  · have hpage : Pages rt s.db q r.incidentId r.action := hpages (by rw [hm.frame] at hch; exact hch)
    rw [hm.eq_of_not]
    · exact hnew.about
    · rintro - ⟨htouch, hnon⟩
      exact (hc.redirect q rfl _ htouch hnon).2 _ hpage

/-- A request keeps the invariant. -/
theorem HandleInvariant.request {q : Request} (hI : HandleInvariant h s)
    (hc : KeepsHandles rt ⟨s, .request q, s'⟩) (hnext : deploymentNext rt s (.request q) = some s') :
    HandleInvariant (⟨s, .request q, s'⟩ :: h) s' := by
  obtain ⟨hengine, hphase⟩ := deploymentNext_request hnext
  -- a row after the request is new, or was there and has not lost its name or its handle
  have hrow : ∀ k r', s'.db.outbox.find? k = some r' → s.db.outbox.find? k = none ∨
      ∃ r, s.db.outbox.find? k = some r ∧
        (r' = r ∨ r'.channel ≠ .pagerduty ∧ r'.externalRef = none) := by
    intro k r' hr'
    cases hr : s.db.outbox.find? k with
    | none => exact .inl rfl
    | some r =>
        refine .inr ⟨r, rfl, ?_⟩
        by_cases hkept : r.channel = .pagerduty ∨ r.externalRef ≠ none
        · refine .inl (Option.some.inj (hr'.symm.trans (hc.stays hnext hr ?_)))
          exact hkept.imp_right .inl
        · push Not at hkept
          obtain ⟨r₁, hr₁, hm⟩ := (engineNext_queued hengine).kept k r hr
          obtain rfl := Option.some.inj (hr₁.symm.trans hr')
          rw [hm.frame]
          exact .inr hkept
  refine ⟨fun k r' hr' hpd => ?_, fun k r' hr' e he => ?_, fun w row hrow => ?_, ?_, ?_⟩
  · rcases hrow k r' hr' with hnew | ⟨r, hr, rfl | ⟨hch, -⟩⟩
    · obtain ⟨hunsent, habout⟩ := hc.adds hnext hnew hr'
      refine ⟨habout hpd.channel, fun e he => ?_⟩
      rw [hunsent] at he
      cases he
    · exact hI.own k r' hr hpd
    · exact absurd hpd.channel hch
  · rcases hrow k r' hr' with hnew | ⟨r, hr, rfl | ⟨-, hnone⟩⟩
    · rw [(hc.adds hnext hnew hr').1] at he
      cases he
    · exact (hI.handle k r' hr e he).cons
    · rw [hnone] at he
      cases he
  · rw [hphase] at hrow
    obtain ⟨⟨r, hr, hsame⟩, hcopied⟩ := hI.copied w row hrow
    exact ⟨⟨r, hc.stays hnext hr (.inr (.inr ⟨w, row, hrow, rfl⟩)), hsame⟩, hcopied.cons⟩
  · rw [hphase]
    exact hI.addressed
  · rw [hphase]
    exact fun w => (hI.sends w).cons

omit [Field K] [LinearOrder K] in
/-- A step of a worker keeps what it sends and records with the handles of its incidents. -/
theorem WorkerMove.ownHandles {w : String} {db db' : Database K} {phase phase' : Phase}
    {step : WorkerStep} {t : Transition (Deployment K) Turn}
    (hmove : WorkerMove rt w db phase step phase' db') (hsends : phase.ownHandles h)
    (hprepare : ∀ row ∈ phase.inHand, ∀ e, (prepareDispatch row db).externalRef = some e →
      Handle h row.channel row.incidentId e)
    (hanswer : ∀ d batch e now, phase = .calling d batch → step = .callReturns now (.ok (some e)) →
      Handle (t :: h) d.row.channel d.row.incidentId e) : phase'.ownHandles (t :: h) := by
  cases hmove with
  | prepare =>
      intro e he
      rw [prepareDispatch_row]
      exact (hprepare _ List.mem_cons_self e he).cons
  | handOff _ => exact fun e he => (hsends e he).cons
  | returned =>
      rintro e rfl
      exact hanswer _ _ _ _ rfl rfl
  | park _ => split_ifs <;> exact trivial
  | _ => exact trivial

/-- A step of a worker keeps the invariant. -/
theorem HandleInvariant.worker {w : String} {step : WorkerStep} (hI : HandleInvariant h s)
    (hrun : DeploymentRun rt h s) (hc : KeepsHandles rt ⟨s, .worker w step, s'⟩)
    (hts : AnswersWithTs (⟨s, .worker w step, s'⟩ : Transition (Deployment K) Turn))
    (hkey : AnswersWithKey (⟨s, .worker w step, s'⟩ : Transition (Deployment K) Turn))
    (hnext : deploymentNext rt s (.worker w step) = some s') :
    HandleInvariant (⟨s, .worker w step, s'⟩ :: h) s' := by
  obtain ⟨hmove, hothers⟩ := deploymentNext_worker hnext
  obtain ⟨hrows, hnew⟩ := hmove.rows
  have hfail := fun now channel batch hstep => hc.failover w now channel batch (congrArg (Turn.worker w) hstep)
  -- the row that is marked as sent is the one the worker has in hand
  have hdelivered : ∀ {k r d newRef batch}, s.db.outbox.find? k = some r →
      s.phase w = .delivered d newRef batch → d.row.outboxId = k → SameNames d.row r := by
    rintro k r d newRef batch hr hp rfl
    obtain ⟨⟨r₁, hr₁, hsame⟩, -⟩ := hI.copied w d.row (by rw [hp]; exact List.mem_cons_self)
    obtain rfl := Option.some.inj (hr.symm.trans hr₁)
    exact hsame
  refine ⟨fun k r' hr' hpd => ?_, fun k r' hr' e he => ?_, fun w' row hrow => ?_, fun w' => ?_, fun w' => ?_⟩
  · cases hr : s.db.outbox.find? k with
    | none =>
        obtain ⟨-, hunsent, habout⟩ := (hnew k r' hr hr').forPagerDuty hpd.channel hfail
        refine ⟨habout hpd.no_digest, fun e he => ?_⟩
        rw [hunsent] at he
        cases he
    | some r =>
        obtain ⟨r₁, hr₁, hs⟩ := hrows k r hr
        obtain rfl := Option.some.inj (hr₁.symm.trans hr')
        obtain ⟨hid, hch, -, habout, hdig⟩ := hs.names
        have hpd₀ : ForPagerDuty r := ⟨hch ▸ hpd.channel, hdig ▸ hpd.no_digest⟩
        obtain ⟨hown, hhandle⟩ := hI.own k r hr hpd₀
        refine ⟨by rw [habout, hid, hown], fun e he => ?_⟩
        rw [hid]
        rcases hs.externalRef with hsame | ⟨d, newRef, batch, hp, hk, href⟩
        · exact hhandle e (hsame ▸ he)
        · rw [href] at he
          rcases Option.or_eq_some_iff.1 he with he | ⟨-, he⟩
          · have hnames := hdelivered hr hp hk
            have haddr := hI.addressed w
            rw [hp] at haddr
            rw [← hnames.incidentId]
            exact haddr (hnames.channel.trans hpd₀.channel) (hnames.digest.trans hpd₀.no_digest) e he
          · exact hhandle e he
  · cases hr : s.db.outbox.find? k with
    | none =>
        cases hnew k r' hr hr' with
        | digest _ => cases he
        | failover _ _ _ _ => cases he
    | some r =>
        obtain ⟨r₁, hr₁, hs⟩ := hrows k r hr
        obtain rfl := Option.some.inj (hr₁.symm.trans hr')
        obtain ⟨hid, hch, -⟩ := hs.names
        rw [hid, hch]
        rcases hs.externalRef with hsame | ⟨d, newRef, batch, hp, hk, href⟩
        · exact (hI.handle k r hr e (hsame ▸ he)).cons
        · rw [href] at he
          rcases Option.or_eq_some_iff.1 he with he | ⟨-, he⟩
          · have hnames := hdelivered hr hp hk
            have hsends := hI.sends w
            rw [hp] at hsends
            rw [← hnames.incidentId, ← hnames.channel]
            exact (hsends e he).cons
          · exact (hI.handle k r hr e he).cons
  · by_cases hselected : w' = w ∧ step = .select
    · obtain ⟨rfl, rfl⟩ := hselected
      generalize hp' : s'.phase w' = phase' at hmove hrow
      cases hp : s.phase w' with
      | leased leaseUntil halfOpen =>
          rw [hp] at hmove
          generalize hdb : s'.db = db' at hmove
          cases hmove
          obtain ⟨k, r, hr, rfl, -⟩ := mem_leasedRows ((trimHalfOpen_sublist _ _ _ _).subset hrow)
          refine ⟨⟨r, hr, rfl, rfl, rfl, rfl⟩, fun e he => (hI.handle k r hr e he).cons, fun hch hd e he => ?_⟩
          exact (hI.own k r hr ⟨hch, hd⟩).2 e he
      | _ =>
          rw [hp] at hmove
          cases hmove
    · have hheld : row ∈ (s.phase w').inHand := by
        by_cases hw : w' = w
        · subst hw
          exact hmove.hadInHand (fun hstep => hselected ⟨rfl, hstep⟩) hrow
        · rwa [hothers w' hw] at hrow
      obtain ⟨⟨r, hr, hsame⟩, hcopied⟩ := hI.copied w' row hheld
      obtain ⟨r', hr', hs⟩ := hrows _ r hr
      exact ⟨⟨r', hr', hsame.step hs⟩, hcopied.cons⟩
  · by_cases hw : w' = w
    · subst hw
      refine hmove.addressed (hI.addressed w') (fun row hrow => hI.addresses hrun.named hrow) ?_
      rintro d batch newRef now hp rfl hch
      exact hkey d newRef ⟨w', now, batch, rfl, hp, hch⟩
    · rw [hothers w' hw]
      exact hI.addressed w'
  · by_cases hw : w' = w
    swap
    · rw [hothers w' hw]
      exact (hI.sends w').cons
    subst hw
    refine hmove.ownHandles (hI.sends w') (fun row hrow => hI.prepares hrow) ?_
    rintro d batch e now hp rfl
    have hsends := hI.sends w'
    have haddressed := hI.addressed w'
    rw [hp] at hsends haddressed
    refine handle_of_answer hsends haddressed ?_ hts hkey
    unfold answerOf
    dsimp only
    rw [hp]

theorem handleInvariant_of_run (r : DeploymentRun rt h s)
    (hc : ∀ t ∈ h, AnswersWithTs t ∧ AnswersWithKey t ∧ KeepsHandles rt t) : HandleInvariant h s := by
  refine Run.induct_of_forall (I := HandleInvariant) r hc ?_ ?_
  · rintro s rfl
    refine ⟨fun k r hr => ?_, fun k r hr => ?_, fun w row hrow => absurd hrow List.not_mem_nil,
      fun w => trivial, fun w => trivial⟩
    · simp [Deployment.initial, Database.empty] at hr
    · simp [Deployment.initial, Database.empty] at hr
  · rintro h s turn s' hrun - hI ⟨hts, hkey, hkeeps⟩ hnext
    cases turn with
    | request q => exact hI.request hkeeps hnext
    | worker w step => exact hI.worker hrun hkeeps hts hkey hnext

/-- **Every handle is of a message that was sent for the incident it is kept for**, on a row that
is sent and in every call that is made, in every run of any number of workers in which the
providers answer with what they are given and no request redirects a row that is in hand,
has a handle or is for PagerDuty. -/
theorem handles_of_run (r : DeploymentRun rt h s)
    (hc : ∀ t ∈ h, AnswersWithTs t ∧ AnswersWithKey t ∧ KeepsHandles rt t) :
    (∀ k row, s.db.outbox.find? k = some row → row.status = .sent → ∀ e, row.externalRef = some e →
      Handle h row.channel row.incidentId e) ∧
    ∀ w d batch, s.phase w = .calling d batch → ∀ e, d.externalRef = some e →
      Handle h d.row.channel d.row.incidentId e := by
  have hI := handleInvariant_of_run r hc
  refine ⟨fun k row hrow _ => hI.handle k row hrow, fun w d batch hp => ?_⟩
  have hsends := hI.sends w
  rwa [hp] at hsends

end Turns


/-! ## Two runs -/

/-- What is enough for a turn to keep handles with their incidents: no storms and no failover. -/
def calm (t : Transition (Deployment K) Turn) : Bool :=
  t.target.db.incidentGroups.rows.isEmpty &&
    match t.label with
    | .worker w _ => match t.source.phase w with
      | .failingOver _ _ => false
      | _ => true
    | .request _ => true

variable {rt} in
theorem keepsHandles_of_calm {t : Transition (Deployment K) Turn} (h : calm t = true) : KeepsHandles rt t := by
  simp only [calm, Bool.and_eq_true, List.isEmpty_iff] at h
  obtain ⟨hgroups, hphase⟩ := h
  refine ⟨fun q _ x _ hnon => ?_, fun w now channel batch hlabel hp => ?_⟩
  · obtain ⟨i, g, group, -, -, hg, -⟩ := hnon
    have hmem := Table.find?_eq_some_iff.1 hg
    rw [hgroups] at hmem
    exact absurd hmem List.not_mem_nil
  · rw [hlabel] at hphase
    dsimp only at hphase
    rw [hp] at hphase
    cases hphase

/-- What `AnswersWithTs` asks for. -/
def answersWithTs (t : Transition (Deployment K) Turn) : Bool :=
  (answerOf t).all fun a => a.1.row.channel ≠ .slack ||
    a.1.slackRequest.toOption.any fun req => req.ts.all fun ts => a.2 = some ts

omit [Field K] [LinearOrder K] in
theorem answersWithTs_of_check {t : Transition (Deployment K) Turn} (h : answersWithTs t = true) :
    AnswersWithTs t := by
  intro d newRef ha hc
  unfold answersWithTs at h
  rw [ha, Option.all_some, Bool.or_eq_true, decide_eq_true_eq] at h
  obtain ⟨req, hreq, hts⟩ := Library.toOption_any_eq_true.1 (h.resolve_left (by simp [hc]))
  refine ⟨req, hreq, fun ts h => ?_⟩
  rw [h] at hts
  simpa using hts

/-- A card is sent, and edited by the incident's next alert. -/
def editedCard : List Turn :=
  .request (.ingest "A" "unused" 0 (alertOf "disk" "1")) :: claimTurns "w" 1000 0 ++
    callTurns "w" 1000 1500 (.ok (some "ts-1")) ++ settleTurns "w" 1500 ++
    .worker "w" .sleep :: .request (.ingest "unused" "unused" 2000 (alertOf "disk" "2")) ::
    claimTurns "w" 3000 1 ++ callTurns "w" 3000 3500 (.ok (some "ts-1")) ++ settleTurns "w" 3500

/-- The two rows of a card carry its `ts`. -/
theorem handles_of_run_edit : ∃ h s, DeploymentRun Runtime.reference h s ∧
    s.db.outbox.rows.map (fun r => (r.2.incidentId, r.2.status, r.2.externalRef)) =
      [("A", .sent, some "ts-1"), ("A", .sent, some "ts-1")] ∧
    ((∀ k row, s.db.outbox.find? k = some row → row.status = .sent → ∀ e, row.externalRef = some e →
      Handle h row.channel row.incidentId e) ∧
    ∀ w d batch, s.phase w = .calling d batch → ∀ e, d.externalRef = some e →
      Handle h d.row.channel d.row.incidentId e) := by
  have hreplay : (Library.replay (deploymentNext Runtime.reference) editedCard
      ([], Deployment.initial)).map (fun s =>
        (s.2.db.outbox.rows.map (fun r => (r.2.incidentId, r.2.status, r.2.externalRef)),
          s.1.all fun t => answersWithTs t && (noAnswer t && calm t))) =
      some ([("A", .sent, some "ts-1"), ("A", .sent, some "ts-1")], true) := by decide +kernel
  obtain ⟨h, s, hrun, heq⟩ := DeploymentRun.of_replay hreplay
  obtain ⟨hrows, hcheck⟩ := Prod.mk.inj heq
  simp only [List.all_eq_true, Bool.and_eq_true] at hcheck
  refine ⟨h, s, hrun, hrows, handles_of_run hrun fun t ht => ?_⟩
  obtain ⟨hts, hkey, hcalm⟩ := hcheck t ht
  exact ⟨answersWithTs_of_check hts, answersWithKey_of_noAnswer hkey, keepsHandles_of_calm hcalm⟩

/-- Two cards are in a worker's hand, and the first one is sent; while the second one is on its
way, a storm has its row redirected to the first one's incident. -/
def redirectedInHand : List Turn :=
  [.request (.ingest "A" "unused" 1000 (alertOf "disk" "1")),
    .request (.ingest "B" "unused" 1000 (alertOf "api" "2"))] ++ claimTurns "w" 2000 0 ++
  callTurns "w" 2000 2500 (.ok (some "ts-1")) ++ settleTurns "w" 2500 ++
  [.worker "w" .prepare, .worker "w" (.handOff 2500),
    .request (.ingest "C" "storm" 2600 (alertOf "api" "3")),
    .worker "w" (.callReturns 3000 (.ok (some "ts-2")))] ++ settleTurns "w" 3000

/-- A call for the incident on the channel answers with the handle. -/
def answersFor (c : Channel) (x e : String) (t : Transition (Deployment K) Turn) : Bool :=
  (answerOf t).any fun a => a.1.row.channel = c && a.1.row.incidentId = x && a.2 = some e

/-- **A row with the handle of another incident's card.** -/
theorem not_handles : ¬ ∀ h s, DeploymentRun Runtime.reference h s →
    (∀ t ∈ h, t.label.isOf ["w"] = true ∧ AnswersWithTs t ∧ AnswersWithKey t) →
    ∀ k row, s.db.outbox.find? k = some row → row.status = .sent → ∀ e, row.externalRef = some e →
      Handle h row.channel row.incidentId e := by
  intro hclaim
  have hreplay : (Library.replay (deploymentNext Runtime.reference) redirectedInHand
      ([], Deployment.initial)).map (fun s =>
        ((s.2.db.outbox.find? 2).any fun r => r.channel = .slack && (r.incidentId = "A" &&
            (r.status = .sent && r.externalRef = some "ts-2")),
          s.1.all fun t => !answersFor .slack "A" "ts-2" t &&
            (t.label.isOf ["w"] && (answersWithTs t && noAnswer t)))) =
      some (true, true) := by decide +kernel
  obtain ⟨h, s, hrun, heq⟩ := DeploymentRun.of_replay hreplay
  obtain ⟨hrow, hcheck⟩ := Prod.mk.inj heq
  simp only [List.all_eq_true, Bool.and_eq_true] at hcheck
  simp only [Option.any_eq_true, Bool.and_eq_true, decide_eq_true_eq] at hrow
  obtain ⟨row, hfind, hc, hx, hsent, href⟩ := hrow
  have hprovider : ∀ t ∈ h, t.label.isOf ["w"] = true ∧ AnswersWithTs t ∧ AnswersWithKey t := by
    intro t ht
    obtain ⟨-, hone, hts, hkey⟩ := hcheck t ht
    exact ⟨hone, answersWithTs_of_check hts, answersWithKey_of_noAnswer hkey⟩
  obtain ⟨t, ht, d, hanswer, hdc, hdx, -⟩ := hclaim h s hrun hprovider 2 row hfind hsent "ts-2" href
  have hnone := (hcheck t ht).1
  unfold answersFor at hnone
  simp [hanswer, hdc, hdx, hc, hx] at hnone

end PulseGraph
