/-
# One card for an incident

An incident has one message on Slack: its first delivery posts it, and every later one edits
it by the `ts` that `_resolve_external_ref` finds on the rows that are sent.  A row that is to
`create` a card posts one whether there is one or not, so that there must never be such a row
once the incident has a card, or has a row in hand that may become one.

**Proved here.**  With a single worker that does not die, after a message was posted for an
incident every delivery to Slack for it edits that message (`oneCard_of_run`), as long as no
request redirects an incident the worker has a Slack row of in hand, nothing that is to open a
page fails over to Slack for an incident that has a card there or a row in hand, and a claim
that is not for Slack finds none of its rows under the lease it takes but the only one of
their incident.  `not_oneCard` has a page that fails over to Slack while the card is in hand.
-/

import PulseGraph.Outbox.Handles
import PulseGraph.Outbox.Lease

namespace PulseGraph

open Library (Table Run Transition)

variable {K : Type}

/-! ## Cards -/

/-- The row is a delivery to Slack for the incident. -/
def ClaimedRow.forCard (row : ClaimedRow) (x : String) : Prop := row.channel = .slack ∧ row.incidentId = x

/-- The dispatch posts a message. -/
def Dispatch.posts (d : Dispatch) : Prop :=
  ∃ req, d.slackRequest = .ok req ∧ req.method = .postMessage

/-- The dispatch edits the message. -/
def Dispatch.edits (d : Dispatch) (ts : String) : Prop :=
  ∃ req, d.slackRequest = .ok req ∧ req.method = .update ∧ req.ts = some ts

/-- **One card**: after a message was posted for the incident, whatever is delivered to Slack
for it edits that message.  (A history has its newest transition first.) -/
def OneCard (h : List (Transition (Deployment K) Turn)) (x : String) : Prop :=
  h.Pairwise fun later earlier => ∀ d₁ ref₁ d₂ ref₂, answerOf earlier = some (d₁, ref₁) →
    d₁.row.forCard x → d₁.posts → answerOf later = some (d₂, ref₂) → d₂.row.forCard x →
    ∃ ts, ref₁ = some ts ∧ d₂.edits ts

/-- A message for the incident is posted in a transition. -/
def postsFor (x : String) (t : Transition (Deployment K) Turn) : Bool :=
  (answerOf t).any fun a => a.1.row.channel = .slack && (a.1.row.incidentId = x &&
    a.1.slackRequest.toOption.any fun req => req.method = .postMessage)

/-- Slack names every message, by a text that is not empty. -/
def NamesMessage (t : Transition (Deployment K) Turn) : Prop :=
  ∀ d newRef, answerOf t = some (d, newRef) → d.row.channel = .slack → ∃ ts, newRef = some ts ∧ ts ≠ ""

/-- `_poll_once` holds the write lock. -/
def Phase.locks : Phase → Bool
  | .polled _ _ _ => true
  | .coalesced _ _ _ => true
  | .leased _ _ => true
  | _ => false

/-- No request is served while a worker holds the write lock. -/
def Serialized (t : Transition (Deployment K) Turn) : Prop :=
  ∀ q, t.label = .request q → ∀ w, (t.source.phase w).locks = false

/-- The incident has a card on Slack: a row of it that is sent, with the `ts`. -/
def Card (db : Database K) (x ts : String) : Prop :=
  ∃ k r, db.outbox.find? k = some r ∧ r.channel = .slack ∧ r.incidentId = x ∧ r.status = .sent ∧
    r.externalRef = some ts

variable [Field K] [LinearOrder K] (rt : Runtime K)

/-- What keeps an incident to one card, in one turn. -/
structure KeepsCards (t : Transition (Deployment K) Turn) : Prop where
  /-- no request redirects an incident with a Slack row in hand -/
  redirect : ∀ q, t.label = .request q → ∀ x, Touches rt t.source.db q x → NonAnchor t.target.db x →
    ∀ w, ∀ row ∈ (t.source.phase w).inHand, ¬ row.forCard x
  /-- what is to open a page does not fail over to Slack for an incident that has a card there, or
  a row in hand -/
  failover : ∀ w now channel batch, t.label = .worker w (.settle now) →
    t.source.phase w = .failingOver channel batch → ∀ k r target,
    (k, r) ∈ failoverCandidates channel t.source.db → isFailoverWorthy r.priority = true →
    selectFailover channel r.action (failoverAvailable channel t.source.db) = some target →
    target.channel = .slack → target.action = .create → r.payload.digest = none →
    (∀ ts, ¬ Card t.source.db r.incidentId ts) ∧ ∀ row ∈ batch, ¬ row.forCard r.incidentId
  /-- a claim that is not for Slack finds no row there under its lease but the only one that waits
  for its incident -/
  lease : ∀ w clock now available halfOpen, t.label = .worker w (.claim clock) →
    t.source.phase w = .coalesced now available halfOpen → .slack ∉ available →
    ∀ x k r k' r', t.source.db.outbox.find? k = some r → isPendingFor .slack x r = true →
    r.lockedBy = some w → r.lockedUntil = some (secondsAfter clock rt.settings.outboxLeaseSeconds) →
    t.source.db.outbox.find? k' = some r' → isPendingFor .slack x r' = true → k = k'

/-! ## The invariant -/

/-- A row in hand waits, and the copy of a delivery to Slack is what it was copied from. -/
structure Copy (row : ClaimedRow) (r : OutboxRow) : Prop where
  waits : r.status = .pending
  channel : row.channel = r.channel
  same : row.channel = .slack → row.incidentId = r.incidentId ∧ row.action = r.action ∧
    row.payload.digest = r.payload.digest ∧ row.externalRef = r.externalRef

/-- What is handed to Slack for an incident with a card edits the card. -/
def OnCard (db : Database K) (x : String) (d : Dispatch) : Prop :=
  d.row.forCard x → ∀ ts, Card db x ts → ∀ req, d.slackRequest = .ok req →
    req.method = .update ∧ req.ts = some ts

/-- And so does what a worker is about to send; what has been taken is the card. -/
def Phase.onCard (db : Database K) (x : String) : Phase → Prop
  | .prepared d _ => OnCard db x d
  | .calling d _ => OnCard db x d
  | .delivered d newRef _ => d.row.forCard x →
      ∃ ts, newRef = some ts ∧ ts ≠ "" ∧ ∀ ts', Card db x ts' → ts' = ts
  | _ => True

/-- A worker is about to mark a row of the incident with the `ts`. -/
def Phase.delivers (x ts : String) : Phase → Prop
  | .delivered d newRef _ => d.row.forCard x ∧ newRef = some ts
  | _ => False

/-- Between the collapse and the selection one row at most waits for the incident, of those that
will be selected. -/
def Phase.waitsOnce (w : String) (db : Database K) (x : String) : Phase → Prop
  | .coalesced _ available _ => .slack ∈ available → OneWaits .slack db.outbox
  | .leased leaseUntil _ => ∀ k r k' r', db.outbox.find? k = some r → isPendingFor .slack x r = true →
      r.lockedBy = some w → r.lockedUntil = some leaseUntil →
      db.outbox.find? k' = some r' → isPendingFor .slack x r' = true → k = k'
  | _ => True

/-- What is kept for an incident `x`, with `w` the only worker. -/
structure CardInvariant (w x : String) (h : List (Transition (Deployment K) Turn)) (phase : Phase)
    (db : Database K) : Prop where
  blank : ∀ k r, db.outbox.find? k = some r → r.status = .pending → r.externalRef = none
  unique : ∀ ts ts', Card db x ts → Card db x ts' → ts = ts'
  nonempty : ∀ ts, Card db x ts → ts ≠ ""
  copied : ∀ row ∈ phase.inHand, ∃ r, db.outbox.find? row.outboxId = some r ∧ Copy row r
  one : ∀ row ∈ phase.inHand, ∀ row' ∈ phase.inHand, row.forCard x → row'.forCard x →
    row.outboxId = row'.outboxId
  opens : ∀ k r, db.outbox.find? k = some r → isPendingFor .slack x r = true → r.action = .create →
    (∀ ts, ¬ Card db x ts) ∧ ∀ row ∈ phase.inHand, row.forCard x → row.outboxId = k
  sends : phase.onCard db x
  posted : ∀ t ∈ h, ∀ d newRef, answerOf t = some (d, newRef) → d.row.forCard x → d.posts →
    ∃ ts, newRef = some ts ∧ (Card db x ts ∨ phase.delivers x ts)
  waitsOnce : phase.waitsOnce w db x

section Rows

variable {rt} {w x : String} {db db' : Database K} {phase phase' : Phase} {step : WorkerStep}

omit [Field K] [LinearOrder K] in
/-- An incident with a card is found to have one. -/
theorem Card.resolves {ts : String} (h : Card db x ts) :
    ∃ ts', resolveExternalRef x .slack db = some ts' ∧ Card db x ts' := by
  obtain ⟨k, r, hr, hc, hx, hsent, href⟩ := h
  unfold resolveExternalRef
  cases hf : firstBy (fun a b => decide (b.1 < a.1)) (db.outbox.select fun _ r =>
      r.incidentId = x && r.channel = .slack && r.status = .sent && r.externalRef.isSome) with
  | none =>
      have hmem : (k, r) ∈ db.outbox.select fun _ r =>
          r.incidentId = x && r.channel = .slack && r.status = .sent && r.externalRef.isSome :=
        Table.mem_select.2 ⟨hr, by simp [hc, hx, hsent, href]⟩
      rw [firstBy_eq_none.1 hf] at hmem
      exact absurd hmem List.not_mem_nil
  | some first =>
      obtain ⟨k', r'⟩ := first
      obtain ⟨hr', hsel⟩ := Table.mem_select.1 (firstBy_mem hf)
      simp only [Bool.and_eq_true, decide_eq_true_eq] at hsel
      obtain ⟨⟨⟨hx', hc'⟩, hsent'⟩, href'⟩ := hsel
      obtain ⟨ts', hts'⟩ := Option.isSome_iff_exists.1 href'
      exact ⟨ts', hts', k', r', hr', hc', hx', hsent', hts'⟩

omit [Field K] [LinearOrder K] in
/-- A row that is sent after a step was sent before, or is marked now. -/
theorem RowStep.marks {k : ℕ} {r r' : OutboxRow} (h : RowStep rt w phase db step k r r')
    (hs : r'.status = .sent) : (r.status = .sent ∧ r'.externalRef = r.externalRef) ∨
      ∃ d newRef batch, phase = .delivered d newRef batch ∧ d.row.outboxId = k ∧
        r'.externalRef = newRef.or r.externalRef := by
  cases h with
  | same => exact .inl ⟨hs, rfl⟩
  | collapsed _ hcol _ =>
      cases hcol with
      | same => exact .inl ⟨hs, rfl⟩
      | winner _ _ => exact .inl ⟨hs, rfl⟩
      | loser _ _ _ _ _ => cases hs
  | leased _ _ => exact .inl ⟨hs, rfl⟩
  | noDispatcher _ _ => cases hs
  | sent hp => exact .inr ⟨_, _, _, hp, rfl, rfl⟩
  | rejected _ _ => cases hs
  | parked _ _ => exact .inl ⟨hs, rfl⟩
  | retried _ _ =>
      dsimp only at hs
      split_ifs at hs
  | fellOver _ _ _ => exact .inl ⟨hs, rfl⟩

omit [Field K] [LinearOrder K] in
/-- A row that waits after a step waited before: no row is brought back that is not in hand. -/
theorem RowStep.waited {k : ℕ} {r r' : OutboxRow} (h : RowStep rt w phase db step k r r')
    (hheld : ∀ row ∈ phase.inHand, row.outboxId = k → r.status = .pending)
    (hp : r'.status = .pending) : r.status = .pending ∧ r'.externalRef = r.externalRef := by
  cases h with
  | same => exact ⟨hp, rfl⟩
  | collapsed _ hcol _ =>
      cases hcol with
      | same => exact ⟨hp, rfl⟩
      | winner hp' _ => exact ⟨hp, rfl⟩
      | loser _ _ _ _ _ => cases hp
  | leased _ _ => exact ⟨hp, rfl⟩
  | noDispatcher _ _ => cases hp
  | sent _ => cases hp
  | rejected _ _ => cases hp
  | parked _ _ => exact ⟨hp, rfl⟩
  | retried hph _ => exact ⟨hheld _ (by rw [hph]; exact List.mem_cons_self) rfl, rfl⟩
  | fellOver _ _ _ => exact ⟨hp, rfl⟩

omit [Field K] [LinearOrder K] in
/-- A copy is a faithful one when it is claimed, and a fallback marker keeps it so. -/
theorem copy_held (hmove : WorkerMove rt w db phase step phase' db')
    (hn : (phase.inHand.map (·.outboxId)).Nodup)
    (hI : ∀ row ∈ phase.inHand, ∃ r, db.outbox.find? row.outboxId = some r ∧ Copy row r) :
    ∀ row ∈ phase'.inHand, ∃ r, db'.outbox.find? row.outboxId = some r ∧ Copy row r := by
  refine hmove.held hn (fun k r hp _ => ?_) (fun row r via hc => ?_) hI
  · exact ⟨hp, rfl, fun _ => ⟨rfl, rfl, rfl, rfl⟩⟩
  · exact ⟨hc.waits, hc.channel, hc.same⟩

end Rows

/-! ## A step of the worker -/

section Worker

variable {rt} {w x : String} {h : List (Transition (Deployment K) Turn)} {db db' : Database K}
  {phase phase' : Phase} {step : WorkerStep}

omit [Field K] [LinearOrder K] in
/-- **Where a card comes from**: it was there, or it is what the worker marks. -/
theorem CardInvariant.card_of_step (hI : CardInvariant w x h phase db)
    (hmove : WorkerMove rt w db phase step phase' db') {ts : String} (hcard : Card db' x ts) :
    Card db x ts ∨ ∃ d newRef batch r', phase = .delivered d newRef batch ∧ d.row.forCard x ∧
      newRef = some ts ∧ db'.outbox.find? d.row.outboxId = some r' ∧ r'.status = .sent := by
  obtain ⟨k, r', hr', hc, hx, hsent, href⟩ := hcard
  obtain ⟨hrows, hnew⟩ := hmove.rows
  cases hr : db.outbox.find? k with
  | none =>
      cases hnew k r' hr hr' with
      | digest _ => cases hsent
      | failover _ _ _ _ => cases hsent
  | some r =>
      obtain ⟨r₁, hr₁, hs⟩ := hrows k r hr
      obtain rfl := Option.some.inj (hr₁.symm.trans hr')
      obtain ⟨hid, hch, -⟩ := hs.names
      rcases hs.marks hsent with ⟨hsent₀, hsame⟩ | ⟨d, newRef, batch, hp, rfl, hmark⟩
      · exact .inl ⟨k, r, hr, hch ▸ hc, hid ▸ hx, hsent₀, hsame ▸ href⟩
      · obtain ⟨r₀, hr₀, hcopy⟩ := hI.copied d.row (by rw [hp]; exact List.mem_cons_self)
        obtain rfl := Option.some.inj (hr.symm.trans hr₀)
        have hslack : d.row.channel = .slack := by rw [hcopy.channel, ← hch, hc]
        have hfor : d.row.forCard x := by
          refine ⟨hslack, ?_⟩
          rw [(hcopy.same hslack).1, ← hid, hx]
        rw [hmark, hI.blank _ r hr hcopy.waits, Option.or_none] at href
        exact .inr ⟨d, newRef, batch, r₁, hp, hfor, href, hr₁, hsent⟩

omit [Field K] [LinearOrder K] in
/-- A card stays. -/
theorem CardInvariant.card_step (hI : CardInvariant w x h phase db)
    (hmove : WorkerMove rt w db phase step phase' db') {ts : String} (hcard : Card db x ts) :
    Card db' x ts := by
  obtain ⟨k, r, hr, hc, hx, hsent, href⟩ := hcard
  obtain ⟨r', hr', hs⟩ := hmove.rows.1 k r hr
  obtain rfl : r' = r := by
    refine hs.eq_of_settled hr (by rw [hsent]; decide) ?_
    rintro row hrow rfl
    obtain ⟨r₁, hr₁, hcopy⟩ := hI.copied row hrow
    obtain rfl := Option.some.inj (hr.symm.trans hr₁)
    rw [hcopy.waits] at hsent
    cases hsent
  exact ⟨k, r', hr', hc, hx, hsent, href⟩

omit [Field K] [LinearOrder K] in
/-- **Where a row that waits comes from**: it waited, or is new. -/
theorem CardInvariant.waits_of_step (hI : CardInvariant w x h phase db)
    (hmove : WorkerMove rt w db phase step phase' db') {k : ℕ} {r' : OutboxRow}
    (hr' : db'.outbox.find? k = some r') (hp : r'.status = .pending) :
    (∃ r, db.outbox.find? k = some r ∧ r.status = .pending ∧ r.channel = r'.channel ∧
      r.incidentId = r'.incidentId ∧ r.action = r'.action ∧ r'.externalRef = r.externalRef) ∨
    WorkerRow phase db step r' := by
  obtain ⟨hrows, hnew⟩ := hmove.rows
  cases hr : db.outbox.find? k with
  | none => exact .inr (hnew k r' hr hr')
  | some r =>
      obtain ⟨r₁, hr₁, hs⟩ := hrows k r hr
      obtain rfl := Option.some.inj (hr₁.symm.trans hr')
      obtain ⟨hid, hch, hact, -⟩ := hs.names
      have hheld : ∀ row ∈ phase.inHand, row.outboxId = k → r.status = .pending := by
        rintro row hrow rfl
        obtain ⟨r₀, hr₀, hcopy⟩ := hI.copied row hrow
        obtain rfl := Option.some.inj (hr.symm.trans hr₀)
        exact hcopy.waits
      obtain ⟨hwaited, href⟩ := hs.waited hheld hp
      exact .inl ⟨r, rfl, hwaited, hch.symm, hid.symm, hact.symm, href⟩

omit [Field K] [LinearOrder K] in
/-- No row that is added has a handle. -/
theorem WorkerRow.unsent {r : OutboxRow} (h : WorkerRow phase db step r) : r.externalRef = none := by
  cases h <;> rfl

omit [Field K] [LinearOrder K] in
/-- **A dispatch for an incident with a card edits the card.** -/
theorem CardInvariant.prepares (hI : CardInvariant w x h phase db) (hn : Named db)
    (hx : isDigestId x = false) {row : ClaimedRow} (hrow : row ∈ phase.inHand) :
    OnCard db x (prepareDispatch row db) := by
  intro hfor ts hcard req hreq
  rw [prepareDispatch_row] at hfor
  obtain ⟨hslack, hid⟩ := hfor
  obtain ⟨r, hr, hcopy⟩ := hI.copied row hrow
  obtain ⟨hid', hact, hdig, href⟩ := hcopy.same hslack
  have hpending : isPendingFor .slack x r = true :=
    isPendingFor_iff.2 ⟨hcopy.channel.symm.trans hslack, hcopy.waits, hid'.symm.trans hid⟩
  have hd : row.payload.digest = none := by
    by_contra hdigest
    have hname := hn.digest _ r hr (Option.ne_none_iff_isSome.1 (hdig ▸ hdigest))
    rw [(isPendingFor_iff.1 hpending).2.2, hx] at hname
    cases hname
  have hcreate : row.action ≠ .create := fun hca => (hI.opens _ r hr hpending (hact ▸ hca)).1 ts hcard
  obtain ⟨ts', hresolves, hcard'⟩ := hcard.resolves
  obtain rfl := hI.unique ts ts' hcard hcard'
  -- the row has no handle of its own, so the incident's is looked up
  have hblank : row.externalRef = none := href.trans (hI.blank _ r hr hcopy.waits)
  unfold Dispatch.slackRequest prepareDispatch at hreq
  rw [if_neg (by rw [hd]; decide)] at hreq
  dsimp only at hreq
  rw [hblank, hslack, hid, hresolves] at hreq
  refine slackRequest_edits hreq ?_ ?_ (hI.nonempty ts hcard)
  · rw [hydratePayload_digest, hd]
  · unfold effectiveAction
    split_ifs
    · decide
    · exact hcreate

omit [Field K] [LinearOrder K] in
/-- A copy of a delivery for the incident waits for it. -/
theorem Copy.isPendingFor {row : ClaimedRow} {r : OutboxRow} (hc : Copy row r) (hfor : row.forCard x) :
    isPendingFor .slack x r = true :=
  isPendingFor_iff.2 ⟨hc.channel.symm.trans hfor.1, hc.waits, (hc.same hfor.1).1.symm.trans hfor.2⟩

omit [Field K] [LinearOrder K] in
/-- **What is selected for the incident is all that waits for it.** -/
theorem CardInvariant.selected (hI : CardInvariant w x h phase db)
    (hmove : WorkerMove rt w db phase .select phase' db') {row : ClaimedRow} (hrow : row ∈ phase'.inHand)
    (hfor : row.forCard x) {k : ℕ} {r : OutboxRow} (hr : db'.outbox.find? k = some r)
    (hp : isPendingFor .slack x r = true) : row.outboxId = k := by
  have honce := hI.waitsOnce
  cases hmove with
  | @select leaseUntil halfOpen =>
      obtain ⟨k₀, r₀, hr₀, rfl, hp₀, hlock, huntil⟩ :=
        mem_leasedRows ((trimHalfOpen_sublist _ _ _ _).subset hrow)
      have hpending : isPendingFor .slack x r₀ = true := isPendingFor_iff.2 ⟨hfor.1, hp₀, hfor.2⟩
      exact honce k₀ r₀ k r hr₀ hpending hlock huntil hr hp

omit [Field K] [LinearOrder K] in
/-- One row of the incident at most is in hand. -/
theorem CardInvariant.one_step (hI : CardInvariant w x h phase db)
    (hmove : WorkerMove rt w db phase step phase' db') (hn : (phase.inHand.map (·.outboxId)).Nodup) :
    ∀ row ∈ phase'.inHand, ∀ row' ∈ phase'.inHand, row.forCard x → row'.forCard x →
      row.outboxId = row'.outboxId := by
  intro row hrow row' hrow' hfor hfor'
  by_cases hstep : step = .select
  · subst hstep
    obtain ⟨r', hr', hcopy⟩ := copy_held hmove hn hI.copied row' hrow'
    exact hI.selected hmove hrow hfor hr' (hcopy.isPendingFor hfor')
  · exact hI.one row (hmove.hadInHand hstep hrow) row' (hmove.hadInHand hstep hrow') hfor hfor'

omit [Field K] [LinearOrder K] in
/-- **No step of the worker brings a second card about**: a row that is to create one finds
neither a card nor another row in hand. -/
theorem CardInvariant.opens_step (hI : CardInvariant w x h phase db)
    (hmove : WorkerMove rt w db phase step phase' db') (hn : Named db) (hx : isDigestId x = false)
    (hfail : ∀ now channel batch, step = .settle now → phase = .failingOver channel batch →
      ∀ k r target, (k, r) ∈ failoverCandidates channel db → isFailoverWorthy r.priority = true →
      selectFailover channel r.action (failoverAvailable channel db) = some target →
      target.channel = .slack → target.action = .create → r.payload.digest = none →
      (∀ ts, ¬ Card db r.incidentId ts) ∧ ∀ row ∈ batch, ¬ row.forCard r.incidentId) :
    ∀ k r, db'.outbox.find? k = some r → isPendingFor .slack x r = true → r.action = .create →
      (∀ ts, ¬ Card db' x ts) ∧ ∀ row ∈ phase'.inHand, row.forCard x → row.outboxId = k := by
  intro k r' hr' hp' hcreate
  obtain ⟨hslack, hpending, hid⟩ := isPendingFor_iff.1 hp'
  rcases hI.waits_of_step hmove hr' hpending with ⟨r, hr, hp, hch, hinc, hact, -⟩ | hnew
  · obtain ⟨hnone, hhand⟩ := hI.opens k r hr
      (isPendingFor_iff.2 ⟨hch.trans hslack, hp, hinc.trans hid⟩) (hact.trans hcreate)
    refine ⟨fun ts hcard => ?_, fun row hrow hfor => ?_⟩
    · rcases hI.card_of_step hmove hcard with hcard | ⟨d, newRef, batch, r₁, hph, hfor, -, hr₁, hsent⟩
      · exact hnone ts hcard
      · -- the row that is marked would be the one that waits
        rw [hhand d.row (by rw [hph]; exact List.mem_cons_self) hfor] at hr₁
        obtain rfl := Option.some.inj (hr'.symm.trans hr₁)
        rw [hsent] at hpending
        cases hpending
    · by_cases hstep : step = .select
      · subst hstep
        exact hI.selected hmove hrow hfor hr' hp'
      · exact hhand row (hmove.hadInHand hstep hrow) hfor
  · cases hnew with
    | digest _ =>
        rw [← hid, isDigestId_digestRow] at hx
        cases hx
    | @failover now channel batch k₀ r₀ target hph hmem hworthy hsel =>
        have hid₀ : r₀.incidentId = x := hid
        have hd : r₀.payload.digest = none := by
          by_contra hdigest
          have hname := hn.digest k₀ r₀ (mem_failoverCandidates.1 hmem).1 (Option.ne_none_iff_isSome.1 hdigest)
          rw [hid₀, hx] at hname
          cases hname
        obtain ⟨hnone, hbatch⟩ := hfail now channel batch rfl hph k₀ r₀ target hmem hworthy hsel
          hslack hcreate hd
        rw [hid₀] at hnone hbatch
        refine ⟨fun ts hcard => ?_, fun row hrow hfor => ?_⟩
        · rcases hI.card_of_step hmove hcard with hcard | ⟨d, newRef, batch', -, hdel, -⟩
          · exact hnone ts hcard
          · rw [hph] at hdel
            cases hdel
        · have hheld := hmove.hadInHand (by simp) hrow
          rw [hph] at hheld
          exact absurd hfor (hbatch row hheld)

omit [Field K] [LinearOrder K] in
/-- What is on its way edits the card, and what has been taken is the card. -/
theorem CardInvariant.sends_step (hI : CardInvariant w x h phase db)
    (hmove : WorkerMove rt w db phase step phase' db') (hn : Named db) (hx : isDigestId x = false)
    (hanswer : ∀ d batch now newRef, phase = .calling d batch → step = .callReturns now (.ok newRef) →
      d.row.channel = .slack → (∃ req, d.slackRequest = .ok req ∧ ∀ ts, req.ts = some ts → newRef = some ts) ∧
        ∃ ts, newRef = some ts ∧ ts ≠ "") : phase'.onCard db' x := by
  have hsends := hI.sends
  cases hmove with
  | @prepare row batch => exact hI.prepares hn hx List.mem_cons_self
  | handOff _ => exact hsends
  | @returned now d batch newRef =>
      intro hfor
      obtain ⟨⟨req, hreq, hts⟩, ts, rfl, hne⟩ := hanswer d batch now newRef rfl rfl hfor.1
      refine ⟨ts, rfl, hne, fun ts' hcard => ?_⟩
      obtain ⟨-, hedit⟩ := hsends hfor ts' hcard req hreq
      exact (Option.some.inj (hts ts' hedit)).symm
  | park _ => split_ifs <;> exact trivial
  | _ => exact trivial

omit [Field K] [LinearOrder K] in
/-- What is about to be marked becomes a card. -/
theorem CardInvariant.delivers_step (hI : CardInvariant w x h phase db)
    (hmove : WorkerMove rt w db phase step phase' db') (hstep : step ≠ .crash) {ts : String}
    (hdel : phase.delivers x ts) : Card db' x ts := by
  cases hp : phase with
  | delivered d newRef batch =>
      rw [hp] at hdel
      obtain ⟨hfor, rfl⟩ := hdel
      obtain ⟨r, hr, hcopy⟩ := hI.copied d.row (by rw [hp]; exact List.mem_cons_self)
      obtain ⟨hc, -, hid⟩ := isPendingFor_iff.1 (hcopy.isPendingFor hfor)
      subst hp
      cases hmove with
      | @markSent now =>
          refine ⟨d.row.outboxId, { r.unlock with
            status := .sent
            sentAt := some now
            externalRef := (some ts).or r.externalRef }, ?_, hc, hid, rfl, rfl⟩
          rw [markSent, Table.find?_modify, if_pos rfl, hr]
          rfl
      | crash => exact absurd rfl hstep
  | _ =>
      rw [hp] at hdel
      exact hdel.elim

omit [Field K] [LinearOrder K] in
/-- From the collapse to the selection nothing is added to what waits. -/
theorem CardInvariant.waitsOnce_step (hI : CardInvariant w x h phase db)
    (hmove : WorkerMove rt w db phase step phase' db')
    (hlease : ∀ clock now available halfOpen, step = .claim clock → phase = .coalesced now available halfOpen →
      .slack ∉ available → ∀ k r k' r', db.outbox.find? k = some r → isPendingFor .slack x r = true →
      r.lockedBy = some w → r.lockedUntil = some (secondsAfter clock rt.settings.outboxLeaseSeconds) →
      db.outbox.find? k' = some r' → isPendingFor .slack x r' = true → k = k') :
    phase'.waitsOnce w db' x := by
  have honce := hI.waitsOnce
  cases hmove with
  | coalesce => exact fun hc => coalesceAvailable_oneWaits hc db
  | @claim clock now available halfOpen =>
      -- a claim writes locks, and those of rows on the channels it is for
      have hsource : ∀ {k r'}, (takeLease rt w available now
          (secondsAfter clock rt.settings.outboxLeaseSeconds) db).outbox.find? k = some r' →
          isPendingFor .slack x r' = true → ∃ r, db.outbox.find? k = some r ∧
            isPendingFor .slack x r = true ∧ (r' = r ∨ .slack ∈ available) := by
        intro k r' hr' hp'
        obtain ⟨r, hr, hset⟩ := Option.map_eq_some_iff.1 ((Table.find?_update _).symm.trans hr')
        split_ifs at hset with hclaimed
        · subst hset
          refine ⟨r, hr, hp', .inr ?_⟩
          obtain ⟨r₀, hr₀, hclaimable⟩ := mem_claimIds (List.contains_iff_mem.1 hclaimed)
          obtain rfl := Option.some.inj (hr.symm.trans hr₀)
          simp only [claimable, Bool.and_eq_true, decide_eq_true_eq] at hclaimable
          have hslack : r.channel = .slack := (isPendingFor_iff.1 hp').1
          exact hslack ▸ List.contains_iff_mem.1 hclaimable.1.2
        · exact ⟨r, hr, hset ▸ hp', .inl hset.symm⟩
      intro k r k' r' hr hp hlock huntil hr' hp'
      obtain ⟨r₀, hr₀, hp₀, hcases⟩ := hsource hr hp
      obtain ⟨r₁, hr₁, hp₁, -⟩ := hsource hr' hp'
      by_cases hc : .slack ∈ available
      · exact honce hc x k r₀ k' r₁ hr₀ hp₀ hr₁ hp₁
      · obtain rfl := hcases.resolve_right hc
        exact hlease clock now available halfOpen rfl rfl hc k r k' r₁ hr₀ hp₀ hlock huntil hr₁ hp₁
  | park _ => split_ifs <;> exact trivial
  | _ => exact trivial

end Worker

/-! ## A request -/

section Request

variable {rt} {w x : String} {h : List (Transition (Deployment K) Turn)} {db db' : Database K}
  {phase : Phase} {q : Request}

/-- A request writes no card. -/
theorem engineNext_card (h : engineNext rt db q = some db') {ts : String} : Card db' x ts ↔ Card db x ts := by
  have hq := engineNext_queuedTo h
  constructor
  · rintro ⟨k, r', hr', hc, hx, hsent, href⟩
    obtain ⟨r, hr, hm⟩ := hq.source hr'
    have hstatus : r.status = .sent := by
      rw [hm.frame] at hsent
      exact hsent
    obtain rfl : r' = r := by
      rcases hm.eq_or_update with heq | ⟨hp, -⟩
      · exact heq
      · rw [hp] at hstatus
        cases hstatus
    rcases hr with hr | ⟨-, ⟨hnew, -⟩, -⟩
    · exact ⟨k, r', hr, hc, hx, hsent, href⟩
    · rw [hnew.pending] at hstatus
      cases hstatus
  · rintro ⟨k, r, hr, hc, hx, hsent, href⟩
    obtain ⟨r', hr', hm⟩ := hq.kept k r hr
    obtain rfl : r' = r := by
      rcases hm.eq_or_update with heq | ⟨hp, -⟩
      · exact heq
      · rw [hp] at hsent
        cases hsent
    exact ⟨k, r', hr', hc, hx, hsent, href⟩

/-- **A row that is to create a card is about an incident that was not there**, so that it has no
card and no row in hand. -/
theorem CardInvariant.opens_request (hI : CardInvariant w x h phase db)
    (hengine : engineNext rt db q = some db') (hn : Named db) (ha : Addressees db)
    (hx : isDigestId x = false) :
    ∀ k r, db'.outbox.find? k = some r → isPendingFor .slack x r = true → r.action = .create →
      (∀ ts, ¬ Card db' x ts) ∧ ∀ row ∈ phase.inHand, row.forCard x → row.outboxId = k := by
  intro k r' hr' hp' hcreate
  simp only [engineNext_card hengine]
  obtain ⟨r, hr, hm⟩ := (engineNext_queuedTo hengine).source hr'
  obtain rfl : r' = r := by
    rcases hm.eq_or_update with heq | ⟨-, hact, -⟩
    · exact heq
    · rw [hact] at hcreate
      cases hcreate
  rcases hr with hr | ⟨-, -, hunknown⟩
  · exact hI.opens k r' hr hp' hcreate
  have hid := (isPendingFor_iff.1 hp').2.2
  -- every row of an incident that is no digest is about one that is there
  have hnone : ∀ k₀ r₀, db.outbox.find? k₀ = some r₀ → r₀.incidentId ≠ x := by
    intro k₀ r₀ hr₀ hid₀
    have hd : r₀.payload.digest = none := by
      by_contra hdigest
      have hname := hn.digest k₀ r₀ hr₀ (Option.ne_none_iff_isSome.1 hdigest)
      rw [hid₀, hx] at hname
      cases hname
    have hknown := ha k₀ r₀ hr₀ hd
    rw [Known, hid₀, ← hid, hunknown hcreate] at hknown
    cases hknown
  refine ⟨?_, fun row hrow hfor => ?_⟩
  · rintro ts ⟨k₀, r₀, hr₀, -, hid₀, -⟩
    exact hnone k₀ r₀ hr₀ hid₀
  · obtain ⟨r₀, hr₀, hcopy⟩ := hI.copied row hrow
    exact absurd (isPendingFor_iff.1 (hcopy.isPendingFor hfor)).2.2 (hnone _ r₀ hr₀)

/-- A request keeps the invariant. -/
theorem CardInvariant.request {t : Transition (Deployment K) Turn} (hI : CardInvariant w x h phase db)
    (hengine : engineNext rt db q = some db') (hn : Named db) (ha : Addressees db)
    (hx : isDigestId x = false) (hfree : phase.locks = false)
    (hredirect : ∀ y, Touches rt db q y → NonAnchor db' y → ∀ row ∈ phase.inHand, ¬ row.forCard y)
    (hanswer : answerOf t = none) : CardInvariant w x (t :: h) phase db' := by
  have hq := engineNext_queuedTo hengine
  have hcards : ∀ ts, Card db' x ts ↔ Card db x ts := fun ts => engineNext_card hengine
  refine ⟨fun k r' hr' hp => ?_, ?_, ?_, fun row hrow => ?_, hI.one,
    hI.opens_request hengine hn ha hx, ?_, fun u hu d newRef hu' hfor hposts => ?_, ?_⟩
  · obtain ⟨r, hr, hm⟩ := hq.source hr'
    rw [hm.frame] at hp ⊢
    rcases hr with hr | ⟨-, ⟨hnew, -⟩, -⟩
    · exact hI.blank k r hr hp
    · exact hnew.unsent
  · simp only [hcards]
    exact hI.unique
  · simp only [hcards]
    exact hI.nonempty
  · obtain ⟨r, hr, hcopy⟩ := hI.copied row hrow
    obtain ⟨r', hr', hm⟩ := hq.kept _ r hr
    refine ⟨r', hr', ?_⟩
    rcases hm.eq_or_update with rfl | ⟨-, -, ⟨a, htouch, hanchor⟩, -⟩
    · exact hcopy
    · refine ⟨?_, ?_, fun hslack => ?_⟩
      · rw [hm.frame]
        exact hcopy.waits
      · rw [hm.frame]
        exact hcopy.channel
      · exact absurd ⟨hslack, (hcopy.same hslack).1⟩ (hredirect _ htouch hanchor.nonAnchor row hrow)
  · have hsends := hI.sends
    cases phase with
    | prepared d batch => exact fun hfor ts hcard => hsends hfor ts ((hcards ts).1 hcard)
    | calling d batch => exact fun hfor ts hcard => hsends hfor ts ((hcards ts).1 hcard)
    | delivered d newRef batch =>
        intro hfor
        obtain ⟨ts, hts, hne, hone⟩ := hsends hfor
        exact ⟨ts, hts, hne, fun ts' hcard => hone ts' ((hcards ts').1 hcard)⟩
    | _ => exact trivial
  · rcases List.mem_cons.1 hu with rfl | hu
    · rw [hanswer] at hu'
      cases hu'
    · obtain ⟨ts, hts, hcases⟩ := hI.posted u hu d newRef hu' hfor hposts
      exact ⟨ts, hts, hcases.imp_left (hcards ts).2⟩
  · cases phase with
    | coalesced now available halfOpen => cases hfree
    | leased leaseUntil halfOpen => cases hfree
    | _ => exact trivial

end Request

/-! ## Every run -/

omit [Field K] [LinearOrder K] in
/-- **A single worker that does not die**, and Slack as it answers. -/
structure SingleWorker (w : String) (t : Transition (Deployment K) Turn) : Prop where
  one : t.label.isOf [w] = true
  alive : crashes t = false
  serialized : Serialized t
  edits : AnswersWithTs t
  names : NamesMessage t

section Run

variable {rt} {w x : String} {s s' : Deployment K} {h : List (Transition (Deployment K) Turn)}

/-- A turn keeps the invariant. -/
theorem CardInvariant.next {turn : Turn} (hI : CardInvariant w x h (s.phase w) s.db)
    (hrun : DeploymentRun rt h s) (hx : isDigestId x = false)
    (hsingle : SingleWorker w (⟨s, turn, s'⟩ : Transition (Deployment K) Turn))
    (hkeeps : KeepsCards rt ⟨s, turn, s'⟩) (hnext : deploymentNext rt s turn = some s') :
    CardInvariant w x (⟨s, turn, s'⟩ :: h) (s'.phase w) s'.db := by
  cases turn with
  | request q =>
      obtain ⟨hengine, hphase⟩ := deploymentNext_request hnext
      rw [hphase]
      exact hI.request hengine hrun.named hrun.addressees hx (hsingle.serialized q rfl w)
        (fun y htouch hnon => hkeeps.redirect q rfl y htouch hnon w) rfl
  | worker w' step =>
      obtain rfl : w' = w := List.mem_singleton.1 (List.contains_iff_mem.1 hsingle.one)
      have hmove := (deploymentNext_worker hnext).1
      have hn := hrun.nodup_inHand w'
      have hstep : step ≠ .crash := by
        rintro rfl
        exact absurd hsingle.alive (by simp [crashes])
      have hanswer : ∀ {d batch now newRef}, s.phase w' = .calling d batch →
          step = .callReturns now (.ok newRef) →
          answerOf (⟨s, .worker w' step, s'⟩ : Transition (Deployment K) Turn) = some (d, newRef) := by
        rintro d batch now newRef hp rfl
        unfold answerOf
        dsimp only
        rw [hp]
      refine ⟨fun k r' hr' hp => ?_, fun ts ts' hcard hcard' => ?_, fun ts hcard => ?_,
        copy_held hmove hn hI.copied, hI.one_step hmove hn,
        hI.opens_step hmove hrun.named hx fun now channel batch hs hp =>
          hkeeps.failover w' now channel batch (congrArg _ hs) hp,
        hI.sends_step hmove hrun.named hx ?_, fun t ht d newRef ht' hfor hposts => ?_,
        hI.waitsOnce_step hmove fun clock now available halfOpen hs hp hc =>
          hkeeps.lease w' clock now available halfOpen (congrArg _ hs) hp hc x⟩
      · rcases hI.waits_of_step hmove hr' hp with ⟨r, hr, hpending, -, -, -, href⟩ | hnew
        · exact href.trans (hI.blank k r hr hpending)
        · exact hnew.unsent
      · -- a card that is marked now is the one there was
        have hsends := hI.sends
        rcases hI.card_of_step hmove hcard with hold | ⟨d, newRef, batch, -, hp, hfor, rfl, -⟩ <;>
          rcases hI.card_of_step hmove hcard' with hold' | ⟨d', newRef', batch', -, hp', hfor', rfl, -⟩
        · exact hI.unique ts ts' hold hold'
        · rw [hp'] at hsends
          obtain ⟨ts₁, hts₁, -, hone⟩ := hsends hfor'
          exact (hone ts hold).trans (Option.some.inj hts₁).symm
        · rw [hp] at hsends
          obtain ⟨ts₁, hts₁, -, hone⟩ := hsends hfor
          exact (Option.some.inj hts₁).trans (hone ts' hold').symm
        · rw [hp] at hp'
          cases hp'
          rfl
      · have hsends := hI.sends
        rcases hI.card_of_step hmove hcard with hold | ⟨d, newRef, batch, -, hp, hfor, rfl, -⟩
        · exact hI.nonempty ts hold
        · rw [hp] at hsends
          obtain ⟨ts₁, hts₁, hne, -⟩ := hsends hfor
          exact (Option.some.inj hts₁) ▸ hne
      · rintro d batch now newRef hp hs hslack
        have ha := hanswer hp hs
        exact ⟨hsingle.edits d newRef ha hslack, hsingle.names d newRef ha hslack⟩
      · rcases List.mem_cons.1 ht with rfl | ht
        · obtain ⟨ts, hts, -⟩ := hsingle.names d newRef ht' hfor.1
          refine ⟨ts, hts, .inr ?_⟩
          obtain ⟨w₁, now, batch, hlabel, hp⟩ := answerOf_eq_some ht'
          cases hlabel
          rw [hp] at hmove
          generalize s'.phase w' = phase', s'.db = db' at hmove ⊢
          cases hmove
          exact ⟨hfor, hts⟩
        · obtain ⟨ts, hts, hcard | hdel⟩ := hI.posted t ht d newRef ht' hfor hposts
          · exact ⟨ts, hts, .inl (hI.card_step hmove hcard)⟩
          · exact ⟨ts, hts, .inl (hI.delivers_step hmove hstep hdel)⟩

omit [Field K] [LinearOrder K] in
/-- What is taken for an incident a message was posted for edits that message. -/
theorem CardInvariant.edits {turn : Turn} (hI : CardInvariant w x h (s.phase w) s.db)
    (hsingle : SingleWorker w (⟨s, turn, s'⟩ : Transition (Deployment K) Turn)) :
    ∀ t ∈ h, ∀ d₁ ref₁ d₂ ref₂, answerOf t = some (d₁, ref₁) → d₁.row.forCard x → d₁.posts →
      answerOf ⟨s, turn, s'⟩ = some (d₂, ref₂) → d₂.row.forCard x → ∃ ts, ref₁ = some ts ∧ d₂.edits ts := by
  intro t ht d₁ ref₁ d₂ ref₂ ht₁ hfor₁ hposts ht₂ hfor₂
  obtain ⟨ts, hts, hcases⟩ := hI.posted t ht d₁ ref₁ ht₁ hfor₁ hposts
  refine ⟨ts, hts, ?_⟩
  obtain ⟨req, hreq, -⟩ := hsingle.edits d₂ ref₂ ht₂ hfor₂.1
  -- the worker that is answered is calling, so the message is the card
  have hsends := hI.sends
  obtain ⟨w', now, batch, hlabel, hp⟩ := answerOf_eq_some ht₂
  cases hlabel
  obtain rfl : w' = w := List.mem_singleton.1 (List.contains_iff_mem.1 hsingle.one)
  have hp' : s.phase w' = .calling d₂ batch := hp
  rw [hp'] at hsends hcases
  rcases hcases with hcard | hdel
  · exact ⟨req, hreq, hsends hfor₂ ts hcard req hreq⟩
  · exact hdel.elim

theorem cardInvariant_of_run (r : DeploymentRun rt h s) (hx : isDigestId x = false)
    (hc : ∀ t ∈ h, SingleWorker w t ∧ KeepsCards rt t) : CardInvariant w x h (s.phase w) s.db := by
  refine Run.induct_of_forall (I := fun h s => CardInvariant w x h (s.phase w) s.db) r hc ?_ ?_
  · rintro s rfl
    have hempty : ∀ ts, ¬ Card (Deployment.initial : Deployment K).db x ts := by
      rintro ts ⟨k, r, hr, -⟩
      simp [Deployment.initial, Database.empty] at hr
    refine ⟨fun k r hr => ?_, fun ts ts' hcard => absurd hcard (hempty ts),
      fun ts hcard => absurd hcard (hempty ts), fun row hrow => absurd hrow List.not_mem_nil,
      fun row hrow => absurd hrow List.not_mem_nil, fun k r hr => ?_, trivial,
      fun t ht => absurd ht List.not_mem_nil, trivial⟩
    · simp [Deployment.initial, Database.empty] at hr
    · simp [Deployment.initial, Database.empty] at hr
  · rintro h s turn s' hrun - hI ⟨hsingle, hkeeps⟩ hnext
    exact hI.next hrun hx hsingle hkeeps hnext

omit [Field K] [LinearOrder K] in
/-- A transition in which a message is posted. -/
theorem postsFor_eq_true {t : Transition (Deployment K) Turn} (h : postsFor x t = true) :
    ∃ d newRef, answerOf t = some (d, newRef) ∧ d.row.forCard x ∧ d.posts := by
  unfold postsFor at h
  obtain ⟨⟨d, newRef⟩, ha, hposts⟩ := Option.any_eq_true _ _ |>.1 h
  simp only [Bool.and_eq_true, decide_eq_true_eq] at hposts
  obtain ⟨hslack, hid, hpost⟩ := hposts
  obtain ⟨req, hreq, hmethod⟩ := Library.toOption_any_eq_true.1 hpost
  exact ⟨d, newRef, ha, ⟨hslack, hid⟩, req, hreq, of_decide_eq_true hmethod⟩

omit [Field K] [LinearOrder K] in
/-- A message is posted once at most. -/
theorem OneCard.countP_le (hone : OneCard h x) : h.countP (postsFor x) ≤ 1 := by
  induction h with
  | nil => exact Nat.zero_le 1
  | cons t h ih =>
      obtain ⟨hfirst, hrest⟩ := List.pairwise_cons.1 hone
      by_cases ht : postsFor x t = true
      swap
      · rw [List.countP_cons_of_neg ht]
        exact ih hrest
      -- nothing was posted before, as this message is no edit
      have hnone : h.countP (postsFor x) = 0 := by
        refine List.countP_eq_zero.2 fun u hu hposted => ?_
        obtain ⟨d₁, ref₁, h₁, hfor₁, hposts₁⟩ := postsFor_eq_true hposted
        obtain ⟨d₂, ref₂, h₂, hfor₂, req, hreq, hmethod⟩ := postsFor_eq_true ht
        obtain ⟨ts, -, req', hreq', hmethod', -⟩ := hfirst u hu d₁ ref₁ d₂ ref₂ h₁ hfor₁ hposts₁ h₂ hfor₂
        obtain rfl := Except.ok.inj (hreq.symm.trans hreq')
        rw [hmethod] at hmethod'
        cases hmethod'
      rw [List.countP_cons_of_pos ht, hnone]

/-- **One card for an incident**: at most one message is posted for it, and everything that is
delivered to Slack for it later edits that message, in every run with a single worker that
does not die in which no request redirects an incident with a Slack row in hand, and no page
fails over to Slack for an incident with a card or a row in hand. -/
theorem oneCard_of_run (r : DeploymentRun rt h s) (hx : isDigestId x = false)
    (hc : ∀ t ∈ h, SingleWorker w t ∧ KeepsCards rt t) :
    h.countP (postsFor x) ≤ 1 ∧ OneCard h x := by
  have hone : OneCard h x := by
    refine Run.induct_of_forall (I := fun h _ => OneCard h x) r hc ?_ ?_
    · rintro s -
      exact List.Pairwise.nil
    · rintro h s turn s' hrun hc hone ⟨hsingle, -⟩ -
      exact List.pairwise_cons.2 ⟨(cardInvariant_of_run hrun hx hc).edits hsingle, hone⟩
  exact ⟨hone.countP_le, hone⟩

end Run

/-! ## Two runs -/

/-- What `SingleWorker` asks for. -/
def singleWorker (w : String) (t : Transition (Deployment K) Turn) : Bool :=
  t.label.isOf [w] && !crashes t && (match t.label with
    | .request _ => !(t.source.phase w).locks
    | .worker _ _ => true) && answersWithTs t &&
    (answerOf t).all fun a => a.1.row.channel ≠ .slack || a.2.any (· ≠ "")

variable {rt} in
/-- What is checked for the one worker holds for all. -/
theorem singleWorker_of_check {w : String} {s : Deployment K} {h : List (Transition (Deployment K) Turn)}
    (r : DeploymentRun rt h s) (hcheck : ∀ t ∈ h, singleWorker w t = true)
    {t : Transition (Deployment K) Turn} (ht : t ∈ h) : SingleWorker w t := by
  have hsplit : ∀ t ∈ h, (((t.label.isOf [w] = true ∧ crashes t = false) ∧ (match t.label with
      | .request _ => !(t.source.phase w).locks
      | .worker _ _ => true) = true) ∧ answersWithTs t = true) ∧
      ((answerOf t).all fun a => a.1.row.channel ≠ .slack || a.2.any (· ≠ "")) = true := by
    intro t ht
    have hone := hcheck t ht
    simp only [singleWorker, Bool.and_eq_true, Bool.not_eq_true'] at hone
    exact hone
  obtain ⟨⟨⟨⟨hone, halive⟩, hlocks⟩, hts⟩, hnames⟩ := hsplit t ht
  refine ⟨hone, halive, fun q hq w' => ?_, answersWithTs_of_check hts, fun d newRef ha hslack => ?_⟩
  · by_cases hw : w' = w
    · rw [hq] at hlocks
      subst hw
      exact Bool.not_eq_true' _ ▸ hlocks
    · rw [(r.idle (fun t ht => (hsplit t ht).1.1.1.1) (by simpa using hw)).2 t ht]
      rfl
  · rw [ha, Option.all_some, Bool.or_eq_true] at hnames
    obtain ⟨ts, hts, hne⟩ := Option.any_eq_true _ _ |>.1 (hnames.resolve_left (by simp [hslack]))
    exact ⟨ts, hts, by simpa using hne⟩

/-- A claim is for Slack. -/
def claimsForSlack (t : Transition (Deployment K) Turn) : Bool :=
  match t.label with
  | .worker w (.claim _) => match t.source.phase w with
    | .coalesced _ available _ => available.contains .slack
    | _ => true
  | _ => true

variable {rt} in
/-- No storms and no failover, and Slack is up. -/
theorem keepsCards_of_calm {t : Transition (Deployment K) Turn} (h : calm t = true)
    (hslack : claimsForSlack t = true) : KeepsCards rt t := by
  simp only [calm, Bool.and_eq_true, List.isEmpty_iff] at h
  obtain ⟨hgroups, hphase⟩ := h
  refine ⟨fun q _ x _ hnon => ?_, fun w now channel batch hlabel hp => ?_,
    fun w clock now available halfOpen hlabel hp hdown => ?_⟩
  · obtain ⟨i, g, group, -, -, hg, -⟩ := hnon
    have hmem := Table.find?_eq_some_iff.1 hg
    rw [hgroups] at hmem
    exact absurd hmem List.not_mem_nil
  · rw [hlabel] at hphase
    dsimp only at hphase
    rw [hp] at hphase
    cases hphase
  · unfold claimsForSlack at hslack
    rw [hlabel] at hslack
    dsimp only at hslack
    rw [hp] at hslack
    exact absurd (List.contains_iff_mem.1 hslack) hdown

/-- A card that is sent and edited. -/
theorem oneCard_of_run_edit : ∃ h s, DeploymentRun Runtime.reference h s ∧
    (h.filterMap answerOf).map Prod.snd = [some "ts-1", some "ts-1"] ∧
    (h.countP (postsFor "A") ≤ 1 ∧ OneCard h "A") := by
  have hreplay : (Library.replay (deploymentNext Runtime.reference) editedCard
      ([], Deployment.initial)).map (fun s => ((s.1.filterMap answerOf).map Prod.snd,
        s.1.all fun t => singleWorker "w" t && (calm t && claimsForSlack t))) =
      some ([some "ts-1", some "ts-1"], true) := by decide +kernel
  obtain ⟨h, s, hrun, heq⟩ := DeploymentRun.of_replay hreplay
  obtain ⟨hanswers, hcheck⟩ := Prod.mk.inj heq
  simp only [List.all_eq_true, Bool.and_eq_true] at hcheck
  refine ⟨h, s, hrun, hanswers, @oneCard_of_run _ _ _ _ "w" _ s h hrun (by decide) fun t ht => ?_⟩
  exact ⟨singleWorker_of_check hrun (fun t ht => (hcheck t ht).1) ht,
    keepsCards_of_calm (hcheck t ht).2.1 (hcheck t ht).2.2⟩

/-- The card of a critical incident is sent while its page does not get through; with the third
failure PagerDuty is declared down, and the page fails over to Slack. -/
def pagedTwice : List Turn :=
  pageTurns ++ failTurns "w" 2000 ++ callTurns "w" 2100 2200 (.ok (some "ts-1")) ++
    settleTurns "w" 2200 ++ .worker "w" .sleep ::
    claimTurns "w" 4000 2 ++ failTurns "w" 4000 ++ .worker "w" .sleep ::
    claimTurns "w" 6000 2 ++ failTurns "w" 6000 ++ .worker "w" (.settle 6200) :: .worker "w" .sleep ::
    claimTurns "w" 8000 2 ++ callTurns "w" 8000 8100 (.ok (some "ts-2"))

/-- **Two cards for one incident.** -/
theorem not_oneCard : ¬ ∀ h s, DeploymentRun Runtime.reference h s → (∀ t ∈ h, SingleWorker "w" t) →
    ∀ x, isDigestId x = false → h.countP (postsFor x) ≤ 1 := by
  intro hclaim
  have hreplay : (Library.replay (deploymentNext Runtime.reference) pagedTwice
      ([], Deployment.initial)).map (fun s => (s.1.countP (postsFor "A"), s.1.all (singleWorker "w"))) =
      some (2, true) := by decide +kernel
  obtain ⟨h, s, hrun, heq⟩ := DeploymentRun.of_replay hreplay
  obtain ⟨htwo, hcheck⟩ := Prod.mk.inj heq
  rw [List.all_eq_true] at hcheck
  have hone := hclaim h s hrun (fun t ht => singleWorker_of_check hrun hcheck ht) "A" (by decide)
  rw [htwo] at hone
  exact absurd hone (by decide)

end PulseGraph
