/-
# The notices of a merge

`redirect_member_deliveries`: "A member that already posted a card before it was correlated
gets one final edit pointing at the storm".  That the member got it is recorded nowhere, so
every later alert or external action about the member redirects it again: a notice that
still waits goes to the anchor with all that waits for the member, and another is enqueued.

**Proved here.**  `noticesRight_redirectMemberDeliveries` says exactly when a redirection keeps
the notices right: nothing that waits for the member is a notice, and a member with a card of
its own was sent none for this anchor.  In every run of the deployment whose redirections find
this, at most one notice is enqueued for a member and an anchor, it stays addressed to the
member, and no row that waits for an incident says that it was merged into itself
(`notices_of_run`).  `not_notices` has a member alert twice after the merge.
-/

import PulseGraph.Engine.Cascades
import PulseGraph.Engine.FlapRate

namespace PulseGraph

open Library (Table Run Transition bind_eq_ok)

variable {K : Type}

/-! ## Notices -/

/-- A notice to the member of a storm that it was merged into the anchor. -/
structure OutboxRow.Notices (r : OutboxRow) (member anchor : String) : Prop where
  about : r.payload.incidentId = some member
  into : r.payload.mergedInto = some anchor

/-- **The notices are right**: one for a member and an anchor, addressed to the member, which is
not the anchor; none is urgent. -/
structure NoticesRight (q : Table ℕ OutboxRow) : Prop where
  once : ∀ x a k k' r r', q.find? k = some r → q.find? k' = some r' → r.Notices x a →
    r'.Notices x a → k = k'
  addressed : ∀ k r a, q.find? k = some r → r.payload.mergedInto = some a →
    r.payload.incidentId = some r.incidentId ∧ r.incidentId ≠ a
  calm : ∀ k r, q.find? k = some r → r.payload.mergedInto.isSome = true → r.priority = defaultPriority

/-- A redirection from the member to the anchor leaves the notices alone: none waits for the member,
and a member with a card was sent none for the anchor. -/
structure SparesNotice (db : Database K) (member anchor : String) : Prop where
  still : ∀ k r, db.outbox.find? k = some r → r.incidentId = member → r.status = .pending →
    r.payload.mergedInto = none
  first : HasCard db member → ∀ k r, db.outbox.find? k = some r → ¬ r.Notices member anchor

section Rows

variable {db db' : Database K} {q q' : Table ℕ OutboxRow} {x y a b : String} {now : ℤ}

theorem notices_mergedNotice : (mergedNotice now x a).Notices x a := ⟨rfl, rfl⟩

/-- A queue whose notices are those of another one. -/
theorem NoticesRight.of_rows (h : NoticesRight q)
    (hrows : ∀ k r', q'.find? k = some r' → r'.payload.mergedInto.isSome = true → ∃ r, q.find? k = some r ∧
      r'.payload.mergedInto = r.payload.mergedInto ∧ r'.payload.incidentId = r.payload.incidentId ∧
      r'.incidentId = r.incidentId ∧ r'.priority = r.priority) : NoticesRight q' := by
  have hnotice : ∀ {x a k r'}, q'.find? k = some r' → r'.Notices x a →
      ∃ r, q.find? k = some r ∧ r.Notices x a := by
    intro x a k r' hr' hn
    obtain ⟨r, hr, hinto, habout, -⟩ := hrows k r' hr' (by rw [hn.into]; rfl)
    exact ⟨r, hr, habout ▸ hn.about, hinto ▸ hn.into⟩
  constructor
  · intro x a k k' r r' hr hr' hn hn'
    obtain ⟨s, hs, hns⟩ := hnotice hr hn
    obtain ⟨s', hs', hns'⟩ := hnotice hr' hn'
    exact h.once x a k k' s s' hs hs' hns hns'
  · intro k r' a hr' ha
    obtain ⟨r, hr, hinto, habout, hid, -⟩ := hrows k r' hr' (by rw [ha]; rfl)
    rw [habout, hid]
    exact h.addressed k r a hr (hinto ▸ ha)
  · intro k r' hr' hsome
    obtain ⟨r, hr, hinto, -, -, hpriority⟩ := hrows k r' hr' hsome
    rw [hpriority]
    exact h.calm k r hr (hinto ▸ hsome)

/-- Rows that are no notices may be pushed. -/
theorem NoticesRight.pushAll {rows : List OutboxRow} (h : NoticesRight q)
    (hrows : ∀ r ∈ rows, r.payload.mergedInto = none) : NoticesRight (q.pushAll rows) := by
  refine h.of_rows fun k r' hr' hsome => ?_
  rcases Table.find?_pushAll hr' with hr | ⟨-, hmem⟩
  · exact ⟨r', hr, rfl, rfl, rfl, rfl⟩
  · rw [hrows r' hmem] at hsome
    cases hsome

/-- Rows that wait give no one a card. -/
theorem HasCard.of_pushAll {rows : List OutboxRow} (hq : db'.outbox = db.outbox.pushAll rows)
    (hrows : ∀ r ∈ rows, r.status = .pending) (h : HasCard db' y) : HasCard db y := by
  obtain ⟨k, r, hr, hid, hch, hsent, href⟩ := h
  rw [hq] at hr
  rcases Table.find?_pushAll hr with hr | ⟨-, hmem⟩
  · exact ⟨k, r, hr, hid, hch, hsent, href⟩
  · rw [hrows r hmem] at hsent
    cases hsent

theorem SparesNotice.pushAll {rows : List OutboxRow} (hq : db'.outbox = db.outbox.pushAll rows)
    (hrows : ∀ r ∈ rows, r.status = .pending ∧ r.payload.mergedInto = none) (h : SparesNotice db y b) :
    SparesNotice db' y b := by
  constructor
  · intro k r hr hid hp
    rw [hq] at hr
    rcases Table.find?_pushAll hr with hr | ⟨-, hmem⟩
    · exact h.still k r hr hid hp
    · exact (hrows r hmem).2
  · intro hcard k r hr hn
    have hcard' : HasCard db y := hcard.of_pushAll hq fun r hr => (hrows r hr).1
    rw [hq] at hr
    rcases Table.find?_pushAll hr with hr | ⟨-, hmem⟩
    · exact h.first hcard' k r hr hn
    · have hinto := hn.into
      rw [(hrows r hmem).2] at hinto
      cases hinto

/-- What a redirection makes of a row. -/
def OutboxRow.movedTo (member anchor : String) (r : OutboxRow) : OutboxRow :=
  if r.incidentId = member ∧ r.status = .pending then r.redirect anchor else r

@[simp] theorem movedTo_payload (r : OutboxRow) : (r.movedTo x a).payload = r.payload := by
  unfold OutboxRow.movedTo
  split_ifs <;> rfl

@[simp] theorem movedTo_status (r : OutboxRow) : (r.movedTo x a).status = r.status := by
  unfold OutboxRow.movedTo
  split_ifs <;> rfl

theorem movedTo_of_not {r : OutboxRow} (h : ¬ (r.incidentId = x ∧ r.status = .pending)) : r.movedTo x a = r :=
  if_neg h

theorem hasCard_iff_any : HasCard db x ↔ (db.outbox.rows.any fun r => r.2.incidentId = x &&
    r.2.channel = .slack && r.2.status = .sent && r.2.externalRef.isSome) = true := by
  rw [List.any_eq_true]
  constructor
  · rintro ⟨k, r, hr, hid, hch, hsent, href⟩
    refine ⟨(k, r), Table.find?_eq_some_iff.1 hr, ?_⟩
    simp only [Bool.and_eq_true, decide_eq_true_eq]
    exact ⟨⟨⟨hid, hch⟩, hsent⟩, href⟩
  · rintro ⟨⟨k, r⟩, hmem, hr⟩
    simp only [Bool.and_eq_true, decide_eq_true_eq] at hr
    obtain ⟨⟨⟨hid, hch⟩, hsent⟩, href⟩ := hr
    exact ⟨k, r, Table.find?_eq_some_iff.2 hmem, hid, hch, hsent, href⟩

/-- **What a redirection does to the queue**: what waits for the member is moved, and a member with a
card is sent a notice. -/
theorem redirectMemberDeliveries_outbox : (HasCard db x ∧ (redirectMemberDeliveries now x a db).outbox =
      (db.outbox.update fun _ => OutboxRow.movedTo x a).push (mergedNotice now x a)) ∨
    (¬ HasCard db x ∧ (redirectMemberDeliveries now x a db).outbox =
      db.outbox.update fun _ => OutboxRow.movedTo x a) := by
  rw [hasCard_iff_any]
  unfold redirectMemberDeliveries
  dsimp only
  split_ifs with hposted
  · exact .inl ⟨hposted, rfl⟩
  · exact .inr ⟨hposted, rfl⟩

/-- The rows of a redirection. -/
theorem find?_redirectMemberDeliveries {k : ℕ} {r' : OutboxRow}
    (hr' : (redirectMemberDeliveries now x a db).outbox.find? k = some r') :
    (∃ r, db.outbox.find? k = some r ∧ r' = r.movedTo x a) ∨ HasCard db x ∧
      k = (db.outbox.update fun _ => OutboxRow.movedTo x a).nextKey ∧ r' = mergedNotice now x a := by
  have hold : ∀ {r'}, (db.outbox.update fun _ => OutboxRow.movedTo x a).find? k = some r' →
      ∃ r, db.outbox.find? k = some r ∧ r' = r.movedTo x a := by
    intro r' hr'
    rw [Table.find?_update] at hr'
    obtain ⟨r, hr, rfl⟩ := Option.map_eq_some_iff.1 hr'
    exact ⟨r, hr, rfl⟩
  rcases @redirectMemberDeliveries_outbox _ db x a now with
    ⟨hcard, hq⟩ | ⟨-, hq⟩
  · rw [hq, Table.find?_push] at hr'
    split_ifs at hr' with hk
    · exact .inr ⟨hcard, hk, (Option.some.inj hr').symm⟩
    · exact .inl (hold hr')
  · rw [hq] at hr'
    exact .inl (hold hr')

/-- What is there is moved at most. -/
theorem find?_redirect_of_some {k : ℕ} {r : OutboxRow} (hr : db.outbox.find? k = some r) :
    (redirectMemberDeliveries now x a db).outbox.find? k = some (r.movedTo x a) := by
  have hold : (db.outbox.update fun _ => OutboxRow.movedTo x a).find? k = some (r.movedTo x a) := by
    rw [Table.find?_update, hr]
    rfl
  rcases @redirectMemberDeliveries_outbox _ db x a now with
    ⟨-, hq⟩ | ⟨-, hq⟩ <;> rw [hq]
  · exact Table.find?_push_of_some hold
  · exact hold

/-- A member with a card is sent a notice. -/
theorem exists_notice_of_hasCard (h : HasCard db x) : ∃ k, db.outbox.find? k = none ∧
    (redirectMemberDeliveries now x a db).outbox.find? k = some (mergedNotice now x a) := by
  have hq := (@redirectMemberDeliveries_outbox _ db x a now).resolve_right fun hn => hn.1 h
  refine ⟨(db.outbox.update fun _ => OutboxRow.movedTo x a).nextKey, ?_, ?_⟩
  · have hnone : (db.outbox.update fun _ => OutboxRow.movedTo x a).find?
        (db.outbox.update fun _ => OutboxRow.movedTo x a).nextKey = none := Table.find?_nextKey
    rw [Table.find?_update] at hnone
    exact Option.map_eq_none_iff.1 hnone
  · rw [hq.2, Table.find?_push, if_pos rfl]

/-- **A redirection keeps the notices right** exactly when it spares those there are. -/
theorem noticesRight_redirectMemberDeliveries (hq : NoticesRight db.outbox) (hne : x ≠ a) :
    NoticesRight (redirectMemberDeliveries now x a db).outbox ↔ SparesNotice db x a := by
  constructor
  · intro h
    constructor
    · intro k r hr hid hp
      by_contra hinto
      obtain ⟨b, hb⟩ := Option.ne_none_iff_exists'.1 hinto
      have habout := (hq.addressed k r b hr hb).1
      have hmoved : (redirectMemberDeliveries now x a db).outbox.find? k = some (r.redirect a) :=
        (find?_redirect_of_some hr).trans (congrArg some (if_pos ⟨hid, hp⟩))
      have habout' := (h.addressed k _ b hmoved hb).1
      have hsame : r.incidentId = a := Option.some.inj (habout.symm.trans habout')
      exact hne (hid.symm.trans hsame)
    · intro hcard k r hr hn
      obtain ⟨j, hj, hj'⟩ := @exists_notice_of_hasCard _ db x a now hcard
      have hkept : (redirectMemberDeliveries now x a db).outbox.find? k = some (r.movedTo x a) :=
        find?_redirect_of_some hr
      have hn' : (r.movedTo x a).Notices x a :=
        ⟨by rw [movedTo_payload, hn.about], by rw [movedTo_payload, hn.into]⟩
      have hkj := h.once x a k j _ _ hkept hj' hn' notices_mergedNotice
      rw [← hkj, hr] at hj
      cases hj
  · intro h
    -- a notice that was there is not moved
    have hold : ∀ {k r'}, (redirectMemberDeliveries now x a db).outbox.find? k = some r' →
        r'.payload.mergedInto.isSome = true → db.outbox.find? k = some r' ∨ HasCard db x ∧
          k = (db.outbox.update fun _ => OutboxRow.movedTo x a).nextKey ∧ r' = mergedNotice now x a := by
      intro k r' hr' hsome
      rcases find?_redirectMemberDeliveries hr' with ⟨r, hr, rfl⟩ | hnew
      · rw [movedTo_payload] at hsome
        refine .inl ?_
        rwa [movedTo_of_not]
        rintro ⟨hid, hp⟩
        rw [h.still k r hr hid hp] at hsome
        cases hsome
      · exact .inr hnew
    constructor
    · intro y b k k' r r' hr hr' hn hn'
      rcases hold hr (by rw [hn.into]; rfl) with hr | ⟨hcard, rfl, rfl⟩
      · rcases hold hr' (by rw [hn'.into]; rfl) with hr' | ⟨hcard, -, rfl⟩
        · exact hq.once y b k k' r r' hr hr' hn hn'
        · obtain rfl := Option.some.inj hn'.about
          obtain rfl := Option.some.inj hn'.into
          exact absurd hn (h.first hcard k r hr)
      · obtain rfl := Option.some.inj hn.about
        obtain rfl := Option.some.inj hn.into
        rcases hold hr' (by rw [hn'.into]; rfl) with hr' | ⟨-, rfl, -⟩
        · exact absurd hn' (h.first hcard k' r' hr')
        · rfl
    · intro k r b hr hb
      rcases hold hr (by rw [hb]; rfl) with hr | ⟨-, -, rfl⟩
      · exact hq.addressed k r b hr hb
      · obtain rfl := Option.some.inj hb
        exact ⟨rfl, hne⟩
    · intro k r hr hsome
      rcases hold hr hsome with hr | ⟨-, -, rfl⟩
      · exact hq.calm k r hr hsome
      · rfl

/-- Sparing is read off the queue. -/
theorem SparesNotice.congr (hq : db'.outbox = db.outbox) (h : SparesNotice db y b) : SparesNotice db' y b := by
  obtain ⟨hstill, hfirst⟩ := h
  constructor
  · rwa [hq]
  · unfold HasCard at *
    rwa [hq]

/-- A redirection of one member leaves what waits for the others, and their notices. -/
theorem SparesNotice.redirect (hx : SparesNotice db x a) (hy : y ≠ x) (h : SparesNotice db y b) :
    SparesNotice (redirectMemberDeliveries now x a db) y b := by
  constructor
  · intro k r' hr' hid hp
    rcases find?_redirectMemberDeliveries hr' with ⟨r, hr, rfl⟩ | ⟨-, -, rfl⟩
    · rw [movedTo_status] at hp
      rw [movedTo_payload]
      by_cases hmoved : r.incidentId = x
      · exact hx.still k r hr hmoved hp
      · rw [movedTo_of_not fun hm => hmoved hm.1] at hid
        exact h.still k r hr hid hp
    · exact absurd hid.symm hy
  · rintro ⟨j, c', hc', hid, hch, hsent, href⟩ k r' hr' hn
    -- a card was delivered, so it is not moved
    have hcard : HasCard db y := by
      rcases find?_redirectMemberDeliveries hc' with ⟨c, hc, rfl⟩ | ⟨-, -, rfl⟩
      · have hstay : c.movedTo x a = c := movedTo_of_not fun hm => by
          rw [movedTo_status, hm.2] at hsent
          cases hsent
        rw [hstay] at hid hch hsent href
        exact ⟨j, c, hc, hid, hch, hsent, href⟩
      · cases hsent
    rcases find?_redirectMemberDeliveries hr' with ⟨r, hr, rfl⟩ | ⟨-, -, rfl⟩
    · refine h.first hcard k r hr ⟨?_, ?_⟩
      · rw [← movedTo_payload (x := x) (a := a), hn.about]
      · rw [← movedTo_payload (x := x) (a := a), hn.into]
    · exact hy (Option.some.inj hn.about).symm

/-- The same of what both call sites do with an assignment. -/
theorem noticesRight_redirectFor {g : Option GroupAssignment} (hq : NoticesRight db.outbox)
    (hx : ∀ c, g = some c → c.anchorIncidentId ≠ x → SparesNotice db x c.anchorIncidentId) :
    NoticesRight (redirectFor now x g db).outbox ∧
      ∀ y b, y ≠ x → SparesNotice db y b → SparesNotice (redirectFor now x g db) y b := by
  unfold redirectFor
  split
  · exact ⟨hq, fun y b _ => id⟩
  · next c =>
      split_ifs with hmember
      · have hspare := hx c rfl hmember.2
        exact ⟨(noticesRight_redirectMemberDeliveries hq hmember.2.symm).2 hspare,
          fun y b hy h => hspare.redirect hy h⟩
      · exact ⟨hq, fun y b _ => id⟩

end Rows

/-! ## Transactions -/

section Transactions

variable {rt : Runtime K} {db db' : Database K} {freshId freshGroupId freshEventId : String} {now : ℤ}

/-- No decision has a notice. -/
theorem processEvent_plain {event : NormalizedEvent} {d : EngineDecision}
    (h : processEvent rt freshId now event db = .ok d) : ∀ intent ∈ d.deliveryIntents,
      intent.payload.mergedInto = none := by
  rcases processEvent_cases h with ⟨-, rfl⟩ | ⟨-, -, ho⟩ | ⟨-, record, -, -, hd⟩
  · intro intent hi
    simp only [bypassDecision, decision, List.mem_cons, List.not_mem_nil, or_false] at hi
    rcases hi with rfl | rfl <;> rfl
  · unfold openDecision at ho
    obtain ⟨q, -, ho⟩ := bind_eq_ok.1 ho
    obtain rfl := Except.ok.inj ho
    intro intent hi
    obtain rfl := List.mem_singleton.1 hi
    rfl
  · unfold duplicateDecision at hd
    obtain ⟨q, -, hd⟩ := bind_eq_ok.1 hd
    obtain rfl := Except.ok.inj hd
    intro intent hi
    simp only [decision] at hi
    split_ifs at hi
    · obtain rfl := List.mem_singleton.1 hi
      rfl
    · simp at hi

/-- The rows of a decision without notices. -/
theorem outboxRows_plain {d : EngineDecision} (h : ∀ intent ∈ d.deliveryIntents, intent.payload.mergedInto = none) :
    ∀ r ∈ d.deliveryIntents.map (outboxRow now d), r.status = .pending ∧ r.payload.mergedInto = none := by
  intro r hr
  obtain ⟨intent, hi, rfl⟩ := List.mem_map.1 hr
  exact ⟨rfl, h intent hi⟩

/-- A quiet deadline redirects nothing. -/
theorem persistTrigger_notices {incidentId : String} {quietAtMs : ℤ} {committed : Bool}
    (h : persistTrigger rt freshEventId now { incidentId, quietAtMs } db = .ok (committed, db'))
    (hq : NoticesRight db.outbox) : NoticesRight db'.outbox := by
  rcases persistTrigger_commits h with ⟨-, rfl⟩ | ⟨d, hd, hp⟩
  · exact hq
  obtain ⟨-, rfl⟩ := persistDecision_ok.1 hp
  unfold deadlineDecision at hd
  obtain ⟨i, -, hd⟩ := Option.bind_eq_some_iff.1 hd
  obtain ⟨next, -, rfl⟩ := Option.map_eq_some_iff.1 hd
  refine hq.pushAll fun r hr => (outboxRows_plain (fun intent hi => ?_) r hr).2
  obtain rfl := List.mem_singleton.1 hi
  rfl

variable [Field K] [LinearOrder K]

/-- **Where an alert points the rows of its incident**: at the anchor that keeps the card. -/
theorem regroup_cardAfter {event : NormalizedEvent} {d : EngineDecision} {db₂ : Database K} {c : GroupAssignment}
    (hfresh : (Request.ingest freshId freshGroupId now event).fresh db = true) (hs : StormsBut none db)
    (hb : d.isCriticalBypass = false)
    (hobs : observeIncident rt d.incidentId (correlationNeighbourhood rt now d.scopeKey (persisted rt now d db))
      (persisted rt now d db) = .ok db₂)
    (hc : (regroup freshGroupId now d.incidentId d.scopeKey db₂).1 = some c)
    (hne : c.anchorIncidentId ≠ d.incidentId) :
    cardAfter rt now d db d.incidentId = some c.anchorIncidentId := by
  simp only [Request.fresh, Bool.and_eq_true, Option.isNone_iff_eq_none, decide_eq_true_eq] at hfresh
  obtain ⟨⟨⟨-, hgroup⟩, -⟩, -⟩ := hfresh
  have hframe := observeIncident_frame hobs
  have hincidents : db₂.incidents = (persisted rt now d db).incidents := by rw [hframe]
  have hgroups : db₂.incidentGroups = (persisted rt now d db).incidentGroups := by rw [hframe]
  have hfind : db₂.incidents.find? d.incidentId =
      some (persistedIncident now d (db.incidents.find? d.incidentId)) := by
    rw [hincidents]
    exact find?_persisted_self
  have hs₂ : StormsBut (persistedIncident now d (db.incidents.find? d.incidentId)).correlationGroupId db₂ :=
    (persisted_storms hs (.inl persistedIncident_correlationGroupId)).congr_tables hincidents hgroups
  have hgroup₂ : db₂.incidentGroups.find? freshGroupId = none := by
    rw [hgroups]
    exact hgroup
  have hin := (regroup_anchor hfind hc hne).anchorIn
  rw [anchorIn_regroup hs₂ hgroup₂ (by rw [hfind]; rfl)] at hin
  unfold cardAfter
  rw [if_neg (by simp [hb])]
  dsimp only
  rw [hobs]
  exact hin

/-- Whose card that is was told by the edges and the storms that were stored. -/
theorem regroup_belongsOn [IsStrictOrderedRing K] {event : NormalizedEvent} {d : EngineDecision} {db₂ : Database K}
    {c : GroupAssignment} (hfresh : (Request.ingest freshId freshGroupId now event).fresh db = true)
    (h : ingestEvent rt freshId freshGroupId now event db = .ok (d, db')) (hs : StormsBut none db)
    (hj : EdgesJoin db) (hb : d.isCriticalBypass = false)
    (hobs : observeIncident rt d.incidentId (correlationNeighbourhood rt now d.scopeKey (persisted rt now d db))
      (persisted rt now d db) = .ok db₂)
    (hc : (regroup freshGroupId now d.incidentId d.scopeKey db₂).1 = some c)
    (hne : c.anchorIncidentId ≠ d.incidentId) : BelongsOn rt now d db d.incidentId c.anchorIncidentId :=
  (cardAfter_eq_some hfresh h hs hj).1 (regroup_cardAfter hfresh hs hb hobs hc hne)

/-- **Where an external action points them**: at the anchor of the storm the incident is in. -/
theorem settleAction_redirects (now : ℤ) (action : ExternalAction) (current next : IncidentState)
    (db : Database K) : ∃ (g : Option GroupAssignment) (db₂ : Database K), db₂.outbox = db.outbox ∧
      (settleAction now action current next db).outbox = (redirectFor now action.incidentId g db₂).outbox ∧
      ∀ c, g = some c → c.anchorIncidentId ≠ action.incidentId →
        anchorIn (settleAction now action current next db) action.incidentId = some c.anchorIncidentId := by
  unfold settleAction
  dsimp only
  generalize hdb₁ : ({ db with
    incidents := db.incidents.modify action.incidentId (stampAction now action) } : Database K) = db₁
  refine ⟨(refreshGroupForMember now action.incidentId db₁).1, (refreshGroupForMember now action.incidentId db₁).2,
    ?_, rfl, fun c hc hne => ?_⟩
  · rw [refreshGroupForMember_outbox, ← hdb₁]
  · rw [← (refreshGroupForMember_anchor hc hne).anchorIn]
    exact anchorIn_redirectFor _

/-- **An alert keeps the notices right** when the redirection of its incident spares them. -/
theorem ingestEvent_notices [IsStrictOrderedRing K] {event : NormalizedEvent} {d : EngineDecision}
    (hfresh : (Request.ingest freshId freshGroupId now event).fresh db = true)
    (h : ingestEvent rt freshId freshGroupId now event db = .ok (d, db')) (hs : StormsBut none db)
    (hj : EdgesJoin db) (hq : NoticesRight db.outbox)
    (hspare : ∀ a, d.isCriticalBypass = false → BelongsOn rt now d db d.incidentId a →
      a ≠ d.incidentId → SparesNotice db d.incidentId a) : NoticesRight db'.outbox := by
  obtain ⟨hd, db₁, hpersist, hrest⟩ := ingestEvent_parts h
  obtain ⟨-, rfl⟩ := persistDecision_ok.1 hpersist
  have hplain := @outboxRows_plain now _ (processEvent_plain hd)
  have hpushed : NoticesRight (persisted rt now d db).outbox := hq.pushAll fun r hr => (hplain r hr).2
  rcases hrest with ⟨-, rfl⟩ | ⟨hb, db₂, hobs, rfl⟩
  · exact hpushed
  have houtbox : (regroup freshGroupId now d.incidentId d.scopeKey db₂).2.outbox =
      (persisted rt now d db).outbox := by
    rw [regroup_outbox, observeIncident_frame hobs]
  refine And.left (noticesRight_redirectFor (by rw [houtbox]; exact hpushed) fun c hc hne => ?_)
  have hsource := hspare _ hb (regroup_belongsOn hfresh h hs hj hb hobs hc hne) hne
  exact (hsource.pushAll rfl hplain).congr houtbox

/-- Whose storm an incident is in survives an external action. -/
theorem applyExternalAction_anchorIn {action : ExternalAction} {result : ReconcileResult}
    (h : applyExternalAction rt freshEventId now action db = .ok (result, db')) (y : String) :
    anchorIn db' y = anchorIn db y := by
  rcases applyExternalAction_cases h with ⟨-, -, hdb⟩ | ⟨-, i, next, d, db₁, ha, hd, hp, rfl⟩
  · rw [hdb]
    rfl
  obtain ⟨-, -, hid, -⟩ := buildDecision_eq_ok hd
  obtain ⟨-, rfl⟩ := persistDecision_ok.1 hp
  unfold settleAction
  dsimp only
  have hfind := @find?_stamped _ rt db now action d hid
  generalize hdb₁ : ({ persisted rt now d db with
    incidents := (persisted rt now d db).incidents.modify action.incidentId (stampAction now action) } :
      Database K) = db₁ at hfind ⊢
  have hgroups : db₁.incidentGroups = db.incidentGroups := by rw [← hdb₁]; rfl
  have hgroup : db₁.storm y = db.storm y := by
    unfold Database.storm
    rw [hfind]
    split_ifs with hy
    · have hstamp : (stampAction now action
          (persistedIncident now d (db.incidents.find? action.incidentId))).correlationGroupId =
          (persistedIncident now d (db.incidents.find? action.incidentId)).correlationGroupId := by
        unfold stampAction
        split_ifs <;> rfl
      rw [Option.bind_some, hstamp, persistedIncident_correlationGroupId, hy]
    · rfl
  refine (anchorIn_redirectFor (refreshGroupForMember now action.incidentId db₁).1).trans ?_
  rw [anchorIn_refreshGroupForMember, anchorIn, anchorIn, hgroup, hgroups]

/-- **An external action keeps the notices right** when the redirection of its incident spares
them, and spares those of the other incidents. -/
theorem applyExternalAction_notices {action : ExternalAction} {result : ReconcileResult}
    (h : applyExternalAction rt freshEventId now action db = .ok (result, db'))
    (hq : NoticesRight db.outbox)
    (hspare : ∀ a, (∃ i next, Applies action db i next) → anchorIn db action.incidentId = some a →
      a ≠ action.incidentId → SparesNotice db action.incidentId a) :
    NoticesRight db'.outbox ∧ ∀ y b, y ≠ action.incidentId → SparesNotice db y b → SparesNotice db' y b := by
  have hsame := applyExternalAction_anchorIn h
  rcases applyExternalAction_cases h with ⟨-, -, hdb⟩ | ⟨-, i, next, d, db₁, ha, hd, hp, rfl⟩
  · have houtbox : db'.outbox = db.outbox := by rw [hdb]
    exact ⟨houtbox ▸ hq, fun y b _ hy => hy.congr houtbox⟩
  obtain ⟨-, -, hid, -, -, -, -, -, -, -, -, -, hintents⟩ := buildDecision_eq_ok hd
  obtain ⟨-, rfl⟩ := persistDecision_ok.1 hp
  have hplain : ∀ r ∈ d.deliveryIntents.map (outboxRow now d),
      r.status = .pending ∧ r.payload.mergedInto = none := by
    refine outboxRows_plain fun intent hi => ?_
    rw [hintents] at hi
    obtain ⟨channel, -, rfl⟩ := List.mem_map.1 hi
    rfl
  have hpushed : NoticesRight (persisted rt now d db).outbox := hq.pushAll fun r hr => (hplain r hr).2
  obtain ⟨g, db₂, houtbox, hsettled, hanchor⟩ := settleAction_redirects now action i.status next (persisted rt now d db)
  have hredirect := @noticesRight_redirectFor _ db₂ action.incidentId now g (by rw [houtbox]; exact hpushed)
    fun c hc hne => by
      have hin : anchorIn db action.incidentId = some c.anchorIncidentId := by
        rw [← hsame]
        exact hanchor c hc hne
      have hpushed : SparesNotice (persisted rt now d db) action.incidentId c.anchorIncidentId :=
        (hspare _ ⟨i, next, ha⟩ hin hne).pushAll rfl hplain
      exact hpushed.congr houtbox
  refine ⟨?_, fun y b hy hb => ?_⟩
  · rw [hsettled]
    exact hredirect.1
  · have hpushed : SparesNotice (persisted rt now d db) y b := hb.pushAll rfl hplain
    exact (hredirect.2 y b hy (hpushed.congr houtbox)).congr hsettled

end Transactions

/-! ## Every run -/

section Runs

variable (rt : Runtime K) [Field K] [LinearOrder K]

/-- The redirections of a request, from a member of a storm to its anchor, read off the state it
finds: for an alert, off the edges and the storms stored there. -/
inductive Redirects (db : Database K) : Request → String → String → Prop
  | ingest {freshId freshGroupId now event d anchor} : processEvent rt freshId now event db = .ok d →
      d.isCriticalBypass = false → BelongsOn rt now d db d.incidentId anchor →
      anchor ≠ d.incidentId → Redirects db (.ingest freshId freshGroupId now event) d.incidentId anchor
  | external {freshEventId now action anchor} :
      Targets rt db action.incidentId (.external freshEventId now action) →
      anchorIn db action.incidentId = some anchor → anchor ≠ action.incidentId →
      Redirects db (.external freshEventId now action) action.incidentId anchor
  | sweep {freshEventIds now moment member anchor} : Targets rt db member (.sweep freshEventIds now moment) →
      anchorIn db member = some anchor → anchor ≠ member →
      Redirects db (.sweep freshEventIds now moment) member anchor

/-- Every redirection of the turn finds no notice waiting for its member, and one that sends a notice
is the first for its member and anchor. -/
def SparesNotices (t : Transition (Deployment K) Turn) : Prop :=
  ∀ q x a, t.label = .request q → Redirects rt t.source.db q x a → SparesNotice t.source.db x a

variable {rt} {db db' : Database K} {s s' : Deployment K} {h : List (Transition (Deployment K) Turn)}

/-- A sweep keeps the notices right: it acts on each incident once. -/
theorem sweepOnce_notices {freshEventIds : ℕ → String} {now moment : ℤ} {n : ℕ}
    (h : sweepOnce rt freshEventIds now moment db = .ok (n, db')) (hq : NoticesRight db.outbox)
    (hspare : ∀ x a, Redirects rt db (.sweep freshEventIds now moment) x a → SparesNotice db x a) :
    NoticesRight db'.outbox := by
  -- what the sweep has still to act on is spared in every state on the way
  refine And.left (@sweepOnce_induct _ rt db db' _ _ (fun b => NoticesRight b.outbox ∧
    (∀ y, anchorIn b y = anchorIn db y) ∧ ∀ overdue o, candidates rt moment db = .ok overdue → o ∈ overdue →
      alreadySeen (sweepAction moment o).inboundId b = false → ∀ a, anchorIn db o.incidentId = some a →
        a ≠ o.incidentId → SparesNotice b o.incidentId a) _ _ _ _ h ⟨hq, fun _ => rfl, ?_⟩ ?_)
  · intro overdue o hc ho hunseen a ha hne
    exact hspare o.incidentId a (.sweep ⟨overdue, o, hc, ho, rfl, hunseen⟩ ha hne)
  rintro b b' overdue o result k hc ho ⟨hq, hanchors, hspared⟩ ha
  obtain ⟨hright, hothers⟩ := applyExternalAction_notices ha hq fun a ⟨i, next, happ⟩ hanchor hne =>
    hspared overdue o hc ho happ.unseen a ((hanchors _).symm.trans hanchor) hne
  refine ⟨hright, fun y => (applyExternalAction_anchorIn ha y).trans (hanchors y), ?_⟩
  intro overdue' o' hc' ho' hunseen a hanchor hne
  obtain rfl := Except.ok.inj (hc.symm.trans hc')
  by_cases hid : o'.incidentId = o.incidentId
  · -- the action on it is recorded
    obtain rfl := candidates_unique hc ho' ho hid
    rw [(applyExternalAction_seen_iff ha).2 (.inl rfl)] at hunseen
    cases hunseen
  · refine hothers _ a hid (hspared overdue o' hc' ho' ?_ a hanchor hne)
    rw [Bool.eq_false_iff] at hunseen ⊢
    exact fun hseen => hunseen (applyExternalAction_seen ha hseen)

/-- A request keeps the notices right. -/
theorem engineNext_notices [IsStrictOrderedRing K] {q : Request} (h : engineNext rt db q = some db')
    (hs : StormsBut none db) (hj : EdgesJoin db) (hq : NoticesRight db.outbox)
    (hspare : ∀ x a, Redirects rt db q x a → SparesNotice db x a) : NoticesRight db'.outbox := by
  unfold engineNext at h
  split_ifs at h with hfresh
  obtain rfl := Option.some.inj h
  cases q with
  | ingest freshId freshGroupId now event =>
      cases hr : ingestEvent rt freshId freshGroupId now event db with
      | ok r =>
          rw [serve, hr]
          exact ingestEvent_notices hfresh hr hs hj hq fun a hb hbelongs hne =>
            hspare _ a (.ingest (ingestEvent_parts hr).1 hb hbelongs hne)
      | error e => rw [serve, hr]; exact hq
  | timer freshEventId now incidentId quietAtMs =>
      cases hr : persistTrigger rt freshEventId now { incidentId, quietAtMs } db with
      | ok r => rw [serve, hr]; exact persistTrigger_notices hr hq
      | error e => rw [serve, hr]; exact hq
  | external freshEventId now action =>
      cases hr : applyExternalAction rt freshEventId now action db with
      | ok r =>
          rw [serve, hr]
          exact And.left (applyExternalAction_notices hr hq fun a happ hanchor hne =>
            hspare _ a (.external ⟨rfl, happ⟩ hanchor hne))
      | error e => rw [serve, hr]; exact hq
  | sweep freshEventIds now moment =>
      cases hr : sweepOnce rt freshEventIds now moment db with
      | ok r => rw [serve, hr]; exact sweepOnce_notices hr hq hspare
      | error e => rw [serve, hr]; exact hq

omit [Field K] [LinearOrder K] in
/-- What a step of a worker keeps of a notice. -/
theorem RowStep.notice {w : String} {phase : Phase} {step : WorkerStep} {k : ℕ} {r r' : OutboxRow}
    (hstep : RowStep rt w phase db step k r r') :
    r'.payload.mergedInto = r.payload.mergedInto ∧ r'.payload.incidentId = r.payload.incidentId ∧
      r'.incidentId = r.incidentId ∧ r'.priority = r.priority := by
  cases hstep with
  | collapsed _ hc _ => cases hc <;> exact ⟨rfl, rfl, rfl, rfl⟩
  | _ => exact ⟨rfl, rfl, rfl, rfl⟩

omit [Field K] [LinearOrder K] in
theorem hydratePayload_mergedInto (x : String) (payload : Payload) :
    (hydratePayload x payload db).mergedInto = payload.mergedInto := by
  unfold hydratePayload
  split
  · rfl
  · dsimp only
    split
    · split_ifs <;> rfl
    · rfl

omit [Field K] [LinearOrder K] in
/-- No worker adds a notice: none is urgent enough for a fallback. -/
theorem WorkerRow.plain {phase : Phase} {step : WorkerStep} {r : OutboxRow}
    (hnew : WorkerRow phase db step r) (hq : NoticesRight db.outbox) : r.payload.mergedInto = none := by
  cases hnew with
  | digest _ => rfl
  | @failover now channel batch k r target _ hmem hworthy _ =>
      show (hydratePayload r.incidentId r.payload db).mergedInto = none
      rw [hydratePayload_mergedInto]
      by_contra hinto
      have hpriority := hq.calm k r (mem_failoverCandidates.1 hmem).1 (Option.isSome_iff_ne_none.2 hinto)
      rw [hpriority] at hworthy
      exact absurd hworthy (by decide)

omit [Field K] [LinearOrder K] in
/-- A step of a worker keeps the notices right. -/
theorem WorkerMove.notices {w : String} {phase phase' : Phase} {step : WorkerStep}
    (h : WorkerMove rt w db phase step phase' db') (hq : NoticesRight db.outbox) : NoticesRight db'.outbox := by
  obtain ⟨hrows, hnew⟩ := h.rows
  refine hq.of_rows fun k r' hr' hsome => ?_
  cases hr : db.outbox.find? k with
  | some r =>
      obtain ⟨r₁, hr₁, hstep⟩ := hrows k r hr
      obtain rfl := Option.some.inj (hr₁.symm.trans hr')
      exact ⟨r, rfl, hstep.notice⟩
  | none =>
      rw [(hnew k r' hr hr').plain hq] at hsome
      cases hsome

/-- The notices are right in every state of a run whose redirections spare them. -/
theorem noticesRight_of_run [IsStrictOrderedRing K] (r : DeploymentRun rt h s) (hc : ∀ t ∈ h, SparesNotices rt t) :
    NoticesRight s.db.outbox := by
  refine Run.induct_of_forall (I := fun _ s => NoticesRight s.db.outbox) r hc ?_ ?_
  · rintro s rfl
    constructor
    · intro x a k k' r r' hr
      simp [Deployment.initial, Database.empty] at hr
    · intro k r a hr
      simp [Deployment.initial, Database.empty] at hr
    · intro k r hr
      simp [Deployment.initial, Database.empty] at hr
  · rintro h s turn s' hrun - hq hspare hnext
    have hrun : DeploymentRun rt h s := hrun
    cases turn with
    | request q =>
        exact engineNext_notices (deploymentNext_request hnext).1 hrun.storms hrun.edgesJoin hq fun x a =>
          hspare q x a rfl
    | worker w step => exact (deploymentNext_worker hnext).1.notices hq

/-- The turn enqueues row `k`, a notice to the member that it was merged into the anchor. -/
def enqueuesNotice (member anchor : String) (k : ℕ) (t : Transition (Deployment K) Turn) : Prop :=
  t.source.db.outbox.find? k = none ∧
    ∃ r, t.target.db.outbox.find? k = some r ∧ r.Notices member anchor

/-- A notice stays in the queue. -/
theorem deploymentNext_notice {turn : Turn} {k : ℕ} {r : OutboxRow} {x a : String}
    (hnext : deploymentNext rt s turn = some s') (hr : s.db.outbox.find? k = some r) (hn : r.Notices x a) :
    ∃ r', s'.db.outbox.find? k = some r' ∧ r'.Notices x a := by
  cases turn with
  | request q =>
      obtain ⟨r', hr', hm⟩ := (engineNext_queued (deploymentNext_request hnext).1).kept k r hr
      refine ⟨r', hr', ?_⟩
      rw [hm.frame]
      exact ⟨hn.about, hn.into⟩
  | worker w step =>
      obtain ⟨r', hr', hstep⟩ := (deploymentNext_worker hnext).1.rows.1 k r hr
      obtain ⟨hinto, habout, -⟩ := hstep.notice
      exact ⟨r', hr', habout.trans hn.about, hinto.trans hn.into⟩

/-- A notice that was enqueued is in the queue. -/
theorem notice_of_enqueued (r : DeploymentRun rt h s) {t : Transition (Deployment K) Turn} (ht : t ∈ h)
    {x a : String} {k : ℕ} (hk : enqueuesNotice x a k t) :
    ∃ row, s.db.outbox.find? k = some row ∧ row.Notices x a := by
  refine r.induct (I := fun h s => ∀ t ∈ h, enqueuesNotice x a k t →
    ∃ row, s.db.outbox.find? k = some row ∧ row.Notices x a) ?_ ?_ t ht hk
  · intro s _ t ht
    exact absurd ht List.not_mem_nil
  · intro h s turn s' _ ih hnext t ht hk
    rcases List.mem_cons.1 ht with rfl | ht
    · exact hk.2
    · obtain ⟨row, hrow, hn⟩ := ih t ht hk
      exact deploymentNext_notice hnext hrow hn

/-- **What a merge promises**: one notice at most is enqueued for a member and an anchor, a notice is
addressed to the member it was written for, and nothing that waits for an incident says that it was
merged into itself. -/
structure NoticesKept (h : List (Transition (Deployment K) Turn)) (s : Deployment K) : Prop where
  once : ∀ x a k k' t t', t ∈ h → t' ∈ h → enqueuesNotice x a k t → enqueuesNotice x a k' t' → k = k'
  addressed : ∀ x a k row, s.db.outbox.find? k = some row → row.Notices x a → row.incidentId = x
  apart : ∀ k row, s.db.outbox.find? k = some row → row.status = .pending →
    row.payload.mergedInto ≠ some row.incidentId

/-- **The notices of a merge** are kept in every run whose redirections find no notice waiting for
their member, and send a notice only where none was sent for the member and the anchor. -/
theorem notices_of_run [IsStrictOrderedRing K] (r : DeploymentRun rt h s) (hc : ∀ t ∈ h, SparesNotices rt t) :
    NoticesKept h s := by
  have hq := noticesRight_of_run r hc
  constructor
  · intro x a k k' t t' ht ht' hk hk'
    obtain ⟨row, hrow, hn⟩ := notice_of_enqueued r ht hk
    obtain ⟨row', hrow', hn'⟩ := notice_of_enqueued r ht' hk'
    exact hq.once x a k k' row row' hrow hrow' hn hn'
  · intro x a k row hrow hn
    exact Option.some.inj ((hq.addressed k row a hrow hn.into).1.symm.trans hn.about)
  · intro k row hrow _ hself
    exact (hq.addressed k row _ hrow hself).2 rfl

end Runs

/-- Two services alert, their cards are delivered, and the later one alerts again: its incident turns
out to be a member of the storm of the other. -/
def mergedTurns : List Turn :=
  (stormRequests.take 2).map .request ++ claimTurns "w" 2000 0 ++
    callTurns "w" 2000 2100 (.ok (some "ts-1")) ++ settleTurns "w" 2100 ++
    callTurns "w" 2200 2300 (.ok (some "ts-2")) ++ settleTurns "w" 2300 ++
    [.worker "w" .sleep, .request (.ingest "C" "storm" 3000 (alertOf "api" "3"))]

/-- The member is sent its notice. -/
theorem notices_of_run_merged : ∃ h s, DeploymentRun Runtime.reference h s ∧
    s.db.outbox.rows.map (fun r => (r.1, r.2.incidentId, r.2.payload.mergedInto)) =
      [(1, "A", none), (2, "B", none), (3, "A", none), (4, "B", some "A")] ∧ NoticesKept h s := by
  have hreplay : (Library.replay (deploymentNext Runtime.reference) mergedTurns
      ([], Deployment.initial)).map (fun s =>
        (s.2.db.outbox.rows.map fun r => (r.1, r.2.incidentId, r.2.payload.mergedInto),
          s.1.all fun t => t.source.db.outbox.rows.all fun r => r.2.payload.mergedInto.isNone)) =
      some ([(1, "A", none), (2, "B", none), (3, "A", none), (4, "B", some "A")], true) := by decide +kernel
  obtain ⟨h, s, r, heq⟩ := DeploymentRun.of_replay hreplay
  obtain ⟨hrows, hplain⟩ := Prod.mk.inj heq
  refine ⟨h, s, r, hrows, notices_of_run r fun t ht q x a _ _ => ?_⟩
  -- no turn finds a notice
  have hnone : ∀ k row, t.source.db.outbox.find? k = some row → row.payload.mergedInto = none := by
    intro k row hrow
    have hall := List.all_eq_true.1 (List.all_eq_true.1 hplain t ht) (k, row) (Table.find?_eq_some_iff.1 hrow)
    exact Option.isNone_iff_eq_none.1 hall
  constructor
  · exact fun k row hrow _ _ => hnone k row hrow
  · intro _ k row hrow hn
    have hinto := hn.into
    rw [hnone k row hrow] at hinto
    cases hinto

/-- **A notice goes astray**: the member alerts once more before its notice is delivered. -/
theorem not_notices : ¬ ∀ h s, DeploymentRun Runtime.reference h s → NoticesKept h s := by
  intro hclaim
  have hreplay : (Library.replay (deploymentNext Runtime.reference)
      (mergedTurns ++ [.request (.ingest "D" "unused" 3500 (alertOf "api" "4"))])
      ([], Deployment.initial)).map (fun s => (s.2.db.outbox.find? 4).map fun r =>
        (r.incidentId, r.status, r.payload.mergedInto)) =
      some (some ("A", .pending, some "A")) := by decide +kernel
  obtain ⟨h, s, r, heq⟩ := DeploymentRun.of_replay hreplay
  obtain ⟨row, hrow, hfields⟩ := Option.map_eq_some_iff.1 heq
  simp only [Prod.mk.injEq] at hfields
  obtain ⟨hid, hp, hinto⟩ := hfields
  exact (hclaim h s r).apart 4 row hrow hp (hinto.trans (congrArg some hid.symm))

end PulseGraph
