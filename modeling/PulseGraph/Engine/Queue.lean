/-
# What a transaction of the engine does to the queue

A transaction pushes the rows of its decisions and, for a member of a storm that is
not its anchor, redirects what waits for it to the anchor's card.  `QueuedTo` states
both for a whole transaction: a row that was there is moved at most (`MovesTo`), a row
that was not is one the request adds (`AddedRow`), moved at most.
`engineNext_raises` says so of every request, with the incidents whose rows it can
move and where to: those it is about, to the anchor of their storm when it ends.
`engineNext_queued` forgets where to.
-/

import PulseGraph.Engine.Storms

namespace PulseGraph

open Library (Table bind_eq_ok)

variable {K : Type}

/-! ## Moving rows -/

/-- What `redirect_member_deliveries` makes of a row that waits for a member. -/
def OutboxRow.redirect (anchor : String) (r : OutboxRow) : OutboxRow :=
  { r with incidentId := anchor, action := .update }

/-- A row is redirected any number of times, each time because it waits for an incident whose rows
can be moved there. -/
inductive MovesTo (target : String → String → Prop) : OutboxRow → OutboxRow → Prop
  | refl {r} : MovesTo target r r
  | head {r r' anchor} : r.status = .pending → target r.incidentId anchor →
      MovesTo target (r.redirect anchor) r' → MovesTo target r r'

/-- A row is redirected any number of times, each time because it waits for a movable incident. -/
inductive Moves (movable : String → Prop) : OutboxRow → OutboxRow → Prop
  | refl {r} : Moves movable r r
  | head {r r' anchor} : r.status = .pending → movable r.incidentId →
      Moves movable (r.redirect anchor) r' → Moves movable r r'

/-- The queue `q` grows by rows that are `new`, and rows are moved to where they can be. -/
structure QueuedTo (new : OutboxRow → Prop) (target : String → String → Prop)
    (q q' : Table ℕ OutboxRow) : Prop where
  kept : ∀ k r, q.find? k = some r → ∃ r', q'.find? k = some r' ∧ MovesTo target r r'
  added : ∀ k r', q.find? k = none → q'.find? k = some r' → ∃ r, new r ∧ MovesTo target r r'

/-- The queue `q` grows by rows that are `new`, and rows of movable incidents are moved. -/
structure Queued (new : OutboxRow → Prop) (movable : String → Prop) (q q' : Table ℕ OutboxRow) :
    Prop where
  kept : ∀ k r, q.find? k = some r → ∃ r', q'.find? k = some r' ∧ Moves movable r r'
  added : ∀ k r', q.find? k = none → q'.find? k = some r' → ∃ r, new r ∧ Moves movable r r'

section Moves

variable {target target' : String → String → Prop} {movable : String → Prop} {r r' r'' : OutboxRow}
  {new new' : OutboxRow → Prop} {q q' q'' : Table ℕ OutboxRow}

theorem MovesTo.trans (h : MovesTo target r r') (h' : MovesTo target r' r'') : MovesTo target r r'' := by
  induction h with
  | refl => exact h'
  | head hp hm _ ih => exact .head hp hm (ih h')

theorem MovesTo.mono (h : MovesTo target r r') (hm : ∀ x a, target x a → target' x a) :
    MovesTo target' r r' := by
  induction h with
  | refl => exact .refl
  | head hp hx _ ih => exact .head hp (hm _ _ hx) ih

/-- Where a row is moved to may be forgotten. -/
theorem MovesTo.moves (h : MovesTo target r r') (hm : ∀ x a, target x a → movable x) :
    Moves movable r r' := by
  induction h with
  | refl => exact .refl
  | head hp hx _ ih => exact .head hp (hm _ _ hx) ih

/-- A row that is moved ends as an edit of the card it was moved to last. -/
theorem MovesTo.eq_or_update (h : MovesTo target r r') :
    r' = r ∨ r.status = .pending ∧ r'.action = .update ∧ (∃ a, target r.incidentId a) ∧
      ∃ x, target x r'.incidentId := by
  induction h with
  | refl => exact .inl rfl
  | @head r r' anchor hp hx _ ih =>
      rcases ih with rfl | ⟨-, hact, -, hend⟩
      · exact .inr ⟨hp, rfl, ⟨anchor, hx⟩, _, hx⟩
      · exact .inr ⟨hp, hact, ⟨anchor, hx⟩, hend⟩

/-- **A move writes the incident and the action alone.** -/
theorem Moves.frame (h : Moves movable r r') :
    r' = { r with incidentId := r'.incidentId, action := r'.action } := by
  induction h with
  | refl => rfl
  | head _ _ _ ih => exact ih

theorem MovesTo.frame (h : MovesTo target r r') :
    r' = { r with incidentId := r'.incidentId, action := r'.action } := by
  have hmoves : Moves (fun _ => True) r r' := h.moves fun _ _ _ => trivial
  exact hmoves.frame

/-- A row stays where it is when its incident cannot be moved or nothing waits. -/
theorem Moves.eq_of_not (h : Moves movable r r')
    (hn : r.status = .pending → ¬ movable r.incidentId) : r' = r := by
  cases h with
  | refl => rfl
  | head hp hx _ => exact absurd hx (hn hp)

/-- Where a row of the queue comes from: it was there, or is new, and has been moved at most. -/
theorem QueuedTo.source (h : QueuedTo new target q q') {k : ℕ} (hr' : q'.find? k = some r') :
    ∃ r, (q.find? k = some r ∨ q.find? k = none ∧ new r) ∧ MovesTo target r r' := by
  cases hr : q.find? k with
  | some r =>
      obtain ⟨r₁, hr₁, hm⟩ := h.kept k r hr
      obtain rfl := Option.some.inj (hr₁.symm.trans hr')
      exact ⟨r, .inl rfl, hm⟩
  | none =>
      obtain ⟨r, hnew, hm⟩ := h.added k r' hr hr'
      exact ⟨r, .inr ⟨rfl, hnew⟩, hm⟩

theorem QueuedTo.refl (q : Table ℕ OutboxRow) : QueuedTo new target q q :=
  ⟨fun _ r hr => ⟨r, hr, .refl⟩, fun k r' hk hk' => absurd hk' (by simp [hk])⟩

theorem QueuedTo.trans (h : QueuedTo new target q q') (h' : QueuedTo new target q' q'') :
    QueuedTo new target q q'' := by
  refine ⟨fun k r hr => ?_, fun k r'' hk hk'' => ?_⟩
  · obtain ⟨r', hr', hm⟩ := h.kept k r hr
    obtain ⟨r'', hr'', hm'⟩ := h'.kept k r' hr'
    exact ⟨r'', hr'', hm.trans hm'⟩
  · cases hk' : q'.find? k with
    | none => exact h'.added k r'' hk' hk''
    | some r' =>
        obtain ⟨r, hr, hm⟩ := h.added k r' hk hk'
        obtain ⟨r₂, hr₂, hm'⟩ := h'.kept k r' hk'
        obtain rfl := Option.some.inj (hr₂.symm.trans hk'')
        exact ⟨r, hr, hm.trans hm'⟩

theorem QueuedTo.mono (h : QueuedTo new target q q') (hn : ∀ r, new r → new' r)
    (hm : ∀ x a, target x a → target' x a) : QueuedTo new' target' q q' := by
  refine ⟨fun k r hr => ?_, fun k r' hk hk' => ?_⟩
  · obtain ⟨r', hr', h'⟩ := h.kept k r hr
    exact ⟨r', hr', h'.mono hm⟩
  · obtain ⟨r, hr, h'⟩ := h.added k r' hk hk'
    exact ⟨r, hn r hr, h'.mono hm⟩

theorem QueuedTo.queued (h : QueuedTo new target q q') (hn : ∀ r, new r → new' r)
    (hm : ∀ x a, target x a → movable x) : Queued new' movable q q' := by
  refine ⟨fun k r hr => ?_, fun k r' hk hk' => ?_⟩
  · obtain ⟨r', hr', h'⟩ := h.kept k r hr
    exact ⟨r', hr', h'.moves hm⟩
  · obtain ⟨r, hr, h'⟩ := h.added k r' hk hk'
    exact ⟨r, hn r hr, h'.moves hm⟩

/-- Pushed rows are new, and nothing moves. -/
theorem queuedTo_pushAll (rows : List OutboxRow) : QueuedTo (· ∈ rows) target q (q.pushAll rows) := by
  refine ⟨fun k r hr => ⟨r, Table.find?_pushAll_of_some hr, .refl⟩, fun k r' hk hk' => ?_⟩
  rcases Table.find?_pushAll hk' with h | ⟨-, h⟩
  · exact absurd h (by simp [hk])
  · exact ⟨r', h, .refl⟩

/-- A redirection moves what waits for its member, and may add a notice. -/
theorem queuedTo_redirectMemberDeliveries {db : Database K} {now : ℤ} {x anchor : String} :
    QueuedTo (· = mergedNotice now x anchor) (fun y a => y = x ∧ a = anchor) db.outbox
      (redirectMemberDeliveries now x anchor db).outbox := by
  have hupdate : QueuedTo (· = mergedNotice now x anchor) (fun y a => y = x ∧ a = anchor) db.outbox
      (db.outbox.update fun _ r => if r.incidentId = x ∧ r.status = .pending then
        { r with incidentId := anchor, action := .update } else r) := by
    refine ⟨fun k r hr => ⟨_, (Table.find?_update _).trans (by rw [hr]; rfl), ?_⟩, fun k r' hk hk' => ?_⟩
    · dsimp only
      split_ifs with h
      · exact .head h.2 ⟨h.1, rfl⟩ .refl
      · exact .refl
    · rw [Table.find?_update, hk] at hk'
      exact absurd hk' (by simp)
  unfold redirectMemberDeliveries
  dsimp only
  split_ifs
  · exact hupdate.trans ((queuedTo_pushAll [mergedNotice now x anchor]).mono
      (fun r hr => List.mem_singleton.1 hr) fun _ _ => id)
  · exact hupdate

/-- What both call sites of a redirection do to the queue. -/
theorem queuedTo_redirectFor {db : Database K} {now : ℤ} {x : String} (a : Option GroupAssignment) :
    QueuedTo (fun r => ∃ anchor, r = mergedNotice now x anchor)
      (fun y anchor => y = x ∧ ∃ b, a = some b ∧ anchor = b.anchorIncidentId ∧ b.anchorIncidentId ≠ x)
      db.outbox (redirectFor now x a db).outbox := by
  unfold redirectFor
  split
  · exact QueuedTo.refl _
  · next b =>
      split_ifs with h
      · exact queuedTo_redirectMemberDeliveries.mono (fun r hr => ⟨_, hr⟩)
          fun y anchor hy => ⟨hy.1, b, rfl, hy.2, h.2⟩
      · exact QueuedTo.refl _

end Moves

/-! ## Which incidents can be moved -/

/-- The incident is a member of a storm, and not its anchor. -/
def NonAnchor (db : Database K) (x : String) : Prop :=
  ∃ i g group, db.incidents.find? x = some i ∧ i.correlationGroupId = some g ∧
    db.incidentGroups.find? g = some group ∧ group.anchorIncidentId ≠ x

/-- The incident is a member of the storm of another one, its anchor. -/
def AnchorOf (db : Database K) (x anchor : String) : Prop :=
  ∃ i g group, db.incidents.find? x = some i ∧ i.correlationGroupId = some g ∧
    db.incidentGroups.find? g = some group ∧ group.anchorIncidentId = anchor ∧ anchor ≠ x

theorem AnchorOf.nonAnchor {db : Database K} {x anchor : String} (h : AnchorOf db x anchor) :
    NonAnchor db x := by
  obtain ⟨i, g, group, hi, hg, hgroup, rfl, hne⟩ := h
  exact ⟨i, g, group, hi, hg, hgroup, hne⟩

section Anchors

variable {db db' : Database K} {x : String} {now : ℤ}

/-- What a redirection is told is read off the storm of its incident. -/
theorem anchorOf_of_readAssignment {g : String} {n : ℕ} {created : Bool} {i : Incident}
    {a : GroupAssignment} (hi : db.incidents.find? x = some i) (hg : i.correlationGroupId = some g)
    (ha : readAssignment g n created db = some a) (hne : a.anchorIncidentId ≠ x) :
    AnchorOf db x a.anchorIncidentId := by
  unfold readAssignment at ha
  obtain ⟨group, hgroup, rfl⟩ := Option.map_eq_some_iff.1 ha
  exact ⟨i, g, group, hi, hg, hgroup, rfl, hne⟩

variable [Field K] [LinearOrder K]

theorem refreshGroup_incidents (g : String) :
    (refreshGroup now g db).2.incidents = db.incidents := by
  rw [refreshGroup_frame]

theorem refreshGroupForMember_anchor {a : GroupAssignment}
    (ha : (refreshGroupForMember now x db).1 = some a) (hne : a.anchorIncidentId ≠ x) :
    AnchorOf (refreshGroupForMember now x db).2 x a.anchorIncidentId := by
  unfold refreshGroupForMember at *
  cases hg : (db.incidents.find? x).bind (·.correlationGroupId) with
  | none =>
      rw [hg] at ha
      exact absurd ha (by simp)
  | some g =>
      rw [hg] at ha
      dsimp only at ha ⊢
      obtain ⟨i, hi, hig⟩ := Option.bind_eq_some_iff.1 hg
      split_ifs at ha ⊢
      refine anchorOf_of_readAssignment ?_ hig ha hne
      rw [refreshGroup_incidents, hi]

theorem assignGroup_anchor {freshId scopeKey : String} {a : GroupAssignment} {i : Incident}
    (hi : db.incidents.find? x = some i)
    (ha : (assignGroup freshId now x scopeKey db).1 = some a) (hne : a.anchorIncidentId ≠ x) :
    AnchorOf (assignGroup freshId now x scopeKey db).2 x a.anchorIncidentId := by
  unfold assignGroup at *
  cases hn : strongNeighbours x scopeKey db with
  | nil =>
      rw [hn] at ha
      exact absurd ha (by simp)
  | cons y ys =>
      rw [hn] at ha
      dsimp only at ha ⊢
      -- whatever storm is chosen, the incident joins it
      have hchosen : ∃ j, (chooseGroup freshId now (x :: y :: ys) scopeKey db).2.2.incidents.find? x = some j := by
        unfold chooseGroup
        split
        · exact ⟨_, (Table.find?_update _).trans (by rw [hi]; rfl)⟩
        · exact ⟨i, hi⟩
      obtain ⟨j, hj⟩ := hchosen
      generalize chooseGroup freshId now (x :: y :: ys) scopeKey db = chosen at ha hj ⊢
      have hjoined : (refreshGroup now chosen.1 (joinGroup chosen.1 (x :: y :: ys) chosen.2.2)).2.incidents.find? x =
          some { j with correlationGroupId := some chosen.1 } := by
        rw [refreshGroup_incidents]
        refine (Table.find?_update _).trans ?_
        rw [hj, Option.map_some, if_pos (by simp)]
      exact anchorOf_of_readAssignment hjoined rfl ha hne

/-- The assignment an alert's redirection is told. -/
theorem regroup_anchor {freshGroupId scopeKey : String} {a : GroupAssignment} {i : Incident}
    (hi : db.incidents.find? x = some i)
    (ha : (regroup freshGroupId now x scopeKey db).1 = some a) (hne : a.anchorIncidentId ≠ x) :
    AnchorOf (regroup freshGroupId now x scopeKey db).2 x a.anchorIncidentId := by
  have hassign : ∀ b, (assignGroup freshGroupId now x scopeKey db).1 = some b →
      b.anchorIncidentId ≠ x → AnchorOf (assignGroup freshGroupId now x scopeKey db).2 x b.anchorIncidentId :=
    fun b => assignGroup_anchor hi
  unfold regroup at *
  cases hr : assignGroup freshGroupId now x scopeKey db with
  | mk assignment db₁ =>
      rw [hr] at ha hassign
      cases assignment with
      | some b =>
          obtain rfl := Option.some.inj ha
          exact hassign _ rfl hne
      | none => exact refreshGroupForMember_anchor ha hne

end Anchors

/-! ## The rows a request adds -/

/-- A row as an intent or a notice leaves it. -/
structure NewRow (r : OutboxRow) : Prop where
  pending : r.status = .pending
  attempts : r.attempts = 0
  unlocked : r.lockedBy = none
  unsent : r.externalRef = none
  unlinked : r.supersededBy = none
  no_digest : r.payload.digest = none
  about : r.payload.incidentId = some r.incidentId

/-- The outbox row of an intent that names its incident. -/
theorem newRow_outboxRow {now : ℤ} {d : EngineDecision} {intent : DeliveryIntent}
    (hd : intent.payload.digest = none) (hi : intent.payload.incidentId = some d.incidentId) :
    NewRow (outboxRow now d intent) :=
  ⟨rfl, rfl, rfl, rfl, rfl, hd, hi⟩

theorem newRow_mergedNotice {now : ℤ} {x anchor : String} : NewRow (mergedNotice now x anchor) :=
  ⟨rfl, rfl, rfl, rfl, rfl, rfl, rfl⟩

section Requests

variable (rt : Runtime K) (db : Database K)

/-- The rows an external action that is applied adds. -/
def ExternalRow (action : ExternalAction) (r : OutboxRow) : Prop :=
  NewRow r ∧ r.incidentId = action.incidentId ∧ (∃ i next, Applies action db i next) ∧
    (r.channel = .pagerduty → action.provider ≠ .pagerduty ∧
      r.action = if action.kind = .resolve then .resolve else .update)


variable [Field K] [LinearOrder K]

/-- **What a request has for PagerDuty**: a page for the incident of a bypass, or what an
external action or a sweep tells the channel the human did not act in. -/
inductive Pages : Request → String → Action → Prop
  | bypass {freshId freshGroupId now event d db'} :
      ingestEvent rt freshId freshGroupId now event db = .ok (d, db') → d.isCriticalBypass = true →
      Pages (.ingest freshId freshGroupId now event) d.incidentId .create
  | external {freshEventId now action} :
      Targets rt db action.incidentId (.external freshEventId now action) → action.provider ≠ .pagerduty →
      Pages (.external freshEventId now action) action.incidentId
        (if action.kind = .resolve then .resolve else .update)
  | sweep {freshEventIds now moment x} : Targets rt db x (.sweep freshEventIds now moment) →
      Pages (.sweep freshEventIds now moment) x .resolve

/-- The incident whose deliveries a request may redirect. -/
inductive Touches : Request → String → Prop
  | ingest {freshId freshGroupId now event d db'} :
      ingestEvent rt freshId freshGroupId now event db = .ok (d, db') → d.isCriticalBypass = false →
      Touches (.ingest freshId freshGroupId now event) d.incidentId
  | external {freshEventId now action x} : Targets rt db x (.external freshEventId now action) →
      Touches (.external freshEventId now action) x
  | sweep {freshEventIds now moment x} : Targets rt db x (.sweep freshEventIds now moment) →
      Touches (.sweep freshEventIds now moment) x

/-- The incidents a request may add rows for: that of the decision on its event, and else
one that is there. -/
def Subject : Request → String → Prop
  | .ingest freshId freshGroupId now event, x =>
      ∃ d db', ingestEvent rt freshId freshGroupId now event db = .ok (d, db') ∧ x = d.incidentId
  | _, x => (db.incidents.find? x).isSome

/-- The incidents a request writes of: that of the decision on its event, and else one that it acts
on. -/
def Raises : Request → String → Prop
  | .ingest freshId freshGroupId now event, x => Subject rt db (.ingest freshId freshGroupId now event) x
  | q, x => Targets rt db x q

/-- A row a request adds to the queue. -/
def RequestRow (q : Request) (r : OutboxRow) : Prop :=
  NewRow r ∧ Subject rt db q r.incidentId ∧ (r.channel = .pagerduty → Pages rt db q r.incidentId r.action)

/-- A row a request adds to the queue; a row that is to open a card or a page is about an
incident that was not there. -/
def AddedRow (q : Request) (r : OutboxRow) : Prop :=
  RequestRow rt db q r ∧ (r.action = .create → db.incidents.find? r.incidentId = none)

end Requests

section Transactions

variable {rt : Runtime K} {db db' : Database K}

/-- The intents of the decision on an event. -/
theorem processEvent_intents {freshId : String} {now : ℤ} {event : NormalizedEvent} {d : EngineDecision}
    (h : processEvent rt freshId now event db = .ok d) : ∀ intent ∈ d.deliveryIntents,
      intent.payload.digest = none ∧ intent.payload.incidentId = some d.incidentId ∧
      (intent.channel = .pagerduty → d.isCriticalBypass = true ∧ intent.action = .trigger) := by
  rcases processEvent_cases h with ⟨-, rfl⟩ | ⟨-, -, ho⟩ | ⟨-, record, -, -, hd⟩
  · intro intent hi
    simp only [bypassDecision, decision, List.mem_cons, List.not_mem_nil, or_false] at hi
    rcases hi with rfl | rfl
    · exact ⟨rfl, rfl, fun _ => ⟨rfl, rfl⟩⟩
    · exact ⟨rfl, rfl, fun hc => by simp [slackIntent] at hc⟩
  · unfold openDecision at ho
    obtain ⟨q, -, ho⟩ := bind_eq_ok.1 ho
    obtain rfl := Except.ok.inj ho
    intro intent hi
    obtain rfl := List.mem_singleton.1 hi
    exact ⟨rfl, rfl, fun hc => by simp [slackIntent] at hc⟩
  · unfold duplicateDecision at hd
    obtain ⟨q, -, hd⟩ := bind_eq_ok.1 hd
    obtain rfl := Except.ok.inj hd
    intro intent hi
    simp only [decision] at hi
    split_ifs at hi
    · obtain rfl := List.mem_singleton.1 hi
      exact ⟨rfl, rfl, fun hc => by simp [slackIntent] at hc⟩
    · simp at hi

/-- What is no edit is about the incident that the event opens. -/
theorem processEvent_opens {freshId : String} {now : ℤ} {event : NormalizedEvent} {d : EngineDecision}
    (h : processEvent rt freshId now event db = .ok d) : ∀ intent ∈ d.deliveryIntents,
      intent.action = .update ∨ d.incidentId = freshId := by
  rcases processEvent_cases h with ⟨-, rfl⟩ | ⟨-, -, ho⟩ | ⟨-, record, -, -, hd⟩
  · exact fun _ _ => .inr rfl
  · exact fun _ _ => .inr (openDecision_eq_ok ho).2.1
  · obtain ⟨-, -, -, -, -, -, -, -, hintents⟩ := duplicateDecision_eq_ok hd
    exact fun intent hi => .inl (hintents intent hi).2

/-- A quiet deadline has an edit of a card for Slack. -/
theorem persistTrigger_queuedTo {freshEventId incidentId : String} {now quietAtMs : ℤ}
    {committed : Bool} {target : String → String → Prop}
    (h : persistTrigger rt freshEventId now { incidentId, quietAtMs } db = .ok (committed, db')) :
    QueuedTo (fun r => NewRow r ∧
      Targets rt db r.incidentId (.timer freshEventId now incidentId quietAtMs) ∧
      r.channel ≠ .pagerduty ∧ r.action ≠ .create) target db.outbox db'.outbox := by
  rcases persistTrigger_commits h with ⟨-, rfl⟩ | ⟨d, hd, hp⟩
  · exact QueuedTo.refl _
  obtain ⟨-, rfl⟩ := persistDecision_ok.1 hp
  unfold deadlineDecision at hd
  obtain ⟨i, hknown, hd⟩ := Option.bind_eq_some_iff.1 hd
  obtain ⟨next, hnext, rfl⟩ := Option.map_eq_some_iff.1 hd
  refine (queuedTo_pushAll _).mono (fun r hr => ?_) fun _ _ => id
  obtain ⟨intent, hi, rfl⟩ := List.mem_map.1 hr
  obtain rfl := List.mem_singleton.1 hi
  refine ⟨newRow_outboxRow rfl rfl, ⟨rfl, i, hknown, ?_⟩, by simp [outboxRow], by simp [outboxRow]⟩
  exact (transitionState_quietDeadline.1 hnext).1

variable [Field K] [LinearOrder K]

theorem refreshGroupForMember_outbox (now : ℤ) (x : String) :
    (refreshGroupForMember now x db).2.outbox = db.outbox := by
  rw [refreshGroupForMember_frame]

theorem regroup_outbox (freshGroupId : String) (now : ℤ) (x scopeKey : String) :
    (regroup freshGroupId now x scopeKey db).2.outbox = db.outbox := by
  have hassign : (assignGroup freshGroupId now x scopeKey db).2.outbox = db.outbox := by
    rw [assignGroup_frame]
  unfold regroup
  split
  · next heq => rw [heq] at hassign; exact hassign
  · next heq =>
      rw [heq] at hassign
      exact (refreshGroupForMember_outbox now x).trans hassign

omit [Field K] [LinearOrder K] in
/-- A redirection leaves the storms alone. -/
theorem AnchorOf.redirectFor {x y anchor : String} {now : ℤ} {a : Option GroupAssignment}
    (h : AnchorOf db y anchor) : AnchorOf (redirectFor now x a db) y anchor := by
  rw [redirectFor_frame]
  exact h

/-- **What an ingest does to the queue.** -/
theorem ingestEvent_queuedTo {freshId freshGroupId : String} {now : ℤ} {event : NormalizedEvent}
    {d : EngineDecision} (hfresh : db.incidents.find? freshId = none)
    (h : ingestEvent rt freshId freshGroupId now event db = .ok (d, db')) :
    QueuedTo (AddedRow rt db (.ingest freshId freshGroupId now event))
      (fun x a => Touches rt db (.ingest freshId freshGroupId now event) x ∧ AnchorOf db' x a)
      db.outbox db'.outbox := by
  obtain ⟨hd, db₁, hpersist, hrest⟩ := ingestEvent_parts h
  obtain ⟨-, rfl⟩ := persistDecision_ok.1 hpersist
  have hpush : ∀ target, QueuedTo (AddedRow rt db (.ingest freshId freshGroupId now event)) target
      db.outbox (persisted rt now d db).outbox := by
    intro target
    refine (queuedTo_pushAll _).mono (fun r hr => ?_) fun _ _ => id
    obtain ⟨intent, hi, rfl⟩ := List.mem_map.1 hr
    obtain ⟨hdigest, habout, hpd⟩ := processEvent_intents hd intent hi
    refine ⟨⟨newRow_outboxRow hdigest habout, ⟨_, _, h, rfl⟩, fun hc => ?_⟩, fun hcreate => ?_⟩
    · obtain ⟨hb, ha⟩ := hpd hc
      have hact : (outboxRow now d intent).action = .create := if_pos ha
      rw [hact]
      exact .bypass h hb
    · rcases processEvent_opens hd intent hi with hupdate | hopens
      · have hact : (outboxRow now d intent).action = .update := by
          show (if intent.action = .trigger then Action.create else intent.action) = .update
          rw [hupdate]
          rfl
        rw [hact] at hcreate
        cases hcreate
      · show db.incidents.find? d.incidentId = none
        rw [hopens, hfresh]
  rcases hrest with ⟨-, rfl⟩ | ⟨hb, db₂, hobs, rfl⟩
  · exact hpush _
  · have hobs := observeIncident_frame hobs
    refine (hpush _).trans ?_
    have hsame : (regroup freshGroupId now d.incidentId d.scopeKey db₂).2.outbox =
        (persisted rt now d db).outbox := by
      rw [regroup_outbox, hobs]
    rw [← hsame]
    refine (queuedTo_redirectFor _).mono ?_ ?_
    · rintro r ⟨anchor, rfl⟩
      exact ⟨⟨newRow_mergedNotice, ⟨_, _, h, rfl⟩, fun hc => by simp [mergedNotice] at hc⟩,
        fun hc => by simp [mergedNotice] at hc⟩
    · rintro x _ ⟨rfl, a, ha, rfl, hne⟩
      have hincidents : db₂.incidents = (persisted rt now d db).incidents := by rw [hobs]
      have hi : db₂.incidents.find? d.incidentId =
          some (persistedIncident now d (db.incidents.find? d.incidentId)) := by
        rw [hincidents]
        exact find?_persisted_self
      exact ⟨.ingest h hb, (regroup_anchor hi ha hne).redirectFor⟩

/-- What an external action does to the queue. -/
theorem applyExternalAction_queuedTo {freshEventId : String} {now : ℤ} {action : ExternalAction}
    {result : ReconcileResult}
    (h : applyExternalAction rt freshEventId now action db = .ok (result, db')) :
    QueuedTo (fun r => ExternalRow db action r ∧ r.action ≠ .create) (fun x a => x = action.incidentId ∧
      (∃ i next, Applies action db i next) ∧ AnchorOf db' x a) db.outbox db'.outbox := by
  rcases applyExternalAction_cases h with ⟨-, -, hdb⟩ | ⟨-, i, next, d, db₁, ha, hd, hp, rfl⟩
  · rw [hdb]
    exact QueuedTo.refl _
  obtain ⟨-, -, hid, -, -, -, -, -, -, -, -, -, hintents⟩ := buildDecision_eq_ok hd
  obtain ⟨-, rfl⟩ := persistDecision_ok.1 hp
  have hpush : ∀ target, QueuedTo (fun r => ExternalRow db action r ∧ r.action ≠ .create) target
      db.outbox (persisted rt now d db).outbox := by
    intro target
    refine (queuedTo_pushAll _).mono (fun r hr => ?_) fun _ _ => id
    obtain ⟨intent, hi, rfl⟩ := List.mem_map.1 hr
    rw [hintents] at hi
    obtain ⟨channel, hch, rfl⟩ := List.mem_map.1 hi
    have hact : (if (if action.kind = .resolve then Action.resolve else .update) = .trigger then Action.create
        else if action.kind = .resolve then .resolve else .update) =
        if action.kind = .resolve then Action.resolve else .update := by
      split_ifs <;> simp_all
    refine ⟨⟨newRow_outboxRow rfl (by rw [hid]), hid, ⟨i, next, ha⟩, fun hc => ⟨?_, hact⟩⟩, ?_⟩
    · obtain rfl : channel = .pagerduty := hc
      rintro hprov
      have := (List.mem_filter.1 hch).2
      rw [hprov] at this
      exact absurd this (by decide)
    · intro hcreate
      have hcreate : (if action.kind = .resolve then Action.resolve else .update) = .create :=
        hact.symm.trans hcreate
      split_ifs at hcreate
  refine (hpush _).trans ?_
  unfold settleAction
  dsimp only
  generalize hdb₁ : ({ persisted rt now d db with
    incidents := (persisted rt now d db).incidents.modify action.incidentId (stampAction now action) } :
      Database K) = db₁
  have hsame : (refreshGroupForMember now action.incidentId db₁).2.outbox =
      (persisted rt now d db).outbox := by
    rw [refreshGroupForMember_outbox, ← hdb₁]
  rw [← hsame]
  refine (queuedTo_redirectFor _).mono ?_ ?_
  · rintro r ⟨anchor, rfl⟩
    exact ⟨⟨newRow_mergedNotice, rfl, ⟨i, next, ha⟩, fun hc => by simp [mergedNotice] at hc⟩,
      by simp [mergedNotice]⟩
  · rintro x _ ⟨rfl, a, hassign, rfl, hne⟩
    exact ⟨rfl, ⟨i, next, ha⟩, (refreshGroupForMember_anchor hassign hne).redirectFor⟩

/-- A refresh keeps the storm of a member, and its anchor. -/
theorem AnchorOf.refreshGroup {x g anchor : String} {now : ℤ} (h : AnchorOf db x anchor) :
    AnchorOf (refreshGroup now g db).2 x anchor := by
  obtain ⟨i, g', group, hi, hg, hgroup, hanchor, hne⟩ := h
  have hi' : (PulseGraph.refreshGroup now g db).2.incidents.find? x = some i := by
    rw [refreshGroup_incidents, hi]
  by_cases hgg : g' = g
  swap
  · refine ⟨i, g', group, hi', hg, ?_, hanchor, hne⟩
    unfold PulseGraph.refreshGroup
    split
    · exact (Table.find?_delete _).trans (by rw [hgroup]; simp [hgg])
    · exact (Table.find?_modify _).trans ((if_neg hgg).trans hgroup)
  subst hgg
  have hmem : (x, i) ∈ groupMembers g' db := mem_groupMembers.2 (member_eq_some.2 ⟨hi, hg⟩)
  revert hi'
  unfold PulseGraph.refreshGroup
  split
  · next hnil =>
      rw [hnil] at hmem
      exact absurd hmem List.not_mem_nil
  · intro hi'
    exact ⟨i, g', _, hi', hg, (Table.find?_modify _).trans
      ((if_pos rfl).trans (congrArg (Option.map _) hgroup)), hanchor, hne⟩

/-- Who is in which storm, and whose it is, survives an external action. -/
theorem applyExternalAction_anchorOf {freshEventId : String} {now : ℤ} {action : ExternalAction}
    {result : ReconcileResult} {x anchor : String}
    (h : applyExternalAction rt freshEventId now action db = .ok (result, db'))
    (hx : AnchorOf db x anchor) : AnchorOf db' x anchor := by
  rcases applyExternalAction_cases h with ⟨-, -, hdb⟩ | ⟨-, i, next, d, db₁, ha, hd, hp, rfl⟩
  · rw [hdb]
    exact hx
  obtain ⟨-, -, hid, -⟩ := buildDecision_eq_ok hd
  obtain ⟨-, rfl⟩ := persistDecision_ok.1 hp
  have hstamp : ∀ j : Incident, (stampAction now action j).correlationGroupId = j.correlationGroupId := by
    intro j
    unfold stampAction
    split_ifs <;> rfl
  unfold settleAction
  dsimp only
  have hfind := @find?_stamped _ rt db now action d hid
  generalize hdb₁ : ({ persisted rt now d db with
    incidents := (persisted rt now d db).incidents.modify action.incidentId (stampAction now action) } :
      Database K) = db₁ at hfind ⊢
  have hwritten : AnchorOf db₁ x anchor := by
    obtain ⟨j, g, group, hj, hg, hgroup, hanchor, hne⟩ := hx
    have hgroups : db₁.incidentGroups.find? g = some group := by rw [← hdb₁]; exact hgroup
    by_cases hxa : x = action.incidentId
    · refine ⟨_, g, group, (hfind x).trans (if_pos hxa), ?_, hgroups, hanchor, hne⟩
      rw [hstamp, persistedIncident_correlationGroupId, ← hxa, hj]
      exact hg
    · exact ⟨j, g, group, (hfind x).trans ((if_neg hxa).trans hj), hg, hgroups, hanchor, hne⟩
  have hrefreshed : AnchorOf (refreshGroupForMember now action.incidentId db₁).2 x anchor := by
    unfold refreshGroupForMember
    split
    · exact hwritten
    · dsimp only
      split_ifs
      · exact hwritten
      · exact hwritten.refreshGroup
      · exact hwritten.refreshGroup
  exact hrefreshed.redirectFor

/-- No external action opens an incident. -/
theorem applyExternalAction_known {freshEventId : String} {now : ℤ} {action : ExternalAction}
    {result : ReconcileResult} {x : String}
    (h : applyExternalAction rt freshEventId now action db = .ok (result, db'))
    (hx : (db'.incidents.find? x).isSome) : (db.incidents.find? x).isSome := by
  have hcore : ∀ {a : Database K}, (a.core x).isSome = (a.incidents.find? x).isSome := by
    intro a
    rw [Database.core, Option.isSome_map]
  rw [← hcore] at hx ⊢
  rcases (applyExternalAction_effect h).incidents x with ⟨hsame, -⟩ | ⟨-, i, i', row, hi, -⟩
  · rwa [← hsame]
  · rw [hi]
    rfl

/-- What a sweep does to the queue. -/
theorem sweepOnce_queuedTo {freshEventIds : ℕ → String} {now moment : ℤ} {n : ℕ}
    (h : sweepOnce rt freshEventIds now moment db = .ok (n, db')) :
    QueuedTo (fun r => AddedRow rt db (.sweep freshEventIds now moment) r ∧
        Targets rt db r.incidentId (.sweep freshEventIds now moment))
      (fun x a => Touches rt db (.sweep freshEventIds now moment) x ∧ AnchorOf db' x a)
      db.outbox db'.outbox := by
  have hI : (∀ id, alreadySeen id db = true → alreadySeen id db' = true) ∧
      (∀ x, (db'.incidents.find? x).isSome → (db.incidents.find? x).isSome) ∧
      QueuedTo (fun r => AddedRow rt db (.sweep freshEventIds now moment) r ∧
          Targets rt db r.incidentId (.sweep freshEventIds now moment))
        (fun x a => Touches rt db (.sweep freshEventIds now moment) x ∧ AnchorOf db' x a)
        db.outbox db'.outbox := by
    refine sweepOnce_induct
      (P := fun b => (∀ id, alreadySeen id db = true → alreadySeen id b = true) ∧
        (∀ x, (b.incidents.find? x).isSome → (db.incidents.find? x).isSome) ∧
        QueuedTo (fun r => AddedRow rt db (.sweep freshEventIds now moment) r ∧
            Targets rt db r.incidentId (.sweep freshEventIds now moment))
          (fun x a => Touches rt db (.sweep freshEventIds now moment) x ∧ AnchorOf b x a)
          db.outbox b.outbox) h ⟨fun _ => id, fun _ => id, QueuedTo.refl _⟩ ?_
    rintro a b overdue o result k hover ho ⟨hseen, hknown, hq⟩ ha
    refine ⟨fun id hid => applyExternalAction_seen ha (hseen id hid),
      fun x hx => hknown x (applyExternalAction_known ha hx), ?_⟩
    have htarget : (∃ i next, Applies (sweepAction moment o) a i next) →
        Targets rt db o.incidentId (.sweep freshEventIds now moment) := by
      rintro ⟨i, next, happ⟩
      refine ⟨overdue, o, hover, ho, rfl, ?_⟩
      cases hs : alreadySeen (sweepAction moment o).inboundId db with
      | false => rfl
      | true => exact absurd (hseen _ hs) (by simp [happ.unseen])
    refine (hq.mono (fun _ => id) fun x y hx => ⟨hx.1, applyExternalAction_anchorOf ha hx.2⟩).trans ?_
    refine (applyExternalAction_queuedTo ha).mono ?_ ?_
    · rintro r ⟨⟨hnew, hid, happ, hpd⟩, hnot⟩
      refine ⟨⟨⟨hnew, ?_, fun hc => ?_⟩, fun hc => absurd hc hnot⟩, hid ▸ htarget happ⟩
      · obtain ⟨i, next, hi⟩ := happ
        refine hknown _ ?_
        rw [hid, hi.known]
        rfl
      · rw [hid, (hpd hc).2]
        exact .sweep (htarget happ)
    · rintro x y ⟨rfl, happ, hanchor⟩
      exact ⟨.sweep (htarget happ), hanchor⟩
  exact hI.2.2

/-- **What a request does to the queue**: it adds its own rows, about incidents it writes of, and
moves rows of the incidents it touches to the anchor of their storm when it ends. -/
theorem engineNext_raises {q : Request} (h : engineNext rt db q = some db') :
    QueuedTo (fun r => AddedRow rt db q r ∧ Raises rt db q r.incidentId)
      (fun x a => Touches rt db q x ∧ AnchorOf db' x a) db.outbox db'.outbox := by
  unfold engineNext at h
  split_ifs at h with hf
  obtain rfl := Option.some.inj h
  cases q with
  | ingest freshId freshGroupId now event =>
      cases hr : ingestEvent rt freshId freshGroupId now event db with
      | ok r =>
          simp only [Request.fresh, Bool.and_eq_true, Option.isNone_iff_eq_none] at hf
          rw [serve, hr]
          exact (ingestEvent_queuedTo hf.1.1.1 hr).mono (fun r hr => ⟨hr, hr.1.2.1⟩) fun _ _ => id
      | error e => rw [serve, hr]; exact QueuedTo.refl _
  | timer freshEventId now incidentId quietAtMs =>
      cases hr : persistTrigger rt freshEventId now { incidentId, quietAtMs } db with
      | ok r =>
          rw [serve, hr]
          refine (persistTrigger_queuedTo hr).mono (fun r hr => ?_) fun _ _ => id
          obtain ⟨hnew, htarget, hch, hact⟩ := hr
          refine ⟨⟨⟨hnew, ?_, fun hc => absurd hc hch⟩, fun hc => absurd hc hact⟩, htarget⟩
          obtain ⟨-, i, hi, -⟩ := htarget
          show (db.incidents.find? r.incidentId).isSome
          rw [hi]
          rfl
      | error e => rw [serve, hr]; exact QueuedTo.refl _
  | external freshEventId now action =>
      cases hr : applyExternalAction rt freshEventId now action db with
      | ok r =>
          rw [serve, hr]
          refine (applyExternalAction_queuedTo hr).mono ?_ ?_
          · rintro r ⟨⟨hnew, hid, happ, hpd⟩, hnot⟩
            refine ⟨⟨⟨hnew, ?_, fun hc => ?_⟩, fun hc => absurd hc hnot⟩, hid, happ⟩
            · obtain ⟨i, next, hi⟩ := happ
              show (db.incidents.find? r.incidentId).isSome
              rw [hid, hi.known]
              rfl
            · rw [hid, (hpd hc).2]
              exact .external ⟨rfl, happ⟩ (hpd hc).1
          · rintro x a ⟨rfl, happ, hanchor⟩
            exact ⟨.external ⟨rfl, happ⟩, hanchor⟩
      | error e => rw [serve, hr]; exact QueuedTo.refl _
  | sweep freshEventIds now moment =>
      cases hr : sweepOnce rt freshEventIds now moment db with
      | ok r => rw [serve, hr]; exact sweepOnce_queuedTo hr
      | error e => rw [serve, hr]; exact QueuedTo.refl _

/-- The same, without the incidents it writes of. -/
theorem engineNext_queuedTo {q : Request} (h : engineNext rt db q = some db') :
    QueuedTo (AddedRow rt db q) (fun x a => Touches rt db q x ∧ AnchorOf db' x a)
      db.outbox db'.outbox :=
  (engineNext_raises h).mono (fun _ hr => hr.1) fun _ _ => id

/-- The same, without the row that is moved to. -/
theorem engineNext_queued {q : Request} (h : engineNext rt db q = some db') :
    Queued (RequestRow rt db q) (fun x => Touches rt db q x ∧ NonAnchor db' x)
      db.outbox db'.outbox :=
  (engineNext_queuedTo h).queued (fun _ hr => hr.1) fun _ _ hx => ⟨hx.1, hx.2.nonAnchor⟩

end Transactions

end PulseGraph
