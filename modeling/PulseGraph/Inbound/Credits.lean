/-
# Whom the queue credits

The intents of an external action carry who acted and through which provider; those of an
alert and of a quiet deadline, and the notices of a merge, name nobody.  A row stays where it
is or, while it waits, is pointed at the anchor of its storm: with it goes whom it names.

`Credited` says of the rows that wait or are held that they name nobody, or are for an
incident that is resolved, or due to be by the sweep that is going on.

**Proved here.**  An external action keeps the queue so when the anchor it points its incident's
rows at is resolved or due (`Credited.externalAction`), and so does a whole sweep
(`Credited.sweepOnce`): what is due when it starts is resolved when it ends.  Nothing that an
alert or a quiet deadline adds names anybody (`ingestEvent_anonymous`, `persistTrigger_anonymous`),
and nobody is ever recorded as having acknowledged an incident (`acknowledgement_of_request`).
-/

import PulseGraph.Engine.Lifecycle
import PulseGraph.Engine.Persists

namespace PulseGraph

open Library (Table Run Transition bind_eq_ok foldlM_steps)

variable {K : Type}

/-! ## Naming nobody -/

/-- The payload names nobody who acted on an incident. -/
def Payload.Anonymous (p : Payload) : Prop :=
  p.via = none ∧ p.acknowledgedBy = none ∧ p.resolutionSource = none

instance (p : Payload) : Decidable p.Anonymous :=
  inferInstanceAs (Decidable (p.via = none ∧ p.acknowledgedBy = none ∧ p.resolutionSource = none))

/-- Rows that wait or are `held` name nobody, unless their incident is resolved or `due` to be. -/
def Credited (held : ℕ → Prop) (due : String → Prop) (db : Database K) : Prop :=
  ∀ k r, db.outbox.find? k = some r → r.status = .pending ∨ held k →
    r.payload.Anonymous ∨ Resolved db r.incidentId ∨ due r.incidentId

section Resolving

variable {rt : Runtime K} {db db' : Database K} {x : String}

/-- Without an alert nothing brings an incident back. -/
theorem Effect.resolved {trigger : Option Trigger} {targets : String → Prop}
    (h : Effect trigger targets db db') (hx : Resolved db x) : Resolved db' x := by
  rw [resolved_iff_core] at hx ⊢
  rcases h.incidents x with ⟨hcore, -⟩ | ⟨-, i, i', row, hi, -, -, hm⟩
  · rwa [hcore]
  · rw [hi] at hx
    have hstatus : i.status = .RESOLVED := Option.some.inj hx
    obtain ⟨trigger, htr, hedge⟩ := Option.bind_eq_some_iff.1 hm.edge
    rw [hstatus] at hedge
    exact absurd (htr.trans (congrArg some (transitionState_resolved hedge))) hm.not_reopen

variable [Field K] [LinearOrder K]

/-- **A resolving action that is new leaves its incident resolved**, whether it finds it so or not. -/
theorem applyExternalAction_resolves {freshEventId : String} {now : ℤ} {action : ExternalAction}
    {result : ReconcileResult} (h : applyExternalAction rt freshEventId now action db = .ok (result, db'))
    (hkind : action.kind = .resolve) (hunseen : alreadySeen action.inboundId db = false) {i : Incident}
    (hi : db.incidents.find? action.incidentId = some i) : Resolved db' action.incidentId := by
  by_cases hstatus : i.status = .RESOLVED
  · exact (applyExternalAction_effect h).resolved (by rw [Resolved, hi, Option.map_some, hstatus])
  have hedge : transitionState i.status .RESOLVE = some .RESOLVED := transitionState_resolve.2 ⟨hstatus, rfl⟩
  have happlies : Applies action db i .RESOLVED := ⟨hunseen, hi, by rw [hkind]; exact hedge⟩
  rcases applyExternalAction_cases h with ⟨-, hnot, -⟩ | ⟨-, j, next, d, db₁, ha, hd, hp, rfl⟩
  · exact absurd happlies (hnot i _)
  · obtain ⟨-, -, hid, hstate, -⟩ := buildDecision_eq_ok hd
    obtain rfl := Option.some.inj (hi.symm.trans ha.known)
    obtain rfl := Option.some.inj (happlies.edge.symm.trans ha.edge)
    have hsame : SameCore db₁ (settleAction now action i.status .RESOLVED db₁) := settleAction_sameCore _ _ _ _
    have hrow : db₁.core action.incidentId = some (persistedIncident now d (db.core action.incidentId)) :=
      hid ▸ (persistDecision_commits hp).core_self
    rw [resolved_iff_core, hsame.core, hrow, Option.map_some, persistedIncident_status, hstate]

/-! ## Actions and sweeps -/

variable {held : ℕ → Prop} {due due' : String → Prop}

/-- A row that an external action leaves: it was there, or is about the incident of the action; and
it is where it was, or at the anchor of the storm of that incident. -/
theorem applyExternalAction_row {freshEventId : String} {now : ℤ} {action : ExternalAction}
    {result : ReconcileResult} (h : applyExternalAction rt freshEventId now action db = .ok (result, db'))
    {k : ℕ} {r' : OutboxRow} (hr' : db'.outbox.find? k = some r') :
    db.outbox.find? k = some r' ∨ (∃ i next, Applies action db i next) ∧ (r'.incidentId = action.incidentId ∨
      r'.incidentId ≠ action.incidentId ∧ anchorIn db action.incidentId = some r'.incidentId) := by
  obtain ⟨r, hr, hm⟩ := (applyExternalAction_queuedTo h).source hr'
  rcases hm.eq_or_update with rfl | ⟨-, -, -, x, rfl, happlies, hanchor⟩
  · rcases hr with hr | ⟨-, ⟨-, hid, happlies, -⟩, -⟩
    · exact .inl hr
    · exact .inr ⟨happlies, .inl hid⟩
  · refine .inr ⟨happlies, .inr ⟨?_, ?_⟩⟩
    · obtain ⟨-, -, -, -, -, -, -, hne⟩ := hanchor
      exact hne
    · rw [← applyExternalAction_anchorIn h]
      exact hanchor.anchorIn

/-- **An external action keeps the queue credited** when nothing that is acknowledged was open, and
the anchor of its incident is resolved or due. -/
theorem Credited.externalAction {freshEventId : String} {now : ℤ} {action : ExternalAction}
    {result : ReconcileResult} (hc : Credited held due db)
    (h : applyExternalAction rt freshEventId now action db = .ok (result, db'))
    (hopen : ∀ i, db.incidents.find? action.incidentId = some i → i.status ≠ .OPEN)
    (hdue : ∀ x, due x → Resolved db' x ∨ due' x)
    (hanchor : ∀ a, (∃ i next, Applies action db i next) → action.kind = .resolve →
      anchorIn db action.incidentId = some a → a ≠ action.incidentId → Resolved db' a ∨ due' a) :
    Credited held due' db' := by
  intro k r' hr' hlive
  rcases applyExternalAction_row h hr' with hr | ⟨⟨i, next, ha⟩, hwhere⟩
  · rcases hc k r' hr hlive with hanon | hres | hd
    · exact .inl hanon
    · exact .inr (.inl ((applyExternalAction_effect h).resolved hres))
    · exact .inr (hdue _ hd)
  cases hkind : action.kind with
  | other name => simpa [hkind, triggerForKind] using ha.edge
  | acknowledge =>
      have hedge : transitionState i.status .ACKNOWLEDGE = some next := by
        have hedge := ha.edge
        rw [hkind] at hedge
        exact hedge
      exact absurd (transitionState_acknowledge.1 hedge).1 (hopen i ha.known)
  | resolve =>
      rcases hwhere with hid | ⟨hne, hin⟩
      · refine .inr (.inl ?_)
        rw [hid]
        exact applyExternalAction_resolves h hkind ha.unseen ha.known
      · exact .inr (hanchor _ ⟨i, next, ha⟩ hkind hin hne)

omit [Field K] [LinearOrder K] in
/-- The callbacks of one sweep differ where their incidents do. -/
theorem sweepAction_inboundId_inj {moment : ℤ} {o o' : Overdue}
    (h : (sweepAction moment o).inboundId = (sweepAction moment o').inboundId) :
    o.incidentId = o'.incidentId := by
  have hlists := congrArg String.toList h
  simp only [sweepAction, String.toList_append] at hlists
  exact String.toList_inj.1 (List.append_cancel_left (List.append_cancel_right (List.append_cancel_right hlists)))

/-- What a sweep has still to resolve, from its `m`-th candidate on. -/
def DueFrom (moment : ℤ) (overdue : List Overdue) (m : ℕ) (db : Database K) (x : String) : Prop :=
  ∃ n o, m ≤ n ∧ overdue[n]? = some o ∧ o.incidentId = x ∧
    alreadySeen (sweepAction moment o).inboundId db = false

/-- What was due is resolved by its own action, and else goes on being due. -/
theorem DueFrom.next {freshEventId : String} {now moment : ℤ} {overdue : List Overdue} {m : ℕ} {o : Overdue}
    {result : ReconcileResult} (ho : overdue[m]? = some o)
    (h : applyExternalAction rt freshEventId now (sweepAction moment o) db = .ok (result, db'))
    (hknown : ∀ o ∈ overdue, ∃ i, db.incidents.find? o.incidentId = some i)
    (hx : DueFrom moment overdue m db x) : Resolved db' x ∨ DueFrom moment overdue (m + 1) db' x := by
  obtain ⟨n, o', hle, ho', rfl, hunseen⟩ := hx
  obtain ⟨i, hi⟩ := hknown o (List.mem_of_getElem? ho)
  by_cases hsame : (sweepAction moment o').inboundId = (sweepAction moment o).inboundId
  · rw [sweepAction_inboundId_inj hsame]
    exact .inl (applyExternalAction_resolves h rfl (hsame ▸ hunseen) hi)
  · refine .inr ⟨n, o', ?_, ho', rfl, ?_⟩
    · rcases hle.lt_or_eq with hlt | rfl
      · exact hlt
      · obtain rfl := Option.some.inj (ho.symm.trans ho')
        exact absurd rfl hsame
    · rw [Bool.eq_false_iff]
      intro hseen
      rcases (applyExternalAction_seen_iff h).1 hseen with hid | hseen
      · exact hsame hid
      · rw [hseen] at hunseen
        cases hunseen

/-- **A sweep keeps the queue credited** when the anchors its incidents have are resolved, or are
resolved by the sweep as well. -/
theorem Credited.sweepOnce {freshEventIds : ℕ → String} {now moment : ℤ} {n : ℕ}
    (hc : Credited held (fun _ => False) db)
    (h : PulseGraph.sweepOnce rt freshEventIds now moment db = .ok (n, db'))
    (hopen : ∀ x i, db.core x = some i → i.status ≠ .OPEN)
    (hanchor : ∀ x a, Targets rt db x (.sweep freshEventIds now moment) → anchorIn db x = some a →
      a ≠ x → Resolved db a ∨ Targets rt db a (.sweep freshEventIds now moment)) :
    Credited held (fun _ => False) db' := by
  unfold PulseGraph.sweepOnce at h
  obtain ⟨overdue, hover, h⟩ := bind_eq_ok.1 h
  unfold sweepActions at h
  -- on the way, what is a target is resolved or due
  have hend := foldlM_steps (P := fun m s => (∀ y, anchorIn s.2 y = anchorIn db y) ∧
    (∀ x, Resolved db x → Resolved s.2 x) ∧ (∀ x i, s.2.core x = some i → i.status ≠ .OPEN) ∧
    (∀ o ∈ overdue, ∃ i, s.2.incidents.find? o.incidentId = some i) ∧
    (∀ id, alreadySeen id db = true → alreadySeen id s.2 = true) ∧
    (∀ x, Targets rt db x (.sweep freshEventIds now moment) →
      Resolved s.2 x ∨ DueFrom moment overdue m s.2 x) ∧
    Credited held (DueFrom moment overdue m s.2) s.2) h ?_ ?_
  · obtain ⟨-, -, -, -, -, -, hc'⟩ := hend
    intro k r hr hlive
    rcases hc' k r hr hlive with hanon | hres | ⟨m, o, hle, ho, -⟩
    · exact .inl hanon
    · exact .inr (.inl hres)
    · -- nothing is due when all candidates are worked off
      rw [List.length_mapIdx] at hle
      exact absurd (List.getElem?_eq_some_iff.1 ho).1 (not_lt.2 hle)
  · refine ⟨fun _ => rfl, fun _ => id, hopen, fun o ho => ?_, fun _ => id, ?_, ?_⟩
    · obtain ⟨i, hi, -⟩ := mem_candidates hover ho
      exact ⟨i, hi⟩
    · rintro x ⟨overdue', o, hover', ho, rfl, hunseen⟩
      obtain rfl := Except.ok.inj (hover.symm.trans hover')
      obtain ⟨m, hm⟩ := List.getElem?_of_mem ho
      exact .inr ⟨m, o, Nat.zero_le m, hm, rfl, hunseen⟩
    · exact fun k r hr hlive => (hc k r hr hlive).imp_right fun hres => .inl (hres.resolve_right id)
  · rintro m w s s' hw ⟨hanchors, hkeeps, hstates, hknown, hseen, htargets, hcs⟩ hstep
    obtain ⟨⟨result, b⟩, ha, hstep⟩ := bind_eq_ok.1 hstep
    obtain rfl := Except.ok.inj hstep
    rw [List.getElem?_mapIdx] at hw
    obtain ⟨o, ho, rfl⟩ := Option.map_eq_some_iff.1 hw
    dsimp only at ha ⊢
    have heff := applyExternalAction_effect ha
    have htargets' : ∀ x, Targets rt db x (.sweep freshEventIds now moment) →
        Resolved b x ∨ DueFrom moment overdue (m + 1) b x := by
      intro x hx
      rcases htargets x hx with hres | hdue
      · exact .inl (heff.resolved hres)
      · exact hdue.next ho ha hknown
    refine ⟨fun y => (applyExternalAction_anchorIn ha y).trans (hanchors y),
      fun x hx => heff.resolved (hkeeps x hx), ?_, ?_, fun id hid => applyExternalAction_seen ha (hseen id hid),
      htargets', ?_⟩
    · intro x i' hi'
      rcases heff.incidents x with ⟨hcore, -⟩ | ⟨-, i, i₁, row, hi, hi₁, -, hm⟩
      · exact hstates x i' (hcore ▸ hi')
      · obtain rfl := Option.some.inj (hi₁.symm.trans hi')
        obtain ⟨trigger, htr, hedge⟩ := Option.bind_eq_some_iff.1 hm.edge
        exact transitionState_ne_open (fun he => hm.not_reopen (he ▸ htr)) hedge
    · intro o' ho'
      obtain ⟨i, hi⟩ := hknown o' ho'
      rcases heff.incidents o'.incidentId with ⟨hcore, -⟩ | ⟨-, j, j', row, -, hj', -⟩
      · obtain ⟨j, hj, -⟩ := exists_find?_of_core (hcore.trans (core_of_find? hi))
        exact ⟨j, hj⟩
      · obtain ⟨j₁, hj₁, -⟩ := exists_find?_of_core hj'
        exact ⟨j₁, hj₁⟩
    · refine hcs.externalAction ha (fun i hi => hstates _ i.core (core_of_find? hi))
        (fun x hx => hx.next ho ha hknown) fun a ⟨i, next, happ⟩ _ hin hne => ?_
      have htarget : Targets rt db o.incidentId (.sweep freshEventIds now moment) := by
        refine ⟨overdue, o, hover, List.mem_of_getElem? ho, rfl, ?_⟩
        rw [Bool.eq_false_iff]
        exact fun hs => absurd (hseen _ hs) (by simp [happ.unseen])
      rcases hanchor _ a htarget ((hanchors _).symm.trans hin) hne with hres | ha'
      · exact .inl (heff.resolved (hkeeps a hres))
      · exact htargets' a ha'

end Resolving

/-! ## Alerts and deadlines -/

section Anonymous

variable {rt : Runtime K} {db db' : Database K} {freshId freshGroupId : String} {now : ℤ}

/-- No decision on an event names anybody. -/
theorem processEvent_anonymous {event : NormalizedEvent} {d : EngineDecision}
    (h : processEvent rt freshId now event db = .ok d) :
    ∀ intent ∈ d.deliveryIntents, intent.payload.Anonymous := by
  rcases processEvent_cases h with ⟨-, rfl⟩ | ⟨-, -, ho⟩ | ⟨-, record, -, -, hd⟩
  · intro intent hi
    simp only [bypassDecision, decision, List.mem_cons, List.not_mem_nil, or_false] at hi
    rcases hi with rfl | rfl <;> exact ⟨rfl, rfl, rfl⟩
  · unfold openDecision at ho
    obtain ⟨q, -, ho⟩ := bind_eq_ok.1 ho
    obtain rfl := Except.ok.inj ho
    intro intent hi
    obtain rfl := List.mem_singleton.1 hi
    exact ⟨rfl, rfl, rfl⟩
  · unfold duplicateDecision at hd
    obtain ⟨q, -, hd⟩ := bind_eq_ok.1 hd
    obtain rfl := Except.ok.inj hd
    intro intent hi
    simp only [decision] at hi
    split_ifs at hi
    · obtain rfl := List.mem_singleton.1 hi
      exact ⟨rfl, rfl, rfl⟩
    · simp at hi

/-- **Nothing that a quiet deadline adds names anybody**, and it moves nothing. -/
theorem persistTrigger_anonymous {freshEventId incidentId : String} {quietAtMs : ℤ} {committed : Bool}
    {target : String → String → Prop}
    (h : persistTrigger rt freshEventId now { incidentId, quietAtMs } db = .ok (committed, db')) :
    QueuedTo (·.payload.Anonymous) target db.outbox db'.outbox := by
  rcases persistTrigger_commits h with ⟨-, rfl⟩ | ⟨d, hd, hp⟩
  · exact QueuedTo.refl _
  obtain ⟨-, rfl⟩ := persistDecision_ok.1 hp
  unfold deadlineDecision at hd
  obtain ⟨i, -, hd⟩ := Option.bind_eq_some_iff.1 hd
  obtain ⟨next, -, rfl⟩ := Option.map_eq_some_iff.1 hd
  refine queuedTo_outboxRows fun intent hi => ?_
  obtain rfl := List.mem_singleton.1 hi
  exact ⟨rfl, rfl, rfl⟩

variable [Field K] [LinearOrder K]

/-- **Nothing that an alert adds names anybody**, and what waits for its incident is pointed at the
anchor whose card it belongs on. -/
theorem ingestEvent_anonymous [IsStrictOrderedRing K] {event : NormalizedEvent} {d : EngineDecision}
    (hfresh : (Request.ingest freshId freshGroupId now event).fresh db = true)
    (h : ingestEvent rt freshId freshGroupId now event db = .ok (d, db')) (hs : StormsBut none db)
    (hj : EdgesJoin db) : QueuedTo (·.payload.Anonymous)
      (fun x a => x = d.incidentId ∧ a ≠ d.incidentId ∧ BelongsOn rt now d db d.incidentId a)
      db.outbox db'.outbox := by
  obtain ⟨hd, db₁, hpersist, hrest⟩ := ingestEvent_parts h
  obtain ⟨-, rfl⟩ := persistDecision_ok.1 hpersist
  have hpush : ∀ target, QueuedTo (·.payload.Anonymous) target db.outbox (persisted rt now d db).outbox :=
    fun target => queuedTo_outboxRows (processEvent_anonymous hd)
  rcases hrest with ⟨-, rfl⟩ | ⟨hb, db₂, hobs, rfl⟩
  · exact hpush _
  have hsame : (regroup freshGroupId now d.incidentId d.scopeKey db₂).2.outbox =
      (persisted rt now d db).outbox := by
    rw [regroup_outbox, observeIncident_frame hobs]
  refine (hpush _).trans ?_
  rw [← hsame]
  refine (queuedTo_redirectFor _).mono ?_ ?_
  · rintro r ⟨anchor, rfl⟩
    exact ⟨rfl, rfl, rfl⟩
  · rintro x _ ⟨rfl, c, hc, rfl, hne⟩
    exact ⟨rfl, hne, regroup_belongsOn hfresh h hs hj hb hobs hc hne⟩

end Anonymous

/-! ## Acknowledgements -/

/-- Who acknowledged an incident, and through which provider. -/
def Incident.acknowledgement (i : Incident) : Option String × Option Provider :=
  (i.acknowledgedBy, i.acknowledgedVia)

/-- Who acknowledged an incident; nobody one that is not there. -/
def Database.acknowledgement (db : Database K) (x : String) : Option String × Option Provider :=
  ((db.incidents.find? x).map Incident.acknowledgement).getD (none, none)

section Acknowledgements

variable {rt : Runtime K} {db db' : Database K}

/-- Persisting a decision records no acknowledgement. -/
theorem acknowledgement_persisted {now : ℤ} {d : EngineDecision} (x : String) :
    (persisted rt now d db).acknowledgement x = db.acknowledgement x := by
  have hstamp : ∀ i : Incident, (stampFlap now d i).acknowledgement = i.acknowledgement := by
    intro i
    unfold stampFlap
    dsimp only
    split_ifs <;> rfl
  rw [Database.acknowledgement, find?_persisted]
  split_ifs with hx
  · rw [hx, Database.acknowledgement]
    cases db.incidents.find? d.incidentId with
    | none => exact hstamp _
    | some i => exact hstamp _
  · rfl

/-- Storms do not matter. -/
theorem Regrouped.acknowledgement (h : Regrouped db db') (x : String) :
    db'.acknowledgement x = db.acknowledgement x := by
  rw [Database.acknowledgement, Database.acknowledgement, h.map (fun _ => rfl) x]

variable [Field K] [LinearOrder K]

/-- An external action on an incident that is not open records none. -/
theorem acknowledgement_externalAction {freshEventId : String} {now : ℤ} {action : ExternalAction}
    {result : ReconcileResult} (h : applyExternalAction rt freshEventId now action db = .ok (result, db'))
    (hopen : action.kind = .acknowledge → ∀ i, db.incidents.find? action.incidentId = some i →
      i.status ≠ .OPEN) (x : String) : db'.acknowledgement x = db.acknowledgement x := by
  rcases applyExternalAction_cases h with ⟨-, -, hdb⟩ | ⟨-, i, next, d, db₁, ha, hd, hp, rfl⟩
  · rw [hdb]
    rfl
  obtain ⟨-, rfl⟩ := persistDecision_ok.1 hp
  have hresolve : action.kind ≠ .acknowledge := by
    intro hkind
    have hedge : transitionState i.status .ACKNOWLEDGE = some next := by
      have hedge := ha.edge
      rw [hkind] at hedge
      exact hedge
    exact hopen hkind i ha.known (transitionState_acknowledge.1 hedge).1
  have hpersisted : (persisted rt now d db).acknowledgement x = db.acknowledgement x := acknowledgement_persisted x
  rw [(settleAction_regrouped now action i.status next).acknowledgement]
  refine Eq.trans ?_ hpersisted
  rw [Database.acknowledgement, Database.acknowledgement]
  refine congrArg (Option.getD · _) (map_find?_update (fun k j => ?_) x)
  split_ifs
  · simp [stampAction, hresolve, Incident.acknowledgement]
  · rfl

/-- **Nobody is ever recorded as having acknowledged an incident** that is not open. -/
theorem acknowledgement_of_request {q : Request} (h : engineNext rt db q = some db')
    (hopen : ∀ x i, db.core x = some i → i.status ≠ .OPEN) (x : String) :
    db'.acknowledgement x = db.acknowledgement x := by
  rw [← serve_of_engineNext h]
  cases q with
  | ingest freshId freshGroupId now event =>
      cases hr : ingestEvent rt freshId freshGroupId now event db with
      | error e => rw [serve, hr]; rfl
      | ok r =>
          obtain ⟨-, db₁, hp, hgroup⟩ := ingestEvent_persists hr
          obtain ⟨-, rfl⟩ := persistDecision_ok.1 hp
          rw [serve, hr]
          exact (hgroup.acknowledgement x).trans (acknowledgement_persisted x)
  | timer freshEventId now incidentId quietAtMs =>
      cases hr : persistTrigger rt freshEventId now { incidentId, quietAtMs } db with
      | error e => rw [serve, hr]; rfl
      | ok r =>
          rw [serve, hr]
          rcases persistTrigger_commits hr with ⟨-, hsame⟩ | ⟨d, -, hp⟩
          · rw [afterTransaction, hsame]
          · obtain ⟨-, hdb⟩ := persistDecision_ok.1 hp
            rw [afterTransaction, hdb]
            exact acknowledgement_persisted x
  | external freshEventId now action =>
      cases hr : applyExternalAction rt freshEventId now action db with
      | error e => rw [serve, hr]; rfl
      | ok r =>
          rw [serve, hr]
          exact acknowledgement_externalAction hr (fun _ i hi => hopen _ i.core (core_of_find? hi)) x
  | sweep freshEventIds now moment =>
      cases hr : sweepOnce rt freshEventIds now moment db with
      | error e => rw [serve, hr]; rfl
      | ok r =>
          rw [serve, hr]
          refine sweepOnce_induct (P := fun a => a.acknowledgement x = db.acknowledgement x) hr rfl ?_
          intro a b overdue o result k _ _ ha hstep
          exact (acknowledgement_externalAction hstep (fun hkind => by cases hkind) x).trans ha

/-- **Nobody ever acknowledges an incident** that a deployment serves: none is open. -/
theorem DeploymentRun.unacknowledged {h : List (Transition (Deployment K) Turn)} {s : Deployment K}
    (r : DeploymentRun rt h s) :
    (∀ x i, s.db.core x = some i → i.status ≠ .OPEN) ∧ ∀ x, s.db.acknowledgement x = (none, none) := by
  refine r.induct (I := fun _ s => (∀ x i, s.db.core x = some i → i.status ≠ .OPEN) ∧
    ∀ x, s.db.acknowledgement x = (none, none)) ?_ ?_
  · rintro s rfl
    refine ⟨fun x i hi => ?_, fun x => rfl⟩
    simp [Database.core, Deployment.initial, Database.empty] at hi
  · rintro h s turn s' - ⟨hopen, hack⟩ hnext
    cases turn with
    | request q =>
        have hengine := (deploymentNext_request hnext).1
        exact ⟨engineNext_ne_open hengine hopen, fun x => (acknowledgement_of_request hengine hopen x).trans (hack x)⟩
    | worker w step =>
        rw [(deploymentNext_worker hnext).1.frame]
        exact ⟨hopen, hack⟩

end Acknowledgements

end PulseGraph
