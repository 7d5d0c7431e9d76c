/-
# Who resolved an incident

`apply_external_action` records who resolved an incident in three columns, each of which
keeps its first value (`COALESCE(resolved_via, ?)`), and no statement ever clears them.
An incident that comes back with its next alert keeps what is written there: the card
hydrated for it names the earlier resolution, and the next action leaves the columns as
they are.  And the rows that tell the other channels of a resolution name who resolved:
where `redirect_member_deliveries` points them at an anchor that is active, its card
names the resolution of the member.

**Proved here.**  In every run in which no alert brings back an incident that an action
has resolved, and no row that names somebody is pointed at an active anchor, the columns
are those of the action that resolved the incident, and whatever waits for an active
incident, or is in hand for it, is hydrated to a card that names no resolution
(`provenance_of_run`).
-/

import PulseGraph.Engine.Decisions
import PulseGraph.Inbound.Credits

namespace PulseGraph

open Library (Table Transition Run)

variable {K : Type}

/-! ## The three columns -/

/-- `resolved_via`, `resolution_source` and `resolution_detail`. -/
structure Resolution where
  via : Option Provider := none
  source : Option String := none
  detail : Option String := none
  deriving DecidableEq

/-- The resolution in an incident's row. -/
def Incident.resolution (i : Incident) : Resolution := ⟨i.resolvedVia, i.resolutionSource, i.resolutionDetail⟩

/-- The resolution of an incident; a row that is not there records none. -/
def Database.resolution (db : Database K) (x : String) : Resolution :=
  ((db.incidents.find? x).map Incident.resolution).getD {}

/-- What an action would record. -/
def ExternalAction.resolution (action : ExternalAction) : Resolution :=
  ⟨some action.provider, some action.resolutionSource, action.detail⟩

/-- `COALESCE` in each column. -/
def Resolution.or (r r' : Resolution) : Resolution :=
  ⟨r.via.or r'.via, r.source.or r'.source, r.detail.or r'.detail⟩

/-- The action resolved an incident that was active, and its row coalesces the two resolutions. -/
structure Stamped (db db' : Database K) (x : String) (action : ExternalAction) : Prop where
  resolution : db'.resolution x = (db.resolution x).or action.resolution
  active : ∃ i, db.core x = some i ∧ i.status ≠ .RESOLVED
  resolved : Resolved db' x

section Columns

variable {rt : Runtime K} {db db' : Database K} {x : String}

theorem resolution_of_find? {i : Incident} (h : db.incidents.find? x = some i) :
    db.resolution x = i.resolution := by
  rw [Database.resolution, h]
  rfl

/-- Storms do not matter. -/
theorem Regrouped.resolution (h : Regrouped db db') (x : String) : db'.resolution x = db.resolution x := by
  rw [Database.resolution, Database.resolution, h.map (fun _ => rfl) x]

/-- Persisting a decision records no resolution, and clears none. -/
theorem resolution_persistDecision {now : ℤ} {d : EngineDecision}
    (h : persistDecision rt now d db = .ok db') (x : String) : db'.resolution x = db.resolution x := by
  obtain ⟨-, rfl⟩ := persistDecision_ok.1 h
  have hstamp : ∀ i : Incident, (stampFlap now d i).resolution = i.resolution := by
    intro i
    unfold stampFlap
    dsimp only
    split_ifs <;> rfl
  rw [Database.resolution, find?_persisted]
  split_ifs with hx
  · rw [hx, Database.resolution]
    cases db.incidents.find? d.incidentId with
    | none => exact hstamp _
    | some i => exact hstamp _
  · rfl

variable [Field K] [LinearOrder K]

/-- Settling a resolving action stamps its incident. -/
theorem resolution_settleAction {now : ℤ} {action : ExternalAction} {current next : IncidentState}
    (hkind : action.kind = .resolve) (hknown : (db.incidents.find? action.incidentId).isSome = true)
    (x : String) : (settleAction now action current next db).resolution x =
      if x = action.incidentId then (db.resolution x).or action.resolution else db.resolution x := by
  rw [(settleAction_regrouped now action current next).resolution, Database.resolution]
  dsimp only
  rw [Table.find?_modify]
  split_ifs with hx
  · obtain ⟨i, hi⟩ := Option.isSome_iff_exists.1 hknown
    rw [hx, resolution_of_find? hi, hi, Option.map_some, Option.map_some, Option.getD_some]
    simp [stampAction, hkind, Incident.resolution, Resolution.or, ExternalAction.resolution]
  · rfl

/-- An acknowledgement that is settled records no resolution. -/
theorem resolution_settleAcknowledge {now : ℤ} {action : ExternalAction} {current next : IncidentState}
    (hkind : action.kind = .acknowledge) (x : String) :
    (settleAction now action current next db).resolution x = db.resolution x := by
  rw [(settleAction_regrouped now action current next).resolution, Database.resolution,
    Database.resolution]
  refine congrArg (Option.getD · _) (map_find?_update (fun k i => ?_) x)
  split_ifs
  · simp [stampAction, hkind, Incident.resolution]
  · rfl

/-- **What an action leaves in the columns**: nothing new, or its own resolution where the columns
are empty. -/
theorem applyExternalAction_resolution {freshEventId : String} {now : ℤ} {action : ExternalAction}
    {result : ReconcileResult} (h : applyExternalAction rt freshEventId now action db = .ok (result, db')) :
    (∀ x, db'.resolution x = db.resolution x) ∧ (action.kind = .resolve → result.changed = false ∧ db'.core = db.core) ∨
    action.kind = .resolve ∧ result.changed = true ∧ Stamped db db' action.incidentId action ∧
      ∀ x, x ≠ action.incidentId → db'.resolution x = db.resolution x ∧ db'.core x = db.core x := by
  rcases applyExternalAction_cases h with ⟨hnot, -, hdb⟩ | ⟨happlied, i, next, d, db₁, ha, hd, hp, rfl⟩
  · refine .inl ⟨fun x => ?_, fun _ => ⟨by simp [ReconcileResult.changed, hnot], ?_⟩⟩ <;> rw [hdb] <;> rfl
  obtain ⟨-, -, hid, hstate, -⟩ := buildDecision_eq_ok hd
  have hc := persistDecision_commits hp
  have hsame : SameCore db₁ (settleAction now action i.status next db₁) := settleAction_sameCore _ _ _ _
  cases hk : action.kind with
  | other name => simpa [hk, triggerForKind] using ha.edge
  | acknowledge =>
      refine .inl ⟨fun x => ?_, fun h => by cases h⟩
      rw [resolution_settleAcknowledge hk, resolution_persistDecision hp]
  | resolve =>
      have hedge : transitionState i.status .RESOLVE = some next := by
        have := ha.edge
        rw [hk] at this
        exact this
      obtain ⟨hactive, rfl⟩ := transitionState_resolve.1 hedge
      have hrow : db₁.core action.incidentId = some (persistedIncident now d (db.core action.incidentId)) :=
        hid ▸ hc.core_self
      have hknown : (db₁.incidents.find? action.incidentId).isSome = true := by
        rw [← Option.isSome_map (f := Incident.core)]
        exact Option.isSome_iff_exists.2 ⟨_, hrow⟩
      refine .inr ⟨rfl, by simp [ReconcileResult.changed, happlied], ?_, fun x hx => ⟨?_, ?_⟩⟩
      · refine ⟨?_, ⟨i.core, core_of_find? ha.known, hactive⟩, ?_⟩
        · rw [resolution_settleAction hk hknown, if_pos rfl, resolution_persistDecision hp]
        · rw [resolved_iff_core, hsame.core, hrow, Option.map_some, persistedIncident_status, hstate]
      · rw [resolution_settleAction hk hknown, if_neg hx, resolution_persistDecision hp]
      · exact (congrFun hsame.core x).trans (hc.core_of_ne (hid ▸ hx))

/-- **What a sweep leaves in the columns** of an incident. -/
theorem sweepOnce_resolution {freshEventIds : ℕ → String} {now moment : ℤ} {n : ℕ}
    (h : sweepOnce rt freshEventIds now moment db = .ok (n, db')) (x : String) :
    (db'.core x = db.core x ∧ db'.resolution x = db.resolution x) ∨
    ∃ overdue o, candidates rt moment db = .ok overdue ∧ o ∈ overdue ∧ o.incidentId = x ∧
      Stamped db db' x (sweepAction moment o) := by
  refine sweepOnce_induct (P := fun a => (a.core x = db.core x ∧ a.resolution x = db.resolution x) ∨
    ∃ overdue o, candidates rt moment db = .ok overdue ∧ o ∈ overdue ∧ o.incidentId = x ∧
      Stamped db a x (sweepAction moment o)) h (.inl ⟨rfl, rfl⟩) ?_
  intro a b overdue o result k hover ho ha hstep
  have hkept : b.core x = a.core x → b.resolution x = a.resolution x →
      (b.core x = db.core x ∧ b.resolution x = db.resolution x) ∨
      ∃ overdue o, candidates rt moment db = .ok overdue ∧ o ∈ overdue ∧ o.incidentId = x ∧
        Stamped db b x (sweepAction moment o) := by
    intro hcore hres
    rcases ha with ⟨hcore', hres'⟩ | ⟨overdue', o', hover', ho', hx, hstamped⟩
    · exact .inl ⟨hcore.trans hcore', hres.trans hres'⟩
    · exact .inr ⟨overdue', o', hover', ho', hx, hres.trans hstamped.resolution, hstamped.active,
        resolved_iff_core.2 (by rw [hcore]; exact resolved_iff_core.1 hstamped.resolved)⟩
  rcases applyExternalAction_resolution hstep with ⟨hres, hsame⟩ | ⟨-, -, hstamped, hothers⟩
  · exact hkept (congrFun (hsame rfl).2 x) (hres x)
  by_cases hx : x = o.incidentId
  swap
  · exact hkept (hothers x hx).2 (hothers x hx).1
  subst hx
  obtain ⟨i, hi, hactive⟩ : ∃ i, a.core o.incidentId = some i ∧ i.status ≠ .RESOLVED := hstamped.active
  rcases ha with ⟨hcore, hres⟩ | ⟨_, _, _, _, _, hbefore⟩
  · refine .inr ⟨overdue, o, hover, ho, rfl, ?_, ⟨i, hcore ▸ hi, hactive⟩, hstamped.resolved⟩
    rw [← hres]
    exact hstamped.resolution
  · -- what is resolved already is not resolved again
    have hresolved := resolved_iff_core.1 hbefore.resolved
    rw [hi] at hresolved
    exact absurd (Option.some.inj hresolved) hactive

end Columns

/-! ## Turns -/

variable [Field K] [LinearOrder K] (rt : Runtime K)

/-- The turn applies a `RESOLVE` action: a callback that is reported as applied, or the action of a
sweep on an incident that the sweep moves. -/
inductive Resolves (t : Transition (Deployment K) Turn) : ExternalAction → Prop
  | callback {freshEventId : String} {now : ℤ} {action : ExternalAction} {result : ReconcileResult}
      {db : Database K} : t.label = .request (.external freshEventId now action) →
      action.kind = .resolve →
      applyExternalAction rt freshEventId now action t.source.db = .ok (result, db) →
      result.changed = true → Resolves t action
  | sweep {freshEventIds : ℕ → String} {now moment : ℤ} {overdue : List Overdue} {o : Overdue} :
      t.label = .request (.sweep freshEventIds now moment) →
      candidates rt moment t.source.db = .ok overdue → o ∈ overdue →
      t.target.db.core o.incidentId ≠ t.source.db.core o.incidentId → Resolves t (sweepAction moment o)

/-- A payload that is to be filled for an incident: that of a row which waits for it, that of a row
which a worker has in hand, or the copy the worker has. -/
inductive Carries (s : Deployment K) (x : String) : Payload → Prop
  | waiting {k r} : s.db.outbox.find? k = some r → r.status = .pending → r.incidentId = x → Carries s x r.payload
  | held {w row r} : row ∈ (s.phase w).inHand → s.db.outbox.find? row.outboxId = some r → r.incidentId = x →
      Carries s x r.payload
  | copy {w row} : row ∈ (s.phase w).inHand → row.incidentId = x → Carries s x row.payload

/-- The payload names no resolution: whom it names is who acknowledged the incident. -/
structure CreditsNoResolution (i : Incident) (p : Payload) : Prop where
  via : p.via = i.acknowledgedVia
  acknowledgedBy : p.acknowledgedBy = truthy i.acknowledgedBy
  source : p.resolutionSource = none

/-- **The turn spares the provenance of resolutions**, read off the state it finds. -/
structure SparesProvenance (t : Transition (Deployment K) Turn) : Prop where
  /-- an alert brings back no incident that an action has resolved, or that a payload for it says was -/
  reopens : ∀ freshId freshGroupId now event d i, t.label = .request (.ingest freshId freshGroupId now event) →
    processEvent rt freshId now event t.source.db = .ok d → d.state ≠ .RESOLVED →
    t.source.db.incidents.find? d.incidentId = some i → i.status = .RESOLVED →
    i.resolvedVia = none ∧ ∀ p, Carries t.source d.incidentId p → p.Anonymous
  /-- an alert points no row that names somebody at an anchor that is active -/
  regroups : ∀ freshId freshGroupId now event d k r a,
    t.label = .request (.ingest freshId freshGroupId now event) →
    processEvent rt freshId now event t.source.db = .ok d → t.source.db.outbox.find? k = some r →
    r.status = .pending → r.incidentId = d.incidentId → ¬ r.payload.Anonymous →
    BelongsOn rt now d t.source.db d.incidentId a → a ≠ d.incidentId → Resolved t.source.db a
  /-- a member that is resolved has an anchor that is, or that the same sweep resolves -/
  resolves : ∀ q x a, t.label = .request q → q.trigger = some .RESOLVE → Targets rt t.source.db x q →
    anchorIn t.source.db x = some a → a ≠ x → Resolved t.source.db a ∨ Targets rt t.source.db a q

section Turns

variable {rt} {s s' : Deployment K} {h : List (Transition (Deployment K) Turn)} {x : String}

/-- **An applied action stamps its incident.** -/
theorem stamped_of_resolves {turn : Turn} {action : ExternalAction}
    (hnext : deploymentNext rt s turn = some s') (h : Resolves rt ⟨s, turn, s'⟩ action) :
    Stamped s.db s'.db action.incidentId action := by
  cases h with
  | @callback freshEventId now action result db hlabel hkind happly hchanged =>
      obtain rfl : turn = .request (.external freshEventId now action) := hlabel
      have hengine := (deploymentNext_request hnext).1
      obtain rfl : db = s'.db := by
        rw [← serve_of_engineNext hengine, serve, happly]
        rfl
      rcases applyExternalAction_resolution happly with ⟨-, hsame⟩ | ⟨-, -, hstamped, -⟩
      · exact absurd hchanged (by simp [(hsame hkind).1])
      · exact hstamped
  | @sweep freshEventIds now moment overdue o hlabel hover ho hmoved =>
      obtain rfl : turn = .request (.sweep freshEventIds now moment) := hlabel
      have hengine := (deploymentNext_request hnext).1
      have hdb := serve_of_engineNext hengine
      rw [serve] at hdb
      cases hr : sweepOnce rt freshEventIds now moment s.db with
      | error e =>
          rw [hr] at hdb
          exact absurd (by rw [← hdb]; rfl) hmoved
      | ok r =>
          rw [hr] at hdb
          have hr' : sweepOnce rt freshEventIds now moment s.db = .ok (r.1, s'.db) := by rw [hr, ← hdb]; rfl
          rcases sweepOnce_resolution hr' o.incidentId with ⟨hcore, -⟩ | ⟨overdue', o', hover', ho', hid, hst⟩
          · exact absurd hcore hmoved
          · obtain rfl := Except.ok.inj (hover.symm.trans hover')
            obtain rfl := candidates_unique hover ho' ho hid
            exact hst

/-- What a turn leaves in the columns of an incident. -/
theorem resolution_of_turn {turn : Turn} (hnext : deploymentNext rt s turn = some s') (x : String) :
    s'.db.resolution x = s.db.resolution x ∨ ∃ action, Stamped s.db s'.db x action := by
  cases turn with
  | worker w step =>
      have hframe := (deploymentNext_worker hnext).1.frame
      rw [hframe]
      exact .inl rfl
  | request q =>
      have hengine := (deploymentNext_request hnext).1
      rw [← serve_of_engineNext hengine]
      cases q with
      | ingest freshId freshGroupId now event =>
          cases hr : ingestEvent rt freshId freshGroupId now event s.db with
          | error e => rw [serve, hr]; exact .inl rfl
          | ok r =>
              obtain ⟨-, db₁, hp, hgroup⟩ := ingestEvent_persists hr
              rw [serve, hr]
              exact .inl ((hgroup.resolution x).trans (resolution_persistDecision hp x))
      | timer freshEventId now incidentId quietAtMs =>
          cases hr : persistTrigger rt freshEventId now { incidentId, quietAtMs } s.db with
          | error e => rw [serve, hr]; exact .inl rfl
          | ok r =>
              rw [serve, hr]
              rcases persistTrigger_commits hr with ⟨-, hsame⟩ | ⟨d, -, hp⟩
              · exact .inl (by rw [afterTransaction, hsame])
              · exact .inl (resolution_persistDecision hp x)
      | external freshEventId now action =>
          cases hr : applyExternalAction rt freshEventId now action s.db with
          | error e => rw [serve, hr]; exact .inl rfl
          | ok r =>
              rw [serve, hr]
              rcases applyExternalAction_resolution hr with ⟨hres, -⟩ | ⟨-, -, hstamped, hothers⟩
              · exact .inl (hres x)
              · by_cases hx : x = action.incidentId
                · exact .inr ⟨action, hx ▸ hstamped⟩
                · exact .inl (hothers x hx).1
      | sweep freshEventIds now moment =>
          cases hr : sweepOnce rt freshEventIds now moment s.db with
          | error e => rw [serve, hr]; exact .inl rfl
          | ok r =>
              rw [serve, hr]
              rcases sweepOnce_resolution hr x with ⟨-, hres⟩ | ⟨-, o, -, -, -, hstamped⟩
              · exact .inl hres
              · exact .inr ⟨_, hstamped⟩

/-! ## Runs -/

/-- An incident whose row says who resolved it is resolved. -/
def Attributed (db : Database K) : Prop :=
  ∀ x, db.resolution x ≠ {} → (db.resolution x).via.isSome = true ∧ Resolved db x

/-- What is to be filled for an incident names nobody unless it is resolved. -/
def CarriesCredited (s : Deployment K) : Prop := ∀ x p, Carries s x p → p.Anonymous ∨ Resolved s.db x

/-- The row is in a worker's hand. -/
def Held (s : Deployment K) (k : ℕ) : Prop := ∃ w row, row ∈ (s.phase w).inHand ∧ row.outboxId = k

/-- What stays resolved: an incident no alert brings back. -/
theorem resolved_of_turn {turn : Turn} (hnext : deploymentNext rt s turn = some s') (hx : Resolved s.db x)
    (hkeeps : ∀ freshId freshGroupId now event d, turn = .request (.ingest freshId freshGroupId now event) →
      processEvent rt freshId now event s.db = .ok d → d.incidentId = x → d.state = .RESOLVED) :
    Resolved s'.db x := by
  cases turn with
  | worker w step =>
      rw [(deploymentNext_worker hnext).1.frame]
      exact hx
  | request q =>
      rcases engineNext_cases (deploymentNext_request hnext).1 with
        ⟨freshId, freshGroupId, now, event, d, rfl, hfresh, hr⟩ | ⟨-, heff⟩
      · obtain ⟨hc, -⟩ := ingest_cases hfresh hr
        by_cases hxd : d.incidentId = x
        · subst hxd
          rw [resolved_iff_core, hc.core_self, Option.map_some, persistedIncident_status,
            hkeeps _ _ _ _ d rfl (ingestEvent_parts hr).1 rfl]
        · rw [resolved_iff_core, hc.core_of_ne (Ne.symm hxd), ← resolved_iff_core]
          exact hx
      · exact heff.resolved hx

/-- A turn that spares provenance keeps an incident resolved that an action has resolved. -/
theorem SparesProvenance.resolved {turn : Turn} (ht : SparesProvenance rt ⟨s, turn, s'⟩)
    (hnext : deploymentNext rt s turn = some s') (hx : Resolved s.db x)
    (hnamed : (s.db.resolution x).via.isSome = true ∨ ∃ p, Carries s x p ∧ ¬ p.Anonymous) :
    Resolved s'.db x := by
  refine resolved_of_turn hnext hx fun freshId freshGroupId now event d hlabel hd hid => ?_
  by_contra hstate
  obtain ⟨i, hi, hstatus⟩ := Option.map_eq_some_iff.1 hx
  obtain ⟨hvia, hanon⟩ := ht.reopens freshId freshGroupId now event d i hlabel hd hstate (hid ▸ hi) hstatus
  rcases hnamed with hsome | ⟨p, hp, hnot⟩
  · rw [resolution_of_find? hi, Incident.resolution, hvia] at hsome
    cases hsome
  · exact hnot (hanon p (hid ▸ hp))

/-- Such a turn keeps the incidents resolved that have been. -/
theorem Attributed.next {turn : Turn} (ha : Attributed s.db) (hnext : deploymentNext rt s turn = some s')
    (ht : SparesProvenance rt ⟨s, turn, s'⟩) : Attributed s'.db := by
  intro x hx
  rcases resolution_of_turn hnext x with hsame | ⟨action, hstamped⟩
  · rw [hsame] at hx ⊢
    obtain ⟨hvia, hres⟩ := ha x hx
    exact ⟨hvia, ht.resolved hnext hres (.inl hvia)⟩
  · refine ⟨?_, hstamped.resolved⟩
    rw [hstamped.resolution]
    show ((s.db.resolution x).via.or (some action.provider)).isSome = true
    cases (s.db.resolution x).via <;> rfl

/-- And what is to be filled for an incident goes on naming nobody, or the incident is resolved. -/
theorem CarriesCredited.kept {turn : Turn} (hc : CarriesCredited s) (hnext : deploymentNext rt s turn = some s')
    (ht : SparesProvenance rt ⟨s, turn, s'⟩) {p : Payload} (hp : Carries s x p) :
    p.Anonymous ∨ Resolved s'.db x := by
  by_cases hanon : p.Anonymous
  · exact .inl hanon
  · exact .inr (ht.resolved hnext ((hc x p hp).resolve_left hanon) (.inr ⟨p, hp, hanon⟩))

omit [Field K] [LinearOrder K] in
/-- A row that waits or is held carries its payload. -/
theorem carries_of_live {k : ℕ} {r : OutboxRow} (hr : s.db.outbox.find? k = some r)
    (hlive : r.status = .pending ∨ Held s k) : Carries s r.incidentId r.payload := by
  rcases hlive with hp | ⟨w, row, hrow, rfl⟩
  · exact .waiting hr hp rfl
  · exact .held hrow hr rfl

omit [Field K] [LinearOrder K] in
/-- What a state carries is read off its rows that wait or are held, and the copies in hand. -/
theorem carriesCredited_iff : CarriesCredited s ↔ Credited (Held s) (fun _ => False) s.db ∧
    ∀ w row, row ∈ (s.phase w).inHand → row.payload.Anonymous ∨ Resolved s.db row.incidentId := by
  constructor
  · intro hc
    refine ⟨fun k r hr hlive => ?_, fun w row hrow => hc _ _ (.copy hrow rfl)⟩
    exact (hc _ _ (carries_of_live hr hlive)).imp_right .inl
  · rintro ⟨hrows, hcopies⟩ x p hp
    cases hp with
    | @waiting k r hr hpending hid => exact hid ▸ (hrows k r hr (.inl hpending)).imp_right fun h => h.resolve_right id
    | @held w row r hrow hr hid =>
        exact hid ▸ (hrows _ r hr (.inr ⟨w, row, hrow, rfl⟩)).imp_right fun h => h.resolve_right id
    | @copy w row hrow hid => exact hid ▸ hcopies w row hrow

/-- **A request keeps what is carried credited.** -/
theorem CarriesCredited.request [IsStrictOrderedRing K] {q : Request} (hc : CarriesCredited s)
    (hs : StormsBut none s.db) (hj : EdgesJoin s.db) (hopen : ∀ x i, s.db.core x = some i → i.status ≠ .OPEN)
    (hnext : deploymentNext rt s (.request q) = some s') (ht : SparesProvenance rt ⟨s, .request q, s'⟩) :
    CarriesCredited s' := by
  obtain ⟨hengine, hphase⟩ := deploymentNext_request hnext
  have hheld : Held s' = Held s := by
    unfold Held
    rw [hphase]
  refine carriesCredited_iff.2 ⟨?_, fun w row hrow => ?_⟩
  swap
  · exact hc.kept hnext ht (.copy (hphase ▸ hrow) rfl)
  rw [hheld]
  have hrows := (carriesCredited_iff.1 hc).1
  have hfresh : q.fresh s.db = true := by
    unfold engineNext at hengine
    split_ifs at hengine with hf
    exact hf
  have hserve := serve_of_engineNext hengine
  -- rows that stay where they are
  have hstays : ∀ {k r}, s.db.outbox.find? k = some r → r.status = .pending ∨ Held s k →
      r.payload.Anonymous ∨ Resolved s'.db r.incidentId ∨ False :=
    fun hr hlive => (hc.kept hnext ht (carries_of_live hr hlive)).imp_right .inl
  cases q with
  | ingest freshId freshGroupId now event =>
      cases hr : ingestEvent rt freshId freshGroupId now event s.db with
      | error e =>
          rw [← hserve, serve, hr]
          exact hrows
      | ok result =>
          obtain ⟨d, db'⟩ := result
          obtain rfl : db' = s'.db := by
            rw [← hserve, serve, hr]
            rfl
          have hd := (ingestEvent_parts hr).1
          intro k r' hr' hlive
          obtain ⟨r, hsource, hm⟩ := (ingestEvent_anonymous hfresh hr hs hj).source hr'
          have hpayload : r'.payload = r.payload := by rw [hm.frame]
          have hstatus : r'.status = r.status := by rw [hm.frame]
          rcases hsource with hfind | ⟨-, hanon⟩
          swap
          · exact .inl (hpayload ▸ hanon)
          rcases hm.eq_or_update with rfl | ⟨hp, -, ⟨-, hid, -⟩, -, -, hne, hon⟩
          · exact hstays hfind hlive
          by_cases hanon : r.payload.Anonymous
          · exact .inl (hpayload ▸ hanon)
          · have hanchor := ht.regroups _ _ _ _ d k r _ rfl hd hfind hp hid hanon hon hne
            refine .inr (.inl (resolved_of_turn hnext hanchor ?_))
            rintro _ _ _ _ d' hlabel hd' hid'
            cases hlabel
            obtain rfl := Except.ok.inj (hd.symm.trans hd')
            exact absurd hid'.symm hne
  | timer freshEventId now incidentId quietAtMs =>
      cases hr : persistTrigger rt freshEventId now { incidentId, quietAtMs } s.db with
      | error e =>
          rw [← hserve, serve, hr]
          exact hrows
      | ok result =>
          obtain ⟨committed, db'⟩ := result
          obtain rfl : db' = s'.db := by
            rw [← hserve, serve, hr]
            rfl
          intro k r' hr' hlive
          have hqueued : QueuedTo (·.payload.Anonymous) (fun _ _ => False) _ _ := persistTrigger_anonymous hr
          obtain ⟨r, hsource, hm⟩ := hqueued.source hr'
          rcases hm.eq_or_update with rfl | ⟨-, -, ⟨-, hfalse⟩, -⟩
          · rcases hsource with hfind | ⟨-, hanon⟩
            · exact hstays hfind hlive
            · exact .inl hanon
          · exact hfalse.elim
  | external freshEventId now action =>
      cases hr : applyExternalAction rt freshEventId now action s.db with
      | error e =>
          rw [← hserve, serve, hr]
          exact hrows
      | ok result =>
          obtain ⟨outcome, db'⟩ := result
          obtain rfl : db' = s'.db := by
            rw [← hserve, serve, hr]
            rfl
          refine hrows.externalAction hr (fun i hi => hopen _ i.core (core_of_find? hi)) (fun x => False.elim) ?_
          intro a happlies hkind hin hne
          have htrigger : (Request.external freshEventId now action).trigger = some .RESOLVE := by
            show triggerForKind action.kind = some .RESOLVE
            rw [hkind]
            rfl
          rcases ht.resolves _ _ a rfl htrigger ⟨rfl, happlies⟩ hin hne with hres | ⟨ha, -⟩
          · exact .inl ((applyExternalAction_effect hr).resolved hres)
          · exact absurd ha hne
  | sweep freshEventIds now moment =>
      cases hr : sweepOnce rt freshEventIds now moment s.db with
      | error e =>
          rw [← hserve, serve, hr]
          exact hrows
      | ok result =>
          obtain ⟨n, db'⟩ := result
          obtain rfl : db' = s'.db := by
            rw [← hserve, serve, hr]
            rfl
          exact hrows.sweepOnce hr hopen fun x a hx hin hne => ht.resolves _ x a rfl rfl hx hin hne

omit [Field K] [LinearOrder K] in
/-- What a step of a worker keeps of whom a row names, and for whom. -/
theorem RowStep.credits {w : String} {phase : Phase} {db : Database K} {step : WorkerStep} {k : ℕ}
    {r r' : OutboxRow} (hstep : RowStep rt w phase db step k r r') :
    (r'.payload.Anonymous ↔ r.payload.Anonymous) ∧ r'.incidentId = r.incidentId := by
  cases hstep with
  | collapsed _ hc _ => cases hc <;> exact ⟨Iff.rfl, rfl⟩
  | _ => exact ⟨Iff.rfl, rfl⟩

omit [Field K] [LinearOrder K] in
/-- A card names nobody when its payload does not, and nobody has resolved or acknowledged its incident. -/
theorem anonymous_hydratePayload {db : Database K} {p : Payload} (hp : p.Anonymous)
    (hres : db.resolution x = {}) (hack : db.acknowledgement x = (none, none)) :
    (hydratePayload x p db).Anonymous := by
  cases hi : db.incidents.find? x with
  | none =>
      unfold hydratePayload
      rw [hi]
      exact hp
  | some i =>
      rw [resolution_of_find? hi] at hres
      rw [Database.acknowledgement, hi] at hack
      obtain ⟨hvia, hsource, -⟩ := Resolution.mk.inj hres
      obtain ⟨hby, hackvia⟩ := Prod.mk.inj hack
      obtain ⟨hv, hs⟩ : (hydratePayload x p db).via = _ ∧ _ := hydratePayload_provenance hi
      have hb : (hydratePayload x p db).acknowledgedBy = _ := hydratePayload_acknowledgedBy hi
      obtain ⟨hpvia, hpby, hpsource⟩ := hp
      refine ⟨?_, ?_, ?_⟩
      · rw [hv, hvia, hackvia, hpvia]
        rfl
      · rw [hb, hby, hpby]
        rfl
      · rw [hs, hsource, hpsource]
        rfl

/-- **A step of a worker keeps what is carried credited.** -/
theorem CarriesCredited.worker {w : String} {step : WorkerStep} (hc : CarriesCredited s) (ha : Attributed s.db)
    (hack : ∀ x, s.db.acknowledgement x = (none, none))
    (hnext : deploymentNext rt s (.worker w step) = some s') : CarriesCredited s' := by
  obtain ⟨hmove, hothers⟩ := deploymentNext_worker hnext
  have hresolved : ∀ y, Resolved s'.db y ↔ Resolved s.db y := by
    intro y
    rw [hmove.frame]
    exact Iff.rfl
  obtain ⟨hrows, hcopies⟩ := carriesCredited_iff.1 hc
  -- what is in hand after the step was, or waits to be selected
  have hhand : ∀ w' row, row ∈ (s'.phase w').inHand → row ∈ (s.phase w').inHand ∨
      s'.db = s.db ∧ ∃ k r, s.db.outbox.find? k = some r ∧ row = claimedRow k r ∧ r.status = .pending := by
    intro w' row hrow
    by_cases hw : w' = w
    swap
    · rw [hothers w' hw] at hrow
      exact .inl hrow
    subst hw
    rcases hmove.inHand with ⟨done, hdone⟩ | ⟨leaseUntil, -, -, hdb, hsub⟩
    · rw [hdone]
      exact .inl (List.mem_append_right _ hrow)
    · obtain ⟨k, r, hr, rfl, hp, -⟩ := mem_leasedRows (hsub.subset hrow)
      exact .inr ⟨hdb, k, r, hr, rfl, hp⟩
  refine carriesCredited_iff.2 ⟨fun k r' hr' hlive => ?_, fun w' row hrow => ?_⟩
  swap
  · rw [hresolved]
    rcases hhand w' row hrow with hrow | ⟨-, k, r, hr, rfl, hp⟩
    · exact hcopies w' row hrow
    · exact hc _ _ (.waiting hr hp rfl)
  obtain ⟨hkept, hnew⟩ := hmove.rows
  cases hr : s.db.outbox.find? k with
  | some r =>
      obtain ⟨r₁, hr₁, hstep⟩ := hkept k r hr
      obtain rfl := Option.some.inj (hr₁.symm.trans hr')
      obtain ⟨hanon, hid⟩ := hstep.credits
      rw [hanon, hid, hresolved]
      refine hrows k r hr ?_
      rcases hlive with hp | ⟨w', row, hrow, rfl⟩
      · rcases hstep.live hp with hp | ⟨row, hrow, rfl⟩
        · exact .inl hp
        · exact .inr ⟨w, row, hrow, rfl⟩
      · rcases hhand w' row hrow with hrow | ⟨-, k, r₀, hr₀, rfl, hp⟩
        · exact .inr ⟨w', row, hrow, rfl⟩
        · obtain rfl := Option.some.inj (hr₀.symm.trans hr)
          exact .inl hp
  | none =>
      rw [hresolved]
      cases hnew k r' hr hr' with
      | digest _ => exact .inl ⟨rfl, rfl, rfl⟩
      | @failover now channel batch k₀ r₀ target hphase hmem hworthy hsel =>
          -- the stand-in is filled as the card of its row would be
          obtain ⟨hr₀, -, hp₀, -⟩ := mem_failoverCandidates.1 hmem
          show (hydratePayload r₀.incidentId r₀.payload s.db).Anonymous ∨ Resolved s.db r₀.incidentId ∨ False
          rcases hc _ _ (.waiting hr₀ hp₀ rfl) with hanon | hres
          · by_cases hempty : s.db.resolution r₀.incidentId = {}
            · exact .inl (anonymous_hydratePayload hanon hempty (hack _))
            · exact .inr (.inl (ha _ hempty).2)
          · exact .inr (.inl hres)

/-- **When the provenance of a resolution is right**: in every run in which no alert brings back an
incident that an action has resolved, and no row that names somebody is pointed at an active anchor,
every applied action is what the columns of its incident say afterwards, and what is carried for an
active incident is filled to a card that names no resolution. -/
theorem provenance_of_run [IsStrictOrderedRing K] (r : DeploymentRun rt h s)
    (hc : ∀ t ∈ h, SparesProvenance rt t) :
    (∀ t ∈ h, ∀ action, Resolves rt t action →
      t.target.db.resolution action.incidentId = action.resolution) ∧
    ∀ x i, s.db.incidents.find? x = some i → i.status.active = true → ∀ payload, Carries s x payload →
      CreditsNoResolution i (hydratePayload x payload s.db) := by
  have hI : Attributed s.db ∧ CarriesCredited s ∧ ∀ t ∈ h, ∀ action, Resolves rt t action →
      t.target.db.resolution action.incidentId = action.resolution := by
    refine Run.induct_of_forall (I := fun h s => Attributed s.db ∧ CarriesCredited s ∧
      ∀ t ∈ h, ∀ action, Resolves rt t action →
        t.target.db.resolution action.incidentId = action.resolution) r hc ?_ ?_
    · rintro s rfl
      refine ⟨fun x hx => absurd rfl hx, carriesCredited_iff.2 ⟨fun k r hr => ?_, fun w row hrow => ?_⟩,
        fun t ht => absurd ht List.not_mem_nil⟩
      · simp [Deployment.initial, Database.empty] at hr
      · exact absurd hrow List.not_mem_nil
    · rintro h s turn s' hrun - ⟨ha, hcarried, hall⟩ ht hnext
      have hrun : DeploymentRun rt h s := hrun
      refine ⟨ha.next hnext ht, ?_, fun t htm action hres => ?_⟩
      · cases turn with
        | request q => exact hcarried.request hrun.storms hrun.edgesJoin hrun.unacknowledged.1 hnext ht
        | worker w step => exact hcarried.worker ha hrun.unacknowledged.2 hnext
      rcases List.mem_cons.1 htm with rfl | htm
      swap
      · exact hall t htm action hres
      have hstamped := stamped_of_resolves hnext hres
      -- the incident was active, so nobody is named as having resolved it
      have hempty : s.db.resolution action.incidentId = {} := by
        by_contra hne
        obtain ⟨j, hj, hactive⟩ := hstamped.active
        have hresolved := resolved_iff_core.1 (ha _ hne).2
        rw [hj] at hresolved
        exact hactive (Option.some.inj hresolved)
      rw [hstamped.resolution, hempty]
      rfl
  obtain ⟨ha, hcarried, hall⟩ := hI
  refine ⟨hall, fun x i hi hactive payload hp => ?_⟩
  have hnot : ¬ Resolved s.db x := by
    rw [Resolved, hi, Option.map_some]
    intro hres
    rw [Option.some.inj hres] at hactive
    cases hactive
  have hempty : s.db.resolution x = {} := by
    by_contra hne
    exact hnot (ha x hne).2
  obtain ⟨hvia, hby, hsource⟩ := anonymous_hydratePayload ((hcarried x payload hp).resolve_right hnot) hempty
    (r.unacknowledged.2 x)
  have hack := r.unacknowledged.2 x
  rw [Database.acknowledgement, hi] at hack
  obtain ⟨hackby, hackvia⟩ := Prod.mk.inj hack
  refine ⟨?_, ?_, hsource⟩
  · rw [hvia, hackvia]
  · rw [hby, hackby]
    rfl

end Turns

/-! ## Three runs -/

/-- A check of a turn: its alert is about no resolved incident and no row that waits for the incident
names anybody, or its action is on an incident whose anchor is resolved. -/
def checksProvenance (t : Transition (Deployment K) Turn) : Bool :=
  match t.label with
  | .request (.ingest freshId _ now event) => (processEvent rt freshId now event t.source.db).toOption.all fun d =>
      !decide (Resolved t.source.db d.incidentId) && t.source.db.outbox.rows.all fun r =>
        r.2.incidentId ≠ d.incidentId || decide r.2.payload.Anonymous
  | .request (.external _ _ action) => (anchorIn t.source.db action.incidentId).all fun a =>
      a = action.incidentId || decide (Resolved t.source.db a)
  | .request (.sweep ..) => false
  | _ => true

variable {rt} in
/-- The check is enough. -/
theorem sparesProvenance_of_check {t : Transition (Deployment K) Turn}
    (ht : checksProvenance rt t = true) : SparesProvenance rt t := by
  have halert : ∀ freshId freshGroupId now event d, t.label = .request (.ingest freshId freshGroupId now event) →
      processEvent rt freshId now event t.source.db = .ok d → ¬ Resolved t.source.db d.incidentId ∧
        ∀ k r, t.source.db.outbox.find? k = some r → r.incidentId = d.incidentId → r.payload.Anonymous := by
    intro freshId freshGroupId now event d hlabel hd
    unfold checksProvenance at ht
    rw [hlabel] at ht
    dsimp only at ht
    rw [hd] at ht
    simp only [Except.toOption, Option.all_some, Bool.and_eq_true, Bool.not_eq_true', decide_eq_false_iff_not] at ht
    refine ⟨ht.1, fun k r hr hid => ?_⟩
    simpa [hid] using List.all_eq_true.1 ht.2 (k, r) (Table.find?_eq_some_iff.1 hr)
  constructor
  · intro freshId freshGroupId now event d i hlabel hd _ hi hstatus
    exact absurd (by rw [Resolved, hi, Option.map_some, hstatus]) (halert _ _ _ _ d hlabel hd).1
  · intro freshId freshGroupId now event d k r a hlabel hd hr _ hid hnot
    exact absurd ((halert _ _ _ _ d hlabel hd).2 k r hr hid) hnot
  · intro q x a hlabel htrigger hx hin hne
    unfold checksProvenance at ht
    rw [hlabel] at ht
    cases q with
    | ingest freshId freshGroupId now event => cases htrigger
    | timer freshEventId now incidentId quietAtMs => cases htrigger
    | sweep freshEventIds now moment => cases ht
    | external freshEventId now action =>
        obtain ⟨rfl, -⟩ := hx
        dsimp only at ht
        rw [hin, Option.all_some] at ht
        exact .inl (by simpa [hne] using ht)

/-- Both incidents of a storm are resolved in Slack, its anchor first; then another service alerts. -/
def resolvedInSlack : List Turn :=
  stormRequests.map .request ++ [.request (.external "event-1" 8000 (slackAction "click-1" .resolve "A")),
    .request (.external "event-2" 9000 (slackAction "click-2" .resolve "B")),
    .request (.ingest "D" "unused" 10000000 (alertOf "cache" "4"))]

/-- Two rows wait that name who resolved: for the anchor, which is resolved. -/
theorem provenance_of_run_slack : ∃ h s, DeploymentRun Runtime.reference h s ∧
    s.db.outbox.rows.map (fun r => (r.2.incidentId, decide r.2.payload.Anonymous)) =
      [("A", true), ("A", true), ("A", true), ("A", false), ("A", false), ("D", true)] ∧
    s.db.resolution "B" = ⟨some .slack, some "operator", none⟩ ∧
    (∀ t ∈ h, ∀ action, Resolves Runtime.reference t action →
      t.target.db.resolution action.incidentId = action.resolution) ∧
    ∀ x i, s.db.incidents.find? x = some i → i.status.active = true → ∀ payload, Carries s x payload →
      CreditsNoResolution i (hydratePayload x payload s.db) := by
  have hrun : (Library.replay (deploymentNext Runtime.reference) resolvedInSlack
      ([], Deployment.initial)).map (fun s =>
        (s.2.db.outbox.rows.map fun r => (r.2.incidentId, decide r.2.payload.Anonymous),
          s.2.db.resolution "B", s.1.all fun t => checksProvenance Runtime.reference t)) =
      some ([("A", true), ("A", true), ("A", true), ("A", false), ("A", false), ("D", true)],
        ⟨some .slack, some "operator", none⟩, true) := by decide +kernel
  obtain ⟨h, s, r, hs⟩ := DeploymentRun.of_replay hrun
  obtain ⟨hrows, hs⟩ := Prod.mk.inj hs
  obtain ⟨hres, hcheck⟩ := Prod.mk.inj hs
  exact ⟨h, s, r, hrows, hres, provenance_of_run r fun t ht =>
    sparesProvenance_of_check (List.all_eq_true.1 hcheck t ht)⟩

/-- An incident is resolved in Slack, and its next alert brings it back. -/
def reopenedAfterSlack : List Turn :=
  [.request (.ingest "A" "unused" 1000 (alertOf "disk" "1")),
    .request (.external "event-1" 2000 (slackAction "click-1" .resolve "A")),
    .request (.ingest "B" "unused" 3000 (alertOf "disk" "2"))]

/-- The pager resolves it the next time. -/
def pagerResolves : ExternalAction :=
  { slackAction "click-2" .resolve "A" with provider := .pagerduty, detail := some "failed over" }

/-- **An incident that comes back keeps its resolution**, and still after PagerDuty has resolved it;
**and the resolution of a member is named on the card of its storm**, while the anchor is active. -/
theorem not_provenance :
    (¬ ∀ h s, DeploymentRun Runtime.reference h s → ∀ t ∈ h, ∀ action,
      Resolves Runtime.reference t action → t.target.db.resolution action.incidentId = action.resolution) ∧
    ¬ ∀ h s, DeploymentRun Runtime.reference h s → ∀ x i, s.db.incidents.find? x = some i →
      i.status.active = true → ∀ payload, Carries s x payload →
        CreditsNoResolution i (hydratePayload x payload s.db) := by
  constructor
  · intro hall
    have hrun : (Library.replay (deploymentNext Runtime.reference) reopenedAfterSlack
        ([], Deployment.initial)).map (fun s =>
          (applyExternalAction Runtime.reference "event-2" 4000 pagerResolves s.2.db).toOption.map
            fun r => (r.1.changed, r.2.resolution "A")) =
        some (some (true, ⟨some .slack, some "operator", some "failed over"⟩)) := by decide +kernel
    obtain ⟨h, s, r, happly⟩ := DeploymentRun.of_replay hrun
    cases hr : applyExternalAction Runtime.reference "event-2" 4000 pagerResolves s.db with
    | error e => simp [hr, Except.toOption] at happly
    | ok result =>
        rw [hr] at happly
        obtain ⟨hchanged, hres⟩ := Prod.mk.inj (Option.some.inj happly)
        have hnext : deploymentNext Runtime.reference s (.request (.external "event-2" 4000 pagerResolves)) =
            some { s with db := result.2 } := by
          simp [deploymentNext, engineNext, Request.fresh, serve, hr, afterTransaction]
        have hsame := hall _ _ (r.next hnext) _ List.mem_cons_self pagerResolves
          (.callback rfl rfl hr hchanged)
        exact absurd (hres.symm.trans hsame) (by decide)
  · intro hall
    have hrun : (Library.replay (deploymentNext Runtime.reference) (stormRequests.map .request ++
        [.request (.external "event-1" 8000 (slackAction "click-1" .resolve "B"))])
        ([], Deployment.initial)).map (fun s => (s.2.db.incidents.find? "A").any fun i =>
          i.status.active && i.acknowledgedVia.isNone && (s.2.db.outbox.find? 4).any fun row =>
            row.status = .pending && row.incidentId = "A" &&
              (hydratePayload "A" row.payload s.2.db).via = some .slack) = some true := by decide +kernel
    obtain ⟨h, s, r, hcard⟩ := DeploymentRun.of_replay hrun
    obtain ⟨i, hi, hcard⟩ := (Option.any_eq_true _ _).1 hcard
    simp only [Bool.and_eq_true, Option.isNone_iff_eq_none] at hcard
    obtain ⟨⟨hactive, hack⟩, hcard⟩ := hcard
    obtain ⟨row, hrow, hcard⟩ := (Option.any_eq_true _ _).1 hcard
    simp only [Bool.and_eq_true, decide_eq_true_eq] at hcard
    obtain ⟨⟨hp, hid⟩, hvia⟩ := hcard
    have hcredits := (hall h s r "A" i hi hactive row.payload (.waiting hrow hp hid)).via
    rw [hvia, hack] at hcredits
    cases hcredits

end PulseGraph
