/-
# A credential stays inside its scopes

A batch is refused as a whole, or writes nothing that belongs to a scope none of its events is of
(`scopes_confined`).  Lookup and grouping select by scope, but correlation reads incidents by
their fingerprint and storms, marginals and deliveries by incident: there the argument is that
every incident was opened by an event of its scope (`Minted`), that no two scopes share a
fingerprint, that a storm has members of one scope, and that a marginal carries the scope of its
incident (`StatsOwned`).
-/

import PulseGraph.Engine.Fingerprint
import PulseGraph.Engine.Frames
import PulseGraph.Ingest.Auth
import PulseGraph.Outbox.Deployment

namespace PulseGraph

open Library (Table Run Transition bind_eq_ok)

variable {K : Type} {rt : Runtime K} {db db' : Database K} {k scope x : String}

/-! ## What belongs to a scope -/

/-- The incident is there, and of the scope. -/
def InScope (db : Database K) (k x : String) : Prop :=
  ∃ i, db.incidents.find? x = some i ∧ i.scopeKey = k

/-- The incidents and the storms of a scope are the same. -/
structure SameStorms (k : String) (db db' : Database K) : Prop where
  incidents : ∀ x i, i.scopeKey = k → (db'.incidents.find? x = some i ↔ db.incidents.find? x = some i)
  groups : ∀ g group, group.scopeKey = k →
    (db'.incidentGroups.find? g = some group ↔ db.incidentGroups.find? g = some group)

/-- **Everything that belongs to a scope is the same**: its incidents and storms, the edges at its
incidents, the marginals and the counter of the scope, and the deliveries of its incidents. -/
structure SameScope (k : String) (db db' : Database K) : Prop extends SameStorms k db db' where
  edges : ∀ a b, InScope db k a ∨ InScope db k b → db'.edges.find? (a, b) = db.edges.find? (a, b)
  nodeStats : ∀ x s, s.scopeKey = k →
    (db'.nodeStats.find? x = some s ↔ db.nodeStats.find? x = some s)
  scopeStats : db'.scopeStats.find? k = db.scopeStats.find? k
  outbox : ∀ n r, InScope db k r.incidentId →
    (db'.outbox.find? n = some r ↔ db.outbox.find? n = some r)

theorem SameStorms.refl (k : String) (db : Database K) : SameStorms k db db :=
  ⟨fun _ _ _ => Iff.rfl, fun _ _ _ => Iff.rfl⟩

theorem SameStorms.trans {a b c : Database K} (h₁ : SameStorms k a b) (h₂ : SameStorms k b c) :
    SameStorms k a c :=
  ⟨fun x i hi => (h₂.incidents x i hi).trans (h₁.incidents x i hi),
    fun g group hg => (h₂.groups g group hg).trans (h₁.groups g group hg)⟩

theorem SameScope.refl (k : String) (db : Database K) : SameScope k db db :=
  ⟨SameStorms.refl k db, fun _ _ _ => rfl, fun _ _ _ => Iff.rfl, rfl, fun _ _ _ => Iff.rfl⟩

/-- The storms of a scope read the incidents and the groups alone. -/
theorem SameStorms.of_eq (hincidents : db'.incidents = db.incidents)
    (hgroups : db'.incidentGroups = db.incidentGroups) : SameStorms k db db' := by
  refine ⟨fun x i _ => by rw [hincidents], fun g group _ => by rw [hgroups]⟩

/-- An incident is in one scope. -/
theorem InScope.unique (h : InScope db scope x) (hk : InScope db k x) : scope = k := by
  obtain ⟨i, hi, rfl⟩ := h
  obtain ⟨j, hj, rfl⟩ := hk
  rw [Option.some.inj (hi.symm.trans hj)]

/-- The scope of an incident is read off its core. -/
theorem inScope_of_core (hcore : db'.core x = db.core x) (h : InScope db scope x) :
    InScope db' scope x := by
  obtain ⟨i, hi, rfl⟩ := h
  rw [core_of_find? hi] at hcore
  obtain ⟨j, hj, heq⟩ := exists_find?_of_core hcore
  have hscope : j.core.scopeKey = i.core.scopeKey := by rw [heq]
  exact ⟨j, hj, hscope⟩

/-! ## Grouping stays in the scope -/

section Storms

variable {members : List String} {stale : Option String}

/-- The storms of incidents of a scope are of that scope. -/
theorem scopeKey_of_groupsOf {g : String} {group : IncidentGroup} (h : StormsBut stale db)
    (hmembers : ∀ m ∈ members, InScope db scope m) (hg : g ∈ groupsOf members db)
    (hgroup : db.incidentGroups.find? g = some group) : group.scopeKey = scope := by
  obtain ⟨m, hm, i, hi⟩ := mem_groupsOf.1 hg
  obtain ⟨j, hj, rfl⟩ := hmembers m hm
  obtain rfl := Option.some.inj (hj.symm.trans (member_eq_some.1 hi).1)
  exact ((h.shape g group hgroup).scope m j hi).symm

/-- Choosing the storm of some incidents of a scope. -/
theorem chooseGroup_scope {freshId : String} {now : ℤ} (hne : scope ≠ k) (h : StormsBut stale db)
    (hfresh : db.incidentGroups.find? freshId = none)
    (hmembers : ∀ m ∈ members, InScope db scope m) :
    SameStorms k db (chooseGroup freshId now members scope db).2.2 ∧
      ∀ group, (chooseGroup freshId now members scope db).2.2.incidentGroups.find?
        (chooseGroup freshId now members scope db).1 = some group → group.scopeKey = scope := by
  have hgroups := @scopeKey_of_groupsOf K db scope members stale
  unfold chooseGroup
  cases ho : oldestGroup (groupsOf members db) db with
  | some g₀ =>
      dsimp only
      generalize habs : (groupsOf members db).filter (· ≠ g₀) = absorbed
      have habsorbed : ∀ g ∈ absorbed, g ∈ groupsOf members db := by
        intro g hg
        rw [← habs] at hg
        exact (List.mem_filter.1 hg).1
      have hfind : ∀ g, (mergeGroups g₀ absorbed db).incidentGroups.find? g =
          (db.incidentGroups.find? g).filter fun _ => g ∉ absorbed := by
        intro g
        refine (Table.find?_delete _).trans (congrArg (Option.filter · _) (funext fun _ => ?_))
        by_cases hg : g ∈ absorbed <;> simp [hg]
      refine ⟨⟨fun y i hi => ?_, fun g group hg => ?_⟩, fun group hgroup => ?_⟩
      · -- an incident of another scope is in none of the storms that are absorbed
        unfold mergeGroups
        rw [Table.find?_update]
        constructor
        · intro hy
          obtain ⟨j, hj, hji⟩ := Option.map_eq_some_iff.1 hy
          split_ifs at hji with hin
          · obtain ⟨g, hgj, hmem⟩ := (Option.any_eq_true _ _).1 hin
            obtain ⟨group, hgroup⟩ := h.known g y j (member_eq_some.2 ⟨hj, hgj⟩)
            have hscope := hgroups h hmembers (habsorbed g (List.contains_iff_mem.1 hmem)) hgroup
            have hshape := (h.shape g group hgroup).scope y j (member_eq_some.2 ⟨hj, hgj⟩)
            rw [← hji] at hi
            exact absurd (hscope.symm.trans (hshape.symm.trans hi)) hne
          · rw [hj, hji]
        · intro hy
          rw [hy, Option.map_some, if_neg]
          intro hin
          obtain ⟨g, hgi, hmem⟩ := (Option.any_eq_true _ _).1 hin
          obtain ⟨group, hgroup⟩ := h.known g y i (member_eq_some.2 ⟨hy, hgi⟩)
          have hscope := hgroups h hmembers (habsorbed g (List.contains_iff_mem.1 hmem)) hgroup
          have hshape := (h.shape g group hgroup).scope y i (member_eq_some.2 ⟨hy, hgi⟩)
          exact hne (hscope.symm.trans (hshape.symm.trans hi))
      · rw [hfind, Option.filter_eq_some_iff]
        refine ⟨And.left, fun hgroup => ⟨hgroup, ?_⟩⟩
        refine decide_eq_true fun hmem => hne ?_
        exact (hgroups h hmembers (habsorbed g hmem) hgroup).symm.trans hg
      · rw [hfind, Option.filter_eq_some_iff] at hgroup
        exact hgroups h hmembers (oldestGroup_mem ho) hgroup.1
  | none =>
      dsimp only
      refine ⟨⟨fun _ _ _ => Iff.rfl, fun g group hg => ?_⟩, fun group hgroup => ?_⟩
      · rw [Table.find?_insert, hfresh]
        by_cases hgf : g = freshId
        · subst hgf
          rw [if_pos rfl, hfresh, Option.getD_none]
          refine iff_of_false (fun heq => ?_) (by simp)
          rw [← Option.some.inj heq] at hg
          exact hne hg
        · rw [if_neg hgf]
      · rw [Table.find?_insert, if_pos rfl, hfresh] at hgroup
        rw [← Option.some.inj hgroup]
        rfl

/-- Incidents of a scope join a storm. -/
theorem joinGroup_scope {g : String} (hne : scope ≠ k)
    (hmembers : ∀ m ∈ members, InScope db scope m) :
    SameStorms k db (joinGroup g members db) := by
  refine ⟨fun y i hi => ?_, fun _ _ _ => Iff.rfl⟩
  unfold joinGroup
  rw [Table.find?_update]
  by_cases hy : y ∈ members
  · obtain ⟨j, hj, hscope⟩ := hmembers y hy
    rw [hj, Option.map_some, if_pos (List.contains_iff_mem.2 hy)]
    refine iff_of_false (fun heq => ?_) fun heq => ?_
    · rw [← Option.some.inj heq] at hi
      exact hne (hscope.symm.trans hi)
    · rw [Option.some.inj heq] at hscope
      exact hne (hscope.symm.trans hi)
  · cases db.incidents.find? y <;> simp [hy]

variable [Field K] [LinearOrder K]

/-- Refreshing a storm of another scope. -/
theorem refreshGroup_scope {g : String} {now : ℤ}
    (hg : ∀ group, db.incidentGroups.find? g = some group → group.scopeKey ≠ k) :
    SameStorms k db (refreshGroup now g db).2 := by
  refine ⟨fun y i _ => by rw [refreshGroup_incidents], fun g' group hk => ?_⟩
  unfold refreshGroup
  split
  · dsimp only
    rw [Table.find?_delete, Option.filter_eq_some_iff]
    refine ⟨And.left, fun hgroup => ⟨hgroup, ?_⟩⟩
    by_cases hgg : g' = g
    · subst hgg
      exact absurd hk (hg group hgroup)
    · simp [hgg]
  · dsimp only
    rw [Table.find?_modify]
    by_cases hgg : g' = g
    · subst hgg
      rw [if_pos rfl]
      constructor
      · intro hgroup
        obtain ⟨old, hold, heq⟩ := Option.map_eq_some_iff.1 hgroup
        rw [← heq] at hk
        exact absurd hk (hg old hold)
      · exact fun hgroup => absurd hk (hg group hgroup)
    · rw [if_neg hgg]

/-- Refreshing the storm of an incident of another scope. -/
theorem refreshGroupForMember_scope {now : ℤ} (hne : scope ≠ k) (h : StormsBut stale db)
    (hx : InScope db scope x) : SameStorms k db (refreshGroupForMember now x db).2 := by
  obtain ⟨i, hi, rfl⟩ := hx
  unfold refreshGroupForMember
  rw [hi, Option.bind_some]
  split
  · exact SameStorms.refl k db
  · next g hg =>
      have hrefresh : SameStorms k db (refreshGroup now g db).2 := refreshGroup_scope fun group hgroup => by
        rw [← (h.shape g group hgroup).scope x i (member_eq_some.2 ⟨hi, hg⟩)]
        exact hne
      dsimp only
      split_ifs
      · exact SameStorms.refl k db
      · exact hrefresh
      · exact hrefresh

/-- **Grouping an incident of a scope leaves the storms of other scopes alone.** -/
theorem regroup_scope {freshGroupId : String} {now : ℤ} {i : Incident} (hne : scope ≠ k)
    (hfresh : db.incidentGroups.find? freshGroupId = none) (hfreshId : "" ≠ freshGroupId)
    (hi : db.incidents.find? x = some i) (hscope : i.scopeKey = scope)
    (h : StormsBut i.correlationGroupId db) :
    SameStorms k db (regroup freshGroupId now x scope db).2 := by
  have hx : InScope db scope x := ⟨i, hi, hscope⟩
  have hassign : SameStorms k db (assignGroup freshGroupId now x scope db).2 := by
    unfold assignGroup
    cases hn : strongNeighbours x scope db with
    | nil => exact SameStorms.refl k db
    | cons y ys =>
        have hmembers : ∀ m ∈ x :: y :: ys, InScope db scope m := by
          intro m hm
          rcases List.mem_cons.1 hm with rfl | hm
          · exact hx
          · exact (mem_strongNeighbours (hn ▸ hm)).2
        obtain ⟨hchoose, hscope⟩ := @chooseGroup_scope K db k scope _ _ freshGroupId now hne h hfresh hmembers
        dsimp only
        generalize hc : chooseGroup freshGroupId now (x :: y :: ys) scope db = c at hchoose hscope ⊢
        have hjoined : ∀ m ∈ x :: y :: ys, InScope c.2.2 scope m := by
          intro m hm
          have hcore := congrFun (@chooseGroup_regrouped K db freshGroupId now (x :: y :: ys) scope).sameCore.core m
          rw [hc] at hcore
          exact inScope_of_core hcore (hmembers m hm)
        refine (hchoose.trans (joinGroup_scope hne hjoined)).trans (refreshGroup_scope fun group hgroup => ?_)
        rw [hscope group hgroup]
        exact hne
  unfold regroup
  split
  · next heq =>
      rw [heq] at hassign
      exact hassign
  · next db₁ heq =>
      have hstorms : ∃ stale, StormsBut stale db₁ := by
        rcases assignGroup_storms now hfresh hfreshId hi hscope h with hnone | hstorms
        · obtain ⟨-, rfl⟩ := Prod.mk.inj (hnone.symm.trans heq)
          exact ⟨_, h⟩
        · rw [heq] at hstorms
          exact ⟨_, hstorms⟩
      have hcore := congrFun (@assignGroup_regrouped K db _ _ freshGroupId now x scope).sameCore.core x
      rw [heq] at hassign hcore
      obtain ⟨stale', hstorms⟩ := hstorms
      refine hassign.trans (refreshGroupForMember_scope hne hstorms (inScope_of_core hcore hx))

end Storms

/-! ## Which scope a row carries -/

/-- **Every incident was opened by an event of its scope**, whose fingerprint it has. -/
def Minted (rt : Runtime K) (db : Database K) : Prop :=
  ∀ x i, db.core x = some i → ∃ event, i.scopeKey = scopeKeyFor event ∧
    i.stableFingerprint = generateFingerprint rt (eventPayload event (scopeKeyFor event))

/-- **A marginal carries the scope of its incident.** -/
def StatsOwned (db : Database K) : Prop :=
  ∀ x s, db.nodeStats.find? x = some s → InScope db s.scopeKey x

/-- Incidents of one fingerprint are of one scope. -/
theorem Minted.scopeKey_eq (hm : Minted rt db) (hsha : Function.Injective rt.sha256)
    (hlower : ∀ key ∈ scopeLabels, rt.lower (rt.strip key) = key) {y : String} {i j : Incident}
    (hi : db.incidents.find? x = some i) (hj : db.incidents.find? y = some j)
    (h : i.stableFingerprint = j.stableFingerprint) : i.scopeKey = j.scopeKey := by
  obtain ⟨event, hscope, hfp⟩ := hm x _ (core_of_find? hi)
  obtain ⟨event', hscope', hfp'⟩ := hm y _ (core_of_find? hj)
  have hsame : scopeKeyFor event = scopeKeyFor event' :=
    scopeKeyFor_congr hsha (isVolatileKey_scopeLabels hlower) (hfp.symm.trans (h.trans hfp'))
  exact hscope.trans (hsame.trans hscope'.symm)

/-- A committed decision keeps the scope of every incident. -/
theorem Commits.inScope {now : ℤ} {d : EngineDecision} (hc : Commits rt now d db db')
    (h : InScope db scope x) : InScope db' scope x := by
  obtain ⟨i, hi, rfl⟩ := h
  have hcore := core_of_find? hi
  by_cases hx : x = d.incidentId
  · subst hx
    obtain ⟨j, hj, heq⟩ := exists_find?_of_core hc.core_self
    refine ⟨j, hj, ?_⟩
    have hscope : j.core.scopeKey = i.scopeKey := by
      rw [heq, persistedIncident_scopeKey, hcore]
      rfl
    exact hscope
  · exact inScope_of_core (hc.core_of_ne hx) ⟨i, hi, rfl⟩

/-- A request without an alert keeps the scope of every incident. -/
theorem Effect.inScope {trigger : Option Trigger} {targets : String → Prop}
    (heff : Effect trigger targets db db') (h : InScope db scope x) : InScope db' scope x := by
  rcases heff.incidents x with ⟨hcore, -⟩ | ⟨-, i, i', row, hi, hi', -, hm⟩
  · exact inScope_of_core hcore h
  · obtain ⟨j, hj, rfl⟩ := h
    obtain rfl := Option.some.inj (hi.symm.trans (core_of_find? hj))
    obtain ⟨j', hj', rfl⟩ := exists_find?_of_core hi'
    exact ⟨j', hj', hm.scopeKey⟩

section Ingest

variable [Field K] [LinearOrder K] {freshId freshGroupId : String} {now : ℤ} {event : NormalizedEvent}
  {d : EngineDecision}

omit [Field K] [LinearOrder K] in
/-- The incident of a decision is of the scope of its event. -/
theorem decision_inScope {db₁ : Database K} (hc : Commits rt now d db db₁)
    (hcases : Opens rt freshId event d db ∨ ∃ i, Continues rt event d db i) :
    InScope db₁ (scopeKeyFor event) d.incidentId := by
  obtain ⟨j, hj, heq⟩ := exists_find?_of_core hc.core_self
  have hscope : j.core.scopeKey = scopeKeyFor event := by
    rw [heq, persistedIncident_scopeKey]
    rcases hcases with ho | ⟨i, hcont⟩
    · rw [ho.unknown]
      exact ho.identity.1
    · rw [hcont.known]
      exact hcont.scopeKey.trans hcont.identity.1
  exact ⟨j, hj, hscope⟩

omit [Field K] [LinearOrder K] in
/-- A decision on an event keeps the incidents minted. -/
theorem Minted.commits {db₁ : Database K} (hm : Minted rt db) (hc : Commits rt now d db db₁)
    (hcases : Opens rt freshId event d db ∨ ∃ i, Continues rt event d db i) : Minted rt db₁ := by
  intro y i hi
  by_cases hy : y = d.incidentId
  · subst hy
    obtain rfl := Option.some.inj (hc.core_self.symm.trans hi)
    rw [persistedIncident_scopeKey, persistedIncident_stableFingerprint]
    rcases hcases with ho | ⟨i₀, hcont⟩
    · rw [ho.unknown]
      exact ⟨event, ho.identity⟩
    · rw [hcont.known]
      exact hm _ _ hcont.known
  · exact hm y i (hc.core_of_ne hy ▸ hi)

omit [Field K] [LinearOrder K] in
/-- The fingerprints an alert is correlated with are those of incidents of its scope. -/
theorem scope_of_mem_correlationNeighbourhood {fingerprint : String}
    (h : fingerprint ∈ correlationNeighbourhood rt now scope db) :
    ∃ x i, db.incidents.find? x = some i ∧ i.scopeKey = scope ∧ i.stableFingerprint = fingerprint := by
  unfold correlationNeighbourhood at h
  dsimp only at h
  obtain ⟨⟨x, i⟩, hrow, rfl⟩ := List.mem_map.1 h
  obtain ⟨hi, hsel⟩ := Table.mem_select.1
    ((List.mem_insertionSort _).1 ((sqlLimit_sublist _ _).subset hrow))
  simp only [Bool.and_eq_true, decide_eq_true_eq] at hsel
  exact ⟨x, i, hi, hsel.1.1, rfl⟩

/-- **A round of an alert is a round of its scope.** -/
theorem observe_scope {db₁ db₂ : Database K} (hsha : Function.Injective rt.sha256)
    (hlower : ∀ key ∈ scopeLabels, rt.lower (rt.strip key) = key) (hm : Minted rt db₁)
    (hx : InScope db₁ scope x)
    (h : observeIncident rt x (correlationNeighbourhood rt now scope db₁) db₁ = .ok db₂) :
    ∃ participants, (∀ y ∈ participants, InScope db₁ scope y) ∧ RoundWrites participants scope db₁ db₂ := by
  rcases observeIncident_writes h with rfl | ⟨participants, current, hcurrent, -, hall, hwrites⟩
  · exact ⟨[], by simp, RoundWrites.refl _ _ _⟩
  · obtain ⟨i, hi, hscope⟩ := hx
    obtain rfl := Option.some.inj (hi.symm.trans hcurrent)
    refine ⟨participants, fun y hy => ?_, hscope ▸ hwrites⟩
    obtain ⟨j, hj, hfp, -⟩ := hall y hy
    obtain ⟨z, l, hl, hls, hlf⟩ := scope_of_mem_correlationNeighbourhood hfp
    exact ⟨j, hj, (hm.scopeKey_eq hsha hlower hj hl hlf.symm).trans hls⟩

omit [Field K] [LinearOrder K] in
/-- An anchor is of the scope of the incidents of its storm. -/
theorem AnchorOf.inScope {anchor : String} (h : AnchorOf db x anchor) (hs : StormsBut none db)
    (hx : InScope db scope x) : InScope db scope anchor := by
  obtain ⟨i, g, group, hi, hg, hgroup, rfl, -⟩ := h
  obtain ⟨j, hj, rfl⟩ := hx
  obtain rfl := Option.some.inj (hi.symm.trans hj)
  have hshape := hs.shape g group hgroup
  obtain ⟨a, ha⟩ := Option.isSome_iff_exists.1 hshape.anchor
  exact ⟨a, (member_eq_some.1 ha).1,
    (hshape.scope _ a ha).trans (hshape.scope x i (member_eq_some.2 ⟨hi, hg⟩)).symm⟩

omit [Field K] [LinearOrder K] in
/-- What is queued for the incidents of other scopes stays. -/
theorem QueuedTo.outside {new : OutboxRow → Prop} {target : String → String → Prop}
    {q q' : Table ℕ OutboxRow} {O : String → Prop} (h : QueuedTo new target q q')
    (hnew : ∀ r, new r → ¬ O r.incidentId)
    (htarget : ∀ x a, target x a → ¬ O x ∧ ¬ O a) {n : ℕ} {r : OutboxRow}
    (hr : O r.incidentId) : q'.find? n = some r ↔ q.find? n = some r := by
  constructor
  · intro hr'
    obtain ⟨r₀, hsource, hm⟩ := h.source hr'
    rcases hm.eq_or_update with rfl | ⟨-, -, -, y, hy⟩
    · rcases hsource with hold | ⟨-, hadded⟩
      · exact hold
      · exact absurd hr (hnew r hadded)
    · exact absurd hr (htarget _ _ hy).2
  · intro hold
    obtain ⟨r', hr', hm⟩ := h.kept n r hold
    rcases hm.eq_or_update with rfl | ⟨-, -, ⟨a, ha⟩, -⟩
    · exact hr'
    · exact absurd hr (htarget _ _ ha).1

omit [Field K] [LinearOrder K] in
/-- A decision is of the scope of its event. -/
theorem decision_scopeKey (hcases : Opens rt freshId event d db ∨ ∃ i, Continues rt event d db i) :
    d.scopeKey = scopeKeyFor event := by
  rcases hcases with ho | ⟨i, hcont⟩
  · exact ho.identity.1
  · exact hcont.identity.1

/-- **What an alert writes of the graph** is a round of incidents of its scope. -/
theorem ingestEvent_round (hsha : Function.Injective rt.sha256)
    (hlower : ∀ key ∈ scopeLabels, rt.lower (rt.strip key) = key) (hm : Minted rt db)
    (hfresh : (Request.ingest freshId freshGroupId now event).fresh db = true)
    (h : ingestEvent rt freshId freshGroupId now event db = .ok (d, db')) :
    ∃ participants, (∀ y ∈ participants, InScope db' (scopeKeyFor event) y) ∧
      RoundWrites participants (scopeKeyFor event) db db' := by
  obtain ⟨hc, hcases⟩ := ingest_cases hfresh h
  obtain ⟨-, db₁, hpersist, hrest⟩ := ingestEvent_parts h
  have hc₁ := persistDecision_commits hpersist
  have hframe := persistDecision_frame hpersist
  rcases hrest with ⟨-, rfl⟩ | ⟨-, db₂, hobs, rfl⟩
  · refine ⟨[], by simp, fun a b _ => by rw [hframe.edges], fun y => .inl (by rw [hframe.nodeStats]), ?_⟩
    exact fun k _ => by rw [hframe.scopeStats]
  · rw [decision_scopeKey hcases] at hobs
    obtain ⟨participants, hparticipants, hwrites⟩ :=
      observe_scope hsha hlower (hm.commits hc₁ hcases) (decision_inScope hc₁ hcases) hobs
    have hrest := (@regroup_engine _ db₂ _ _ freshGroupId now d.incidentId d.scopeKey).trans
      (redirectFor_engine now d.incidentId (regroup freshGroupId now d.incidentId d.scopeKey db₂).1)
    refine ⟨participants, fun y hy => ?_, ?_, fun y => ?_, ?_⟩
    · exact inScope_of_core ((hc.core y).trans (hc₁.core y).symm) (hparticipants y hy)
    · rw [hrest.edges, ← hframe.edges]
      exact hwrites.edges
    · rw [hrest.nodeStats, ← hframe.nodeStats]
      exact hwrites.nodeStats y
    · rw [hrest.scopeStats, ← hframe.scopeStats]
      exact hwrites.scopeStats

/-- An alert leaves the incidents and the storms of every other scope alone. -/
theorem ingestEvent_sameStorms (hs : StormsBut none db)
    (hfresh : (Request.ingest freshId freshGroupId now event).fresh db = true)
    (h : ingestEvent rt freshId freshGroupId now event db = .ok (d, db'))
    (hne : scopeKeyFor event ≠ k) : SameStorms k db db' := by
  obtain ⟨-, hcases⟩ := ingest_cases hfresh h
  obtain ⟨-, db₁, hpersist, hrest⟩ := ingestEvent_parts h
  have hc₁ := persistDecision_commits hpersist
  have hown₁ := decision_inScope hc₁ hcases
  obtain ⟨-, rfl⟩ := persistDecision_ok.1 hpersist
  have hpersisted : SameStorms k db (persisted rt now d db) := by
    refine ⟨fun y i hi => ?_, fun _ _ _ => Iff.rfl⟩
    by_cases hy : y = d.incidentId
    · subst hy
      refine iff_of_false (fun hj => ?_) fun hj => ?_
      · exact hne (hown₁.unique ⟨i, hj, hi⟩)
      · exact hne (hown₁.unique (hc₁.inScope ⟨i, hj, hi⟩))
    · rw [find?_persisted_of_ne hy]
  rcases hrest with ⟨-, rfl⟩ | ⟨-, db₂, hobs, rfl⟩
  · exact hpersisted
  have hobs := observeIncident_frame hobs
  have hincidents : db₂.incidents = (persisted rt now d db).incidents := by rw [hobs]
  have hgroups : db₂.incidentGroups = (persisted rt now d db).incidentGroups := by rw [hobs]
  simp only [Request.fresh, Bool.and_eq_true, Option.isNone_iff_eq_none, decide_eq_true_eq] at hfresh
  have hdscope := decision_scopeKey hcases
  have hself : (persistedIncident now d (db.incidents.find? d.incidentId)).scopeKey = d.scopeKey := by
    obtain ⟨j, hj, hjs⟩ := hown₁
    rw [find?_persisted_self] at hj
    rw [Option.some.inj hj, hjs, hdscope]
  have hregroup : SameStorms k db₂ (regroup freshGroupId now d.incidentId d.scopeKey db₂).2 :=
    regroup_scope (hdscope ▸ hne) (by rw [hgroups]; exact hfresh.1.1.2) (Ne.symm hfresh.1.2)
      (by rw [hincidents]; exact find?_persisted_self) hself
      ((persisted_storms hs (.inl persistedIncident_correlationGroupId)).congr_tables hincidents hgroups)
  refine ((hpersisted.trans (.of_eq hincidents hgroups)).trans hregroup).trans (.of_eq ?_ ?_)
  · rw [redirectFor_frame]
  · rw [redirectFor_frame]

/-- An alert leaves the deliveries of the incidents of every other scope alone. -/
theorem ingestEvent_sameOutbox (hs : StormsBut none db)
    (hfresh : (Request.ingest freshId freshGroupId now event).fresh db = true)
    (h : ingestEvent rt freshId freshGroupId now event db = .ok (d, db'))
    (hne : scopeKeyFor event ≠ k) {n : ℕ} {r : OutboxRow} (hr : InScope db k r.incidentId) :
    db'.outbox.find? n = some r ↔ db.outbox.find? n = some r := by
  obtain ⟨hc, hcases⟩ := ingest_cases hfresh h
  have hown := decision_inScope hc hcases
  have hs' := ingestEvent_storms hfresh h hs
  have howner : ¬ InScope db' k d.incidentId := fun hy => hne (hown.unique hy)
  have hqueue := ingestEvent_queuedTo (by
    simp only [Request.fresh, Bool.and_eq_true, Option.isNone_iff_eq_none] at hfresh
    exact hfresh.1.1.1) h
  refine hqueue.outside (O := InScope db' k) (fun r' hr' => ?_) (fun y a hy => ?_) (hc.inScope hr)
  · obtain ⟨⟨-, ⟨d', db₁, hok, hx⟩, -⟩, -⟩ := hr'
    obtain ⟨rfl, -⟩ := Prod.mk.inj (Except.ok.inj (hok.symm.trans h))
    exact hx ▸ howner
  · obtain ⟨htouch, hanchor⟩ := hy
    cases htouch with
    | ingest hok _ =>
        obtain ⟨rfl, -⟩ := Prod.mk.inj (Except.ok.inj (hok.symm.trans h))
        exact ⟨howner, fun ha => hne ((hanchor.inScope hs' hown).unique ha)⟩

/-- **An alert leaves every other scope alone.** -/
theorem ingestEvent_scope (hsha : Function.Injective rt.sha256)
    (hlower : ∀ key ∈ scopeLabels, rt.lower (rt.strip key) = key) (hs : StormsBut none db)
    (hm : Minted rt db) (hstats : StatsOwned db)
    (hfresh : (Request.ingest freshId freshGroupId now event).fresh db = true)
    (h : ingestEvent rt freshId freshGroupId now event db = .ok (d, db'))
    (hne : scopeKeyFor event ≠ k) : SameScope k db db' := by
  obtain ⟨hc, -⟩ := ingest_cases hfresh h
  obtain ⟨participants, hparticipants, hwrites⟩ := ingestEvent_round hsha hlower hm hfresh h
  have hnot : ∀ {y}, InScope db k y → y ∉ participants := fun hy hmem =>
    hne ((hparticipants _ hmem).unique (hc.inScope hy))
  refine ⟨ingestEvent_sameStorms hs hfresh h hne, fun a b hab => ?_, fun y s hks => ?_,
    hwrites.scopeStats k (Ne.symm hne), fun n r => ingestEvent_sameOutbox hs hfresh h hne⟩
  · refine hwrites.edges a b fun hboth => ?_
    rcases hab with ha | hb
    · exact hnot ha hboth.1
    · exact hnot hb hboth.2
  · rcases hwrites.nodeStats y with hsame | ⟨hmem, s', hs', hscope⟩
    · rw [hsame]
    · rw [hs']
      refine iff_of_false (fun heq => ?_) fun heq => ?_
      · rw [Option.some.inj heq, hks] at hscope
        exact hne hscope.symm
      · exact hnot (hks ▸ hstats y s heq) hmem

end Ingest

/-! ## Every reachable database -/

section Runs

variable [Field K] [LinearOrder K]

/-- What the scopes rest on. -/
structure ScopeInvariant (rt : Runtime K) (db : Database K) : Prop where
  storms : StormsBut none db
  minted : Minted rt db
  stats : StatsOwned db

/-- A request keeps the scopes. -/
theorem engineNext_scopes (hsha : Function.Injective rt.sha256)
    (hlower : ∀ key ∈ scopeLabels, rt.lower (rt.strip key) = key) {q : Request}
    (h : engineNext rt db q = some db') (hI : ScopeInvariant rt db) : ScopeInvariant rt db' := by
  have hstorms := engineNext_storms h hI.storms
  rcases engineNext_cases h with ⟨freshId, freshGroupId, now, event, d, rfl, hfresh, hok⟩ | ⟨hno, heff⟩
  · obtain ⟨hc, hcases⟩ := ingest_cases hfresh hok
    refine ⟨hstorms, hI.minted.commits hc hcases, fun y s hy => ?_⟩
    obtain ⟨participants, hparticipants, hwrites⟩ := ingestEvent_round hsha hlower hI.minted hfresh hok
    rcases hwrites.nodeStats y with hsame | ⟨hmem, s', hs', hscope⟩
    · exact hc.inScope (hI.stats y s (hsame ▸ hy))
    · obtain rfl := Option.some.inj (hs'.symm.trans hy)
      exact hscope ▸ hparticipants y hmem
  · refine ⟨hstorms, fun y i' hi' => ?_, fun y s hy => ?_⟩
    · rcases heff.incidents y with ⟨hcore, -⟩ | ⟨-, i, j, row, hi, hj, -, hm⟩
      · exact hI.minted y i' (hcore ▸ hi')
      · obtain rfl := Option.some.inj (hj.symm.trans hi')
        rw [hm.scopeKey, hm.stableFingerprint]
        exact hI.minted y i hi
    · rw [(engineNext_graph h hno).nodeStats] at hy
      exact heff.inScope (hI.stats y s hy)

/-- **The scopes of every state of a deployment.** -/
theorem DeploymentRun.scopes (hsha : Function.Injective rt.sha256)
    (hlower : ∀ key ∈ scopeLabels, rt.lower (rt.strip key) = key) {s : Deployment K}
    {h : List (Transition (Deployment K) Turn)} (r : DeploymentRun rt h s) : ScopeInvariant rt s.db := by
  refine r.induct (I := fun _ s => ScopeInvariant rt s.db) ?_ ?_
  · rintro s rfl
    refine ⟨stormsBut_empty, fun y i hi => ?_, fun y s hs => ?_⟩
    · simp [Deployment.initial, Database.core, Database.empty] at hi
    · simp [Deployment.initial, Database.empty] at hs
  · intro h s turn s' _ hI hnext
    cases turn with
    | request q => exact engineNext_scopes hsha hlower (deploymentNext_request hnext).1 hI
    | worker w step =>
        -- a worker writes neither incidents nor the graph
        have hframe := (deploymentNext_worker hnext).1.frame
        refine ⟨hI.storms.congr_tables (by rw [hframe]) (by rw [hframe]), ?_, ?_⟩
        · rw [hframe]
          exact hI.minted
        · rw [hframe]
          exact hI.stats

/-! ## A batch -/

/-- A batch is served event by event, each in a transaction of its own; in between, the rest of the
deployment takes any turns, and an exception ends the batch.  The list is of its own transactions. -/
inductive Serves (rt : Runtime K) : List Arrival → Deployment K →
    List (Transition (Deployment K) Turn) → Deployment K → Prop
  | stop {batch s} : Serves rt batch s [] s
  | others {batch s turn s' own s''} : deploymentNext rt s turn = some s' →
      Serves rt batch s' own s'' → Serves rt batch s own s''
  | write {a batch s s' own s''} : deploymentNext rt s (.request a.request) = some s' →
      Serves rt batch s' own s'' →
      Serves rt (a :: batch) s (⟨s, .request a.request, s'⟩ :: own) s''

/-- The transactions of a batch start from reachable states, and are of its events. -/
theorem Serves.transactions {batch : List Arrival} {s s'' : Deployment K}
    {own h : List (Transition (Deployment K) Turn)} (hserve : Serves rt batch s own s'')
    (r : DeploymentRun rt h s) : ∀ t ∈ own, (∃ g, DeploymentRun rt g t.source) ∧
      deploymentNext rt t.source t.label = some t.target ∧ ∃ a ∈ batch, t.label = .request a.request := by
  induction hserve generalizing h with
  | stop => exact fun t ht => absurd ht List.not_mem_nil
  | others hnext _ ih => exact ih (r.next hnext)
  | @write a batch s s' own s'' hnext _ ih =>
      intro t ht
      rcases List.mem_cons.1 ht with rfl | ht
      · exact ⟨⟨h, r⟩, hnext, a, List.mem_cons_self, rfl⟩
      · obtain ⟨hrun, hstep, b, hb, hlabel⟩ := ih (r.next hnext) t ht
        exact ⟨hrun, hstep, b, List.mem_cons_of_mem a hb, hlabel⟩

/-- An ingest that raises leaves the database as it was. -/
theorem engineNext_raised {freshId freshGroupId : String} {now : ℤ} {event : NormalizedEvent}
    (h : engineNext rt db (.ingest freshId freshGroupId now event) = some db')
    (hno : ∀ d db'', ingestEvent rt freshId freshGroupId now event db ≠ .ok (d, db'')) : db' = db := by
  unfold engineNext at h
  split_ifs at h
  rw [← Option.some.inj h, serve]
  cases hr : ingestEvent rt freshId freshGroupId now event db with
  | ok p => exact absurd hr (hno p.1 p.2)
  | error e => rfl

/-- **A credential stays inside its scopes.**  With authentication on, a batch with an event outside
the scope of its credential writes nothing; a batch that is not refused is of scopes the credential
may write, and none of its transactions touches what belongs to another scope. -/
theorem scopes_confined (hsha : Function.Injective rt.sha256)
    (hlower : ∀ key ∈ scopeLabels, rt.lower (rt.strip key) = key) {s s' : Deployment K}
    {h own : List (Transition (Deployment K) Turn)} (r : DeploymentRun rt h s)
    (credential : IngestCredential) (batch : List Arrival)
    (hserve : Serves rt (written (some credential) batch) s own s') :
    ((∃ a ∈ batch, credential.mayWrite (scopeKeyFor a.event) = false) → own = []) ∧
    (ingestBatch (some credential) batch ≠ .error .scopeNotPermitted →
      (∀ a ∈ batch, credential.mayWrite (scopeKeyFor a.event) = true) ∧
      ∀ t ∈ own, ∀ k, (∀ a ∈ batch, scopeKeyFor a.event ≠ k) →
        SameScope k t.source.db t.target.db) := by
  have hown := hserve.transactions r
  rw [written_eq] at hown
  rw [ingestBatch_eq]
  constructor
  · rintro ⟨a, ha, hno⟩
    rw [if_neg fun hall => by simp [hall a ha] at hno] at hown
    refine List.eq_nil_iff_forall_not_mem.2 fun t ht => ?_
    obtain ⟨-, -, b, hb, -⟩ := hown t ht
    exact absurd hb List.not_mem_nil
  · intro hwrites
    split_ifs at hwrites with hall
    · refine ⟨hall, fun t ht k hk => ?_⟩
      rw [if_pos hall] at hown
      obtain ⟨⟨g, hrun⟩, hstep, a, ha, hlabel⟩ := hown t ht
      rw [hlabel] at hstep
      have hengine := (deploymentNext_request hstep).1
      have hI := hrun.scopes hsha hlower
      rcases engineNext_cases hengine with ⟨_, _, _, _, d, heq, hfresh, hok⟩ | ⟨hno, -⟩
      · obtain ⟨rfl, rfl, rfl, rfl⟩ := Request.ingest.inj heq
        exact ingestEvent_scope hsha hlower hI.storms hI.minted hI.stats hfresh hok (hk a ha)
      · rw [engineNext_raised hengine fun d db'' => hno _ _ _ _ d db'' rfl]
        exact SameScope.refl k _
    · exact absurd rfl hwrites

end Runs

/-- An alert of the staging environment. -/
def stagingAlert : Arrival where
  freshId := "D"
  freshGroupId := "staging-storm"
  now := 2000
  event := { alertOf "api" "4" with labels := ⟨[("environment", "staging")], by decide⟩ }

/-- Staging writes beside a storm of the default environment, which its alert leaves alone. -/
theorem scopes_confined_staging : ∃ h s own s', DeploymentRun Runtime.reference h s ∧
    own.length = 1 ∧ Serves Runtime.reference
      (written (some ⟨"staging", "token", "staging/*"⟩) [stagingAlert]) s own s' ∧
    (s.db.incidentGroups.find? "storm").isSome = true ∧
    ∀ t ∈ own, SameScope "default/default" t.source.db t.target.db := by
  have hreplay : (Library.replay (deploymentNext Runtime.reference) (stormRequests.map .request)
      ([], Deployment.initial)).map (fun s => ((s.2.db.incidentGroups.find? "storm").isSome,
        (deploymentNext Runtime.reference s.2 (.request stagingAlert.request)).isSome)) =
      some (true, true) := by decide +kernel
  obtain ⟨h, s, hrun, heq⟩ := DeploymentRun.of_replay hreplay
  obtain ⟨hstorm, hsome⟩ := Prod.mk.inj heq
  obtain ⟨s', hnext⟩ := Option.isSome_iff_exists.1 hsome
  have hserve : Serves Runtime.reference
      (written (some ⟨"staging", "token", "staging/*"⟩) [stagingAlert]) s
      [⟨s, .request stagingAlert.request, s'⟩] s' := .write hnext .stop
  have hsha : Function.Injective Runtime.reference.sha256 := Function.injective_id
  have hconfined := scopes_confined hsha (by decide +kernel) hrun ⟨"staging", "token", "staging/*"⟩
    [stagingAlert] hserve
  have hwrites : ingestBatch (some ⟨"staging", "token", "staging/*"⟩) [stagingAlert] ≠
      .error .scopeNotPermitted := by
    rw [ingestBatch_eq, if_pos (by decide +kernel)]
    nofun
  exact ⟨h, s, _, s', hrun, rfl, hserve, hstorm, fun t ht =>
    (hconfined.2 hwrites).2 t ht _ (by decide +kernel)⟩

end PulseGraph
