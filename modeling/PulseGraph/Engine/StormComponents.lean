/-
# Storms are components

`src/graph/storm_grouping.py` never recomputes the components of the correlation graph: "this walks
only the current incident's strong neighbours and unions into whatever groups they already belong
to", and "Anchor is stable, root is not. The anchor owns the Slack message for the group's whole
life".  One call of `assign_group` is a step of `Library.Components`: the round is the incident with
the strong neighbours it finds, the label of an incident is its `correlation_group_id`, and the
label the round takes is that of the oldest group, or a new one.

**Proved here.**  In every reachable database two incidents are in one storm exactly when a chain of
strong ties, each present when an alert of one of its ends was committed, joins them
(`storms_are_components`).  A storm that was ever there is there with its anchor, or all its
incidents are in an older one (`storms_continue`).
-/

import PulseGraph.Engine.Identity
import PulseGraph.Engine.Ledger
import PulseGraph.Engine.Storms
import PulseGraph.Library.Components
import Mathlib.Data.Prod.Lex
import Mathlib.Data.String.Basic

namespace PulseGraph

open Library (Table Run Transition TellsComponents Linked Meets)

variable {K : Type}

/-- The storm of an incident. -/
def Database.storm (db : Database K) (x : String) : Option String :=
  (db.incidents.find? x).bind (·.correlationGroupId)

/-- What never changes about a group: its scope, its anchor and the instant it was created. -/
def IncidentGroup.identity (group : IncidentGroup) : String × String × ℤ :=
  (group.scopeKey, group.anchorIncidentId, group.createdAt)

/-- The groups with what never changes about them. -/
def Database.groupIdentity (db : Database K) (g : String) : Option (String × String × ℤ) :=
  (db.incidentGroups.find? g).map IncidentGroup.identity

/-- The order `_oldest_group` sorts by. -/
def groupAge (r : String × IncidentGroup) : ℤ ×ₗ String := toLex (r.2.createdAt, r.1)

section Storm

variable {db db' : Database K} {g x : String}

theorem storm_eq_some : db.storm x = some g ↔ ∃ i, db.member g x = some i := by
  rw [Database.storm, Option.bind_eq_some_iff]
  exact exists_congr fun i => member_eq_some.symm

theorem storm_congr (h : db'.incidents = db.incidents) : db'.storm = db.storm := by
  funext x
  rw [Database.storm, h, Database.storm]

theorem groupIdentity_congr (h : db'.incidentGroups = db.incidentGroups) :
    db'.groupIdentity = db.groupIdentity := by
  funext g
  rw [Database.groupIdentity, h, Database.groupIdentity]

/-- A decision moves no incident to another storm. -/
theorem storm_persisted {rt : Runtime K} {now : ℤ} {d : EngineDecision} :
    (persisted rt now d db).storm = db.storm := by
  funext x
  rw [Database.storm, find?_persisted]
  split_ifs with hx
  · rw [Option.bind_some, persistedIncident_correlationGroupId, hx, Database.storm]
  · rfl

end Storm

/-! ## The first of some rows -/

/-- What `firstBy` returns is not after any of the rows. -/
theorem firstBy_le {α β : Type*} [LinearOrder β] {before : α → α → Bool} {age : α → β}
    (hbefore : ∀ a b, before a b = true ↔ age a < age b) :
    ∀ {xs : List α} {x : α}, firstBy before xs = some x → ∀ y ∈ xs, age x ≤ age y
  | [], _, h => by cases h
  | z :: zs, x, h => by
      intro y hy
      rw [firstBy] at h
      cases hzs : firstBy before zs with
      | none =>
          obtain rfl := firstBy_eq_none.1 hzs
          rw [hzs] at h
          obtain rfl := Option.some.inj h
          exact le_of_eq (congrArg age (List.mem_singleton.1 hy)).symm
      | some w =>
          have hw := firstBy_le hbefore hzs
          rw [hzs] at h
          obtain rfl := Option.some.inj h
          rcases List.mem_cons.1 hy with rfl | hy
          · split_ifs with hlt
            · exact ((hbefore w y).1 hlt).le
            · exact le_rfl
          · split_ifs with hlt
            · exact hw y hy
            · exact (not_lt.1 fun hc => hlt ((hbefore w z).2 hc)).trans (hw y hy)

/-- **The oldest group wins**: no group that is there is older than the one chosen. -/
theorem oldestGroup_le {db : Database K} {groups : List String} {g₀ g : String} {group : IncidentGroup}
    (h : oldestGroup groups db = some g₀) (hg : g ∈ groups) (hgroup : db.incidentGroups.find? g = some group) :
    ∃ group₀, db.incidentGroups.find? g₀ = some group₀ ∧ groupAge (g₀, group₀) ≤ groupAge (g, group) := by
  have hrow : (g, group) ∈ db.incidentGroups.select fun k _ => groups.contains k :=
    Table.mem_select.2 ⟨hgroup, List.contains_iff_mem.2 hg⟩
  unfold oldestGroup at h
  dsimp only at h
  obtain ⟨row, hfirst⟩ := @firstBy_isSome (String × IncidentGroup) (fun a b =>
    decide (a.2.createdAt < b.2.createdAt ∨ a.2.createdAt = b.2.createdAt ∧ a.1 < b.1)) _
    (List.ne_nil_of_mem hrow)
  rw [hfirst] at h
  obtain rfl := Option.some.inj h
  refine ⟨row.2, (Table.mem_select.1 (firstBy_mem hfirst)).1, ?_⟩
  refine firstBy_le (fun a b => ?_) hfirst _ hrow
  rw [decide_eq_true_eq, groupAge, groupAge, Prod.Lex.toLex_lt_toLex]

/-! ## One grouping -/

section Grouping

variable {db db' : Database K} {members : List String} {g g₀ x : String}

/-- **What a grouping does.**  The members, with all who share a storm with one of them, are in the
storm `g₀`: that of a member, older than the storms of the others, or one that nobody was in.  No
other storm changes. -/
structure Joins (members : List String) (g₀ : String) (db db' : Database K) : Prop where
  joined : ∀ x, x ∈ members ∨ (∃ m ∈ members, ∃ g, db.storm x = some g ∧ db.storm m = some g) →
    db'.storm x = some g₀
  left : ∀ x, ¬ (x ∈ members ∨ ∃ m ∈ members, ∃ g, db.storm x = some g ∧ db.storm m = some g) →
    db'.storm x = db.storm x ∧ db.storm x ≠ some g₀
  kept : ∀ g, (∀ m ∈ members, db.storm m ≠ some g) ∨ g = g₀ → ∀ identity,
    db.groupIdentity g = some identity → db'.groupIdentity g = some identity
  older : ∀ m ∈ members, ∀ g, db.storm m = some g → ∀ group, db.incidentGroups.find? g = some group →
    ∃ group₀, db.incidentGroups.find? g₀ = some group₀ ∧ groupAge (g₀, group₀) ≤ groupAge (g, group)

theorem storm_joinGroup {x : String} (hknown : x ∈ members → ∃ i, db.incidents.find? x = some i) :
    (joinGroup g₀ members db).storm x = if x ∈ members then some g₀ else db.storm x := by
  rw [Database.storm, joinGroup, Table.find?_update]
  by_cases hx : x ∈ members
  · obtain ⟨i, hi⟩ := hknown hx
    rw [if_pos hx, hi, Option.map_some, Option.bind_some, if_pos (List.contains_iff_mem.2 hx)]
  · rw [if_neg hx, Database.storm]
    cases db.incidents.find? x with
    | none => rfl
    | some i =>
        rw [Option.map_some, Option.bind_some, if_neg fun hc => hx (List.contains_iff_mem.1 hc), Option.bind_some]

theorem storm_mergeGroups {absorbed : List String} (x : String) : (mergeGroups g₀ absorbed db).storm x =
    if (db.storm x).any absorbed.contains then some g₀ else db.storm x := by
  rw [Database.storm, mergeGroups, Table.find?_update, Database.storm]
  cases db.incidents.find? x with
  | none => rfl
  | some i =>
      dsimp only [Option.map_some, Option.bind_some]
      split_ifs <;> rfl

/-- A group that is refreshed with a member, or is not there, stays what it was. -/
theorem refreshGroup_identity [Field K] [LinearOrder K] {now : ℤ} (hmember : ∃ x, db.storm x = some g₀) :
    (refreshGroup now g₀ db).2.groupIdentity = db.groupIdentity := by
  obtain ⟨x, hx⟩ := hmember
  obtain ⟨i, hi⟩ := storm_eq_some.1 hx
  have hne : groupMembers g₀ db ≠ [] := List.ne_nil_of_mem (mem_groupMembers.2 hi)
  funext g
  unfold refreshGroup
  cases hmembers : groupMembers g₀ db with
  | nil => exact absurd hmembers hne
  | cons first rest =>
      refine (congrArg (Option.map IncidentGroup.identity) (Table.find?_modify _)).trans ?_
      rw [Database.groupIdentity]
      by_cases hg : g = g₀
      · rw [if_pos hg, hg, Option.map_map]
        rfl
      · rw [if_neg hg]

theorem mem_groupsOf_iff : g ∈ groupsOf members db ↔ ∃ m ∈ members, db.storm m = some g := by
  rw [mem_groupsOf]
  exact exists_congr fun m => and_congr_right fun _ => storm_eq_some.symm

/-- **The chosen group joins the members**, before it is refreshed. -/
theorem joinGroup_joins {freshId scopeKey : String} {now : ℤ} (hfresh : db.incidentGroups.find? freshId = none)
    (hknown : ∀ m ∈ members, ∃ i, db.incidents.find? m = some i)
    (hgroups : ∀ x g, db.storm x = some g → ∃ group, db.incidentGroups.find? g = some group) :
    Joins members (chooseGroup freshId now members scopeKey db).1 db
      (joinGroup (chooseGroup freshId now members scopeKey db).1 members
        (chooseGroup freshId now members scopeKey db).2.2) := by
  unfold chooseGroup
  cases ho : oldestGroup (groupsOf members db) db with
  | some g₀ =>
      dsimp only
      obtain ⟨m₀, hm₀, hg₀⟩ := mem_groupsOf_iff.1 (oldestGroup_mem ho)
      generalize habs : (groupsOf members db).filter (· ≠ g₀) = absorbed
      have hmem : ∀ g, g ∈ absorbed ↔ (∃ m ∈ members, db.storm m = some g) ∧ g ≠ g₀ := by
        intro g
        rw [← habs, List.mem_filter, mem_groupsOf_iff, decide_eq_true_eq]
      have hknown' : ∀ m ∈ members, ∃ i, (mergeGroups g₀ absorbed db).incidents.find? m = some i := by
        intro m hm
        obtain ⟨i, hi⟩ := hknown m hm
        rw [mergeGroups, Table.find?_update, hi]
        exact ⟨_, rfl⟩
      have hstorm := fun x => @storm_joinGroup _ (mergeGroups g₀ absorbed db) members g₀ x (hknown' x)
      have hmerge := fun x => @storm_mergeGroups _ db g₀ absorbed x
      refine ⟨fun x hx => ?_, fun x hx => ?_, fun g hg identity hidentity => ?_, fun m hm g hg group hgroup => ?_⟩
      · rw [hstorm, hmerge]
        rcases hx with hx | ⟨m, hm, g, hxg, hmg⟩
        · rw [if_pos hx]
        · by_cases hg : g = g₀
          · rw [hxg, hg, ite_self, ite_self]
          · have hin : absorbed.contains g = true := List.contains_iff_mem.2 ((hmem g).2 ⟨⟨m, hm, hmg⟩, hg⟩)
            rw [hxg, Option.any_some, if_pos hin, ite_self]
      · have hout : x ∉ members := fun hc => hx (.inl hc)
        refine ⟨?_, fun hc => hx (.inr ⟨m₀, hm₀, g₀, hc, hg₀⟩)⟩
        rw [hstorm, if_neg hout, hmerge, if_neg]
        intro hc
        obtain ⟨g, hxg, hin⟩ := (Option.any_eq_true _ _).1 hc
        obtain ⟨⟨m, hm, hmg⟩, -⟩ := (hmem g).1 (List.contains_iff_mem.1 hin)
        exact hx (.inr ⟨m, hm, g, hxg, hmg⟩)
      · have hout : absorbed.contains g = false := by
          refine Bool.eq_false_iff.2 fun hc => ?_
          obtain ⟨⟨m, hm, hmg⟩, hne⟩ := (hmem g).1 (List.contains_iff_mem.1 hc)
          rcases hg with hg | hg
          · exact hg m hm hmg
          · exact hne hg
        obtain ⟨group, hgroup, rfl⟩ := Option.map_eq_some_iff.1 hidentity
        refine Option.map_eq_some_iff.2 ⟨group, (Table.find?_delete _).trans ?_, rfl⟩
        rw [hgroup, hout]
        rfl
      · exact oldestGroup_le ho (mem_groupsOf_iff.2 ⟨m, hm, hg⟩) hgroup
  | none =>
      dsimp only
      have hnone : ∀ m ∈ members, ∀ g, db.storm m ≠ some g := by
        intro m hm g hg
        have hin := mem_groupsOf_iff.2 ⟨m, hm, hg⟩
        rw [oldestGroup_eq_none ho] at hin
        cases hin
      generalize hdb : ({ db with incidentGroups := db.incidentGroups.insert freshId _ } : Database K) = db₁
      have hincidents : db₁.incidents = db.incidents := by rw [← hdb]
      have hstorm := fun x => @storm_joinGroup _ db₁ members freshId x (hincidents ▸ hknown x)
      refine ⟨fun x hx => ?_, fun x hx => ?_, fun g hg identity hidentity => ?_, fun m hm g hg => ?_⟩
      · rw [hstorm]
        rcases hx with hx | ⟨m, hm, g, -, hmg⟩
        · rw [if_pos hx]
        · exact absurd hmg (hnone m hm g)
      · have hout : x ∉ members := fun hc => hx (.inl hc)
        rw [hstorm, if_neg hout, storm_congr hincidents]
        refine ⟨rfl, fun hc => ?_⟩
        obtain ⟨group, hgroup⟩ := hgroups x freshId hc
        rw [hfresh] at hgroup
        cases hgroup
      · obtain ⟨group, hgroup, rfl⟩ := Option.map_eq_some_iff.1 hidentity
        refine Option.map_eq_some_iff.2 ⟨group, ?_, rfl⟩
        have hne : g ≠ freshId := by
          rintro rfl
          rw [hfresh] at hgroup
          cases hgroup
        show db₁.incidentGroups.find? g = some group
        rw [← hdb]
        refine Table.find?_insert.trans ?_
        rw [if_neg hne, hgroup]
      · exact absurd hg (hnone m hm g)

/-- What neither moves an incident nor changes what a group is may follow. -/
theorem Joins.congr {db'' : Database K} (h : Joins members g₀ db db') (hstorm : db''.storm = db'.storm)
    (hidentity : db''.groupIdentity = db'.groupIdentity) : Joins members g₀ db db'' where
  joined x hx := by rw [hstorm]; exact h.joined x hx
  left x hx := by rw [hstorm]; exact h.left x hx
  kept g hg identity hg' := by rw [hidentity]; exact h.kept g hg identity hg'
  older := h.older

/-- What neither moves an incident nor changes what a group is may come before. -/
theorem Joins.of_eq {db₀ : Database K} (h : Joins members g₀ db db') (hstorm : db.storm = db₀.storm)
    (hgroups : db.incidentGroups = db₀.incidentGroups) : Joins members g₀ db₀ db' where
  joined x hx := h.joined x (by rw [hstorm]; exact hx)
  left x hx := by
    rw [← hstorm]
    exact h.left x (by rw [hstorm]; exact hx)
  kept g hg identity hg' := h.kept g (by rw [hstorm]; exact hg) identity (by rw [groupIdentity_congr hgroups]; exact hg')
  older m hm g hg group hgroup := by
    rw [← hgroups]
    exact h.older m hm g (by rw [hstorm]; exact hg) group (by rw [hgroups]; exact hgroup)

variable [Field K] [LinearOrder K] {now : ℤ}

/-- A storm that is refreshed for one of its members stays what it was. -/
theorem refreshGroupForMember_identity :
    (refreshGroupForMember now x db).2.groupIdentity = db.groupIdentity := by
  unfold refreshGroupForMember
  cases hx : (db.incidents.find? x).bind (·.correlationGroupId) with
  | none => rfl
  | some g =>
      dsimp only
      have hsame : (refreshGroup now g db).2.groupIdentity = db.groupIdentity := refreshGroup_identity ⟨x, hx⟩
      split_ifs
      · rfl
      · exact hsame
      · exact hsame

theorem refreshGroupForMember_storm : (refreshGroupForMember now x db).2.storm = db.storm := by
  rw [refreshGroupForMember_frame]
  exact storm_congr rfl

/-- **Grouping an incident after an alert** joins it with its strong neighbours, or does nothing
where it has none. -/
theorem regroup_joins {freshId scopeKey : String} (hfresh : db.incidentGroups.find? freshId = none)
    (hx : ∃ i, db.incidents.find? x = some i)
    (hgroups : ∀ x g, db.storm x = some g → ∃ group, db.incidentGroups.find? g = some group) :
    (strongNeighbours x scopeKey db = [] ∧ (regroup freshId now x scopeKey db).2.storm = db.storm ∧
      (regroup freshId now x scopeKey db).2.groupIdentity = db.groupIdentity) ∨
    ∃ g₀, Joins (x :: strongNeighbours x scopeKey db) g₀ db (regroup freshId now x scopeKey db).2 := by
  have hassign : (strongNeighbours x scopeKey db = [] ∧ (assignGroup freshId now x scopeKey db).2 = db) ∨
      ∃ g₀, Joins (x :: strongNeighbours x scopeKey db) g₀ db (assignGroup freshId now x scopeKey db).2 := by
    unfold assignGroup
    cases hn : strongNeighbours x scopeKey db with
    | nil => exact .inl ⟨rfl, rfl⟩
    | cons y ys =>
        dsimp only
        have hknown : ∀ m ∈ x :: y :: ys, ∃ i, db.incidents.find? m = some i := by
          intro m hm
          rcases List.mem_cons.1 hm with rfl | hm
          · exact hx
          · obtain ⟨-, i, hi, -⟩ := mem_strongNeighbours (hn ▸ hm)
            exact ⟨i, hi⟩
        have hjoins := @joinGroup_joins _ db (x :: y :: ys) freshId scopeKey now hfresh hknown hgroups
        refine .inr ⟨_, hjoins.congr ?_ ?_⟩
        · rw [refreshGroup_frame]
          exact storm_congr rfl
        · exact refreshGroup_identity ⟨x, hjoins.joined x (.inl List.mem_cons_self)⟩
  unfold regroup
  split
  · next a db₁ heq =>
      rw [heq] at hassign
      rcases hassign with ⟨hn, rfl⟩ | hjoins
      · exact .inl ⟨hn, rfl, rfl⟩
      · exact .inr hjoins
  · next db₁ heq =>
      rw [heq] at hassign
      rcases hassign with ⟨hn, rfl⟩ | ⟨g₀, hjoins⟩
      · exact .inl ⟨hn, refreshGroupForMember_storm, refreshGroupForMember_identity⟩
      · exact .inr ⟨g₀, hjoins.congr refreshGroupForMember_storm refreshGroupForMember_identity⟩

end Grouping

/-! ## One step of the engine -/

section Step

variable {db db' : Database K} {x scopeKey : String}

/-- A timer moves no incident to another storm. -/
theorem persistTrigger_storm {rt : Runtime K} {freshEventId : String} {now : ℤ} {trigger : TimerTrigger}
    {committed : Bool} (h : persistTrigger rt freshEventId now trigger db = .ok (committed, db')) :
    db'.storm = db.storm ∧ db'.groupIdentity = db.groupIdentity := by
  rcases persistTrigger_commits h with ⟨-, rfl⟩ | ⟨d, -, hp⟩
  · exact ⟨rfl, rfl⟩
  · obtain ⟨-, rfl⟩ := persistDecision_ok.1 hp
    exact ⟨storm_persisted, rfl⟩

variable [Field K] [LinearOrder K] {rt : Runtime K}

/-- Strong neighbours are read off the edges, the scopes and the states. -/
theorem strongNeighbours_congr (hedges : db'.edges = db.edges) (h : Regrouped db db') :
    strongNeighbours x scopeKey db' = strongNeighbours x scopeKey db := by
  have hactive : ∀ y, (db'.incidents.find? y).any (fun i => i.scopeKey = scopeKey && i.status.active) =
      (db.incidents.find? y).any fun i => i.scopeKey = scopeKey && i.status.active := by
    intro y
    have hmap : (db'.incidents.find? y).map (fun i => (i.scopeKey, i.status)) =
        (db.incidents.find? y).map fun i => (i.scopeKey, i.status) := h.map (fun _ => rfl) y
    have hany : ∀ o : Option Incident, o.any (fun i => i.scopeKey = scopeKey && i.status.active) =
        (o.map fun i => (i.scopeKey, i.status)).any fun p => p.1 = scopeKey && p.2.active := by
      intro o
      cases o <;> rfl
    rw [hany, hany, hmap]
  unfold strongNeighbours
  simp only [hedges, hactive]

/-- An external action moves no incident to another storm. -/
theorem applyExternalAction_storm {freshEventId : String} {now : ℤ} {action : ExternalAction}
    {result : ReconcileResult} (h : applyExternalAction rt freshEventId now action db = .ok (result, db')) :
    db'.storm = db.storm ∧ db'.groupIdentity = db.groupIdentity := by
  rcases applyExternalAction_cases h with ⟨-, -, hdb⟩ | ⟨-, i, next, d, db₁, -, hd, hp, rfl⟩
  · rw [hdb]
    exact ⟨rfl, rfl⟩
  obtain ⟨-, -, hid, -⟩ := buildDecision_eq_ok hd
  obtain ⟨-, rfl⟩ := persistDecision_ok.1 hp
  have hfind := @find?_stamped _ rt db now action d hid
  have hstamp : ∀ j : Incident, (stampAction now action j).correlationGroupId = j.correlationGroupId := by
    intro j
    unfold stampAction
    split_ifs <;> rfl
  unfold settleAction
  dsimp only
  generalize hdb₁ : ({ persisted rt now d db with
    incidents := (persisted rt now d db).incidents.modify action.incidentId (stampAction now action) } :
      Database K) = db₁ at hfind
  have hstorm : db₁.storm = db.storm := by
    funext y
    rw [Database.storm, hfind, Database.storm]
    split_ifs with hy
    · rw [Option.bind_some, hstamp, persistedIncident_correlationGroupId, hy]
    · rfl
  have hidentity : db₁.groupIdentity = db.groupIdentity := groupIdentity_congr (by rw [← hdb₁]; rfl)
  have hrefreshed : (refreshGroupForMember now action.incidentId db₁).2.groupIdentity = db.groupIdentity :=
    refreshGroupForMember_identity.trans hidentity
  constructor
  · refine Eq.trans (storm_congr ?_) hstorm
    rw [redirectFor_frame, refreshGroupForMember_frame]
    rfl
  · refine Eq.trans (groupIdentity_congr ?_) hrefreshed
    rw [redirectFor_frame]
    rfl

theorem sweepOnce_storm {freshEventIds : ℕ → String} {now moment : ℤ} {n : ℕ}
    (h : sweepOnce rt freshEventIds now moment db = .ok (n, db')) :
    db'.storm = db.storm ∧ db'.groupIdentity = db.groupIdentity := by
  refine sweepOnce_induct (P := fun a => a.storm = db.storm ∧ a.groupIdentity = db.groupIdentity) h ⟨rfl, rfl⟩ ?_
  rintro a b _ _ _ _ _ _ ⟨hstorm, hidentity⟩ ha
  obtain ⟨hstorm', hidentity'⟩ := applyExternalAction_storm ha
  exact ⟨hstorm'.trans hstorm, hidentity'.trans hidentity⟩

variable (rt) in
/-- **The round of a transition**: the incident of the alert it committed, with the incidents that
the committed database ties strongly to it; none for a bypass, which is not correlated, and none
where no alert was committed. -/
def stormRound (t : Transition (Database K) Request) : List String :=
  match committedEvent rt t, t.target.rawEvents with
  | some _, row :: _ =>
      if row.bypassed then [] else row.incidentId :: strongNeighbours row.incidentId row.scopeKey t.target
  | _, _ => []

theorem stormRound_of_not_committed {t : Transition (Database K) Request} (h : committedEvent rt t = none) :
    stormRound rt t = [] := by
  rw [stormRound, h]

/-- **One step of the engine** joins the storms of its round, or leaves every storm as it is. -/
theorem engineNext_joins {q : Request} (h : engineNext rt db q = some db') (hs : StormsBut none db) :
    ((∀ a ∈ stormRound rt ⟨db, q, db'⟩, ∀ b ∈ stormRound rt ⟨db, q, db'⟩, a = b) ∧ db'.storm = db.storm ∧
      db'.groupIdentity = db.groupIdentity) ∨ ∃ g₀, Joins (stormRound rt ⟨db, q, db'⟩) g₀ db db' := by
  have hquiet : committedEvent rt ⟨db, q, db'⟩ = none → db'.storm = db.storm ∧
      db'.groupIdentity = db.groupIdentity → ((∀ a ∈ stormRound rt ⟨db, q, db'⟩,
        ∀ b ∈ stormRound rt ⟨db, q, db'⟩, a = b) ∧ db'.storm = db.storm ∧
        db'.groupIdentity = db.groupIdentity) ∨ ∃ g₀, Joins (stormRound rt ⟨db, q, db'⟩) g₀ db db' := by
    intro hnone hsame
    rw [stormRound_of_not_committed hnone]
    exact .inl ⟨fun a ha => absurd ha List.not_mem_nil, hsame⟩
  unfold engineNext at h
  split_ifs at h with hf
  obtain rfl := Option.some.inj h
  cases q with
  | ingest freshId freshGroupId now event =>
      cases hr : ingestEvent rt freshId freshGroupId now event db with
      | error e =>
          refine hquiet ?_ ?_
          · rw [committedEvent_ingest, hr]
            rfl
          · rw [serve, hr]
            exact ⟨rfl, rfl⟩
      | ok r =>
          obtain ⟨d, db'⟩ := r
          have hserve : serve rt db (.ingest freshId freshGroupId now event) = db' := by rw [serve, hr]; rfl
          rw [hserve]
          obtain ⟨-, hcommits⟩ := ingestEvent_commits hr
          have hround : stormRound rt ⟨db, .ingest freshId freshGroupId now event, db'⟩ =
              if d.isCriticalBypass then [] else
                d.incidentId :: strongNeighbours d.incidentId d.scopeKey db' := by
            rw [stormRound, committedEvent_ingest, hr]
            dsimp only [Except.toOption, Option.map_some]
            rw [hcommits.ledger]
            rfl
          rw [hround]
          obtain ⟨-, db₁, hp, hparts⟩ := ingestEvent_parts hr
          obtain ⟨-, rfl⟩ := persistDecision_ok.1 hp
          simp only [Request.fresh, Bool.and_eq_true, Option.isNone_iff_eq_none, decide_eq_true_eq] at hf
          obtain ⟨⟨⟨-, hgroup⟩, -⟩, -⟩ := hf
          rcases hparts with ⟨hb, rfl⟩ | ⟨hb, db₂, hobs, rfl⟩
          · rw [if_pos hb]
            exact .inl ⟨fun a ha => absurd ha List.not_mem_nil, storm_persisted, rfl⟩
          · have hobs := observeIncident_frame hobs
            have hincidents : db₂.incidents = (persisted rt now d db).incidents := by rw [hobs]
            have hgroups : db₂.incidentGroups = db.incidentGroups := by rw [hobs]; rfl
            have hstorm : db₂.storm = db.storm := (storm_congr hincidents).trans storm_persisted
            have hknown : ∀ x g, db₂.storm x = some g → ∃ group, db₂.incidentGroups.find? g = some group := by
              intro x g hg
              rw [hstorm] at hg
              obtain ⟨i, hi⟩ := storm_eq_some.1 hg
              rw [hgroups]
              exact hs.known g x i hi
            have hfresh : db₂.incidentGroups.find? freshGroupId = none := by rw [hgroups]; exact hgroup
            have hthere : ∃ i, db₂.incidents.find? d.incidentId = some i :=
              ⟨_, by rw [hincidents]; exact find?_persisted_self⟩
            have hregroup := @regroup_joins _ db₂ d.incidentId _ _ now freshGroupId d.scopeKey hfresh hthere hknown
            generalize hdb' : redirectFor now d.incidentId
              (regroup freshGroupId now d.incidentId d.scopeKey db₂).1
              (regroup freshGroupId now d.incidentId d.scopeKey db₂).2 = db'
            have hframe : db' = { (regroup freshGroupId now d.incidentId d.scopeKey db₂).2 with
                outbox := db'.outbox } := by
              rw [← hdb']
              exact redirectFor_frame _ _
            have hneighbours : strongNeighbours d.incidentId d.scopeKey db' =
                strongNeighbours d.incidentId d.scopeKey db₂ := by
              refine strongNeighbours_congr ?_ ?_
              · rw [hframe]
                exact regroup_edges _ _ _ _
              · rw [← hdb']
                exact (regroup_regrouped _ _ _ _).trans (redirectFor_regrouped _ _ _)
            have hstorm' : db'.storm = (regroup freshGroupId now d.incidentId d.scopeKey db₂).2.storm :=
              storm_congr (by rw [hframe])
            have hidentity' : db'.groupIdentity =
                (regroup freshGroupId now d.incidentId d.scopeKey db₂).2.groupIdentity :=
              groupIdentity_congr (by rw [hframe])
            rw [if_neg (by rw [hb]; exact Bool.false_ne_true), hneighbours]
            rcases hregroup with ⟨hnil, hsame, hsame'⟩ | ⟨g₀, hjoins⟩
            · rw [hnil]
              refine .inl ⟨fun a ha b hb => ?_, hstorm'.trans (hsame.trans hstorm),
                hidentity'.trans (hsame'.trans (groupIdentity_congr hgroups))⟩
              rw [List.mem_singleton.1 ha, List.mem_singleton.1 hb]
            · exact .inr ⟨g₀, (hjoins.congr hstorm' hidentity').of_eq hstorm hgroups⟩
  | timer freshEventId now incidentId quietAtMs =>
      refine hquiet rfl ?_
      cases hr : persistTrigger rt freshEventId now { incidentId, quietAtMs } db with
      | ok r => rw [serve, hr]; exact persistTrigger_storm hr
      | error e => rw [serve, hr]; exact ⟨rfl, rfl⟩
  | external freshEventId now action =>
      refine hquiet rfl ?_
      cases hr : applyExternalAction rt freshEventId now action db with
      | ok r => rw [serve, hr]; exact applyExternalAction_storm hr
      | error e => rw [serve, hr]; exact ⟨rfl, rfl⟩
  | sweep freshEventIds now moment =>
      refine hquiet rfl ?_
      cases hr : sweepOnce rt freshEventIds now moment db with
      | ok r => rw [serve, hr]; exact sweepOnce_storm hr
      | error e => rw [serve, hr]; exact ⟨rfl, rfl⟩

end Step

/-! ## Runs -/

section Runs

variable [Field K] [LinearOrder K] {rt : Runtime K} {db db' db'' : Database K}
  {h : List (Transition (Database K) Request)}

/-- Storms before and after: each is there as it was, or all its incidents are in an older one. -/
def StormsContinue (db db' : Database K) : Prop :=
  ∀ g group, db.incidentGroups.find? g = some group → ∃ g' group',
    db'.incidentGroups.find? g' = some group' ∧
    (g' = g ∧ group'.identity = group.identity ∨ groupAge (g', group') < groupAge (g, group)) ∧
    ∀ x, db.storm x = some g → db'.storm x = some g'

omit [Field K] [LinearOrder K] in
theorem StormsContinue.refl (db : Database K) : StormsContinue db db :=
  fun g group hg => ⟨g, group, hg, .inl ⟨rfl, rfl⟩, fun _ => id⟩

omit [Field K] [LinearOrder K] in
/-- A group's age is part of what never changes about it. -/
theorem groupAge_of_identity {g : String} {group group' : IncidentGroup}
    (h : group'.identity = group.identity) : groupAge (g, group') = groupAge (g, group) := by
  have hcreated : group'.createdAt = group.createdAt := congrArg (fun p => p.2.2) h
  rw [groupAge, groupAge, hcreated]

omit [Field K] [LinearOrder K] in
theorem StormsContinue.trans (h : StormsContinue db db') (h' : StormsContinue db' db'') :
    StormsContinue db db'' := by
  intro g group hg
  obtain ⟨g', group', hg', hage, hstorm⟩ := h g group hg
  obtain ⟨g'', group'', hg'', hage', hstorm'⟩ := h' g' group' hg'
  refine ⟨g'', group'', hg'', ?_, fun x hx => hstorm' x (hstorm x hx)⟩
  rcases hage with ⟨rfl, hidentity⟩ | hlt
  · rcases hage' with ⟨rfl, hidentity'⟩ | hlt'
    · exact .inl ⟨rfl, hidentity'.trans hidentity⟩
    · exact .inr (hlt'.trans_eq (groupAge_of_identity hidentity))
  · rcases hage' with ⟨rfl, hidentity'⟩ | hlt'
    · exact .inr ((groupAge_of_identity hidentity').trans_lt hlt)
    · exact .inr (hlt'.trans hlt)

omit [Field K] [LinearOrder K] in
/-- A grouping continues every storm. -/
theorem Joins.continues {members : List String} {g₀ : String} (hjoins : Joins members g₀ db db') :
    StormsContinue db db' := by
  have hkept : ∀ g group, db.incidentGroups.find? g = some group →
      (∀ m ∈ members, db.storm m ≠ some g) ∨ g = g₀ →
        ∃ group', db'.incidentGroups.find? g = some group' ∧ group'.identity = group.identity := by
    intro g group hg hout
    exact Option.map_eq_some_iff.1 (hjoins.kept g hout group.identity (by rw [Database.groupIdentity, hg]; rfl))
  intro g group hg
  by_cases hjoined : ∃ m ∈ members, db.storm m = some g
  · obtain ⟨m, hm, hmg⟩ := hjoined
    obtain ⟨group₀, hgroup₀, hage⟩ := hjoins.older m hm g hmg group hg
    obtain ⟨group₁, hgroup₁, hidentity⟩ := hkept g₀ group₀ hgroup₀ (.inr rfl)
    refine ⟨g₀, group₁, hgroup₁, ?_, fun x hx => hjoins.joined x (.inr ⟨m, hm, g, hx, hmg⟩)⟩
    rcases eq_or_ne g₀ g with rfl | hne
    · obtain rfl := Option.some.inj (hg.symm.trans hgroup₀)
      exact .inl ⟨rfl, hidentity⟩
    · refine .inr ((groupAge_of_identity hidentity).trans_lt (lt_of_le_of_ne hage fun heq => hne ?_))
      exact congrArg (fun p => (ofLex p).2) heq
  · have hout : ∀ m ∈ members, db.storm m ≠ some g := fun m hm hmg => hjoined ⟨m, hm, hmg⟩
    obtain ⟨group', hgroup', hidentity⟩ := hkept g group hg (.inl hout)
    refine ⟨g, group', hgroup', .inl ⟨rfl, hidentity⟩, fun x hx => ?_⟩
    rw [(hjoins.left x ?_).1, hx]
    rintro (hmem | ⟨m, hm, g', hxg', hmg'⟩)
    · exact hout x hmem hx
    · obtain rfl := Option.some.inj (hx.symm.trans hxg')
      exact hout m hm hmg'

omit [Field K] [LinearOrder K] in
/-- A grouping is a round of the components. -/
theorem Joins.tells {rounds : List (List String)} {members : List String} {g₀ : String}
    (hjoins : Joins members g₀ db db') (htells : TellsComponents rounds db.storm) :
    TellsComponents (members :: rounds) db'.storm := by
  refine htells.join (fun x hx => hjoins.joined x (htells.meets_iff.1 hx)) fun x hx => hjoins.left x fun hc => ?_
  exact hx (htells.meets_iff.2 hc)

/-- The storms of a reachable database are coherent. -/
theorem stormsBut_of_run (r : EngineRun rt h db) : StormsBut none db :=
  r.induct (I := fun _ db => StormsBut none db) (fun _ hempty => hempty ▸ stormsBut_empty)
    fun _ _ _ _ _ hs hstep => engineNext_storms hstep hs

/-- **Storms are components**: in every reachable database two incidents are in one storm exactly
when a chain of strong ties joins them, each of which the database had when an alert of one of its
ends was committed.  So no order of the alerts splits a cascade, or joins two that nothing ties. -/
theorem storms_are_components (r : EngineRun rt h db) {x y : String} (hne : x ≠ y) :
    (∃ g, db.storm x = some g ∧ db.storm y = some g) ↔ Linked (h.map (stormRound rt)) x y := by
  have htells : TellsComponents (h.map (stormRound rt)) db.storm := by
    refine r.induct (I := fun h db => TellsComponents (h.map (stormRound rt)) db.storm) ?_ ?_
    · rintro _ rfl
      exact Library.tellsComponents_nil fun x => rfl
    · intro h db q db' r htells hstep
      rcases engineNext_joins hstep (stormsBut_of_run r) with ⟨hsub, hstorm, -⟩ | ⟨g₀, hjoins⟩
      · exact htells.of_subsingleton hsub hstorm
      · exact hjoins.tells htells
  exact (htells x y hne).symm

/-- **Storms continue**: a storm that some step of the run left is there at its end, with the scope,
the anchor and the creation it had, or all the incidents it had are in a storm that is older. -/
theorem storms_continue (r : EngineRun rt h db) {t : Transition (Database K) Request} (ht : t ∈ h) :
    StormsContinue t.target db := by
  refine r.induct (I := fun h db => ∀ t ∈ h, StormsContinue t.target db) (fun _ _ t ht => ?_) ?_ t ht
  · cases ht
  · intro h db q db' r hcontinue hstep t ht
    have hlast : StormsContinue db db' := by
      rcases engineNext_joins hstep (stormsBut_of_run r) with ⟨-, hstorm, hidentity⟩ | ⟨g₀, hjoins⟩
      · intro g group hg
        have hsame := congrFun hidentity g
        rw [Database.groupIdentity, Database.groupIdentity, hg] at hsame
        obtain ⟨group', hgroup', heq⟩ := Option.map_eq_some_iff.1 hsame
        exact ⟨g, group', hgroup', .inl ⟨rfl, heq⟩, fun x hx => by rw [hstorm, hx]⟩
      · exact hjoins.continues
    rcases List.mem_cons.1 ht with rfl | ht
    · exact StormsContinue.refl db'
    · exact (hcontinue t ht).trans hlast

/-- Two pairs of services that alert together, half an hour apart, and then the first service again:
twice, so that it is tied to the second pair too. -/
def mergeRequests : List Request :=
  [.ingest "A" "a" 1000 (alertOf "disk" "1"), .ingest "B" "b" 1000 (alertOf "api" "2"),
    .ingest "X" "P" 1000 (alertOf "api" "3"), .ingest "C" "c" 2000000 (alertOf "web" "4"),
    .ingest "D" "d" 2000000 (alertOf "cdn" "5"), .ingest "Y" "Q" 2000000 (alertOf "cdn" "6"),
    .ingest "Z" "z" 2000000 (alertOf "disk" "7"), .ingest "W" "w" 2000000 (alertOf "disk" "8")]

/-- Their incidents: the storm `Q` of the second pair is taken over by the storm `P` of the first. -/
theorem mergeRequests_storms : ∃ h db, EngineRun Runtime.reference h db ∧
    (∃ t ∈ h, t.target.storm "B" = some "P" ∧ t.target.storm "C" = some "Q") ∧
    db.storm "B" = some "P" ∧ db.storm "C" = some "P" := by
  have hreplay : (Library.replay (engineNext Runtime.reference) mergeRequests ([], Database.empty)).map
      (fun s => (s.1.any (fun t => t.target.storm "B" = some "P" && t.target.storm "C" = some "Q"),
        s.2.storm "B", s.2.storm "C")) = some (true, some "P", some "P") := by decide +kernel
  obtain ⟨h, db, hrun, hstorms⟩ := EngineRun.of_replay hreplay
  obtain ⟨hany, hends⟩ := Prod.mk.inj hstorms
  obtain ⟨t, ht, hsplit⟩ := List.any_eq_true.1 hany
  rw [Bool.and_eq_true, decide_eq_true_eq, decide_eq_true_eq] at hsplit
  exact ⟨h, db, hrun, ⟨t, ht, hsplit⟩, Prod.mk.inj hends⟩

/-- The second service and the third, which no alert ties to each other, are linked through the first. -/
theorem storms_are_components_merge : ∃ h db, EngineRun Runtime.reference h db ∧
    db.storm "B" = some "P" ∧ db.storm "C" = some "P" ∧ Linked (h.map (stormRound Runtime.reference)) "B" "C" := by
  obtain ⟨h, db, hrun, -, hB, hC⟩ := mergeRequests_storms
  exact ⟨h, db, hrun, hB, hC, (storms_are_components hrun (by decide)).1 ⟨"P", hB, hC⟩⟩

/-- The second pair's storm, which continues as the first's. -/
theorem storms_continue_merge : ∃ h db, EngineRun Runtime.reference h db ∧
    ∃ t ∈ h, t.target.storm "C" = some "Q" ∧ db.storm "C" = some "P" ∧ StormsContinue t.target db := by
  obtain ⟨h, db, hrun, ⟨t, ht, -, hQ⟩, -, hP⟩ := mergeRequests_storms
  exact ⟨h, db, hrun, t, ht, hQ, hP, storms_continue hrun ht⟩

end Runs

end PulseGraph
