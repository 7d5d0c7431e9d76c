/-
# One card for a cascade

`assign_group` makes one storm of an incident, its strong neighbours and the storms they are in,
and the anchor of the oldest of these storms keeps its card.  `persist_and_observe` then
redirects what waits for the incident of the event, and for no other member.

**Proved here.**  `anchorIn_regroup` says whose card the deliveries for each incident belong on
after a grouping, and `cardAfter_eq_some` reads it off the edges and the storms that are stored
before the alert.  In every run of the deployment, after every ingest that commits the Slack
rows that wait for the members of a storm are addressed to its anchor, notices aside, exactly
when no ingest finds a Slack row of another incident waiting that belongs on the card of an
anchor by what is stored (`oneCardPerCascade_iff`).  `not_oneCardPerCascade` has the anchor's
own alert form the storm.
-/

import PulseGraph.Engine.AlertStorm
import PulseGraph.Engine.StormComponents

namespace PulseGraph

open Library (Table Run Transition)

variable {K : Type}

/-! ## Whose card -/

/-- The anchor of the storm of an incident. -/
def anchorIn (db : Database K) (y : String) : Option String :=
  (db.storm y).bind fun g => (db.incidentGroups.find? g).map (·.anchorIncidentId)

/-- The incident is in one storm with the members once they are grouped. -/
def joins (members : List String) (db : Database K) (y : String) : Bool :=
  members.contains y || (db.storm y).any (groupsOf members db).contains

/-- The incident that keeps its card when the members are grouped: the anchor of the oldest of their
storms, or the first of them to have alerted. -/
def stormAnchor (members : List String) (db : Database K) : Option String :=
  match oldestGroup (groupsOf members db) db with
  | some g => (db.incidentGroups.find? g).map (·.anchorIncidentId)
  | none => some (match firstBy (fun a b => decide (a.2.firstAlertAt < b.2.firstAlertAt ∨
        a.2.firstAlertAt = b.2.firstAlertAt ∧ a.1 < b.1))
        (db.incidents.select fun k _ => members.contains k) with
      | some row => row.1
      | none => members.headD "")

section Anchors

variable {db : Database K} {members : List String} {scopeKey freshId x y : String} {now : ℤ}

/-- A member of a storm that is not its anchor. -/
theorem nonAnchor_iff : NonAnchor db y ↔ ∃ a, anchorIn db y = some a ∧ a ≠ y := by
  unfold NonAnchor anchorIn Database.storm
  constructor
  · rintro ⟨i, g, group, hi, hg, hgroup, hne⟩
    exact ⟨group.anchorIncidentId, by rw [hi, Option.bind_some, hg, Option.bind_some, hgroup]; rfl, hne⟩
  · rintro ⟨a, ha, hne⟩
    obtain ⟨g, hg, ha⟩ := Option.bind_eq_some_iff.1 ha
    obtain ⟨i, hi, hig⟩ := Option.bind_eq_some_iff.1 hg
    obtain ⟨group, hgroup, rfl⟩ := Option.map_eq_some_iff.1 ha
    exact ⟨i, g, group, hi, hig, hgroup, hne⟩

theorem AnchorOf.anchorIn {a : String} (h : AnchorOf db y a) : anchorIn db y = some a := by
  obtain ⟨i, g, group, hi, hg, hgroup, rfl, -⟩ := h
  rw [PulseGraph.anchorIn, Database.storm, hi, Option.bind_some, hg, Option.bind_some, hgroup, Option.map_some]

/-- A redirection leaves the storms as they are. -/
theorem anchorIn_redirectFor (g : Option GroupAssignment) :
    anchorIn (redirectFor now x g db) y = anchorIn db y := by
  rw [redirectFor_frame]
  rfl

/-- Of a storm of the members, and of no other, the members are of one storm. -/
theorem joins_eq_true : joins members db y = true ↔
    y ∈ members ∨ ∃ g ∈ groupsOf members db, db.storm y = some g := by
  unfold joins
  rw [Bool.or_eq_true, List.contains_iff_mem, Option.any_eq_true]
  simp only [List.contains_iff_mem, and_comm]

/-- A choice opens no incident and drops none. -/
theorem chooseGroup_known : ((chooseGroup freshId now members scopeKey db).2.2.incidents.find? y).isSome =
    (db.incidents.find? y).isSome := by
  unfold chooseGroup
  split
  · unfold mergeGroups
    rw [Table.find?_update, Option.isSome_map]
  · rfl

/-- **Whose card after a choice**: the members and those of their storms have one anchor, and the
other incidents the one they had. -/
theorem anchorIn_chooseGroup {stale : Option String} (h : StormsBut stale db)
    (hfresh : db.incidentGroups.find? freshId = none)
    (hknown : ∀ m ∈ members, (db.incidents.find? m).isSome = true) :
    anchorIn (joinGroup (chooseGroup freshId now members scopeKey db).1 members
        (chooseGroup freshId now members scopeKey db).2.2) y =
      if joins members db y then stormAnchor members db else anchorIn db y := by
  unfold chooseGroup stormAnchor
  cases ho : oldestGroup (groupsOf members db) db with
  | some g₀ =>
      dsimp only
      generalize habs : (groupsOf members db).filter (· ≠ g₀) = absorbed
      have hmem : ∀ {g}, g ∈ absorbed ↔ g ∈ groupsOf members db ∧ g ≠ g₀ := by
        intro g
        rw [← habs, List.mem_filter, decide_eq_true_eq]
      have hknown' : y ∈ members → ∃ i, (mergeGroups g₀ absorbed db).incidents.find? y = some i := by
        intro hy
        unfold mergeGroups
        rw [Table.find?_update, ← Option.isSome_iff_exists, Option.isSome_map]
        exact hknown y hy
      have hrow : ∀ g, (joinGroup g₀ members (mergeGroups g₀ absorbed db)).incidentGroups.find? g =
          (db.incidentGroups.find? g).filter fun _ => !absorbed.contains g := fun g => Table.find?_delete _
      rw [anchorIn, storm_joinGroup hknown', storm_mergeGroups]
      by_cases hj : joins members db y = true
      · rw [if_pos hj]
        -- whichever way the incident joins, its storm is the survivor
        have hgroup : (if y ∈ members then some g₀ else if (db.storm y).any absorbed.contains then some g₀
            else db.storm y) = some g₀ := by
          split_ifs with hy habsorbed
          · rfl
          · rfl
          · obtain ⟨g, hg, hgy⟩ := (joins_eq_true.1 hj).resolve_left hy
            rw [hgy]
            by_contra hne
            refine habsorbed ?_
            rw [hgy, Option.any_some, List.contains_iff_mem]
            exact hmem.2 ⟨hg, fun he => hne (congrArg some he)⟩
        have hself : absorbed.contains g₀ = false :=
          Bool.eq_false_iff.2 fun hc => (hmem.1 (List.contains_iff_mem.1 hc)).2 rfl
        rw [hgroup, Option.bind_some, hrow, hself]
        cases db.incidentGroups.find? g₀ <;> rfl
      · rw [if_neg hj]
        have hout := mt joins_eq_true.2 hj
        push Not at hout
        obtain ⟨hy, hout⟩ := hout
        have hfree : ∀ g, db.storm y = some g → absorbed.contains g = false := fun g hg =>
          Bool.eq_false_iff.2 fun hc => hout g (hmem.1 (List.contains_iff_mem.1 hc)).1 hg
        rw [if_neg hy, anchorIn]
        cases hg : db.storm y with
        | none => rfl
        | some g =>
            rw [Option.any_some, hfree g hg]
            dsimp only [Option.bind_some, Bool.false_eq_true, if_false]
            rw [if_neg (by simp), Option.bind_some, hrow, hfree g hg]
            cases db.incidentGroups.find? g <;> rfl
  | none =>
      dsimp only
      have hnone := oldestGroup_eq_none ho
      generalize hdb : ({ db with incidentGroups := db.incidentGroups.insert freshId _ } : Database K) = db₁
      have hrow : ∀ g, (joinGroup freshId members db₁).incidentGroups.find? g =
          if g = freshId then some
            { scopeKey := scopeKey
              anchorIncidentId := match firstBy (fun a b => decide (a.2.firstAlertAt < b.2.firstAlertAt ∨
                  a.2.firstAlertAt = b.2.firstAlertAt ∧ a.1 < b.1))
                  (db.incidents.select fun k _ => members.contains k) with
                | some row => row.1
                | none => members.headD ""
              createdAt := now
              updatedAt := now }
          else db.incidentGroups.find? g := by
        intro g
        rw [← hdb]
        refine Table.find?_insert.trans ?_
        rw [hfresh]
        rfl
      have hsame : db₁.storm y = db.storm y := by rw [← hdb]; rfl
      have hknown' : y ∈ members → ∃ i, db₁.incidents.find? y = some i := by
        rw [← hdb, ← Option.isSome_iff_exists]
        exact hknown y
      rw [anchorIn, storm_joinGroup hknown', hsame]
      by_cases hy : y ∈ members
      · rw [if_pos hy, if_pos (joins_eq_true.2 (.inl hy)), Option.bind_some, hrow, if_pos rfl]
        rfl
      · have hj : ¬ joins members db y = true := by
          rw [joins_eq_true, hnone]
          rintro (hm | ⟨g, hg, -⟩)
          · exact hy hm
          · exact absurd hg List.not_mem_nil
        rw [if_neg hy, if_neg hj, anchorIn]
        cases hg : db.storm y with
        | none => rfl
        | some g =>
            -- the new storm has no members yet
            have hne : g ≠ freshId := by
              rintro rfl
              obtain ⟨i, hi⟩ := storm_eq_some.1 hg
              obtain ⟨group, hgroup⟩ := h.known g y i hi
              rw [hfresh] at hgroup
              cases hgroup
            rw [Option.bind_some, Option.bind_some, hrow, if_neg hne]

variable [Field K] [LinearOrder K]

theorem storm_refreshGroup (g : String) : (refreshGroup now g db).2.storm y = db.storm y := by
  unfold Database.storm
  rw [refreshGroup_incidents]

/-- A refresh leaves every incident its card. -/
theorem anchorIn_refreshGroup (g : String) : anchorIn (refreshGroup now g db).2 y = anchorIn db y := by
  rw [anchorIn, storm_refreshGroup, anchorIn]
  cases hg : db.storm y with
  | none => rfl
  | some g' =>
      obtain ⟨i, hi⟩ := storm_eq_some.1 hg
      rw [Option.bind_some, Option.bind_some]
      unfold refreshGroup
      split
      · next hnil =>
          -- a storm without members is no incident's
          have hne : g' ≠ g := by
            rintro rfl
            have hmem := mem_groupMembers.2 hi
            rw [hnil] at hmem
            exact absurd hmem List.not_mem_nil
          dsimp only
          rw [Table.find?_delete]
          cases db.incidentGroups.find? g' <;> simp [hne]
      · dsimp only
        rw [Table.find?_modify]
        by_cases he : g' = g
        · rw [if_pos he, he, Option.map_map]
          rfl
        · rw [if_neg he]

theorem anchorIn_refreshGroupForMember :
    anchorIn (refreshGroupForMember now x db).2 y = anchorIn db y := by
  unfold refreshGroupForMember
  split
  · rfl
  · dsimp only
    split_ifs
    · rfl
    · exact anchorIn_refreshGroup _
    · exact anchorIn_refreshGroup _

/-- Whose card the deliveries for `y` belong on once the incident `x` is grouped. -/
def cardAnchor (x scopeKey : String) (db : Database K) (y : String) : Option String :=
  match strongNeighbours x scopeKey db with
  | [] => anchorIn db y
  | neighbour :: neighbours =>
      if joins (x :: neighbour :: neighbours) db y then stormAnchor (x :: neighbour :: neighbours) db
      else anchorIn db y

theorem anchorIn_assignGroup {stale : Option String} (h : StormsBut stale db)
    (hfresh : db.incidentGroups.find? freshId = none) (hx : (db.incidents.find? x).isSome = true) :
    anchorIn (assignGroup freshId now x scopeKey db).2 y = cardAnchor x scopeKey db y := by
  unfold assignGroup cardAnchor
  cases hn : strongNeighbours x scopeKey db with
  | nil => rfl
  | cons neighbour neighbours =>
      have hknown : ∀ m ∈ x :: neighbour :: neighbours, (db.incidents.find? m).isSome = true := by
        intro m hm
        rcases List.mem_cons.1 hm with rfl | hm
        · exact hx
        · obtain ⟨-, i, hi, -⟩ := mem_strongNeighbours (hn ▸ hm)
          rw [hi]
          rfl
      exact (anchorIn_refreshGroup _).trans (anchorIn_chooseGroup h hfresh hknown)

/-- **Whose card after an alert.** -/
theorem anchorIn_regroup {stale : Option String} (h : StormsBut stale db)
    (hfresh : db.incidentGroups.find? freshId = none) (hx : (db.incidents.find? x).isSome = true) :
    anchorIn (regroup freshId now x scopeKey db).2 y = cardAnchor x scopeKey db y := by
  have hassign := @anchorIn_assignGroup _ db scopeKey freshId x y now _ _ _ h hfresh hx
  unfold regroup
  split
  · next heq =>
      rw [heq] at hassign
      exact hassign
  · next heq =>
      rw [heq] at hassign
      exact anchorIn_refreshGroupForMember.trans hassign

/-! ## Who keeps the card -/

/-- When an incident first alerted. -/
def Database.firstAlert (db : Database K) (x : String) : Option ℤ :=
  (db.incidents.find? x).map (·.firstAlertAt)

omit [Field K] [LinearOrder K] in
/-- **Who keeps the card when the members are grouped**: the anchor of the oldest storm one of them is in,
or, where none of them is in a storm, the first of them to have alerted. -/
inductive KeepsCard (members : List String) (db : Database K) (a : String) : Prop
  | oldest {m g : String} {group : IncidentGroup} (hm : m ∈ members) (hg : db.storm m = some g)
      (hgroup : db.incidentGroups.find? g = some group) (hanchor : group.anchorIncidentId = a)
      (hold : ∀ m' ∈ members, ∀ g' group', db.storm m' = some g' → db.incidentGroups.find? g' = some group' →
        groupAge (g, group) ≤ groupAge (g', group'))
  | first {t : ℤ} (hnone : ∀ m ∈ members, db.storm m = none) (ha : a ∈ members) (hat : db.firstAlert a = some t)
      (hfirst : ∀ m ∈ members, ∀ t', db.firstAlert m = some t' → toLex (t, a) ≤ toLex (t', m))

omit [Field K] [LinearOrder K] in
/-- **The anchor of the storm** is who keeps the card. -/
theorem stormAnchor_eq_some {stale : Option String} (h : StormsBut stale db) (hne : members ≠ [])
    (hknown : ∀ m ∈ members, (db.incidents.find? m).isSome = true) {a : String} :
    stormAnchor members db = some a ↔ KeepsCard members db a := by
  have hgroups : ∀ m ∈ members, ∀ g, db.storm m = some g → ∃ group, db.incidentGroups.find? g = some group := by
    intro m _ g hg
    obtain ⟨i, hi⟩ := storm_eq_some.1 hg
    exact h.known g m i hi
  unfold stormAnchor
  cases ho : oldestGroup (groupsOf members db) db with
  | some g₀ =>
      obtain ⟨m₀, hm₀, hg₀⟩ := mem_groupsOf_iff.1 (oldestGroup_mem ho)
      obtain ⟨group₀, hgroup₀⟩ := hgroups m₀ hm₀ g₀ hg₀
      have hold : ∀ m' ∈ members, ∀ g' group', db.storm m' = some g' →
          db.incidentGroups.find? g' = some group' → groupAge (g₀, group₀) ≤ groupAge (g', group') := by
        intro m' hm' g' group' hg' hgroup'
        obtain ⟨group₁, hgroup₁, hage⟩ := oldestGroup_le ho (mem_groupsOf_iff.2 ⟨m', hm', hg'⟩) hgroup'
        exact Option.some.inj (hgroup₁.symm.trans hgroup₀) ▸ hage
      dsimp only
      rw [hgroup₀, Option.map_some, Option.some.injEq]
      constructor
      · exact fun ha => .oldest hm₀ hg₀ hgroup₀ ha hold
      · rintro (@⟨m, g, group, hm, hg, hgroup, rfl, hold'⟩ | ⟨hnone, -, -, -⟩)
        · -- two oldest storms are one
          have hage := le_antisymm (hold m hm g group hg hgroup) (hold' m₀ hm₀ g₀ group₀ hg₀ hgroup₀)
          obtain rfl : g₀ = g := congrArg (fun p => (ofLex p).2) hage
          exact congrArg IncidentGroup.anchorIncidentId (Option.some.inj (hgroup₀.symm.trans hgroup))
        · rw [hnone m₀ hm₀] at hg₀
          cases hg₀
  | none =>
      dsimp only
      have hnone : ∀ m ∈ members, db.storm m = none := by
        intro m hm
        cases hg : db.storm m with
        | none => rfl
        | some g =>
            have hmem := mem_groupsOf_iff.2 ⟨m, hm, hg⟩
            rw [oldestGroup_eq_none ho] at hmem
            cases hmem
      have hrow : ∀ m ∈ members, ∀ i, db.incidents.find? m = some i →
          (m, i) ∈ db.incidents.select fun k _ => members.contains k := fun m hm i hi =>
        Table.mem_select.2 ⟨hi, List.contains_iff_mem.2 hm⟩
      obtain ⟨m₀, hm₀⟩ := List.exists_mem_of_ne_nil members hne
      obtain ⟨i₀, hi₀⟩ := Option.isSome_iff_exists.1 (hknown m₀ hm₀)
      obtain ⟨⟨first, i⟩, hfirst⟩ := @firstBy_isSome (String × Incident) (fun a b =>
        decide (a.2.firstAlertAt < b.2.firstAlertAt ∨ a.2.firstAlertAt = b.2.firstAlertAt ∧ a.1 < b.1)) _
        (List.ne_nil_of_mem (hrow m₀ hm₀ i₀ hi₀))
      obtain ⟨hi, hmember⟩ := Table.mem_select.1 (firstBy_mem hfirst)
      have hmember : first ∈ members := List.contains_iff_mem.1 hmember
      have hle : ∀ m ∈ members, ∀ t', db.firstAlert m = some t' →
          toLex (i.firstAlertAt, first) ≤ toLex (t', m) := by
        intro m hm t' ht'
        obtain ⟨j, hj, rfl⟩ := Option.map_eq_some_iff.1 ht'
        refine @firstBy_le _ _ _ _ (fun r : String × Incident => toLex (r.2.firstAlertAt, r.1)) (fun a b => ?_) _ _
          hfirst _ (hrow m hm j hj)
        rw [decide_eq_true_eq, Prod.Lex.toLex_lt_toLex]
      have hat : db.firstAlert first = some i.firstAlertAt := by rw [Database.firstAlert, hi]; rfl
      rw [hfirst, Option.some.injEq]
      constructor
      · rintro rfl
        exact .first hnone hmember hat hle
      · rintro (⟨hm, hg, -, -, -⟩ | ⟨-, ha, hat', hfirst'⟩)
        · rw [hnone _ hm] at hg
          cases hg
        · have hage := le_antisymm (hle _ ha _ hat') (hfirst' _ hmember _ hat)
          exact congrArg (fun p => (ofLex p).2) hage

omit [Field K] [LinearOrder K] in
/-- It is told by the storms the members are in and their first alerts. -/
theorem KeepsCard.congr {db' : Database K} {a : String} (h : KeepsCard members db a)
    (hstorm : db'.storm = db.storm) (hgroups : db'.incidentGroups = db.incidentGroups)
    (hfirst : ∀ m ∈ members, db'.firstAlert m = db.firstAlert m) : KeepsCard members db' a := by
  rcases h with ⟨hm, hg, hgroup, hanchor, hold⟩ | ⟨hnone, ha, hat, hle⟩
  · refine .oldest hm (hstorm ▸ hg) (hgroups ▸ hgroup) hanchor fun m' hm' g' group' hg' hgroup' => ?_
    rw [hstorm] at hg'
    rw [hgroups] at hgroup'
    exact hold m' hm' g' group' hg' hgroup'
  · refine .first (hstorm ▸ hnone) ha ((hfirst _ ha).trans hat) fun m hm t' ht' => ?_
    rw [hfirst m hm] at ht'
    exact hle m hm t' ht'

/-! ## The assignment of a member -/

/-- A refresh counts the members. -/
theorem refreshGroup_total (g : String) :
    (refreshGroup now g db).1 = memberTotal (refreshGroup now g db).2 g := by
  have hcount : (refreshGroup now g db).1 = (groupMembers g db).length := by
    unfold refreshGroup
    split
    · next hnil => rw [hnil]; rfl
    · next hcons => rw [hcons]
  rw [hcount, length_groupMembers]
  refine memberTotal_congr fun y => ?_
  rw [refreshGroup_frame]
  rfl

omit [Field K] [LinearOrder K] in
/-- The storm of a member is read back as it is. -/
theorem readAssignment_eq_some {g : String} {n : ℕ} (created : Bool) (h : StormsBut none db)
    (hg : db.storm x = some g) (hn : n = memberTotal db g) (hx : NonAnchor db x) :
    1 < n ∧ ∃ a, readAssignment g n created db = some a ∧ a.isMultiMember = true ∧
      a.anchorIncidentId ≠ x := by
  obtain ⟨i, g', group, hi, hig, hgroup, hne⟩ := hx
  obtain rfl : g' = g := by
    rw [Database.storm, hi, Option.bind_some, hig] at hg
    exact Option.some.inj hg
  have htwo : 1 < n := hn ▸ (h.shape g' group hgroup).two
  exact ⟨htwo, ⟨g', group.anchorIncidentId, n, created⟩, by rw [readAssignment, hgroup]; rfl,
    decide_eq_true htwo, hne⟩

theorem refreshGroupForMember_assigned (h : StormsBut none (refreshGroupForMember now x db).2)
    (hx : NonAnchor (refreshGroupForMember now x db).2 x) :
    ∃ a, (refreshGroupForMember now x db).1 = some a ∧ a.isMultiMember = true ∧
      a.anchorIncidentId ≠ x := by
  unfold refreshGroupForMember at *
  cases hg : (db.incidents.find? x).bind (·.correlationGroupId) with
  | none =>
      rw [hg] at hx
      obtain ⟨i, g, group, hi, hig, -⟩ := hx
      rw [hi, Option.bind_some, hig] at hg
      cases hg
  | some g =>
      rw [hg] at h hx
      dsimp only at h hx ⊢
      split_ifs at h hx ⊢ with hempty hnone
      · -- no storm has the empty id
        obtain ⟨i, g', group, hi, hig, hgroup, -⟩ := hx
        rw [hi, Option.bind_some, hig, hempty] at hg
        obtain rfl := Option.some.inj hg
        rw [h.named] at hgroup
        cases hgroup
      · have hread := readAssignment_eq_some false h ((storm_refreshGroup g).trans hg)
          (refreshGroup_total g) hx
        omega
      · exact (readAssignment_eq_some false h ((storm_refreshGroup g).trans hg)
          (refreshGroup_total g) hx).2

/-- **A member that is not the anchor is told so**: what the redirection reads is its storm. -/
theorem regroup_assigned (hknown : (db.incidents.find? x).isSome = true)
    (h : StormsBut none (regroup freshId now x scopeKey db).2)
    (hx : NonAnchor (regroup freshId now x scopeKey db).2 x) :
    ∃ a, (regroup freshId now x scopeKey db).1 = some a ∧ a.isMultiMember = true ∧
      a.anchorIncidentId ≠ x := by
  unfold regroup at *
  cases hassign : assignGroup freshId now x scopeKey db with
  | mk assignment db₁ =>
      rw [hassign] at h hx
      cases assignment with
      | none => exact refreshGroupForMember_assigned h hx
      | some a =>
          dsimp only at h hx ⊢
          unfold assignGroup at hassign
          cases hn : strongNeighbours x scopeKey db with
          | nil =>
              rw [hn] at hassign
              cases hassign
          | cons neighbour neighbours =>
              rw [hn] at hassign
              dsimp only at hassign
              obtain ⟨hread, rfl⟩ := Prod.mk.inj hassign
              rw [← hread]
              refine (readAssignment_eq_some _ h ?_ (refreshGroup_total _) hx).2
              rw [storm_refreshGroup, storm_joinGroup, if_pos List.mem_cons_self]
              intro _
              rw [← Option.isSome_iff_exists, chooseGroup_known]
              exact hknown

end Anchors

/-! ## What waits -/

/-- A Slack row that waits for the incident, and is no notice. -/
structure OutboxRow.WaitsFor (r : OutboxRow) (y : String) : Prop where
  slack : r.channel = .slack
  pending : r.status = .pending
  card : r.payload.mergedInto = none
  about : r.incidentId = y

/-- A row of the queue waits for the incident. -/
def WaitsFor (q : Table ℕ OutboxRow) (y : String) : Prop :=
  ∃ k r, q.find? k = some r ∧ r.WaitsFor y

/-- **One card for a cascade**: the Slack rows that wait for a member of a storm of several, notices
aside, are addressed to its anchor. -/
def OneCardPerCascade (db : Database K) : Prop :=
  ∀ k r, db.outbox.find? k = some r → r.channel = .slack → r.status = .pending →
    r.payload.mergedInto = none → ∀ i g group, db.incidents.find? r.incidentId = some i →
      i.correlationGroupId = some g → db.incidentGroups.find? g = some group →
        1 < memberTotal db g → r.incidentId = group.anchorIncidentId

section Waits

variable {db : Database K} {q : Table ℕ OutboxRow} {x y anchor : String} {now : ℤ}

/-- A storm always has several members, so it is about those that are no anchors. -/
theorem oneCardPerCascade_iff_nonAnchor (h : StormsBut none db) :
    OneCardPerCascade db ↔ ∀ y, NonAnchor db y → ¬ WaitsFor db.outbox y := by
  constructor
  · rintro hone y ⟨i, g, group, hi, hig, hgroup, hne⟩ ⟨k, r, hr, hch, hp, hm, rfl⟩
    exact hne (hone k r hr hch hp hm i g group hi hig hgroup (h.shape g group hgroup).two).symm
  · intro hnone k r hr hch hp hm i g group hi hig hgroup _
    by_contra hne
    exact hnone r.incidentId ⟨i, g, group, hi, hig, hgroup, fun he => hne he.symm⟩
      ⟨k, r, hr, hch, hp, hm, rfl⟩

/-- The anchor of a storm is addressed by its own id. -/
theorem StormsBut.not_nonAnchor {stale : Option String} (h : StormsBut stale db)
    (ha : AnchorOf db x anchor) : ¬ NonAnchor db anchor := by
  obtain ⟨i, g, group, hi, hig, hgroup, rfl, -⟩ := ha
  obtain ⟨j, hj⟩ := Option.isSome_iff_exists.1 (h.shape g group hgroup).anchor
  obtain ⟨hj, hjg⟩ := member_eq_some.1 hj
  rintro ⟨j', g', group', hj', hjg', hgroup', hne⟩
  obtain rfl := Option.some.inj (hj.symm.trans hj')
  obtain rfl := Option.some.inj (hjg.symm.trans hjg')
  obtain rfl := Option.some.inj (hgroup.symm.trans hgroup')
  exact hne rfl

/-- Pushed rows wait beside those that waited. -/
theorem waitsFor_pushAll (rows : List OutboxRow) :
    WaitsFor (q.pushAll rows) y ↔ WaitsFor q y ∨ ∃ r ∈ rows, r.WaitsFor y := by
  constructor
  · rintro ⟨k, r, hr, hw⟩
    rcases Table.find?_pushAll hr with hr | ⟨-, hmem⟩
    · exact .inl ⟨k, r, hr, hw⟩
    · exact .inr ⟨r, hmem, hw⟩
  · rintro (⟨k, r, hr, hw⟩ | ⟨r, hmem, hw⟩)
    · exact ⟨k, r, Table.find?_pushAll_of_some hr, hw⟩
    · obtain ⟨k, -, hr⟩ := Table.exists_find?_pushAll (t := q) hmem
      exact ⟨k, r, hr, hw⟩

/-- A redirection takes what waits for the member to the anchor, and a notice waits for no one. -/
theorem waitsFor_redirectMemberDeliveries (hy : y ≠ anchor) :
    WaitsFor (redirectMemberDeliveries now x anchor db).outbox y ↔ y ≠ x ∧ WaitsFor db.outbox y := by
  have hupdate : WaitsFor (db.outbox.update fun _ r => if r.incidentId = x ∧ r.status = .pending then
      { r with incidentId := anchor, action := .update } else r) y ↔ y ≠ x ∧ WaitsFor db.outbox y := by
    constructor
    · rintro ⟨k, r', hr', hw⟩
      rw [Table.find?_update] at hr'
      obtain ⟨r, hr, rfl⟩ := Option.map_eq_some_iff.1 hr'
      by_cases hmoved : r.incidentId = x ∧ r.status = .pending
      · rw [if_pos hmoved] at hw
        exact absurd hw.about.symm hy
      · rw [if_neg hmoved] at hw
        exact ⟨fun he => hmoved ⟨hw.about.trans he, hw.pending⟩, k, r, hr, hw⟩
    · rintro ⟨hne, k, r, hr, hw⟩
      refine ⟨k, r, ?_, hw⟩
      rw [Table.find?_update, hr, Option.map_some, if_neg fun hc => hne (hw.about.symm.trans hc.1)]
  unfold redirectMemberDeliveries
  dsimp only
  split_ifs
  · refine (waitsFor_pushAll [mergedNotice now x anchor]).trans ((or_iff_left ?_).trans hupdate)
    rintro ⟨r, hr, hw⟩
    obtain rfl := List.mem_singleton.1 hr
    cases hw.card
  · exact hupdate

/-- The same of a redirection that a member which is no anchor is sure to get. -/
theorem waitsFor_redirectFor {a : Option GroupAssignment}
    (hx : y = x → ∃ b, a = some b ∧ b.isMultiMember = true ∧ b.anchorIncidentId ≠ x)
    (hy : ∀ b, a = some b → b.anchorIncidentId ≠ x → y ≠ b.anchorIncidentId) :
    WaitsFor (redirectFor now x a db).outbox y ↔ y ≠ x ∧ WaitsFor db.outbox y := by
  unfold redirectFor
  cases a with
  | none =>
      have hne : y ≠ x := by
        intro he
        obtain ⟨b, hb, -⟩ := hx he
        cases hb
      exact (and_iff_right hne).symm
  | some b =>
      dsimp only
      split_ifs with hb
      · exact waitsFor_redirectMemberDeliveries (hy b rfl hb.2)
      · have hne : y ≠ x := by
          intro he
          obtain ⟨b', hb', hmulti, hanchor⟩ := hx he
          obtain rfl := Option.some.inj hb'
          exact hb ⟨hmulti, hanchor⟩
        exact (and_iff_right hne).symm

/-- The rows of a decision wait for its incident. -/
theorem waitsFor_persisted {rt : Runtime K} {d : EngineDecision} (hy : y ≠ d.incidentId) :
    WaitsFor (persisted rt now d db).outbox y ↔ WaitsFor db.outbox y := by
  rw [persisted_outbox, waitsFor_pushAll]
  refine or_iff_left ?_
  rintro ⟨r, hr, hw⟩
  obtain ⟨intent, -, rfl⟩ := List.mem_map.1 hr
  exact hy hw.about.symm

end Waits

/-! ## An ingest -/

variable [Field K] [LinearOrder K] {rt : Runtime K} {db db' : Database K}

/-- Whose card the deliveries for another incident belong on once the decision is persisted, its
incident is observed, and the storms are formed: the anchor of its storm, where it has one. -/
def cardAfter (rt : Runtime K) (now : ℤ) (d : EngineDecision) (db : Database K) (y : String) :
    Option String :=
  if d.isCriticalBypass then anchorIn db y
  else
    let written := persisted rt now d db
    match observeIncident rt d.incidentId (correlationNeighbourhood rt now d.scopeKey written) written with
    | .ok observed => cardAnchor d.incidentId d.scopeKey observed y
    | .error _ => anchorIn db y

/-- **Whose card the deliveries for an incident belong on**, read off the stored edges and storms: an
alert groups its incident with its ties and all who share a storm with one of them, and the
others stay with the anchor they have. -/
def BelongsOn (rt : Runtime K) (now : ℤ) (d : EngineDecision) (db : Database K) (y a : String) : Prop :=
  if ties rt now d db ≠ [] ∧ joins (d.incidentId :: ties rt now d db) db y = true then
    KeepsCard (d.incidentId :: ties rt now d db) db a
  else anchorIn db y = some a

/-- **The anchor after an alert** is told by what is stored before it. -/
theorem cardAfter_eq_some [IsStrictOrderedRing K] {freshId freshGroupId : String} {now : ℤ}
    {event : NormalizedEvent} {d : EngineDecision}
    (hfresh : (Request.ingest freshId freshGroupId now event).fresh db = true)
    (h : ingestEvent rt freshId freshGroupId now event db = .ok (d, db')) (hs : StormsBut none db)
    (hj : EdgesJoin db) {y a : String} :
    cardAfter rt now d db y = some a ↔ BelongsOn rt now d db y a := by
  have hfits := EngineDecision.fits_of_ingest hfresh h
  obtain ⟨-, db₁, hpersist, hrest⟩ := ingestEvent_parts h
  obtain ⟨-, rfl⟩ := persistDecision_ok.1 hpersist
  unfold cardAfter BelongsOn
  rcases hrest with ⟨hb, -⟩ | ⟨hb, db₂, hobs, -⟩
  · have hties : ties rt now d db = [] := by
      unfold ties
      exact if_pos hb
    rw [if_pos hb, if_neg fun hc => hc.1 hties]
  have hframe := observeIncident_frame hobs
  have hincidents : db₂.incidents = (persisted rt now d db).incidents := by rw [hframe]
  have hgroups : db₂.incidentGroups = db.incidentGroups := by rw [hframe]; rfl
  have hstorm : db₂.storm = db.storm := (storm_congr hincidents).trans storm_persisted
  have hanchor : anchorIn db₂ y = anchorIn db y := by rw [anchorIn, hstorm, hgroups, anchorIn]
  rw [if_neg (by simp [hb])]
  dsimp only
  rw [hobs]
  dsimp only
  unfold cardAnchor
  rw [strongNeighbours_observed hb hfits hobs]
  cases hties : ties rt now d db with
  | nil => rw [if_neg fun hc => hc.1 rfl, hanchor]
  | cons tie rest =>
      dsimp only
      have hmem : tie ∈ ties rt now d db := hties ▸ List.mem_cons_self
      have hknown : ∀ m ∈ d.incidentId :: tie :: rest, Known db m := by
        intro m hm
        rcases List.mem_cons.1 hm with rfl | hm
        · exact hj.known_of_ties hmem
        · exact known_of_mem_ties (hties ▸ hm)
      -- a decision leaves every first alert
      have hfirst : ∀ m ∈ d.incidentId :: tie :: rest, db₂.firstAlert m = db.firstAlert m := by
        intro m hm
        rw [Database.firstAlert, hincidents, find?_persisted]
        split_ifs with hself
        · obtain ⟨i, hi⟩ := Option.isSome_iff_exists.1 (hknown m hm)
          rw [← hself, Database.firstAlert, hi]
          exact congrArg some (persistedIncident_firstAlertAt i)
        · rfl
      have hjoins : joins (d.incidentId :: tie :: rest) db₂ y = joins (d.incidentId :: tie :: rest) db y := by
        rw [Bool.eq_iff_iff, joins_eq_true, joins_eq_true]
        simp only [mem_groupsOf_iff, hstorm]
      rw [hjoins]
      by_cases hjoin : joins (d.incidentId :: tie :: rest) db y = true
      · rw [if_pos hjoin, if_pos ⟨List.cons_ne_nil _ _, hjoin⟩]
        have hs₂ : StormsBut (persistedIncident now d (db.incidents.find? d.incidentId)).correlationGroupId db₂ :=
          (persisted_storms hs (.inl persistedIncident_correlationGroupId)).congr_tables hincidents hgroups
        rw [stormAnchor_eq_some hs₂ (List.cons_ne_nil _ _)]
        · constructor
          · exact fun hkeeps => hkeeps.congr hstorm.symm hgroups.symm fun m hm => (hfirst m hm).symm
          · exact fun hkeeps => hkeeps.congr hstorm hgroups hfirst
        · intro m hm
          have hsome : (db₂.firstAlert m).isSome = true := by
            rw [hfirst m hm, Database.firstAlert, Option.isSome_map]
            exact hknown m hm
          rwa [Database.firstAlert, Option.isSome_map] at hsome
      · rw [if_neg hjoin, if_neg fun hc => hjoin hc.2, hanchor]

/-- What an ingest that commits leaves of the storms and of the queue. -/
theorem ingestEvent_cascade {freshId freshGroupId : String} {now : ℤ} {event : NormalizedEvent}
    {d : EngineDecision} (hfresh : (Request.ingest freshId freshGroupId now event).fresh db = true)
    (h : ingestEvent rt freshId freshGroupId now event db = .ok (d, db')) (hs : StormsBut none db)
    {y : String} :
    (y ≠ d.incidentId → anchorIn db' y = cardAfter rt now d db y) ∧
      (NonAnchor db' y → (WaitsFor db'.outbox y ↔ y ≠ d.incidentId ∧ WaitsFor db.outbox y)) := by
  have hs' := ingestEvent_storms hfresh h hs
  obtain ⟨hd, db₁, hpersist, hrest⟩ := ingestEvent_parts h
  have hcases := (ingest_cases hfresh h).2
  simp only [Request.fresh, Bool.and_eq_true, Option.isNone_iff_eq_none, decide_eq_true_eq] at hfresh
  obtain ⟨⟨⟨hid, hgroup⟩, hne⟩, -⟩ := hfresh
  obtain ⟨-, rfl⟩ := persistDecision_ok.1 hpersist
  have hother : ∀ z, z ≠ d.incidentId → anchorIn (persisted rt now d db) z = anchorIn db z := by
    intro z hz
    unfold anchorIn Database.storm
    rw [find?_persisted_of_ne hz, persisted_incidentGroups]
  unfold cardAfter
  rcases hrest with ⟨hb, rfl⟩ | ⟨hb, db₂, hobs, rfl⟩
  · -- a bypass always opens an incident, which no storm has as a member
    have hunknown : db.incidents.find? d.incidentId = none := by
      rcases hcases with ho | ⟨i, hc⟩
      · exact Option.map_eq_none_iff.1 ho.unknown
      · exact absurd hb (by simp [hc.not_bypass])
    rw [if_pos hb]
    refine ⟨hother y, fun hy => ?_⟩
    have hyne : y ≠ d.incidentId := by
      rintro rfl
      obtain ⟨i, g, group, hi, hig, -⟩ := hy
      rw [find?_persisted_self] at hi
      obtain rfl := Option.some.inj hi
      rw [persistedIncident_correlationGroupId, hunknown] at hig
      cases hig
    rw [waitsFor_persisted hyne]
    exact (and_iff_right hyne).symm
  · have hframe := observeIncident_frame hobs
    have hincidents : db₂.incidents = (persisted rt now d db).incidents := by rw [hframe]
    have hgroups : db₂.incidentGroups = (persisted rt now d db).incidentGroups := by rw [hframe]
    have hoff : ¬ d.isCriticalBypass = true := by rw [hb]; exact Bool.false_ne_true
    have hfind : db₂.incidents.find? d.incidentId =
        some (persistedIncident now d (db.incidents.find? d.incidentId)) := by
      rw [hincidents]
      exact find?_persisted_self
    have hknown : (db₂.incidents.find? d.incidentId).isSome = true := by rw [hfind]; rfl
    have hs₂ : StormsBut (persistedIncident now d (db.incidents.find? d.incidentId)).correlationGroupId db₂ :=
      (persisted_storms hs (.inl persistedIncident_correlationGroupId)).congr_tables hincidents hgroups
    have hgroup₂ : db₂.incidentGroups.find? freshGroupId = none := by
      rw [hgroups]
      exact hgroup
    rw [if_neg hoff]
    dsimp only
    rw [hobs]
    generalize hregroup : regroup freshGroupId now d.incidentId d.scopeKey db₂ = regrouped at hs' ⊢
    have hanchor : ∀ z, anchorIn regrouped.2 z = cardAnchor d.incidentId d.scopeKey db₂ z := fun z =>
      hregroup ▸ anchorIn_regroup hs₂ hgroup₂ hknown
    have houtbox : regrouped.2.outbox = (persisted rt now d db).outbox := by
      rw [← hregroup, regroup_outbox, hframe]
    have hsame : ∀ z, anchorIn (redirectFor now d.incidentId regrouped.1 regrouped.2) z =
        anchorIn regrouped.2 z := by
      intro z
      rw [redirectFor_frame]
      rfl
    refine ⟨fun _ => (hsame y).trans (hanchor y), fun hy => ?_⟩
    have hs₃ : StormsBut none regrouped.2 :=
      hs'.congr_tables (by rw [redirectFor_frame]) (by rw [redirectFor_frame])
    have hy : NonAnchor regrouped.2 y := by
      rw [nonAnchor_iff] at hy ⊢
      simpa only [hsame] using hy
    have hredirect : WaitsFor (redirectFor now d.incidentId regrouped.1 regrouped.2).outbox y ↔
        y ≠ d.incidentId ∧ WaitsFor regrouped.2.outbox y := by
      refine waitsFor_redirectFor ?_ ?_
      · rintro rfl
        subst hregroup
        exact regroup_assigned hknown hs₃ hy
      · rintro b hb hne rfl
        subst hregroup
        exact hs₃.not_nonAnchor (regroup_anchor hfind hb hne) hy
    rw [hredirect, houtbox]
    exact and_congr_right waitsFor_persisted

/-- **After an ingest a cascade has one card** exactly when no row of another incident waits that
belongs on the card of an anchor. -/
theorem ingestEvent_oneCard [IsStrictOrderedRing K] {freshId freshGroupId : String} {now : ℤ}
    {event : NormalizedEvent} {d : EngineDecision}
    (hfresh : (Request.ingest freshId freshGroupId now event).fresh db = true)
    (h : ingestEvent rt freshId freshGroupId now event db = .ok (d, db')) (hs : StormsBut none db)
    (hj : EdgesJoin db) :
    OneCardPerCascade db' ↔ ∀ y a, y ≠ d.incidentId → WaitsFor db.outbox y →
      BelongsOn rt now d db y a → a = y := by
  have hcascade := fun y => ingestEvent_cascade hfresh h hs (y := y)
  have hcard := fun y a => cardAfter_eq_some hfresh h hs hj (y := y) (a := a)
  rw [oneCardPerCascade_iff_nonAnchor (ingestEvent_storms hfresh h hs)]
  constructor
  · intro hone y a hne hw ha
    by_contra hay
    have hnon : NonAnchor db' y := nonAnchor_iff.2 ⟨a, ((hcascade y).1 hne).trans ((hcard y a).2 ha), hay⟩
    exact hone y hnon (((hcascade y).2 hnon).2 ⟨hne, hw⟩)
  · intro hspared y hnon hw
    obtain ⟨hne, hw⟩ := ((hcascade y).2 hnon).1 hw
    obtain ⟨a, ha, hay⟩ := nonAnchor_iff.1 hnon
    exact hay (hspared y a hne hw ((hcard y a).1 (((hcascade y).1 hne).symm.trans ha)))

/-! ## Every run -/

/-- The turn is an ingest that commits. -/
def commitsIngest (rt : Runtime K) (t : Transition (Deployment K) Turn) : Bool :=
  match t.label with
  | .request (.ingest freshId freshGroupId now event) =>
      (ingestEvent rt freshId freshGroupId now event t.source.db).isOk
  | _ => false

/-- **The ingest spares the members**: no Slack row of another incident waits before it that belongs, by
the stored edges and storms, on the card of an anchor. -/
def SparesMembers (rt : Runtime K) (t : Transition (Deployment K) Turn) : Prop :=
  ∀ freshId freshGroupId now event d, t.label = .request (.ingest freshId freshGroupId now event) →
    processEvent rt freshId now event t.source.db = .ok d →
      ∀ y a, y ≠ d.incidentId → WaitsFor t.source.db.outbox y → BelongsOn rt now d t.source.db y a → a = y

/-- What a committed ingest leaves is decided by what it finds. -/
theorem commitsIngest_oneCard [IsStrictOrderedRing K] {t : Transition (Deployment K) Turn}
    (hc : commitsIngest rt t = true) (hnext : deploymentNext rt t.source t.label = some t.target)
    (hs : StormsBut none t.source.db) (hj : EdgesJoin t.source.db) :
    OneCardPerCascade t.target.db ↔ SparesMembers rt t := by
  obtain ⟨source, label, target⟩ := t
  unfold commitsIngest at hc
  dsimp only at hc hnext hs hj ⊢
  split at hc
  swap
  · cases hc
  · next freshId freshGroupId now event =>
      have hengine := (deploymentNext_request hnext).1
      unfold engineNext at hengine
      split_ifs at hengine with hfresh
      have hserve := Option.some.inj hengine
      cases hok : ingestEvent rt freshId freshGroupId now event source.db with
      | error e =>
          rw [hok] at hc
          cases hc
      | ok result =>
          obtain ⟨d, db'⟩ := result
          rw [serve, hok] at hserve
          obtain rfl : db' = target.db := hserve
          rw [ingestEvent_oneCard hfresh hok hs hj]
          have hd := (ingestEvent_parts hok).1
          constructor
          · intro hspared _ _ _ _ d' hlabel hd'
            cases hlabel
            obtain rfl := Except.ok.inj (hd.symm.trans hd')
            exact hspared
          · intro hspared
            exact hspared freshId freshGroupId now event d rfl hd

/-- **One card for a cascade** after every ingest of a run, exactly when every ingest spares the
members. -/
theorem oneCardPerCascade_iff [IsStrictOrderedRing K] {h : List (Transition (Deployment K) Turn)}
    {s : Deployment K} (r : DeploymentRun rt h s) :
    (∀ t ∈ h, commitsIngest rt t = true → OneCardPerCascade t.target.db) ↔
      ∀ t ∈ h, commitsIngest rt t = true → SparesMembers rt t := by
  refine forall₂_congr fun t ht => forall_congr' fun hc => ?_
  obtain ⟨g, rg, hnext⟩ := Run.source_run r ht
  have rg : DeploymentRun rt g t.source := rg
  exact commitsIngest_oneCard hc hnext rg.storms rg.edgesJoin

/-- Every Slack row that waits, notices aside, is for an incident that is no plain member. -/
def anchorsOnly (db : Database K) : Bool :=
  db.outbox.rows.all fun r => !(r.2.channel = .slack && r.2.status = .pending && r.2.payload.mergedInto = none) ||
    (anchorIn db r.2.incidentId).all fun a => a = r.2.incidentId

omit [Field K] [LinearOrder K] in
theorem oneCardPerCascade_of_anchorsOnly (h : anchorsOnly db = true) (hs : StormsBut none db) :
    OneCardPerCascade db := by
  rw [oneCardPerCascade_iff_nonAnchor hs]
  rintro y hnon ⟨k, r, hr, hch, hp, hm, rfl⟩
  obtain ⟨a, ha, hne⟩ := nonAnchor_iff.1 hnon
  have hrow := List.all_eq_true.1 h (k, r) (Table.find?_eq_some_iff.1 hr)
  simp [hch, hp, hm, ha, hne] at hrow

/-- Two services alert together, twice: the second time the later one does.  Its card is moved, and both
the property and the condition hold of every ingest. -/
theorem oneCardPerCascade_iff_twoServices : ∃ h s, DeploymentRun Runtime.reference h s ∧
    s.db.outbox.rows.map (fun r => (r.1, r.2.incidentId)) = [(1, "A"), (2, "A"), (3, "A")] ∧
    anchorIn s.db "B" = some "A" ∧
    (∀ t ∈ h, commitsIngest Runtime.reference t = true → OneCardPerCascade t.target.db) ∧
      ∀ t ∈ h, commitsIngest Runtime.reference t = true → SparesMembers Runtime.reference t := by
  have hreplay : (Library.replay (deploymentNext Runtime.reference) (stormRequests.map .request)
      ([], Deployment.initial)).map (fun s => (s.2.db.outbox.rows.map fun r => (r.1, r.2.incidentId),
        anchorIn s.2.db "B", s.1.all fun t => anchorsOnly t.target.db)) =
      some ([(1, "A"), (2, "A"), (3, "A")], some "A", true) := by decide +kernel
  obtain ⟨h, s, r, heq⟩ := DeploymentRun.of_replay hreplay
  simp only [Prod.mk.injEq] at heq
  obtain ⟨hrows, hanchor, hall⟩ := heq
  have hone : ∀ t ∈ h, commitsIngest Runtime.reference t = true → OneCardPerCascade t.target.db := by
    intro t ht _
    obtain ⟨g, rg, hnext⟩ := Run.source_run r ht
    have rtarget : DeploymentRun Runtime.reference (⟨t.source, t.label, t.target⟩ :: g) t.target :=
      Run.next rg hnext
    exact oneCardPerCascade_of_anchorsOnly (List.all_eq_true.1 hall t ht) rtarget.storms
  exact ⟨h, s, r, hrows, hanchor, hone, (oneCardPerCascade_iff r).1 hone⟩

/-- Two services alert together, and the first of them twice more. -/
def anchorRequests : List Request :=
  [.ingest "A" "unused" 1000 (alertOf "disk" "1"), .ingest "B" "unused" 1000 (alertOf "api" "2"),
    .ingest "C" "unused" 1000 (alertOf "disk" "3"), .ingest "C" "storm" 1000 (alertOf "disk" "4")]

/-- **A member keeps its card**: the anchor's alert forms the storm, and row 2 waits for `B`. -/
theorem not_oneCardPerCascade : ¬ ∀ h s, DeploymentRun Runtime.reference h s →
    ∀ t ∈ h, commitsIngest Runtime.reference t = true → OneCardPerCascade t.target.db := by
  have hreplay : (Library.replay (deploymentNext Runtime.reference) (anchorRequests.map .request)
      ([], Deployment.initial)).map (fun s => (s.1.head?.map (commitsIngest Runtime.reference),
        anchorIn s.2.db "B", (s.2.db.outbox.find? 2).map fun r => decide (r.channel = .slack ∧
          r.status = .pending ∧ r.payload.mergedInto = none ∧ r.incidentId = "B"))) =
      some (some true, some "A", some true) := by decide +kernel
  obtain ⟨h, s, r, heq⟩ := DeploymentRun.of_replay hreplay
  simp only [Prod.mk.injEq] at heq
  obtain ⟨hc, hanchor, hrow⟩ := heq
  obtain ⟨row, hrow, hfields⟩ := Option.map_eq_some_iff.1 hrow
  obtain ⟨hch, hp, hm, hid⟩ := of_decide_eq_true hfields
  have hstorms := r.storms
  intro hall
  cases r with
  | start _ => cases hc
  | next r hnext =>
      have hone := hall _ s (r.next hnext) _ List.mem_cons_self (Option.some.inj hc)
      exact (oneCardPerCascade_iff_nonAnchor hstorms).1 hone "B"
        (nonAnchor_iff.2 ⟨"A", hanchor, by decide⟩) ⟨2, row, hrow, hch, hp, hm, hid⟩

end PulseGraph
