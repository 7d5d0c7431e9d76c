/-
# What holds of every storm

A storm's *shape* (at least two members, the anchor among them, one scope) is
kept by every write.  Its *derived facts* (member count, root, severity, status)
are recomputed by `_refresh_group`, and a write to a member makes those of its own
storm stale: `StormsBut stale db` says that every storm of `db` is in shape and
that the facts of every storm but `stale` are right.  A refresh of the stale storm
restores all of them (`refreshGroup_storms`), and so does a grouping, which puts
the incident with its neighbours into the oldest of their storms and removes the
others (`assignGroup_storms`).
-/

import PulseGraph.Graph.StormGrouping
import Mathlib.Data.List.Dedup

namespace PulseGraph

open Library (Table)

variable {K : Type}

/-- An incident, as a member of a storm. -/
def Database.member (db : Database K) (g x : String) : Option Incident :=
  (db.incidents.find? x).filter fun i => i.correlationGroupId = some g

theorem member_eq_some {db : Database K} {g x : String} {i : Incident} :
    db.member g x = some i ↔ db.incidents.find? x = some i ∧ i.correlationGroupId = some g := by
  rw [Database.member, Option.filter_eq_some_iff, decide_eq_true_eq]

/-- The number of members of a storm. -/
def memberTotal (db : Database K) (g : String) : ℕ :=
  db.incidents.count fun _ i => i.correlationGroupId = some g

/-- The shape of a storm. -/
structure GroupShape (db : Database K) (g : String) (group : IncidentGroup) : Prop where
  two : 2 ≤ memberTotal db g
  anchor : (db.member g group.anchorIncidentId).isSome = true
  scope : ∀ x i, db.member g x = some i → i.scopeKey = group.scopeKey

/-- The derived facts of a storm. -/
structure GroupFacts (db : Database K) (g : String) (group : IncidentGroup) : Prop where
  count : group.memberCount = memberTotal db g
  root : ∃ root, group.rootIncidentId = some root ∧ (db.member g root).isSome = true
  severity_mem : ∃ x i, db.member g x = some i ∧ i.severity = group.severity
  severity_le : ∀ x i, db.member g x = some i → severityRank group.severity ≤ severityRank i.severity
  status : group.status = .OPEN ↔ ∃ x i, db.member g x = some i ∧ i.status ≠ .RESOLVED

/-- Every storm is in shape, and the derived facts of every storm but `stale` are right. -/
structure StormsBut (stale : Option String) (db : Database K) : Prop where
  known : ∀ g x i, db.member g x = some i → ∃ group, db.incidentGroups.find? g = some group
  shape : ∀ g group, db.incidentGroups.find? g = some group → GroupShape db g group
  facts : ∀ g group, db.incidentGroups.find? g = some group → stale ≠ some g → GroupFacts db g group
  named : db.incidentGroups.find? "" = none

section Frame

variable {db db' : Database K} {g : String} {group : IncidentGroup}

theorem StormsBut.weaken (h : StormsBut none db) (stale : Option String) : StormsBut stale db :=
  ⟨h.known, h.shape, fun g group hg _ => h.facts g group hg (by simp), h.named⟩

theorem memberTotal_congr (h : ∀ x, (db'.member g x).isSome = (db.member g x).isSome) :
    memberTotal db' g = memberTotal db g := by
  have hle : ∀ {a b : Database K}, (∀ x, (b.member g x).isSome = (a.member g x).isSome) →
      memberTotal a g ≤ memberTotal b g := by
    intro a b hab
    refine Table.count_le fun x i hi hg => ?_
    have ha : a.member g x = some i := member_eq_some.2 ⟨hi, of_decide_eq_true hg⟩
    have hb := hab x
    rw [ha, Option.isSome_some] at hb
    obtain ⟨j, hj⟩ := Option.isSome_iff_exists.1 hb
    obtain ⟨hj, hjg⟩ := member_eq_some.1 hj
    exact ⟨j, hj, decide_eq_true hjg⟩
  exact le_antisymm (hle fun x => (h x).symm) (hle h)

theorem isSome_of_map_eq {α β : Type} {f : α → β} {a b : Option α} (h : a.map f = b.map f) :
    a.isSome = b.isSome := by
  rw [← Option.isSome_map (f := f), h, Option.isSome_map]

/-- A storm's shape reads the scopes of its members alone. -/
theorem GroupShape.congr (hs : GroupShape db g group)
    (h : ∀ x, (db'.member g x).map (·.scopeKey) = (db.member g x).map (·.scopeKey)) :
    GroupShape db' g group := by
  refine ⟨?_, ?_, fun x i hi => ?_⟩
  · rw [memberTotal_congr fun x => isSome_of_map_eq (h x)]
    exact hs.two
  · rw [isSome_of_map_eq (h _)]
    exact hs.anchor
  · have hx := h x
    rw [hi, Option.map_some, eq_comm] at hx
    obtain ⟨j, hj, hscope⟩ := Option.map_eq_some_iff.1 hx
    exact hscope.symm.trans (hs.scope x j hj)

/-- Its derived facts read their severity and whether they are active. -/
theorem GroupFacts.congr (hf : GroupFacts db g group)
    (h : ∀ x, (db'.member g x).map (fun i => (i.severity, i.status.active)) =
      (db.member g x).map fun i => (i.severity, i.status.active)) : GroupFacts db' g group := by
  have hmem : ∀ {a b : Database K}, (∀ x, (b.member g x).map (fun i => (i.severity, i.status.active)) =
      (a.member g x).map fun i => (i.severity, i.status.active)) → ∀ {x i}, a.member g x = some i →
      ∃ j, b.member g x = some j ∧ j.severity = i.severity ∧ j.status.active = i.status.active := by
    intro a b hab x i hi
    have hx := hab x
    rw [hi, Option.map_some] at hx
    obtain ⟨j, hj, heq⟩ := Option.map_eq_some_iff.1 hx
    obtain ⟨hsev, hact⟩ := Prod.mk.inj heq
    exact ⟨j, hj, hsev, hact⟩
  have hforth := fun {x i} => @hmem db db' h x i
  have hback := fun {x i} => @hmem db' db (fun x => (h x).symm) x i
  have hactive : ∀ {s : IncidentState}, s ≠ .RESOLVED ↔ s.active = true := fun {s} =>
    (IncidentState.active_eq_true).symm
  refine ⟨?_, ?_, ?_, fun x i hi => ?_, hf.status.trans ⟨?_, ?_⟩⟩
  · rw [memberTotal_congr fun x => isSome_of_map_eq (h x)]
    exact hf.count
  · obtain ⟨root, hr, hm⟩ := hf.root
    exact ⟨root, hr, by rw [isSome_of_map_eq (h root)]; exact hm⟩
  · obtain ⟨x, i, hi, hsev⟩ := hf.severity_mem
    obtain ⟨j, hj, hjs, -⟩ := hforth hi
    exact ⟨x, j, hj, hjs.trans hsev⟩
  · obtain ⟨j, hj, hjs, -⟩ := hback hi
    rw [← hjs]
    exact hf.severity_le x j hj
  · rintro ⟨x, i, hi, ha⟩
    obtain ⟨j, hj, -, hja⟩ := hforth hi
    exact ⟨x, j, hj, hactive.2 (hja.trans (hactive.1 ha))⟩
  · rintro ⟨x, i, hi, ha⟩
    obtain ⟨j, hj, -, hja⟩ := hback hi
    exact ⟨x, j, hj, hactive.2 (hja.trans (hactive.1 ha))⟩

/-- **Writes to incidents keep the storms** when they keep every membership and scope,
and the severity and activity of the members of every storm but the stale one. -/
theorem StormsBut.congr {stale stale' : Option String} (h : StormsBut stale db)
    (hgroups : db'.incidentGroups = db.incidentGroups)
    (hstale : ∀ g, stale' ≠ some g → stale ≠ some g)
    (hscope : ∀ g x, (db'.member g x).map (·.scopeKey) = (db.member g x).map (·.scopeKey))
    (hfacts : ∀ g x, stale' ≠ some g → (db'.member g x).map (fun i => (i.severity, i.status.active)) =
      (db.member g x).map fun i => (i.severity, i.status.active)) : StormsBut stale' db' := by
  refine ⟨fun g x i hi => ?_, fun g group hg => ?_, fun g group hg hne => ?_, ?_⟩
  · have hsome := isSome_of_map_eq (hscope g x)
    rw [hi, Option.isSome_some, eq_comm] at hsome
    obtain ⟨j, hj⟩ := Option.isSome_iff_exists.1 hsome
    rw [hgroups]
    exact h.known g x j hj
  · exact (h.shape g group (hgroups ▸ hg)).congr (hscope g)
  · exact (h.facts g group (hgroups ▸ hg) (hstale g hne)).congr fun x => hfacts g x hne
  · rw [hgroups]
    exact h.named

/-- The storms read the incidents and the groups alone. -/
theorem StormsBut.congr_tables {stale : Option String} (h : StormsBut stale db)
    (hincidents : db'.incidents = db.incidents) (hgroups : db'.incidentGroups = db.incidentGroups) :
    StormsBut stale db' := by
  have hmember : ∀ g x, db'.member g x = db.member g x := by
    intro g x
    rw [Database.member, hincidents, Database.member]
  exact h.congr hgroups (fun _ => id) (fun g x => by rw [hmember]) fun g x _ => by rw [hmember]

/-- A write to one incident that keeps its storm and scope makes that storm stale at
most, and none where it keeps the severity and whether the incident is active. -/
theorem StormsBut.write {x : String} {i' : Incident} {stale : Option String}
    (h : StormsBut none db) (hgroups : db'.incidentGroups = db.incidentGroups)
    (hx : db'.incidents.find? x = some i')
    (hne : ∀ y, y ≠ x → db'.incidents.find? y = db.incidents.find? y)
    (hgroup : i'.correlationGroupId = (db.incidents.find? x).bind (·.correlationGroupId))
    (hscope : ∀ i, db.incidents.find? x = some i → i'.scopeKey = i.scopeKey)
    (hstale : stale = i'.correlationGroupId ∨ ∀ i, db.incidents.find? x = some i →
      i'.severity = i.severity ∧ i'.status.active = i.status.active) : StormsBut stale db' := by
  have hother : ∀ g y, y ≠ x → db'.member g y = db.member g y := by
    intro g y hy
    rw [Database.member, hne y hy, Database.member]
  -- the written row is in the storm the old one was in
  have hself : ∀ g, db'.member g x = none ∧ db.member g x = none ∨
      i'.correlationGroupId = some g ∧ ∃ i, db.incidents.find? x = some i ∧
        db'.member g x = some i' ∧ db.member g x = some i := by
    intro g
    cases hi : db.incidents.find? x with
    | none =>
        rw [hi, Option.bind_none] at hgroup
        refine .inl ⟨?_, ?_⟩
        · rw [Database.member, hx, Option.filter_some, hgroup]; simp
        · rw [Database.member, hi]; rfl
    | some i =>
        rw [hi, Option.bind_some] at hgroup
        by_cases hg : i'.correlationGroupId = some g
        · exact .inr ⟨hg, i, rfl, member_eq_some.2 ⟨hx, hg⟩, member_eq_some.2 ⟨hi, hgroup.symm.trans hg⟩⟩
        · refine .inl ⟨?_, ?_⟩
          · rw [Database.member, hx, Option.filter_some, if_neg (by simpa using hg)]
          · rw [Database.member, hi, Option.filter_some, if_neg (by simpa [← hgroup] using hg)]
  refine h.congr hgroups (fun g _ => by simp) (fun g y => ?_) (fun g y hs => ?_)
  · by_cases hy : y = x
    · subst hy
      rcases hself g with ⟨ha, hb⟩ | ⟨-, i, hi, ha, hb⟩
      · rw [ha, hb]
      · rw [ha, hb, Option.map_some, Option.map_some, hscope i hi]
    · rw [hother g y hy]
  · by_cases hy : y = x
    · subst hy
      rcases hself g with ⟨ha, hb⟩ | ⟨hg, i, hi, ha, hb⟩
      · rw [ha, hb]
      · rcases hstale with rfl | hsame
        · exact absurd hg hs
        · rw [ha, hb, Option.map_some, Option.map_some, (hsame i hi).1, (hsame i hi).2]
    · rw [hother g y hy]

end Frame

/-! ## Refreshing a storm -/

section Refresh

variable [Field K] [LinearOrder K] {db : Database K} {g : String}

omit [Field K] [LinearOrder K] in
theorem mem_groupMembers {x : String} {i : Incident} :
    (x, i) ∈ groupMembers g db ↔ db.member g x = some i := by
  rw [groupMembers, List.mem_insertionSort, Table.mem_select, member_eq_some, decide_eq_true_eq]

omit [Field K] [LinearOrder K] in
theorem length_groupMembers : (groupMembers g db).length = memberTotal db g := by
  rw [groupMembers, List.length_insertionSort, memberTotal, Table.count, List.countP_eq_length_filter]
  rfl

theorem firstBy_isSome {α : Type} {before : α → α → Bool} {xs : List α} (h : xs ≠ []) :
    ∃ x, firstBy before xs = some x :=
  Option.ne_none_iff_exists'.1 fun hn => h (firstBy_eq_none.1 hn)

/-- The root is one of the members it was ranked among. -/
theorem rankGroupRoot_mem {ids : List String} (h : ids ≠ []) :
    ∃ root, rankGroupRoot ids db = some root ∧ root ∈ ids := by
  unfold rankGroupRoot
  dsimp only
  split
  · next row hrow =>
      refine ⟨_, rfl, ?_⟩
      obtain ⟨s, hs, rfl⟩ := List.mem_map.1 (firstBy_mem hrow)
      obtain ⟨r, hr, rfl⟩ := List.mem_map.1 (List.mem_dedup.1 hs)
      have hsel := (Table.mem_select.1 hr).2
      simp only [Bool.and_eq_true, List.contains_iff_mem] at hsel
      exact hsel.1
  · obtain ⟨x, xs, rfl⟩ := List.exists_cons_of_ne_nil h
    exact ⟨x, rfl, List.mem_cons_self⟩

omit [Field K] [LinearOrder K] in
theorem mostUrgent_cons (first x : Severity) (rest : List Severity) :
    mostUrgent first (x :: rest) =
      mostUrgent (if severityRank x < severityRank first then x else first) rest := rfl

omit [Field K] [LinearOrder K] in
theorem mostUrgent_mem (first : Severity) (rest : List Severity) :
    mostUrgent first rest ∈ first :: rest := by
  induction rest generalizing first with
  | nil => exact List.mem_cons_self
  | cons x xs ih =>
      rw [mostUrgent_cons]
      by_cases hx : severityRank x < severityRank first
      · rw [if_pos hx]
        exact List.mem_cons_of_mem _ (ih x)
      · rw [if_neg hx]
        rcases List.mem_cons.1 (ih first) with h | h
        · rw [h]
          exact List.mem_cons_self
        · exact List.mem_cons_of_mem _ (List.mem_cons_of_mem _ h)

omit [Field K] [LinearOrder K] in
theorem mostUrgent_le (first : Severity) (rest : List Severity) :
    ∀ s ∈ first :: rest, severityRank (mostUrgent first rest) ≤ severityRank s := by
  induction rest generalizing first with
  | nil =>
      intro s hs
      rw [List.mem_singleton.1 hs]
      exact le_rfl
  | cons x xs ih =>
      intro s hs
      rw [mostUrgent_cons]
      -- the accumulator is at most as urgent as both rows it was chosen from
      have hacc : ∀ t ∈ [first, x], severityRank
          (if severityRank x < severityRank first then x else first) ≤ severityRank t := by
        intro t ht
        by_cases hx : severityRank x < severityRank first
        · rw [if_pos hx]
          rcases List.mem_cons.1 ht with ht | ht
          · rw [ht]; exact hx.le
          · rw [List.mem_singleton.1 ht]
        · rw [if_neg hx]
          rcases List.mem_cons.1 ht with ht | ht
          · rw [ht]
          · rw [List.mem_singleton.1 ht]; exact not_lt.1 hx
      rcases List.mem_cons.1 hs with h | h
      · exact (ih _ _ List.mem_cons_self).trans (hacc s (by simp [h]))
      · rcases List.mem_cons.1 h with h | h
        · exact (ih _ _ List.mem_cons_self).trans (hacc s (by simp [h]))
        · exact ih _ s (List.mem_cons_of_mem _ h)

/-- **A refresh restores the derived facts** of the storm it is about. -/
theorem refreshGroup_storms (now : ℤ) (h : StormsBut (some g) db) :
    StormsBut none (refreshGroup now g db).2 := by
  have hmember : ∀ g' x, (refreshGroup now g db).2.member g' x = db.member g' x := by
    intro g' x
    rw [refreshGroup_frame]
    rfl
  have hother : ∀ {g' group}, g' ≠ g → db.incidentGroups.find? g' = some group →
      GroupShape (refreshGroup now g db).2 g' group ∧ GroupFacts (refreshGroup now g db).2 g' group := by
    intro g' group hne hg
    exact ⟨(h.shape g' group hg).congr fun x => by rw [hmember],
      (h.facts g' group hg fun he => hne (Option.some.inj he).symm).congr fun x => by rw [hmember]⟩
  cases hms : groupMembers g db with
  | nil =>
      have hfind : ∀ g', (refreshGroup now g db).2.incidentGroups.find? g' =
          (db.incidentGroups.find? g').filter fun _ => g' ≠ g := by
        intro g'
        unfold refreshGroup
        rw [hms]
        exact (Table.find?_delete _).trans (by simp)
      have hrow : ∀ {g' group}, (refreshGroup now g db).2.incidentGroups.find? g' = some group →
          g' ≠ g ∧ db.incidentGroups.find? g' = some group := by
        intro g' group hg
        rw [hfind, Option.filter_eq_some_iff, decide_eq_true_eq] at hg
        exact ⟨hg.2, hg.1⟩
      refine ⟨fun g' x i hi => ?_, fun g' group hg => ?_, fun g' group hg _ => ?_, ?_⟩
      · rw [hmember] at hi
        have hne : g' ≠ g := by
          rintro rfl
          have := mem_groupMembers.2 hi
          rw [hms] at this
          exact absurd this List.not_mem_nil
        obtain ⟨group, hg⟩ := h.known g' x i hi
        exact ⟨group, by rw [hfind, hg]; simp [hne]⟩
      · exact (hother (hrow hg).1 (hrow hg).2).1
      · exact (hother (hrow hg).1 (hrow hg).2).2
      · rw [hfind, h.named]
        rfl
  | cons first rest =>
      obtain ⟨x₀, i₀⟩ := first
      have hx₀ : db.member g x₀ = some i₀ := mem_groupMembers.1 (hms ▸ List.mem_cons_self)
      obtain ⟨old, hold⟩ := h.known g x₀ i₀ hx₀
      have hfind : ∀ g', ∃ f : IncidentGroup → IncidentGroup,
          (∀ a, (f a).anchorIncidentId = a.anchorIncidentId ∧ (f a).scopeKey = a.scopeKey ∧
            (f a).memberCount = memberTotal db g ∧
            (f a).rootIncidentId = rankGroupRoot ((groupMembers g db).map Prod.fst) db ∧
            (f a).severity = mostUrgent i₀.severity (rest.map fun m => m.2.severity) ∧
            (f a).status = if (groupMembers g db).any fun m => m.2.status.active then .OPEN
              else .RESOLVED) ∧
          (refreshGroup now g db).2.incidentGroups.find? g' =
            if g' = g then (db.incidentGroups.find? g).map f else db.incidentGroups.find? g' := by
        intro g'
        unfold refreshGroup
        rw [hms]
        refine ⟨_, fun a => ?_, Table.find?_modify _⟩
        rw [← length_groupMembers, hms]
        exact ⟨rfl, rfl, rfl, rfl, rfl, rfl⟩
      obtain ⟨f, hf, hg₀⟩ := hfind g
      rw [if_pos rfl, hold, Option.map_some] at hg₀
      obtain ⟨hanchor, hscope, hcount, hroot, hsev, hstatus⟩ := hf old
      have hrow : ∀ {g' group}, (refreshGroup now g db).2.incidentGroups.find? g' = some group →
          g' ≠ g → db.incidentGroups.find? g' = some group := by
        intro g' group hg hne
        obtain ⟨f', -, hg'⟩ := hfind g'
        rwa [hg', if_neg hne] at hg
      have hshape : GroupShape (refreshGroup now g db).2 g (f old) := by
        have hs : GroupShape (refreshGroup now g db).2 g old :=
          (h.shape g old hold).congr fun x => by rw [hmember]
        exact ⟨hs.two, by rw [hanchor]; exact hs.anchor, fun x i hi => by rw [hscope]; exact hs.scope x i hi⟩
      have htotal : memberTotal (refreshGroup now g db).2 g = memberTotal db g :=
        memberTotal_congr fun x => by rw [hmember]
      have hfacts : GroupFacts (refreshGroup now g db).2 g (f old) := by
        refine ⟨by rw [hcount, htotal], ?_, ?_, fun x i hi => ?_, ?_⟩
        · have hne : (groupMembers g db).map Prod.fst ≠ [] := by rw [hms]; simp
          obtain ⟨root, hr, hmem⟩ := @rankGroupRoot_mem _ _ _ db _ hne
          obtain ⟨⟨y, j⟩, hj, rfl⟩ := List.mem_map.1 hmem
          refine ⟨y, hroot.trans hr, ?_⟩
          rw [hmember, mem_groupMembers.1 hj]
          rfl
        · have hmem := mostUrgent_mem i₀.severity (rest.map fun m => m.2.severity)
          rw [← List.map_cons (f := fun m : String × Incident => m.2.severity) (a := (x₀, i₀)), ← hms] at hmem
          obtain ⟨⟨y, j⟩, hj, hjs⟩ := List.mem_map.1 hmem
          exact ⟨y, j, (hmember g y).trans (mem_groupMembers.1 hj), hjs.trans hsev.symm⟩
        · rw [hsev]
          refine mostUrgent_le _ _ _ ?_
          rw [← List.map_cons (f := fun m : String × Incident => m.2.severity) (a := (x₀, i₀)), ← hms]
          exact List.mem_map.2 ⟨(x, i), mem_groupMembers.2 ((hmember g x).symm.trans hi), rfl⟩
        · rw [hstatus]
          constructor
          · intro hopen
            split_ifs at hopen with hany
            obtain ⟨⟨y, j⟩, hj, hact⟩ := List.any_eq_true.1 hany
            exact ⟨y, j, (hmember g y).trans (mem_groupMembers.1 hj), IncidentState.active_eq_true.1 hact⟩
          · rintro ⟨y, j, hj, hact⟩
            refine if_pos (List.any_eq_true.2 ⟨(y, j), ?_, IncidentState.active_eq_true.2 hact⟩)
            exact mem_groupMembers.2 ((hmember g y).symm.trans hj)
      refine ⟨fun g' x i hi => ?_, fun g' group hg => ?_, fun g' group hg _ => ?_, ?_⟩
      · rw [hmember] at hi
        obtain ⟨group, hg⟩ := h.known g' x i hi
        by_cases hne : g' = g
        · exact ⟨f old, hne ▸ hg₀⟩
        · obtain ⟨f', -, hg'⟩ := hfind g'
          exact ⟨group, by rw [hg', if_neg hne, hg]⟩
      · by_cases hne : g' = g
        · subst hne
          obtain rfl := Option.some.inj (hg₀.symm.trans hg)
          exact hshape
        · exact (hother hne (hrow hg hne)).1
      · by_cases hne : g' = g
        · subst hne
          obtain rfl := Option.some.inj (hg₀.symm.trans hg)
          exact hfacts
        · exact (hother hne (hrow hg hne)).2
      · have hne : "" ≠ g := by
          rintro rfl
          rw [h.named] at hold
          exact absurd hold (by simp)
        obtain ⟨f', -, hg'⟩ := hfind ""
        rw [hg', if_neg hne, h.named]

/-- Refreshing the storm of an incident makes every storm right again. -/
theorem refreshGroupForMember_storms (now : ℤ) (x : String)
    (h : StormsBut ((db.incidents.find? x).bind (·.correlationGroupId)) db) :
    StormsBut none (refreshGroupForMember now x db).2 := by
  unfold refreshGroupForMember
  cases hg : (db.incidents.find? x).bind (·.correlationGroupId) with
  | none =>
      rw [hg] at h
      exact h
  | some g =>
      rw [hg] at h
      obtain ⟨i, hi, hig⟩ := Option.bind_eq_some_iff.1 hg
      have hne : g ≠ "" := by
        rintro rfl
        obtain ⟨group, hgroup⟩ := h.known "" x i (member_eq_some.2 ⟨hi, hig⟩)
        rw [h.named] at hgroup
        exact absurd hgroup (by simp)
      dsimp only
      rw [if_neg hne]
      split_ifs
      · exact refreshGroup_storms now h
      · exact refreshGroup_storms now h

end Refresh

/-! ## Grouping an incident -/

section Join

variable {db db' : Database K} {g g₀ : String} {members absorbed : List String}

/-- **A storm `g₀` that takes over its members from storms that are gone** leaves the
other storms as they were. -/
theorem StormsBut.takeover {stale : Option String} (h : StormsBut stale db)
    (gone : String → Prop) (group₀ : IncidentGroup) (hne : "" ≠ g₀)
    (hkeep : ∀ g, g ≠ g₀ → ¬ gone g → (∀ x, db'.member g x = db.member g x) ∧
      db'.incidentGroups.find? g = db.incidentGroups.find? g)
    (hgone : ∀ g, g ≠ g₀ → gone g → (∀ x, db'.member g x = none) ∧ db'.incidentGroups.find? g = none)
    (hgroup : db'.incidentGroups.find? g₀ = some group₀) (hshape : GroupShape db' g₀ group₀)
    (hstale : ∀ g, g ≠ g₀ → stale = some g → gone g) : StormsBut (some g₀) db' := by
  have hrow : ∀ {g group}, g ≠ g₀ → db'.incidentGroups.find? g = some group →
      ¬ gone g ∧ db.incidentGroups.find? g = some group := by
    intro g group hg hf
    by_cases hgo : gone g
    · rw [(hgone g hg hgo).2] at hf
      exact absurd hf (by simp)
    · exact ⟨hgo, (hkeep g hg hgo).2 ▸ hf⟩
  refine ⟨fun g x i hi => ?_, fun g group hf => ?_, fun g group hf hs => ?_, ?_⟩
  · by_cases hg : g = g₀
    · exact ⟨group₀, hg ▸ hgroup⟩
    by_cases hgo : gone g
    · rw [(hgone g hg hgo).1] at hi
      exact absurd hi (by simp)
    · obtain ⟨hm, hf⟩ := hkeep g hg hgo
      rw [hf]
      exact h.known g x i (hm x ▸ hi)
  · by_cases hg : g = g₀
    · subst hg
      obtain rfl := Option.some.inj (hgroup.symm.trans hf)
      exact hshape
    · obtain ⟨hgo, hf⟩ := hrow hg hf
      exact (h.shape g group hf).congr fun x => by rw [(hkeep g hg hgo).1]
  · have hg : g ≠ g₀ := fun he => hs (by rw [he])
    obtain ⟨hgo, hf⟩ := hrow hg hf
    exact (h.facts g group hf fun he => hgo (hstale g hg he)).congr fun x => by rw [(hkeep g hg hgo).1]
  · by_cases hgo : gone ""
    · exact (hgone "" hne hgo).2
    · rw [(hkeep "" hne hgo).2, h.named]

theorem mem_groupsOf : g ∈ groupsOf members db ↔ ∃ x ∈ members, ∃ i, db.member g x = some i := by
  rw [groupsOf, List.mem_dedup, List.mem_filterMap]
  constructor
  · rintro ⟨⟨x, i⟩, hmem, hg⟩
    obtain ⟨hi, hx⟩ := Table.mem_select.1 hmem
    exact ⟨x, List.contains_iff_mem.1 hx, i, member_eq_some.2 ⟨hi, hg⟩⟩
  · rintro ⟨x, hx, i, hi⟩
    obtain ⟨hi, hg⟩ := member_eq_some.1 hi
    exact ⟨(x, i), Table.mem_select.2 ⟨hi, List.contains_iff_mem.2 hx⟩, hg⟩

/-- The oldest of some groups is one of them. -/
theorem oldestGroup_mem {groups : List String} (h : oldestGroup groups db = some g) : g ∈ groups := by
  unfold oldestGroup at h
  dsimp only at h
  split at h
  · next row hrow =>
      obtain rfl := Option.some.inj h
      exact List.contains_iff_mem.1 (Table.mem_select.1 (firstBy_mem hrow)).2
  · exact List.mem_of_mem_head? (Option.mem_def.2 h)

theorem oldestGroup_eq_none {groups : List String} (h : oldestGroup groups db = none) : groups = [] := by
  unfold oldestGroup at h
  dsimp only at h
  split at h
  · exact absurd h (by simp)
  · exact List.head?_eq_none_iff.1 h

/-- Which incidents are in which storm once some have joined one. -/
theorem member_joinGroup (x : String) : (joinGroup g₀ members db).member g x =
    if x ∈ members then
      if g = g₀ then (db.incidents.find? x).map fun i => { i with correlationGroupId := some g₀ }
      else none
    else db.member g x := by
  unfold joinGroup Database.member
  rw [Table.find?_update]
  by_cases hx : x ∈ members
  · rw [if_pos hx]
    by_cases hg : g = g₀
    · cases db.incidents.find? x <;> simp [hg, hx]
    · cases db.incidents.find? x <;> simp [hg, hx, Ne.symm hg]
  · rw [if_neg hx]
    cases db.incidents.find? x <;> simp [hx]

/-- Which incidents are in which storm once one has absorbed others. -/
theorem member_mergeGroups (hg₀ : g₀ ∉ absorbed) (x : String) :
    (g ∉ absorbed → g ≠ g₀ → (mergeGroups g₀ absorbed db).member g x = db.member g x) ∧
    (g ∈ absorbed → (mergeGroups g₀ absorbed db).member g x = none) := by
  unfold mergeGroups Database.member
  rw [Table.find?_update]
  cases db.incidents.find? x with
  | none => simp
  | some i =>
      rw [Option.map_some]
      by_cases hi : i.correlationGroupId.any absorbed.contains = true
      · obtain ⟨a, ha, hmem⟩ := (Option.any_eq_true _ _).1 hi
        rw [if_pos hi]
        have ha' : a ∈ absorbed := List.contains_iff_mem.1 hmem
        refine ⟨fun hg hne => ?_, fun hg => ?_⟩
        · have hag : a ≠ g := fun he => hg (he ▸ ha')
          rw [Option.filter_some, Option.filter_some, ha]
          simp [Ne.symm hne, hag]
        · have hne : g₀ ≠ g := fun he => hg₀ (he ▸ hg)
          rw [Option.filter_some]
          simp [hne]
      · rw [if_neg hi]
        refine ⟨fun _ _ => rfl, fun hg => ?_⟩
        have hne : i.correlationGroupId ≠ some g := by
          intro he
          rw [he] at hi
          exact hi (List.contains_iff_mem.2 hg)
        simp [hne]

/-- A member of the survivor of a merge was its member before, or one of an absorbed storm's. -/
theorem member_survivor {x : String} {i : Incident}
    (h : (mergeGroups g₀ absorbed db).member g₀ x = some i) :
    ∃ j g, (g = g₀ ∨ g ∈ absorbed) ∧ db.member g x = some j ∧ j.scopeKey = i.scopeKey := by
  obtain ⟨hf, hg⟩ := member_eq_some.1 h
  unfold mergeGroups at hf
  rw [Table.find?_update] at hf
  obtain ⟨j, hj, rfl⟩ := Option.map_eq_some_iff.1 hf
  by_cases hc : j.correlationGroupId.any absorbed.contains = true
  · obtain ⟨a, ha, hmem⟩ := (Option.any_eq_true _ _).1 hc
    refine ⟨j, a, .inr (List.contains_iff_mem.1 hmem), member_eq_some.2 ⟨hj, ha⟩, ?_⟩
    rw [if_pos hc]
  · rw [if_neg hc] at hg
    refine ⟨j, g₀, .inl rfl, member_eq_some.2 ⟨hj, hg⟩, ?_⟩
    rw [if_neg hc]

/-- The members of the survivor stay. -/
theorem member_mergeGroups_self {x : String} (h : (db.member g₀ x).isSome = true) :
    ((mergeGroups g₀ absorbed db).member g₀ x).isSome = true := by
  obtain ⟨i, hi⟩ := Option.isSome_iff_exists.1 h
  obtain ⟨hi, hg⟩ := member_eq_some.1 hi
  unfold mergeGroups Database.member
  rw [Table.find?_update, hi, Option.map_some]
  by_cases hc : i.correlationGroupId.any absorbed.contains = true
  · rw [if_pos hc]; simp
  · rw [if_neg hc]; simp [hg]

/-- Joining a storm keeps those who are in it. -/
theorem member_joinGroup_self {x : String} (h : (db.member g₀ x).isSome = true) :
    ((joinGroup g₀ members db).member g₀ x).isSome = true := by
  obtain ⟨i, hi⟩ := Option.isSome_iff_exists.1 h
  rw [member_joinGroup]
  by_cases hx : x ∈ members
  · rw [if_pos hx, if_pos rfl, (member_eq_some.1 hi).1]
    rfl
  · rw [if_neg hx, hi]
    rfl

/-- A storm that only gains members keeps its total. -/
theorem memberTotal_mono (h : ∀ x, (db.member g x).isSome = true → (db'.member g x).isSome = true) :
    memberTotal db g ≤ memberTotal db' g := by
  refine Table.count_le fun x i hi hg => ?_
  have hm := h x (by rw [member_eq_some.2 ⟨hi, of_decide_eq_true hg⟩]; rfl)
  obtain ⟨j, hj⟩ := Option.isSome_iff_exists.1 hm
  obtain ⟨hj, hjg⟩ := member_eq_some.1 hj
  exact ⟨j, hj, decide_eq_true hjg⟩

/-- Two members make a storm of two. -/
theorem two_le_memberTotal {x y : String} (hne : x ≠ y) (hx : (db.member g x).isSome = true)
    (hy : (db.member g y).isSome = true) : 2 ≤ memberTotal db g := by
  obtain ⟨i, hi⟩ := Option.isSome_iff_exists.1 hx
  obtain ⟨j, hj⟩ := Option.isSome_iff_exists.1 hy
  obtain ⟨hi, hig⟩ := member_eq_some.1 hi
  obtain ⟨hj, hjg⟩ := member_eq_some.1 hj
  exact Table.two_le_count hne hi (decide_eq_true hig) hj (decide_eq_true hjg)

end Join

section Assign

variable [Field K] [LinearOrder K] {db : Database K} {scopeKey : String} {members : List String}

/-- A strong neighbour is another incident of the scope. -/
theorem mem_strongNeighbours {x y : String} (h : y ∈ strongNeighbours x scopeKey db) :
    y ≠ x ∧ ∃ i, db.incidents.find? y = some i ∧ i.scopeKey = scopeKey := by
  unfold strongNeighbours at h
  dsimp only at h
  obtain ⟨s, hs, rfl⟩ := List.mem_map.1 h
  obtain ⟨y, hy, rfl⟩ := List.mem_map.1
    ((List.mem_insertionSort _).1 ((sqlLimit_sublist _ _).subset hs))
  obtain ⟨r, hr, rfl⟩ := List.mem_map.1 (List.mem_dedup.1 hy)
  have hsel := (List.mem_filter.1 hr).2
  simp only [Bool.and_eq_true, decide_eq_true_eq, Option.any_eq_true] at hsel
  obtain ⟨⟨i, hi, hscope, -⟩, hne⟩ := hsel
  exact ⟨hne, i, hi, hscope⟩

omit [Field K] [LinearOrder K] in
/-- **The storms after a grouping**, with the chosen one yet to be refreshed: two or
more incidents of one scope join the oldest of their storms, or a new one. -/
theorem joinGroup_storms {freshId x y : String} {now : ℤ} {stale : Option String}
    (hfresh : db.incidentGroups.find? freshId = none) (hfreshId : "" ≠ freshId) (hne : x ≠ y)
    (hx : x ∈ members) (hy : y ∈ members)
    (hmembers : ∀ m ∈ members, ∃ i, db.incidents.find? m = some i ∧ i.scopeKey = scopeKey)
    (hstale : ∀ g, stale = some g → ∃ m ∈ members, (db.member g m).isSome = true)
    (h : StormsBut stale db) :
    StormsBut (some (chooseGroup freshId now members scopeKey db).1)
      (joinGroup (chooseGroup freshId now members scopeKey db).1 members
        (chooseGroup freshId now members scopeKey db).2.2) := by
  -- a storm of one of the members is known, and it is a storm of the scope
  have hscope : ∀ {g}, g ∈ groupsOf members db →
      ∃ group, db.incidentGroups.find? g = some group ∧ group.scopeKey = scopeKey := by
    intro g hg
    obtain ⟨m, hm, i, hi⟩ := mem_groupsOf.1 hg
    obtain ⟨group, hgroup⟩ := h.known g m i hi
    obtain ⟨i', hi', hs⟩ := hmembers m hm
    obtain rfl := Option.some.inj (hi'.symm.trans (member_eq_some.1 hi).1)
    exact ⟨group, hgroup, ((h.shape g group hgroup).scope m i' hi).symm.trans hs⟩
  have hstale : ∀ g, stale = some g → g ∈ groupsOf members db := by
    intro g hg
    obtain ⟨m, hm, hs⟩ := hstale g hg
    exact mem_groupsOf.2 ⟨m, hm, Option.isSome_iff_exists.1 hs⟩
  have houtside : ∀ {g m}, g ∉ groupsOf members db → m ∈ members → db.member g m = none := by
    intro g m hg hm
    cases hi : db.member g m with
    | none => rfl
    | some i => exact absurd (mem_groupsOf.2 ⟨m, hm, i, hi⟩) hg
  unfold chooseGroup
  cases ho : oldestGroup (groupsOf members db) db with
  | some g₀ =>
      dsimp only
      have hg₀ := oldestGroup_mem ho
      obtain ⟨group₀, hgroup₀, hscope₀⟩ := hscope hg₀
      generalize habs : (groupsOf members db).filter (· ≠ g₀) = absorbed
      have hmem : ∀ {g}, g ∈ absorbed ↔ g ∈ groupsOf members db ∧ g ≠ g₀ := by
        intro g
        rw [← habs, List.mem_filter, decide_eq_true_eq]
      have hself : g₀ ∉ absorbed := fun hc => (hmem.1 hc).2 rfl
      have hfind : ∀ g, (joinGroup g₀ members (mergeGroups g₀ absorbed db)).incidentGroups.find? g =
          (db.incidentGroups.find? g).filter fun _ => g ∉ absorbed := by
        intro g
        refine (Table.find?_delete _).trans (congrArg (Option.filter · _) (funext fun _ => ?_))
        by_cases hg : g ∈ absorbed <;> simp [hg]
      refine h.takeover (· ∈ absorbed) group₀ (fun he => ?_) (fun g hg hgo => ⟨fun m => ?_, ?_⟩)
        (fun g hg hgo => ⟨fun m => ?_, ?_⟩) ?_ ⟨?_, ?_, fun m i hi => ?_⟩ ?_
      · rw [← he, h.named] at hgroup₀
        exact absurd hgroup₀ (by simp)
      · rw [member_joinGroup]
        split_ifs with hm
        · exact (houtside (fun hc => hgo (hmem.2 ⟨hc, hg⟩)) hm).symm
        · exact (member_mergeGroups hself m).1 hgo hg
      · rw [hfind]
        cases db.incidentGroups.find? g <;> simp [hgo]
      · rw [member_joinGroup]
        split_ifs
        · rfl
        · exact (member_mergeGroups hself m).2 hgo
      · rw [hfind]
        cases db.incidentGroups.find? g <;> simp [hgo]
      · rw [hfind, hgroup₀]
        simp [hself]
      · refine (h.shape g₀ group₀ hgroup₀).two.trans (memberTotal_mono fun m hm => ?_)
        exact member_joinGroup_self (member_mergeGroups_self hm)
      · exact member_joinGroup_self (member_mergeGroups_self (h.shape g₀ group₀ hgroup₀).anchor)
      · rw [hscope₀]
        rw [member_joinGroup] at hi
        by_cases hm : m ∈ members
        · rw [if_pos hm, if_pos rfl] at hi
          obtain ⟨j, hj, hs⟩ := hmembers m hm
          obtain ⟨j', hj', rfl⟩ := Option.map_eq_some_iff.1 hi
          unfold mergeGroups at hj'
          rw [Table.find?_update, hj] at hj'
          obtain rfl := Option.some.inj hj'
          dsimp only
          split_ifs <;> exact hs
        · rw [if_neg hm] at hi
          obtain ⟨j, g, hg, hj, hs⟩ := member_survivor hi
          have hin : g ∈ groupsOf members db := by
            rcases hg with rfl | hg
            · exact hg₀
            · exact (hmem.1 hg).1
          obtain ⟨group, hgroup, hsc⟩ := hscope hin
          rw [← hs, (h.shape g group hgroup).scope m j hj, hsc]
      · exact fun g hg hs => hmem.2 ⟨hstale g hs, hg⟩
  | none =>
      dsimp only
      have hnone := oldestGroup_eq_none ho
      have hmember : ∀ m, db.member freshId m = none := by
        intro m
        cases hi : db.member freshId m with
        | none => rfl
        | some i =>
            obtain ⟨group, hgroup⟩ := h.known freshId m i hi
            rw [hfresh] at hgroup
            exact absurd hgroup (by simp)
      -- the anchor is the first of the members to have alerted
      have hrows : (db.incidents.select fun k _ => members.contains k) ≠ [] := by
        obtain ⟨i, hi, -⟩ := hmembers x hx
        exact List.ne_nil_of_mem (Table.mem_select.2 ⟨hi, List.contains_iff_mem.2 hx⟩)
      obtain ⟨anchor, hanchor⟩ := @firstBy_isSome (String × Incident) (fun a b =>
        decide (a.2.firstAlertAt < b.2.firstAlertAt ∨
          a.2.firstAlertAt = b.2.firstAlertAt ∧ a.1 < b.1)) _ hrows
      have hsel : anchor.1 ∈ members :=
        List.contains_iff_mem.1 (Table.mem_select.1 (firstBy_mem hanchor)).2
      rw [hanchor]
      generalize hdb : ({ db with incidentGroups := db.incidentGroups.insert freshId _ } : Database K) = db₁
      have hin : db₁.incidents = db.incidents := by rw [← hdb]
      have hmember₁ : ∀ g m, db₁.member g m = db.member g m := by
        intro g m
        rw [Database.member, hin, Database.member]
      have hjoined : ∀ m ∈ members, ∃ i, db.incidents.find? m = some i ∧ i.scopeKey = scopeKey ∧
          (joinGroup freshId members db₁).member freshId m =
            some { i with correlationGroupId := some freshId } := by
        intro m hm
        obtain ⟨i, hi, hs⟩ := hmembers m hm
        refine ⟨i, hi, hs, ?_⟩
        rw [member_joinGroup, if_pos hm, if_pos rfl, hin, hi]
        rfl
      have hsome : ∀ m ∈ members, ((joinGroup freshId members db₁).member freshId m).isSome = true := by
        intro m hm
        obtain ⟨i, -, -, hi⟩ := hjoined m hm
        rw [hi]
        rfl
      have hfind : ∀ g, (joinGroup freshId members db₁).incidentGroups.find? g =
          if g = freshId then
            some { scopeKey := scopeKey
                   anchorIncidentId := anchor.1
                   createdAt := now
                   updatedAt := now }
          else db.incidentGroups.find? g := by
        intro g
        rw [← hdb]
        refine Table.find?_insert.trans ?_
        rw [hfresh]
        rfl
      refine h.takeover (fun _ => False) _ hfreshId (fun g hg _ => ⟨fun m => ?_, ?_⟩)
        (fun _ _ hgo => hgo.elim) (by rw [hfind, if_pos rfl]) ⟨?_, hsome _ hsel, fun m i hi => ?_⟩ ?_
      · rw [member_joinGroup, hmember₁]
        split_ifs with hm
        · exact (houtside (by rw [hnone]; exact List.not_mem_nil) hm).symm
        · rfl
      · rw [hfind, if_neg hg]
      · exact two_le_memberTotal hne (hsome x hx) (hsome y hy)
      · by_cases hm : m ∈ members
        · obtain ⟨j, -, hs, hj⟩ := hjoined m hm
          obtain rfl := Option.some.inj (hj.symm.trans hi)
          exact hs
        · rw [member_joinGroup, if_neg hm, hmember₁, hmember] at hi
          exact absurd hi (by simp)
      · intro g _ hs
        have := hstale g hs
        rw [hnone] at this
        exact List.not_mem_nil this

/-- **Grouping an incident makes every storm right again**, whichever storm a write to
the incident had made stale; one without neighbours is not grouped. -/
theorem assignGroup_storms {freshId x : String} (now : ℤ) {i : Incident}
    (hfresh : db.incidentGroups.find? freshId = none) (hfreshId : "" ≠ freshId)
    (hi : db.incidents.find? x = some i) (hscope : i.scopeKey = scopeKey)
    (h : StormsBut i.correlationGroupId db) :
    assignGroup freshId now x scopeKey db = (none, db) ∨
      StormsBut none (assignGroup freshId now x scopeKey db).2 := by
  unfold assignGroup
  cases hn : strongNeighbours x scopeKey db with
  | nil => exact .inl rfl
  | cons y ys =>
      refine .inr (refreshGroup_storms now ?_)
      have hneighbour : ∀ {z}, z ∈ y :: ys →
          z ≠ x ∧ ∃ i, db.incidents.find? z = some i ∧ i.scopeKey = scopeKey := fun hz =>
        mem_strongNeighbours (hn ▸ hz)
      refine joinGroup_storms hfresh hfreshId (hneighbour List.mem_cons_self).1.symm
        List.mem_cons_self (List.mem_cons_of_mem _ List.mem_cons_self) (fun m hm => ?_)
        (fun g hg => ⟨x, List.mem_cons_self, ?_⟩) h
      · rcases List.mem_cons.1 hm with rfl | hm
        · exact ⟨i, hi, hscope⟩
        · exact (hneighbour hm).2
      · rw [member_eq_some.2 ⟨hi, hg⟩]
        rfl

end Assign

end PulseGraph
