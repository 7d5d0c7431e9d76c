/-
# Whom an alert is observed with

`persist_and_observe` picks the candidates after the decision is persisted, passes on their
fingerprints, and `observe_incident` takes every active incident that carries one of them.
Here all of this is read off the database *before* the decision: the other recent incidents
of the scope, whether the incident of the alert takes one of the places among them, and who
carries one of the fingerprints then.

**Proved here.**  The fingerprints that are passed on are those the alert is correlated by
(`mem_correlationNeighbourhood`), and the edges it observes are one for each of its
companions (`upsertedEdges_eq`).
-/

import PulseGraph.Engine.System
import PulseGraph.Graph.Rounds
import PulseGraph.Library.Ranking

namespace PulseGraph

open Library (Table mem_take_insertionSort)

variable {K : Type} (rt : Runtime K)

/-! ## Who is recent -/

/-- When an incident was last ingested, as the candidate query reads it. -/
def lastSeen (i : Incident) : ℤ := i.lastIngestedAt.getD i.lastAlertAt

/-- `ORDER BY … DESC` of the candidate query. -/
def RecentFirst (a b : String × Incident) : Prop := lastSeen b.2 ≤ lastSeen a.2

instance : DecidableRel RecentFirst := fun a b => inferInstanceAs (Decidable (lastSeen b.2 ≤ lastSeen a.2))

instance : Std.Total RecentFirst := ⟨fun a b => le_total (lastSeen b.2) (lastSeen a.2)⟩

instance : IsTrans (String × Incident) RecentFirst := ⟨fun _ _ _ hab hbc => le_trans hbc hab⟩

/-- An active incident of the scope inside the correlation window. -/
def inWindow (now : ℤ) (scopeKey : String) (i : Incident) : Bool :=
  i.scopeKey = scopeKey && i.status.active &&
    decide (max 0 (now - rt.settings.correlationWindowMs) ≤ lastSeen i)

/-- The other active incidents of the scope inside the window, the most recently ingested first. -/
def others (now : ℤ) (d : EngineDecision) (db : Database K) : List (String × Incident) :=
  (db.incidents.select fun k i => decide (k ≠ d.incidentId) && inWindow rt now d.scopeKey i).insertionSort
    RecentFirst

/-- The incident stays ahead of one that is ingested now: it was ingested later, or at the same
instant and is stored before it. -/
def staysAhead (now : ℤ) (d : EngineDecision) (db : Database K) (r : String × Incident) : Bool :=
  decide (now ≤ lastSeen r.2) && (decide (now < lastSeen r.2) ||
    (db.incidents.rows.takeWhile fun r' => r'.1 ≠ d.incidentId).any fun r' => r'.1 = r.1)

/-- The incident of the decision takes one of the places among the candidates. -/
def takesPlace (now : ℤ) (d : EngineDecision) (db : Database K) : Bool :=
  decide (max 0 (now - rt.settings.correlationWindowMs) ≤ now) &&
    decide (rt.settings.correlationMaxNeighbours < 0 ∨
      ((others rt now d db).countP (staysAhead now d db) : ℤ) < rt.settings.correlationMaxNeighbours)

/-- The other candidates. -/
def near (now : ℤ) (d : EngineDecision) (db : Database K) : List (String × Incident) :=
  sqlLimit (rt.settings.correlationMaxNeighbours - if takesPlace rt now d db then 1 else 0) (others rt now d db)

/-- A fingerprint the alert is correlated by: its own, if its incident takes a place, and those of
the other candidates. -/
def correlates (now : ℤ) (d : EngineDecision) (db : Database K) (fingerprint : String) : Bool :=
  decide (fingerprint ≠ "") && (takesPlace rt now d db && decide (fingerprint = d.stableFingerprint) ||
    (near rt now d db).any fun r => fingerprint = r.2.stableFingerprint)

/-- **Whom the alert is observed with**: the other active incidents that carry such a fingerprint, if
its own incident is active and carries one. -/
def companions (now : ℤ) (d : EngineDecision) (db : Database K) : List (String × Incident) :=
  if d.state.active && correlates rt now d db d.stableFingerprint then
    db.incidents.select fun k i => decide (k ≠ d.incidentId) &&
      (correlates rt now d db i.stableFingerprint && i.status.active)
  else []

/-- The edges a persisted decision upserts. -/
def upsertedEdges (now : ℤ) (d : EngineDecision) (db : Database K) : List (String × String) :=
  if d.isCriticalBypass then []
  else ((roundOf d.incidentId (correlationNeighbourhood rt now d.scopeKey db) db).map (·.edges)).getD []

/-- The decision fits the incident it is about: a known incident has its identity. -/
def EngineDecision.Fits (d : EngineDecision) (db : Database K) : Prop :=
  ∀ i, db.incidents.find? d.incidentId = some i →
    i.scopeKey = d.scopeKey ∧ i.stableFingerprint = d.stableFingerprint

/-! ## The row of the decision among the others -/

section Rows

variable {rt} {now : ℤ} {d : EngineDecision} {db : Database K}

/-- The row a decision leaves of its incident. -/
def ownRow (now : ℤ) (d : EngineDecision) (db : Database K) : Incident :=
  persistedIncident now d (db.incidents.find? d.incidentId)

@[simp] theorem ownRow_status : (ownRow now d db).status = d.state := persistedIncident_status

theorem ownRow_scopeKey (hfits : d.Fits db) : (ownRow now d db).scopeKey = d.scopeKey := by
  rw [ownRow, persistedIncident_scopeKey]
  cases h : db.incidents.find? d.incidentId with
  | none => rfl
  | some i => exact (hfits i h).1

theorem ownRow_stableFingerprint (hfits : d.Fits db) :
    (ownRow now d db).stableFingerprint = d.stableFingerprint := by
  rw [ownRow, persistedIncident_stableFingerprint]
  cases h : db.incidents.find? d.incidentId with
  | none => rfl
  | some i => exact (hfits i h).2

theorem ownRow_lastSeen : lastSeen (ownRow now d db) = now := by
  have hseen : (ownRow now d db).lastIngestedAt = some now := by
    unfold ownRow persistedIncident stampFlap
    cases db.incidents.find? d.incidentId <;> dsimp only <;> split_ifs <;> rfl
  rw [lastSeen, hseen]
  rfl

@[simp] theorem ownRow_lastAlertAt : (ownRow now d db).lastAlertAt = d.event.firedAt.isoMs := by
  unfold ownRow persistedIncident stampFlap
  cases db.incidents.find? d.incidentId <;> dsimp only <;> split_ifs <;> rfl

/-- An incident that is known keeps its first alert. -/
theorem persistedIncident_firstAlertAt (i : Incident) :
    (persistedIncident now d (some i)).firstAlertAt = i.firstAlertAt := by
  unfold persistedIncident stampFlap
  dsimp only
  split_ifs <;> rfl

/-- It is inside the window, unless the window ends before the instant. -/
theorem ownRow_inWindow (hfits : d.Fits db) : inWindow rt now d.scopeKey (ownRow now d db) =
    (d.state.active && decide (max 0 (now - rt.settings.correlationWindowMs) ≤ now)) := by
  rw [inWindow, ownRow_scopeKey hfits, ownRow_status, ownRow_lastSeen]
  simp

/-- **The row of a decision stands where the row of its incident stood**, or after all rows. -/
theorem persisted_rows : ∃ after, (persisted rt now d db).incidents.rows =
      (db.incidents.rows.takeWhile fun r => r.1 ≠ d.incidentId) ++ (d.incidentId, ownRow now d db) :: after ∧
    (db.incidents.rows.takeWhile fun r => r.1 ≠ d.incidentId) ++ after =
      db.incidents.rows.filter fun r => r.1 ≠ d.incidentId := by
  obtain ⟨after, hrows, hothers⟩ := Table.rows_split (@find?_persisted_self _ rt now d db)
  have hbefore : ((persisted rt now d db).incidents.rows.takeWhile fun r => r.1 ≠ d.incidentId) =
      db.incidents.rows.takeWhile fun r => r.1 ≠ d.incidentId :=
    Table.takeWhile_rows_modify.trans Table.takeWhile_rows_upsert
  have hfilter : ((persisted rt now d db).incidents.rows.filter fun r => r.1 ≠ d.incidentId) =
      db.incidents.rows.filter fun r => r.1 ≠ d.incidentId :=
    Table.filter_rows_modify.trans Table.filter_rows_upsert
  rw [hbefore] at hrows hothers
  exact ⟨after, hrows, hothers.trans hfilter⟩

/-- The others that a condition selects are selected before and after. -/
theorem select_others {p : String → Incident → Bool} :
    ((persisted rt now d db).incidents.select fun k i => decide (k ≠ d.incidentId) && p k i) =
      db.incidents.select fun k i => decide (k ≠ d.incidentId) && p k i := by
  obtain ⟨after, hrows, hothers⟩ := @persisted_rows _ rt now d db
  have hsplit : ∀ l : List (String × Incident),
      (l.filter fun r => decide (r.1 ≠ d.incidentId) && p r.1 r.2) =
        (l.filter fun r => decide (r.1 ≠ d.incidentId)).filter fun r => p r.1 r.2 := fun l => by
    rw [List.filter_filter]
    exact List.filter_congr fun r _ => Bool.and_comm _ _
  have hself : ((persisted rt now d db).incidents.rows.filter fun r => decide (r.1 ≠ d.incidentId)) =
      db.incidents.rows.filter fun r => decide (r.1 ≠ d.incidentId) :=
    Table.filter_rows_modify.trans Table.filter_rows_upsert
  rw [Table.select, hsplit, hself, ← hsplit]
  rfl

end Rows

/-! ## The fingerprints that are passed on -/

section Passed

variable {rt} {now : ℤ} {d : EngineDecision} {db : Database K}

/-- The candidates the query finds. -/
def neighbours (rt : Runtime K) (now : ℤ) (scopeKey : String) (db : Database K) : List (String × Incident) :=
  sqlLimit rt.settings.correlationMaxNeighbours
    ((db.incidents.select fun _ => inWindow rt now scopeKey).insertionSort RecentFirst)

theorem correlationNeighbourhood_eq (scopeKey : String) : correlationNeighbourhood rt now scopeKey db =
    (neighbours rt now scopeKey db).map fun r => r.2.stableFingerprint := rfl

/-- The candidate query after the decision, with the row of its incident among the others. -/
theorem select_inWindow : ∃ l₁ l₂,
    ((persisted rt now d db).incidents.select fun _ => inWindow rt now d.scopeKey) =
      l₁ ++ (if inWindow rt now d.scopeKey (ownRow now d db) then [(d.incidentId, ownRow now d db)] else []) ++ l₂ ∧
    others rt now d db = (l₁ ++ l₂).insertionSort RecentFirst ∧
    (l₁ ++ (d.incidentId, ownRow now d db) :: l₂).Nodup ∧
    ∀ r ∈ l₁ ++ l₂, r ∈ l₁ ↔
      ((db.incidents.rows.takeWhile fun r' => r'.1 ≠ d.incidentId).any fun r' => r'.1 = r.1) = true := by
  obtain ⟨after, hrows, hothers⟩ := @persisted_rows _ rt now d db
  have hkeys := (persisted rt now d db).incidents.nodup
  rw [hrows] at hkeys
  refine ⟨(db.incidents.rows.takeWhile fun r => r.1 ≠ d.incidentId).filter fun r => inWindow rt now d.scopeKey r.2,
    after.filter fun r => inWindow rt now d.scopeKey r.2, ?_, ?_, ?_, fun r hr => ?_⟩
  · rw [Table.select, hrows, List.filter_append, List.filter_cons]
    split_ifs <;> simp
  · rw [others, Table.select, ← List.filter_append, hothers, List.filter_filter]
    exact congrArg _ (List.filter_congr fun r _ => Bool.and_comm _ _)
  · refine List.Nodup.of_map Prod.fst (hkeys.sublist (List.Sublist.map _ ?_))
    exact List.filter_sublist.append (List.filter_sublist.cons_cons _)
  · rw [List.any_eq_true]
    constructor
    · intro h
      exact ⟨r, List.mem_of_mem_filter h, by simp⟩
    · rintro ⟨r', hr', hkey⟩
      rcases List.mem_append.1 hr with h | h
      · exact h
      · -- a key stands on one side only
        rw [List.map_append, List.map_cons] at hkeys
        have hafter : r.1 ∈ after.map Prod.fst := List.mem_map_of_mem (List.mem_of_mem_filter h)
        have hbefore : r.1 ∈ (db.incidents.rows.takeWhile fun r => r.1 ≠ d.incidentId).map Prod.fst :=
          List.mem_map.2 ⟨r', hr', of_decide_eq_true hkey⟩
        exact absurd rfl ((List.nodup_append.1 hkeys).2.2 _ hbefore _ (List.mem_cons_of_mem _ hafter))

/-- **The incident of the decision takes a place among the candidates or none**; the others share the
rest. -/
theorem mem_neighbours (hactive : d.state.active = true) (hfits : d.Fits db) {c : String × Incident} :
    c ∈ neighbours rt now d.scopeKey (persisted rt now d db) ↔
      takesPlace rt now d db = true ∧ c = (d.incidentId, ownRow now d db) ∨ c ∈ near rt now d db := by
  obtain ⟨l₁, l₂, hselect, hothers, hnodup, hside⟩ := @select_inWindow _ rt now d db
  have hown := @ownRow_inWindow _ rt now d db hfits
  rw [hactive, Bool.true_and] at hown
  unfold neighbours
  rw [hselect, hown]
  by_cases hstart : max 0 (now - rt.settings.correlationWindowMs) ≤ now
  · have hahead : ∀ r ∈ l₁ ++ l₂, staysAhead now d db r = true ↔
        RecentFirst r (d.incidentId, ownRow now d db) ∧
          (¬ RecentFirst (d.incidentId, ownRow now d db) r ∨ r ∈ l₁) := by
      intro r hr
      unfold staysAhead RecentFirst
      rw [hside r hr, ownRow_lastSeen]
      simp only [Bool.and_eq_true, Bool.or_eq_true, decide_eq_true_eq, not_le]
    have hplaces := mem_take_insertionSort hnodup hahead rt.settings.correlationMaxNeighbours.toNat (c := c)
    rw [← hothers] at hplaces
    rw [if_pos (decide_eq_true hstart), List.append_assoc, List.singleton_append]
    unfold near takesPlace sqlLimit
    rw [decide_eq_true hstart, Bool.true_and]
    by_cases hneg : rt.settings.correlationMaxNeighbours < 0
    · rw [if_pos hneg, if_pos (by split_ifs <;> omega), List.mem_insertionSort, hothers, List.mem_insertionSort]
      simp only [List.mem_append, List.mem_cons, hneg, true_or, decide_true, true_and]
      exact or_left_comm
    · rw [if_neg hneg, hplaces]
      by_cases hcount : ((others rt now d db).countP (staysAhead now d db) : ℤ) <
          rt.settings.correlationMaxNeighbours
      · rw [if_pos (by omega), if_neg (by simp [hcount]; omega)]
        simp only [hcount, or_true, decide_true, true_and, if_true]
        rw [show (rt.settings.correlationMaxNeighbours - 1).toNat =
          rt.settings.correlationMaxNeighbours.toNat - 1 by omega]
      · rw [if_neg (by omega), if_neg (by simp [hcount]; omega)]
        simp [hneg, hcount]
  · rw [if_neg (by simpa using hstart), List.append_nil, ← hothers]
    unfold near takesPlace
    simp [hstart]

/-- **The fingerprints that are passed on** are those the alert is correlated by. -/
theorem mem_correlationNeighbourhood (hactive : d.state.active = true) (hfits : d.Fits db)
    {fingerprint : String} :
    ((correlationNeighbourhood rt now d.scopeKey (persisted rt now d db)).filter (· ≠ "")).contains fingerprint =
      correlates rt now d db fingerprint := by
  rw [correlationNeighbourhood_eq, Bool.eq_iff_iff, List.contains_iff_mem, List.mem_filter, List.mem_map]
  unfold correlates
  simp only [Bool.and_eq_true, Bool.or_eq_true, decide_eq_true_eq, List.any_eq_true]
  constructor
  · rintro ⟨⟨c, hc, rfl⟩, hne⟩
    refine ⟨hne, ?_⟩
    rcases (mem_neighbours hactive hfits).1 hc with ⟨hplace, rfl⟩ | hnear
    · exact .inl ⟨hplace, ownRow_stableFingerprint hfits⟩
    · exact .inr ⟨c, hnear, rfl⟩
  · rintro ⟨hne, ⟨hplace, rfl⟩ | ⟨c, hnear, rfl⟩⟩
    · exact ⟨⟨_, (mem_neighbours hactive hfits).2 (.inl ⟨hplace, rfl⟩), ownRow_stableFingerprint hfits⟩, hne⟩
    · exact ⟨⟨c, (mem_neighbours hactive hfits).2 (.inr hnear), rfl⟩, hne⟩

/-- **The edges an alert upserts** are one for each of its companions. -/
theorem upsertedEdges_eq (hb : d.isCriticalBypass = false) (hfits : d.Fits db) :
    upsertedEdges rt now d (persisted rt now d db) =
      (companions rt now d db).map (edgeKey d.incidentId d.event.firedAt.isoMs) := by
  unfold upsertedEdges companions
  rw [hb, if_neg (by simp), roundOf_edges find?_persisted_self]
  show (if _ && (ownRow now d db).status.active then _ else _) = _
  rw [ownRow_status]
  by_cases hactive : d.state.active = true
  · simp only [mem_correlationNeighbourhood hactive hfits, hactive, Bool.and_true, Bool.true_and, select_others]
    rw [← ownRow, ownRow_stableFingerprint hfits, ownRow_lastAlertAt, apply_ite (List.map _)]
    rfl
  · rw [if_neg (by simp [hactive]), if_neg (by simp [hactive])]
    rfl

end Passed

/-- The decision on a fresh request fits. -/
theorem EngineDecision.fits_of_ingest [Field K] [LinearOrder K] {rt : Runtime K} {now : ℤ} {d : EngineDecision}
    {db db' : Database K} {freshId freshGroupId : String} {event : NormalizedEvent}
    (hfresh : (Request.ingest freshId freshGroupId now event).fresh db = true)
    (h : ingestEvent rt freshId freshGroupId now event db = .ok (d, db')) : d.Fits db := by
  intro i hi
  rcases (ingest_cases hfresh h).2 with hopens | ⟨j, hcontinues⟩
  · have hunknown := hopens.unknown
    rw [core_of_find? hi] at hunknown
    simp at hunknown
  · have hcore := hcontinues.known
    rw [core_of_find? hi] at hcore
    obtain rfl := Option.some.inj hcore
    exact ⟨hcontinues.scopeKey, hcontinues.stableFingerprint⟩

end PulseGraph
