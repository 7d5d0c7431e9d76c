/-
# How old the terms of a lift are

A lift compares how often a pair was observed together with how often its incidents were
observed at all.  `_score` decays the weight of the pair to the newest edge it weighs, and
takes the counters of the two incidents and of their scope as they are stored, each as old
as its own last observation.

**Proved here.**  `lift_eq_iff_of_rows`: for whichever stored edges are weighed, the lift of one
is the lift of four terms of one age exactly when the last observations of its two incidents
are together as late as that of the scope and the newest edge.  `lift_eq_iff_of_run` says so of
the candidates of a neighbourhood, in every graph that observations can build, and
`lift_eq_iff_of_active` of all active incidents.  `not_sameAge` observes another pair an hour
later.
-/

import PulseGraph.Graph.Marginals
import PulseGraph.Graph.ScoringLaws

namespace PulseGraph

open Library (Run Table Transition)

/-! ## The terms of a lift -/

section Terms

variable {K : Type} [Field K] [LinearOrder K]

/-- The edges `score_root_cause` weighs for its candidates. -/
def scoredEdges (ids : List String) (db : Database K) : List ((String × String) × Edge K) :=
  db.edges.select fun k _ => ids.contains k.1 && ids.contains k.2

/-- The scope whose rounds `_marginals` reads. -/
def marginalScope (ids : List String) (db : Database K) : Option String :=
  ((db.nodeStats.select fun k _ => ids.contains k).head?).map fun r => r.2.scopeKey

/-- The lift of an edge before it is capped, where `rows` are weighed and their incidents are `ids`. -/
def rowsLift (rt : Runtime K) (ids : List String) (rows : List ((String × String) × Edge K)) (db : Database K)
    (r : (String × String) × Edge K) : K :=
  let (observations, rounds) := marginals ids db
  let weight := decay rt r.2.weight ((max 0 (newest rows - r.2.lastSeenAt) : ℤ) : K) defaultHalfLifeMs
  weight * rounds / (observations r.1.1 * observations r.1.2)

/-- The lift of an edge between candidates before it is capped. -/
def uncappedLift (rt : Runtime K) (ids : List String) (db : Database K)
    (r : (String × String) × Edge K) : K := rowsLift rt ids (scoredEdges ids db) db r

/-- Edges that are stored, between incidents that are read. -/
structure Weighed (ids : List String) (rows : List ((String × String) × Edge K)) (db : Database K) : Prop where
  stored : ∀ r ∈ rows, db.edges.find? r.1 = some r.2
  read : ∀ r ∈ rows, r.1.1 ∈ ids ∧ r.1.2 ∈ ids

omit [Field K] [LinearOrder K] in
theorem weighed_scoredEdges (ids : List String) (db : Database K) : Weighed ids (scoredEdges ids db) db := by
  constructor
  · exact fun r hr => (Table.mem_select.1 hr).1
  · intro r hr
    have hsel := (Table.mem_select.1 hr).2
    simpa only [Bool.and_eq_true, List.contains_iff_mem] using hsel

omit [Field K] [LinearOrder K] in
theorem weighed_activeEdges (maxEdges : ℤ) (db : Database K) :
    Weighed (endpoints (activeEdges maxEdges db)) (activeEdges maxEdges db) db := by
  constructor
  · intro r hr
    have hsub := (sqlLimit_sublist maxEdges _).subset hr
    exact (Table.mem_select.1 ((List.mem_insertionSort _).1 hsub)).1
  · intro r hr
    have hends : ∀ x ∈ [r.1.1, r.1.2], x ∈ endpoints (activeEdges maxEdges db) :=
      fun x hx => List.mem_dedup.2 (List.mem_flatMap.2 ⟨r, hr, hx⟩)
    exact ⟨hends _ (by simp), hends _ (by simp)⟩

end Terms

/-- The lift of a pair with all four terms decayed to one instant. -/
noncomputable def liftAt (db : Database ℝ) (scope a b : String) (t : ℝ) : ℝ :=
  aged (edgeRow db a b) t * aged (scopeRow db scope) t / (aged (nodeRow db a) t * aged (nodeRow db b) t)

/-! ## What observations build -/

/-- Every counter is positive, a counted incident has a counted scope, and an observed pair two
counted incidents. -/
structure Observed (db : Database ℝ) : Prop where
  nodes : ∀ x s, db.nodeStats.find? x = some s →
    0 < s.observations ∧ ∃ c, scopeRow db s.scopeKey = some c
  scopes : ∀ k c, scopeRow db k = some c → 0 < c.1
  edges : ∀ a b e, db.edges.find? (a, b) = some e →
    a ≠ b ∧ 0 < e.weight ∧ (∃ s, db.nodeStats.find? a = some s) ∧ ∃ s, db.nodeStats.find? b = some s

section Observed

variable {rt : Runtime ℝ} {db db' : Database ℝ}

theorem Observed.nonneg (h : Observed db) : NonnegCounters db := by
  refine ⟨fun x c hc => ?_, fun k c hc => (h.scopes k c hc).le, fun k e he => (h.edges k.1 k.2 e he).2.1.le⟩
  obtain ⟨s, hs, rfl⟩ := Option.map_eq_some_iff.1 hc
  exact (h.nodes x s hs).1.le

theorem observed_of_noCounters (h : NoCounters db) : Observed db := by
  have hscope : ∀ k, scopeRow db k = none := fun k => by rw [scopeRow, h.scopeStats]; rfl
  exact ⟨by simp [h.nodeStats], by simp [hscope], by simp [h.edges]⟩

theorem SameCounters.observed (h : SameCounters db db') (ho : Observed db) : Observed db' := by
  obtain ⟨hn, hs, he⟩ := ho
  constructor
  · rw [h.nodeStats, h.scopes]
    exact hn
  · rw [h.scopes]
    exact hs
  · rw [h.edges, h.nodeStats]
    exact he

/-- A count is positive after an observation. -/
theorem nextCount_pos {row : Option (ℝ × ℤ)} {now : ℤ} {count : ℝ} (hexact : rt.Exact)
    (hpos : ∀ c, row = some c → 0 ≤ c.1) (h : nextCount rt row now = .ok count) : 0 < count := by
  obtain ⟨count', h', hlt⟩ := @nextCount_of_nonneg rt now row hexact hpos
  exact Except.ok.inj (h'.symm.trans h) ▸ hlt

theorem RoundRecorded.observed {r : Round} (h : RoundRecorded rt r db db') (hexact : rt.Exact)
    (hjoin : ∀ a b, (a, b) ∈ r.edges → a ∈ r.participants ∧ b ∈ r.participants ∧ a ≠ b)
    (ho : Observed db) : Observed db' := by
  have hnonneg := ho.nonneg
  obtain ⟨scopeCount, hscope, hscopeRow⟩ := h.scope
  have hkeepScope : ∀ k c, scopeRow db k = some c → ∃ c', scopeRow db' k = some c' := by
    intro k c hc
    by_cases hk : k = r.scopeKey
    · exact ⟨_, hk ▸ hscopeRow⟩
    · exact ⟨c, by rw [scopeRow, h.other_scopes k hk]; exact hc⟩
  have hkeepNode : ∀ x s, db.nodeStats.find? x = some s → ∃ s', db'.nodeStats.find? x = some s' := by
    intro x s hs
    by_cases hx : x ∈ r.participants
    · obtain ⟨count, -, hrow⟩ := h.nodes x hx
      exact ⟨_, hrow⟩
    · exact ⟨s, (h.other_nodes x hx).trans hs⟩
  refine ⟨fun x s hs => ?_, fun k c hc => ?_, fun a b e he => ?_⟩
  · by_cases hx : x ∈ r.participants
    · obtain ⟨count, hcount, hrow⟩ := h.nodes x hx
      obtain rfl := Option.some.inj (hrow.symm.trans hs)
      exact ⟨nextCount_pos hexact (hnonneg.nodes x) hcount, _, hscopeRow⟩
    · obtain ⟨hpos, c, hc⟩ := ho.nodes x s ((h.other_nodes x hx).symm.trans hs)
      exact ⟨hpos, hkeepScope _ c hc⟩
  · by_cases hk : k = r.scopeKey
    · subst hk
      obtain rfl := Option.some.inj (hscopeRow.symm.trans hc)
      exact nextCount_pos hexact (hnonneg.scopes _) hscope
    · refine ho.scopes k c ?_
      rw [scopeRow, ← h.other_scopes k hk]
      exact hc
  · by_cases hab : (a, b) ∈ r.edges
    · obtain ⟨weight, hweight, hrow⟩ := h.edges (a, b) hab
      obtain rfl := Option.some.inj (hrow.symm.trans he)
      rw [nextWeight_eq_nextCount _ (hnonneg.edges (a, b))] at hweight
      have hpos : ∀ c, (db.edges.find? (a, b)).map (fun e => (e.weight, e.lastSeenAt)) = some c →
          0 ≤ c.1 := by
        intro c hc
        obtain ⟨e, hfind, rfl⟩ := Option.map_eq_some_iff.1 hc
        exact hnonneg.edges _ e hfind
      obtain ⟨ha, hb, hne⟩ := hjoin a b hab
      obtain ⟨_, -, hrowa⟩ := h.nodes a ha
      obtain ⟨_, -, hrowb⟩ := h.nodes b hb
      exact ⟨hne, nextCount_pos hexact hpos hweight, ⟨_, hrowa⟩, _, hrowb⟩
    · obtain ⟨hne, hpos, ⟨sa, hsa⟩, sb, hsb⟩ := ho.edges a b e ((h.other_edges _ hab).symm.trans he)
      exact ⟨hne, hpos, hkeepNode a sa hsa, hkeepNode b sb hsb⟩

/-- **Every run of observations** keeps its counters so. -/
theorem observed_of_run {h : List (Transition (Database ℝ) GraphStep)} (hexact : rt.Exact)
    (run : GraphRun rt h db) : Observed db := by
  refine Run.induct (I := fun _ db => Observed db) run (fun _ => observed_of_noCounters) ?_
  intro h s label s' _ ih hstep
  cases label with
  | other => exact SameCounters.observed hstep ih
  | observe incidentId fingerprints =>
      rcases observeIncident_cases hstep with ⟨-, rfl⟩ | ⟨r, hr, hrecorded⟩
      · exact ih
      · exact hrecorded.observed hexact (fun a b hab => mem_edges hr hab) ih

end Observed

/-! ## The lift that is used -/

section Used

variable {rt : Runtime ℝ} {db : Database ℝ} {ids : List String} {rows : List ((String × String) × Edge ℝ)}

/-- What `_marginals` returns for candidates that were counted. -/
theorem marginals_eq {x : String} {s : NodeStats ℝ} (hx : x ∈ ids) (hs : db.nodeStats.find? x = some s) :
    ∃ scope, marginalScope ids db = some scope ∧
      (∃ y s', db.nodeStats.find? y = some s' ∧ s'.scopeKey = scope) ∧
      (marginals ids db).2 = ((scopeRow db scope).map Prod.fst).getD 0 ∧
      ∀ y s', y ∈ ids → db.nodeStats.find? y = some s' → (marginals ids db).1 y = s'.observations := by
  obtain ⟨rows, hrows⟩ : ∃ rows, db.nodeStats.select (fun k _ => ids.contains k) = rows := ⟨_, rfl⟩
  have hmem : ∀ y s', y ∈ ids → db.nodeStats.find? y = some s' → (y, s') ∈ rows := by
    intro y s' hy hs'
    rw [← hrows]
    exact Table.mem_select.2 ⟨hs', by simpa using hy⟩
  have hread : ∀ r ∈ rows, db.nodeStats.find? r.1 = some r.2 := by
    intro r hr
    exact (Table.mem_select.1 (hrows ▸ hr)).1
  unfold marginalScope marginals
  rw [hrows]
  cases rows with
  | nil => exact absurd (hmem x s hx hs) List.not_mem_nil
  | cons first rest =>
      refine ⟨first.2.scopeKey, rfl, ⟨first.1, first.2, hread first List.mem_cons_self, rfl⟩, ?_, ?_⟩
      · show ((db.scopeStats.find? _).map _).getD 0 = _
        rw [scopeRow, Option.map_map]
        rfl
      · intro y s' hy hs'
        show (((first :: rest).find? fun r => r.1 = y).map fun r => r.2.observations).getD 0 = _
        cases hfind : (first :: rest).find? (fun r => decide (r.1 = y)) with
        | none => exact absurd (hmem y s' hy hs') fun hin => by simpa using List.find?_eq_none.1 hfind _ hin
        | some r =>
            have hkey : r.1 = y := by simpa using List.find?_some hfind
            have hr := hread r (List.mem_of_find?_eq_some hfind)
            rw [hkey, hs'] at hr
            obtain rfl := Option.some.inj hr
            rfl

/-- No scored edge is later than the newest. -/
theorem le_newest {r : (String × String) × Edge ℝ}
    (hr : r ∈ rows) : r.2.lastSeenAt ≤ newest rows := by
  unfold newest
  have hmem : r.2.lastSeenAt ∈ rows.map fun r => r.2.lastSeenAt := List.mem_map_of_mem hr
  cases hmax : (rows.map fun r => r.2.lastSeenAt).max? with
  | none => rw [List.max?_eq_none_iff.1 hmax] at hmem; exact absurd hmem List.not_mem_nil
  | some m => exact (List.max?_eq_some_iff.1 hmax).2 _ hmem

theorem newest_eq {r : (String × String) × Edge ℝ} {m : ℤ}
    (hr : r ∈ rows) (hall : ∀ r ∈ rows, r.2.lastSeenAt = m) : newest rows = m := by
  have hmax : (rows.map fun r => r.2.lastSeenAt).max? = some m := by
    rw [List.max?_eq_some_iff]
    refine ⟨hall r hr ▸ List.mem_map_of_mem hr, fun k hk => ?_⟩
    obtain ⟨r', hr', rfl⟩ := List.mem_map.1 hk
    exact (hall r' hr').le
  rw [newest, hmax]
  rfl

/-- What the lift of an edge is made of, in a graph that observations built. -/
theorem lift_parts (hexact : rt.Exact) (ho : Observed db) (hw : Weighed ids rows db) {a b : String} {e : Edge ℝ}
    (hrow : ((a, b), e) ∈ rows) : ∃ sa sb scope g,
    db.nodeStats.find? a = some sa ∧ db.nodeStats.find? b = some sb ∧
      marginalScope ids db = some scope ∧ scopeRow db scope = some g ∧
      0 < (marginals ids db).2 ∧ 0 < (marginals ids db).1 a ∧ 0 < (marginals ids db).1 b ∧
      0 < rowsLift rt ids rows db ((a, b), e) ∧
      ∀ t, liftAt db scope a b t = rowsLift rt ids rows db ((a, b), e) *
        remaining (sa.lastObservedAt + sb.lastObservedAt - g.2 - newest rows) := by
  have hnewest : e.lastSeenAt ≤ newest rows := le_newest hrow
  have hfind : db.edges.find? (a, b) = some e := hw.stored _ hrow
  have hsel : a ∈ ids ∧ b ∈ ids := hw.read _ hrow
  obtain ⟨-, hweight, ⟨sa, hsa⟩, sb, hsb⟩ := ho.edges a b e hfind
  obtain ⟨scope, hscope, ⟨y, s, hs, hkey⟩, hrounds, hobs⟩ := marginals_eq hsel.1 hsa
  obtain ⟨-, g, hg⟩ := ho.nodes y s hs
  rw [hkey] at hg
  have hroundsEq : (marginals ids db).2 = g.1 := by rw [hrounds, hg]; rfl
  have hposa := (ho.nodes a sa hsa).1
  have hposb := (ho.nodes b sb hsb).1
  have hposg := ho.scopes scope g hg
  have hlift : rowsLift rt ids rows db ((a, b), e) =
      e.weight * remaining (newest rows - e.lastSeenAt) * g.1 /
        (sa.observations * sb.observations) := by
    show decay rt e.weight ((max 0 (newest rows - e.lastSeenAt) : ℤ) : ℝ)
      defaultHalfLifeMs * (marginals ids db).2 / ((marginals ids db).1 a * (marginals ids db).1 b) = _
    rw [decay_exact hexact, max_eq_right (by omega), hroundsEq, hobs a sa hsel.1 hsa,
      hobs b sb hsel.2 hsb]
    push_cast
    rfl
  refine ⟨sa, sb, scope, g, hsa, hsb, hscope, hg, hroundsEq ▸ hposg, ?_, ?_, ?_, fun t => ?_⟩
  · rw [hobs a sa hsel.1 hsa]
    exact hposa
  · rw [hobs b sb hsel.2 hsb]
    exact hposb
  · rw [hlift]
    exact div_pos (mul_pos (mul_pos hweight (remaining_pos _)) hposg) (mul_pos hposa hposb)
  · have hnode : ∀ x s, db.nodeStats.find? x = some s →
        aged (nodeRow db x) t = s.observations * remaining (t - s.lastObservedAt) := by
      intro x s hs
      rw [nodeRow, hs]
      rfl
    have hedge : aged (edgeRow db a b) t = e.weight * remaining (t - e.lastSeenAt) := by
      rw [edgeRow, hfind]
      rfl
    have hscopeAged : aged (scopeRow db scope) t = g.1 * remaining (t - g.2) := by
      rw [hg]
      rfl
    unfold liftAt
    rw [hedge, hscopeAged, hnode a sa hsa, hnode b sb hsb, hlift]
    have hra := (remaining_pos (t - sa.lastObservedAt)).ne'
    have hrb := (remaining_pos (t - sb.lastObservedAt)).ne'
    -- the decays of all four terms, collected
    have hcollect : remaining (t - e.lastSeenAt) * remaining (t - g.2) =
        remaining (newest rows - e.lastSeenAt) *
          remaining (sa.lastObservedAt + sb.lastObservedAt - g.2 - newest rows) *
          (remaining (t - sa.lastObservedAt) * remaining (t - sb.lastObservedAt)) := by
      rw [← remaining_add, ← remaining_add, ← remaining_add, ← remaining_add]
      congr 1
      ring
    rw [div_eq_iff (by positivity)]
    have hoa := hposa.ne'
    have hob := hposb.ne'
    field_simp
    linear_combination hcollect

/-- The ranker weighs this lift, capped. -/
theorem score_evidence (hexact : rt.Exact) (ho : Observed db) (hw : Weighed ids rows db) {a b : String}
    {e : Edge ℝ} (hrow : ((a, b), e) ∈ rows) :
    ∃ es, score rt defaultHalfLifeMs (marginals ids db).1 (marginals ids db).2 rows = .ok (leader es) ∧
      ∃ ev ∈ es, ev.src = a ∧ ev.dst = b ∧
        ev.lift = min (rowsLift rt ids rows db ((a, b), e)) liftCap := by
  have hweight : ∀ r ∈ rows, 0 ≤ r.2.weight :=
    fun r hr => (ho.edges r.1.1 r.1.2 r.2 (hw.stored r hr)).2.1.le
  have hhalf : (0 : ℝ) < defaultHalfLifeMs := by norm_num [defaultHalfLifeMs]
  obtain ⟨weigh, hweigh⟩ : ∃ weigh, weigh = weighed rt defaultHalfLifeMs
      (marginals ids db).1 (marginals ids db).2 (newest rows) := ⟨_, rfl⟩
  refine ⟨rows.map weigh, ?_, weigh ((a, b), e),
    List.mem_map_of_mem hrow, by rw [hweigh]; rfl, by rw [hweigh]; rfl, ?_⟩
  · unfold score
    rw [if_neg (List.ne_nil_of_mem hrow), evidence_eq hhalf hweight, hweigh]
    rfl
  · obtain ⟨sa, sb, scope, g, -, -, -, -, hrounds, ha, hb, -⟩ := lift_parts hexact ho hw hrow
    rw [hweigh]
    show lift _ a b _ _ = _
    unfold lift
    dsimp only
    rw [if_neg (by simp [hrounds, ha, hb])]
    rfl

/-- Candidates with an edge between them are weighed. -/
theorem scoreRootCause_eq (ho : Observed db) {candidateIds : List String} {a b : String} {e : Edge ℝ}
    (hrow : ((a, b), e) ∈ scoredEdges candidateIds.dedup db) : scoreRootCause rt candidateIds db =
      score rt defaultHalfLifeMs (marginals candidateIds.dedup db).1 (marginals candidateIds.dedup db).2
        (scoredEdges candidateIds.dedup db) := by
  have hw := weighed_scoredEdges candidateIds.dedup db
  obtain ⟨ha, hb⟩ : a ∈ candidateIds.dedup ∧ b ∈ candidateIds.dedup := hw.read _ hrow
  have hne := (ho.edges a b e (hw.stored _ hrow)).1
  have htwo : ¬ candidateIds.dedup.length < 2 := by
    intro hlt
    have hpair : [a, b].Nodup := List.nodup_cons.2 ⟨by simpa using hne, List.nodup_singleton b⟩
    have hsub : [a, b] ⊆ candidateIds.dedup :=
      List.cons_subset.2 ⟨ha, List.cons_subset.2 ⟨hb, List.nil_subset _⟩⟩
    have hlength := (hpair.subperm hsub).length_le
    simp only [List.length_cons, List.length_nil] at hlength
    omega
  unfold scoreRootCause
  dsimp only
  rw [if_neg htwo]
  rfl

end Used

/-! ## The condition -/

section Condition

variable {rt : Runtime ℝ} {db : Database ℝ} {h : List (Transition (Database ℝ) GraphStep)}

/-- **When a lift compares terms of one age**, whichever stored edges are weighed: the lift that is used
before the cap is the lift of the four terms at one instant, whichever that is, if and only if
the last observations of the two incidents add up to the last observation of the scope and the
newest edge. -/
theorem lift_eq_iff_of_rows (hexact : rt.Exact) (ho : Observed db) {ids : List String}
    {rows : List ((String × String) × Edge ℝ)} (hw : Weighed ids rows db) {a b : String} {e : Edge ℝ}
    (hrow : ((a, b), e) ∈ rows) :
    ∃ es sa sb scope g,
      score rt defaultHalfLifeMs (marginals ids db).1 (marginals ids db).2 rows = .ok (leader es) ∧
      (∃ ev ∈ es, ev.src = a ∧ ev.dst = b ∧
        ev.lift = min (rowsLift rt ids rows db ((a, b), e)) liftCap) ∧
      db.nodeStats.find? a = some sa ∧ db.nodeStats.find? b = some sb ∧
      marginalScope ids db = some scope ∧ scopeRow db scope = some g ∧
      ∀ t, (rowsLift rt ids rows db ((a, b), e) = liftAt db scope a b t ↔
        sa.lastObservedAt + sb.lastObservedAt = g.2 + newest rows) := by
  obtain ⟨es, hes, hev⟩ := score_evidence hexact ho hw hrow
  obtain ⟨sa, sb, scope, g, hsa, hsb, hscope, hg, -, -, -, hpos, hlift⟩ := lift_parts hexact ho hw hrow
  refine ⟨es, sa, sb, scope, g, hes, hev, hsa, hsb, hscope, hg, fun t => ?_⟩
  rw [hlift t, eq_comm, mul_eq_left₀ hpos.ne', remaining_eq_one, sub_sub, sub_eq_zero]
  exact_mod_cast Iff.rfl

/-- **For the candidates of a neighbourhood**, in every graph that observations can build and for every
edge the ranker weighs. -/
theorem lift_eq_iff_of_run (hexact : rt.Exact) (run : GraphRun rt h db) {candidateIds : List String}
    {a b : String} {e : Edge ℝ} (hrow : ((a, b), e) ∈ scoredEdges candidateIds.dedup db) :
    ∃ es sa sb scope g, scoreRootCause rt candidateIds db = .ok (leader es) ∧
      (∃ ev ∈ es, ev.src = a ∧ ev.dst = b ∧
        ev.lift = min (uncappedLift rt candidateIds.dedup db ((a, b), e)) liftCap) ∧
      db.nodeStats.find? a = some sa ∧ db.nodeStats.find? b = some sb ∧
      marginalScope candidateIds.dedup db = some scope ∧ scopeRow db scope = some g ∧
      ∀ t, (uncappedLift rt candidateIds.dedup db ((a, b), e) = liftAt db scope a b t ↔
        sa.lastObservedAt + sb.lastObservedAt = g.2 + newest (scoredEdges candidateIds.dedup db)) := by
  have ho := observed_of_run hexact run
  rw [scoreRootCause_eq ho hrow]
  exact lift_eq_iff_of_rows hexact ho (weighed_scoredEdges _ db) hrow

/-- **For all active incidents**, the newest edges between them. -/
theorem lift_eq_iff_of_active (hexact : rt.Exact) (run : GraphRun rt h db) {maxEdges : Option ℤ}
    {rows : List ((String × String) × Edge ℝ)} (hrows : activeEdges (maxEdges.getD defaultMaxEdges) db = rows)
    {a b : String} {e : Edge ℝ} (hrow : ((a, b), e) ∈ rows) :
    ∃ es sa sb scope g, scoreActive rt maxEdges db = .ok (leader es) ∧
      (∃ ev ∈ es, ev.src = a ∧ ev.dst = b ∧
        ev.lift = min (rowsLift rt (endpoints rows) rows db ((a, b), e)) liftCap) ∧
      db.nodeStats.find? a = some sa ∧ db.nodeStats.find? b = some sb ∧
      marginalScope (endpoints rows) db = some scope ∧ scopeRow db scope = some g ∧
      ∀ t, (rowsLift rt (endpoints rows) rows db ((a, b), e) = liftAt db scope a b t ↔
        sa.lastObservedAt + sb.lastObservedAt = g.2 + newest rows) := by
  subst hrows
  exact lift_eq_iff_of_rows hexact (observed_of_run hexact run) (weighed_activeEdges _ db) hrow

end Condition

/-! ## Two pairs of one scope -/

/-- One more observation after the incidents have changed. -/
theorem GraphRun.observe {rt : Runtime ℝ} {db : Database ℝ}
    {h : List (Transition (Database ℝ) GraphStep)} {r : Round} {incidentId : String}
    {fingerprints : List String} (hexact : rt.Exact) (run : GraphRun rt h db)
    (incidents : Table String Incident)
    (hr : roundOf incidentId fingerprints { db with incidents := incidents } = some r) :
    ∃ h' db', GraphRun rt h' db' ∧ RoundRecorded rt r { db with incidents := incidents } db' := by
  have hother : graphStep rt db .other { db with incidents := incidents } := ⟨rfl, rfl, rfl⟩
  have hrun : GraphRun rt _ { db with incidents := incidents } := Run.next run hother
  obtain ⟨db', hok, -⟩ :=
    observeIncident_ok hexact (observed_of_run hexact hrun).nonneg incidentId fingerprints
  rcases observeIncident_cases hok with ⟨hnone, -⟩ | ⟨r', hr', hrecorded⟩
  · exact absurd (hnone.symm.trans hr) (by simp)
  · obtain rfl := Option.some.inj (hr'.symm.trans hr)
    exact ⟨_, db', Run.next hrun (show graphStep rt _ (.observe incidentId fingerprints) db' from hok),
      hrecorded⟩

/-- Another pair of the scope. -/
def teamRound (a b : String) (observedAt : ℤ) : Round where
  observedAt := observedAt
  scopeKey := "team"
  participants := [a, b]
  edges := [(a, b)]

/-- The disk and the api are observed together. -/
theorem exists_pair : ∃ h db, GraphRun Runtime.exact h db ∧
    RoundRecorded Runtime.exact (apiRound 2000) (teamDatabase 0 2000) db := by
  have hempty : NoCounters (K := ℝ) (teamDatabase 0 2000) := ⟨fun _ => rfl, fun _ => rfl, fun _ => rfl⟩
  exact @GraphRun.observe Runtime.exact _ _ (apiRound 2000) "api" ["disk", "api"] rfl
    (Run.start hempty) (teamIncidents 0 2000) rfl

/-- Where no other scope was counted, the scope that is read is as young as the latest round. -/
theorem youngest_scope {rt : Runtime ℝ} {db db' : Database ℝ} {r : Round} {scope : String} {g : ℝ × ℤ}
    (hrecorded : RoundRecorded rt r db db') (hnone : ∀ k, k ≠ r.scopeKey → db.scopeStats.find? k = none)
    (hg : scopeRow db' scope = some g) : g.2 = r.observedAt := by
  by_cases hscope : scope = r.scopeKey
  · subst hscope
    obtain ⟨count, -, hrounds⟩ := hrecorded.scope
    obtain rfl := Option.some.inj (hrounds.symm.trans hg)
    rfl
  · rw [scopeRow, hrecorded.other_scopes scope hscope, hnone scope hscope] at hg
    cases hg

/-- Where the two are active, their edge is read without candidates, and no other. -/
theorem activeEdges_pair {db₁ db : Database ℝ}
    (hrecorded : RoundRecorded Runtime.exact (apiRound 2000) (teamDatabase 0 2000) db₁)
    (hedges : db.edges = db₁.edges) (hincidents : db.incidents = teamIncidents 0 2000) :
    ∃ weight, (("disk", "api"), Edge.mk weight 2000) ∈ activeEdges defaultMaxEdges db ∧
      newest (activeEdges defaultMaxEdges db) = 2000 := by
  obtain ⟨weight, -, hedge⟩ := hrecorded.edges ("disk", "api") (by simp [apiRound])
  have honly : ∀ k e, db.edges.find? k = some e → k = ("disk", "api") := by
    intro k e hfind
    by_contra hk
    have hempty : db₁.edges.find? k = none := hrecorded.other_edges k fun hmem => hk (List.mem_singleton.1 hmem)
    rw [hedges, hempty] at hfind
    cases hfind
  rw [← hedges] at hedge
  obtain ⟨rows, hrows⟩ : ∃ rows, db.edges.select (fun k _ => (db.incidents.find? k.1).any (·.status.active) &&
      (db.incidents.find? k.2).any (·.status.active)) = rows := ⟨_, rfl⟩
  have hmem : (("disk", "api"), Edge.mk weight 2000) ∈ rows := by
    rw [← hrows]
    exact Table.mem_select.2 ⟨hedge, by rw [hincidents]; decide⟩
  have hlength : rows.length ≤ 1 := by
    have hsub : rows.map Prod.fst ⊆ [("disk", "api")] := by
      intro k hk
      obtain ⟨r, hr, rfl⟩ := List.mem_map.1 hk
      exact List.mem_singleton.2 (honly _ _ (Table.mem_select.1 (hrows ▸ hr)).1)
    have hnodup : (rows.map Prod.fst).Nodup := hrows ▸ Table.nodup_select _ _
    simpa using (hnodup.subperm hsub).length_le
  have hactive : activeEdges defaultMaxEdges db = rows.insertionSort fun a b => b.2.lastSeenAt ≤ a.2.lastSeenAt := by
    unfold activeEdges
    dsimp only
    rw [hrows]
    refine sqlLimit_of_le ?_
    rw [List.length_insertionSort, defaultMaxEdges]
    omega
  have hread : (("disk", "api"), Edge.mk weight 2000) ∈ activeEdges defaultMaxEdges db := by
    rw [hactive]
    exact (List.mem_insertionSort _).2 hmem
  refine ⟨weight, hread, newest_eq hread fun q hq => ?_⟩
  have hfind := (weighed_activeEdges defaultMaxEdges db).stored q hq
  rw [honly _ _ hfind, hedge] at hfind
  exact (congrArg Edge.lastSeenAt (Option.some.inj hfind)).symm

/-- **Without candidates**: the two are active, and were observed together and no more. -/
theorem lift_eq_iff_of_active_pair : ∃ h db e es sa sb scope g, GraphRun Runtime.exact h db ∧
    (("disk", "api"), e) ∈ activeEdges defaultMaxEdges db ∧ scoreActive Runtime.exact none db = .ok (leader es) ∧
    (∃ ev ∈ es, ev.src = "disk" ∧ ev.dst = "api") ∧
    db.nodeStats.find? "disk" = some sa ∧ db.nodeStats.find? "api" = some sb ∧
    marginalScope (endpoints (activeEdges defaultMaxEdges db)) db = some scope ∧ scopeRow db scope = some g ∧
    (sa.lastObservedAt = 2000 ∧ sb.lastObservedAt = 2000 ∧ g.2 = 2000 ∧
      newest (activeEdges defaultMaxEdges db) = 2000) ∧
    ∀ t, rowsLift Runtime.exact (endpoints (activeEdges defaultMaxEdges db)) (activeEdges defaultMaxEdges db) db
      (("disk", "api"), e) = liftAt db scope "disk" "api" t := by
  obtain ⟨h₁, db₁, hrun₁, hrecorded⟩ := exists_pair
  have hother : graphStep Runtime.exact db₁ .other { db₁ with incidents := teamIncidents 0 2000 } := ⟨rfl, rfl, rfl⟩
  obtain ⟨db, hdb⟩ : ∃ db : Database ℝ, db = { db₁ with incidents := teamIncidents 0 2000 } := ⟨_, rfl⟩
  rw [← hdb] at hother
  obtain ⟨weight, hread, hnewest⟩ := @activeEdges_pair db₁ db hrecorded (by rw [hdb]) (by rw [hdb])
  obtain ⟨es, sa, sb, scope, g, hes, ⟨ev, hev, hsrc, hdst, -⟩, hsa, hsb, hscope, hg, hiff⟩ :=
    @lift_eq_iff_of_active Runtime.exact db _ rfl (Run.next hrun₁ hother) none _ rfl _ _ _ hread
  have hnodes : db.nodeStats = db₁.nodeStats := by rw [hdb]
  have hscopes : scopeRow db = scopeRow db₁ := by rw [hdb]; rfl
  obtain ⟨diskCount, -, hdisk⟩ := hrecorded.nodes "disk" (by simp [apiRound])
  obtain ⟨apiCount, -, hapi⟩ := hrecorded.nodes "api" (by simp [apiRound])
  rw [← hnodes] at hdisk hapi
  obtain rfl := Option.some.inj (hdisk.symm.trans hsa)
  obtain rfl := Option.some.inj (hapi.symm.trans hsb)
  have hyoung : g.2 = 2000 := youngest_scope hrecorded (fun _ _ => rfl) (hscopes ▸ hg)
  refine ⟨_, db, _, es, _, _, scope, g, Run.next hrun₁ hother, hread, hes, ⟨ev, hev, hsrc, hdst⟩, hsa, hsb, hscope,
    hg, ⟨rfl, rfl, hyoung, hnewest⟩, fun t => (hiff t).2 ?_⟩
  change (2000 : ℤ) + 2000 = g.2 + newest (activeEdges defaultMaxEdges db)
  rw [hyoung, hnewest]

/-- A round that observes no edge between the disk and the api leaves theirs the newest. -/
theorem newest_pair {db₁ db : Database ℝ} {incidents : Table String Incident} {r : Round}
    (hfirst : RoundRecorded Runtime.exact (apiRound 2000) (teamDatabase 0 2000) db₁)
    (hsecond : RoundRecorded Runtime.exact r { db₁ with incidents := incidents } db)
    (hout : ∀ k ∈ r.edges, ¬ (["disk", "api"].dedup.contains k.1 && ["disk", "api"].dedup.contains k.2)) :
    ∃ weight, (("disk", "api"), Edge.mk weight 2000) ∈ scoredEdges ["disk", "api"].dedup db ∧
      newest (scoredEdges ["disk", "api"].dedup db) = 2000 := by
  obtain ⟨weight, -, hedge₁⟩ := hfirst.edges ("disk", "api") (by simp [apiRound])
  have hnot : ("disk", "api") ∉ r.edges := fun hmem => hout _ hmem (by decide)
  have hedge : db.edges.find? ("disk", "api") = some ⟨weight, 2000⟩ :=
    (hsecond.other_edges _ hnot).trans hedge₁
  have hrow : (("disk", "api"), Edge.mk weight 2000) ∈ scoredEdges ["disk", "api"].dedup db :=
    Table.mem_select.2 ⟨hedge, by decide⟩
  refine ⟨weight, hrow, newest_eq hrow fun q hq => ?_⟩
  obtain ⟨hfind, hsel⟩ := Table.mem_select.1 hq
  have hbefore := (hsecond.other_edges _ fun hmem => hout _ hmem hsel).symm.trans hfind
  by_cases hpair : q.1 ∈ (apiRound 2000).edges
  · rw [List.mem_singleton.1 hpair] at hfind
    rw [← Option.some.inj (hedge.symm.trans hfind)]
  · cases (hfirst.other_edges _ hpair).symm.trans hbefore

/-- **Ages that cancel**: the api is observed again with the net, an hour later.  The scope is an hour
younger than the edge of the pair, and so is the api than the disk. -/
theorem lift_eq_iff_of_run_pair : ∃ h db e es sa sb scope g, GraphRun Runtime.exact h db ∧
    ((("disk", "api"), e) ∈ scoredEdges ["disk", "api"].dedup db) ∧
    scoreRootCause Runtime.exact ["disk", "api"] db = .ok (leader es) ∧
    (∃ ev ∈ es, ev.src = "disk" ∧ ev.dst = "api" ∧
      ev.lift = min (uncappedLift Runtime.exact ["disk", "api"].dedup db (("disk", "api"), e)) liftCap) ∧
    db.nodeStats.find? "disk" = some sa ∧ db.nodeStats.find? "api" = some sb ∧
    marginalScope ["disk", "api"].dedup db = some scope ∧ scopeRow db scope = some g ∧
    (sa.lastObservedAt = 2000 ∧ sb.lastObservedAt = 3602000 ∧ g.2 = 3602000 ∧
      newest (scoredEdges ["disk", "api"].dedup db) = 2000) ∧
    ∀ t, uncappedLift Runtime.exact ["disk", "api"].dedup db (("disk", "api"), e) =
      liftAt db scope "disk" "api" t := by
  have hexact : Runtime.exact.Exact := rfl
  obtain ⟨h₁, db₁, hrun₁, hfirst⟩ := exists_pair
  obtain ⟨h, db, hrun, hsecond⟩ := @GraphRun.observe Runtime.exact _ _ (teamRound "api" "net" 3602000) "net"
    ["api", "net"] hexact hrun₁
    ((Table.empty.insert "api" (teamIncident "api" 0)).insert "net" (teamIncident "net" 3602000)) rfl
  obtain ⟨weight, hrow, hnewest⟩ := newest_pair hfirst hsecond (by decide)
  obtain ⟨es, sa, sb, scope, g, hes, hev, hsa, hsb, hscope, hg, hiff⟩ :=
    @lift_eq_iff_of_run Runtime.exact _ _ hexact hrun _ _ _ _ hrow
  -- the disk was observed in the first round only, the api in both
  obtain ⟨diskCount, -, hdisk₁⟩ := hfirst.nodes "disk" (by simp [apiRound])
  have hdisk : db.nodeStats.find? "disk" = some ⟨"team", diskCount, 2000⟩ :=
    (hsecond.other_nodes "disk" (by decide)).trans hdisk₁
  obtain ⟨apiCount, -, hapi⟩ := hsecond.nodes "api" (by simp [teamRound])
  obtain rfl := Option.some.inj (hdisk.symm.trans hsa)
  obtain rfl := Option.some.inj (hapi.symm.trans hsb)
  have hyoung : g.2 = 3602000 := youngest_scope hsecond hfirst.other_scopes hg
  refine ⟨h, db, _, es, _, _, scope, g, hrun, hrow, hes, hev, hsa, hsb, hscope, hg,
    ⟨rfl, rfl, hyoung, hnewest⟩, fun t => (hiff t).2 ?_⟩
  rw [hyoung, hnewest]
  rfl

/-- **A lift of four ages**: the disk and the api are observed together, and an hour later the cpu and
the net.  The rounds of the scope are an hour younger than what is known of the first pair. -/
theorem not_sameAge : ¬ ∀ h db, GraphRun Runtime.exact h db →
    ∀ (candidateIds : List String) a b e, ((a, b), e) ∈ scoredEdges candidateIds.dedup db → ∀ scope,
      marginalScope candidateIds.dedup db = some scope →
      ∃ t, uncappedLift Runtime.exact candidateIds.dedup db ((a, b), e) = liftAt db scope a b t := by
  intro hall
  have hexact : Runtime.exact.Exact := rfl
  obtain ⟨h₁, db₁, hrun₁, hfirst⟩ := exists_pair
  obtain ⟨h, db, hrun, hsecond⟩ := @GraphRun.observe Runtime.exact _ _ (teamRound "cpu" "net" 3602000) "net"
    ["cpu", "net"] hexact hrun₁
    ((Table.empty.insert "cpu" (teamIncident "cpu" 0)).insert "net" (teamIncident "net" 3602000)) rfl
  obtain ⟨weight, hrow, hnewest⟩ := newest_pair hfirst hsecond (by decide)
  obtain ⟨sa, sb, scope, g, hsa, hsb, hscope, hg, -, -, -, hpos, hlift⟩ :=
    lift_parts hexact (observed_of_run hexact hrun) (weighed_scoredEdges _ db) hrow
  obtain ⟨t, ht⟩ := hall h db hrun ["disk", "api"] "disk" "api" _ hrow scope hscope
  -- the second round leaves the rows of the first pair alone
  obtain ⟨diskCount, -, hdisk⟩ := hfirst.nodes "disk" (by simp [apiRound])
  obtain ⟨apiCount, -, hapi⟩ := hfirst.nodes "api" (by simp [apiRound])
  obtain rfl := Option.some.inj (((hsecond.other_nodes "disk" (by decide)).trans hdisk).symm.trans hsa)
  obtain rfl := Option.some.inj (((hsecond.other_nodes "api" (by decide)).trans hapi).symm.trans hsb)
  have hyoung : g.2 = 3602000 := youngest_scope hsecond hfirst.other_scopes hg
  rw [uncappedLift, hlift t, eq_comm, mul_eq_left₀ hpos.ne', remaining_eq_one, hyoung, hnewest] at ht
  norm_num [apiRound] at ht

end PulseGraph
