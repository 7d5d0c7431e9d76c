/-
# Whom an alert ties its incident to

`assign_group` runs on what `observe_incident` has just written.  An observation adds one to the
weights of the edges it finds, and an edge it adds has weight one, too little to group on: so
the neighbours an alert groups its incident with are told by the edges that are stored *before*
it.

**Proved here.**  `edges_observed`: an observation leaves the stored edges in their places, each as it
counts afterwards, and appends the new ones.  `strongNeighbours_observed`: the strong neighbours
after an alert are those that the stored edges tie to its incident, and a new incident has
none (`DeploymentRun.known_of_ties`).
-/

import PulseGraph.Engine.AlertRound
import PulseGraph.Engine.Frames
import PulseGraph.Outbox.Deployment

namespace PulseGraph

open Library (Run Table Transition bind_eq_ok foldlM_induct)

variable {K : Type}

/-! ## The edges an observation leaves -/

section Observed

variable [Field K] [LinearOrder K] {rt : Runtime K} {db db' : Database K}

/-- One related incident drops no edge and moves none. -/
theorem observeRelated_keys {currentId : String} {t : ℤ} {related : String × Incident}
    (h : observeRelated rt currentId t db related = .ok db') :
    ∃ extra, db'.edges.rows.map Prod.fst = db.edges.rows.map Prod.fst ++ extra := by
  unfold observeRelated at h
  by_cases hc : related.1 = currentId
  · rw [if_pos hc] at h
    exact ⟨[], by rw [Except.ok.inj h, List.append_nil]⟩
  · rw [if_neg hc] at h
    obtain ⟨weight, -, h⟩ := bind_eq_ok.1 h
    obtain rfl := Except.ok.inj h
    exact Table.keys_upsert

/-- And so does an observation. -/
theorem observeIncident_keys {incidentId : String} {fingerprints : List String}
    (h : observeIncident rt incidentId fingerprints db = .ok db') :
    ∃ extra, db'.edges.rows.map Prod.fst = db.edges.rows.map Prod.fst ++ extra := by
  unfold observeIncident at h
  dsimp only at h
  split_ifs at h
  · exact ⟨[], by rw [Except.ok.inj h, List.append_nil]⟩
  · split at h
    · exact ⟨[], by rw [Except.ok.inj h, List.append_nil]⟩
    · obtain ⟨db₂, hround, hloop⟩ := bind_eq_ok.1 h
      obtain ⟨db₁, hnodes, hscope⟩ := bind_eq_ok.1 hround
      have hbefore : db₂.edges = db.edges := by
        unfold recordScope at hscope
        obtain ⟨rounds, -, hscope⟩ := bind_eq_ok.1 hscope
        obtain rfl := Except.ok.inj hscope
        exact congrArg Prod.fst (foldlM_same hnodes fun _ _ _ hstep => recordParticipant_same hstep)
      refine foldlM_induct (P := fun b : Database K =>
        ∃ extra, b.edges.rows.map Prod.fst = db.edges.rows.map Prod.fst ++ extra) hloop
        ⟨[], by rw [hbefore, List.append_nil]⟩ ?_
      rintro a related b - ⟨extra, hextra⟩ hstep
      obtain ⟨more, hmore⟩ := observeRelated_keys hstep
      exact ⟨extra ++ more, by rw [hmore, hextra, List.append_assoc]⟩

end Observed

/-! ## The ties of an alert -/

section Ties

variable (rt : Runtime K) [Field K] [LinearOrder K]

/-- An edge to a companion counts one more observation. -/
def edgeAfter (now : ℤ) (d : EngineDecision) (db : Database K) (k : String × String) (e : Edge K) : Edge K :=
  if (companions rt now d db).any fun r => decide (edgeKey d.incidentId d.event.firedAt.isoMs r = k) then
    ⟨(nextWeight rt (some e) d.event.firedAt.isoMs).toOption.getD e.weight, d.event.firedAt.isoMs⟩
  else e

/-- **The ties of an alert**: whom the stored edges tie strongly to its incident, once those to its
companions count one more observation; none for a bypass, which is not correlated. -/
def ties (now : ℤ) (d : EngineDecision) (db : Database K) : List String :=
  if d.isCriticalBypass then []
  else strongNeighbours d.incidentId d.scopeKey { db with edges := db.edges.update (edgeAfter rt now d db) }

variable {rt} {now : ℤ} {d : EngineDecision} {db db' : Database K}

omit [Field K] [LinearOrder K] in
/-- The edges of an alert. -/
theorem mem_upsertedEdges (hb : d.isCriticalBypass = false) (hfits : d.Fits db) {k : String × String} :
    k ∈ upsertedEdges rt now d (persisted rt now d db) ↔
      ((companions rt now d db).any fun r => decide (edgeKey d.incidentId d.event.firedAt.isoMs r = k)) = true := by
  rw [upsertedEdges_eq hb hfits, List.mem_map, List.any_eq_true]
  simp only [decide_eq_true_eq]

/-- **What an alert leaves of the edges**: those that are stored, each as it counts afterwards, and then
new ones of weight one. -/
theorem edges_observed (hb : d.isCriticalBypass = false) (hfits : d.Fits db)
    (h : observeIncident rt d.incidentId (correlationNeighbourhood rt now d.scopeKey (persisted rt now d db))
      (persisted rt now d db) = .ok db') :
    ∃ new, db'.edges.rows = (db.edges.update (edgeAfter rt now d db)).rows ++ new ∧
      ∀ r ∈ new, r.2.weight = 1 := by
  have hround : (∀ k ∈ upsertedEdges rt now d (persisted rt now d db), ∃ weight,
      nextWeight rt (db.edges.find? k) d.event.firedAt.isoMs = .ok weight ∧
        db'.edges.find? k = some ⟨weight, d.event.firedAt.isoMs⟩) ∧
      ∀ k ∉ upsertedEdges rt now d (persisted rt now d db), db'.edges.find? k = db.edges.find? k := by
    unfold upsertedEdges
    rw [hb, if_neg (by simp)]
    rcases observeIncident_cases h with ⟨hnone, rfl⟩ | ⟨r, hr, hrecorded⟩
    · rw [hnone]
      exact ⟨fun k hk => absurd hk List.not_mem_nil, fun k _ => rfl⟩
    · rw [hr]
      obtain ⟨incidents, current, rfl, hcurrent, rfl⟩ := roundOf_eq_some hr
      have hcurrent := (Table.mem_select.1 hcurrent).1
      rw [find?_persisted_self] at hcurrent
      obtain rfl := Option.some.inj hcurrent
      have hat : (persistedIncident now d (db.incidents.find? d.incidentId)).lastAlertAt =
          d.event.firedAt.isoMs := ownRow_lastAlertAt
      rw [hat] at hrecorded ⊢
      exact ⟨hrecorded.edges, hrecorded.other_edges⟩
  obtain ⟨hround, hother⟩ := hround
  obtain ⟨extra, hkeys⟩ := observeIncident_keys h
  obtain ⟨new, hrows, hnew⟩ := Table.rows_append_of_keys (t := db.edges) (g := edgeAfter rt now d db) hkeys
    fun k e he => by
      unfold edgeAfter
      split_ifs with hk
      · obtain ⟨weight, hweight, hfind⟩ := hround k ((mem_upsertedEdges hb hfits).2 hk)
        rw [he] at hweight
        rw [hfind, hweight]
        rfl
      · rw [hother k fun hmem => hk ((mem_upsertedEdges hb hfits).1 hmem), he]
  refine ⟨new, hrows, fun r hr => ?_⟩
  obtain ⟨hbefore, hafter⟩ := hnew r hr
  by_cases hk : r.1 ∈ upsertedEdges rt now d (persisted rt now d db)
  · obtain ⟨weight, hweight, hfind⟩ := hround _ hk
    rw [hbefore] at hweight
    rw [hafter] at hfind
    obtain rfl := Except.ok.inj hweight
    exact congrArg Edge.weight (Option.some.inj hfind)
  · rw [hother _ hk, hbefore] at hafter
    cases hafter

/-- An edge of weight one ties nobody. -/
theorem select_observed [IsStrictOrderedRing K] {new : List ((String × String) × Edge K)}
    (hrows : db'.edges.rows = (db.edges.update (edgeAfter rt now d db)).rows ++ new)
    (hnew : ∀ r ∈ new, r.2.weight = 1) (p : String × String → Bool) :
    (db'.edges.select fun k e => p k && decide (groupEdgeThreshold ≤ e.weight)) =
      (db.edges.update (edgeAfter rt now d db)).select fun k e => p k && decide (groupEdgeThreshold ≤ e.weight) := by
  have hweak : ¬ (groupEdgeThreshold : K) ≤ 1 := by
    unfold groupEdgeThreshold
    norm_num
  have hnil : new.filter (fun r => p r.1 && decide (groupEdgeThreshold ≤ r.2.weight)) = [] :=
    List.filter_eq_nil_iff.2 fun r hr => by simp [hnew r hr, hweak]
  rw [Table.select, hrows, List.filter_append, hnil, List.append_nil]
  rfl

/-- **The strong neighbours after an alert** are its ties. -/
theorem strongNeighbours_observed [IsStrictOrderedRing K] (hb : d.isCriticalBypass = false) (hfits : d.Fits db)
    (h : observeIncident rt d.incidentId (correlationNeighbourhood rt now d.scopeKey (persisted rt now d db))
      (persisted rt now d db) = .ok db') :
    strongNeighbours d.incidentId d.scopeKey db' = ties rt now d db := by
  obtain ⟨new, hrows, hnew⟩ := edges_observed hb hfits h
  have hincidents : db'.incidents = (persisted rt now d db).incidents := by rw [observeIncident_frame h]
  -- the other incidents are read as they were
  have hactive : ∀ y, ((db'.incidents.find? y).any (fun i => i.scopeKey = d.scopeKey && i.status.active) &&
      decide (y ≠ d.incidentId)) =
        ((db.incidents.find? y).any (fun i => i.scopeKey = d.scopeKey && i.status.active) &&
          decide (y ≠ d.incidentId)) := by
    intro y
    by_cases hy : y = d.incidentId
    · simp [hy]
    · rw [hincidents, find?_persisted_of_ne hy]
  unfold ties strongNeighbours
  rw [hb, if_neg (by simp)]
  simp only [select_observed hrows hnew, hactive]

/-- A strong neighbour is the other end of an edge. -/
theorem exists_edge_of_strongNeighbour {x y scopeKey : String}
    (h : y ∈ strongNeighbours x scopeKey db) : ∃ k e, db.edges.find? k = some e ∧ (k = (x, y) ∨ k = (y, x)) := by
  unfold strongNeighbours at h
  dsimp only at h
  obtain ⟨s, hs, rfl⟩ := List.mem_map.1 h
  obtain ⟨y, hy, rfl⟩ := List.mem_map.1
    ((List.mem_insertionSort _).1 ((sqlLimit_sublist _ _).subset hs))
  obtain ⟨r, hr, rfl⟩ := List.mem_map.1 (List.mem_dedup.1 hy)
  rcases List.mem_append.1 (List.mem_filter.1 hr).1 with hout | hin
  · obtain ⟨⟨⟨a, b⟩, e⟩, hedge, rfl⟩ := List.mem_map.1 hout
    obtain ⟨hfind, hsel⟩ := Table.mem_select.1 hedge
    simp only [Bool.and_eq_true, decide_eq_true_eq] at hsel
    exact ⟨(a, b), e, hfind, .inl (Prod.ext hsel.1 rfl)⟩
  · obtain ⟨⟨⟨a, b⟩, e⟩, hedge, rfl⟩ := List.mem_map.1 hin
    obtain ⟨hfind, hsel⟩ := Table.mem_select.1 hedge
    simp only [Bool.and_eq_true, decide_eq_true_eq] at hsel
    exact ⟨(a, b), e, hfind, .inr (Prod.ext rfl hsel.1)⟩

/-- A tie is an incident that is there. -/
theorem known_of_mem_ties {y : String} (h : y ∈ ties rt now d db) : Known db y := by
  unfold ties at h
  split_ifs at h
  · cases h
  · obtain ⟨-, i, hi, -⟩ := mem_strongNeighbours h
    exact Option.isSome_iff_exists.2 ⟨i, hi⟩

end Ties

/-! ## Edges join incidents that are there -/

section EdgesJoin

variable {rt : Runtime K} {db db' : Database K}

/-- **Both ends of every edge are incidents.** -/
def EdgesJoin (db : Database K) : Prop :=
  ∀ a b e, db.edges.find? (a, b) = some e → Known db a ∧ Known db b

variable [Field K] [LinearOrder K]

/-- A request keeps the ends of the edges, and adds edges between incidents that are there. -/
theorem engineNext_edgesJoin {q : Request} (h : engineNext rt db q = some db') (hj : EdgesJoin db) :
    EdgesJoin db' := by
  have hknown := (engineNext_known h).1
  rcases engineNext_cases h with ⟨freshId, freshGroupId, now, event, d, rfl, hfresh, hok⟩ | ⟨hno, -⟩
  swap
  · intro a b e he
    rw [(engineNext_graph h hno).edges] at he
    exact ⟨hknown a (hj a b e he).1, hknown b (hj a b e he).2⟩
  have hcommits := (ingest_cases hfresh hok).1
  obtain ⟨-, db₁, hpersist, hrest⟩ := ingestEvent_parts hok
  have hcore : db'.core = db₁.core :=
    funext fun x => (hcommits.core x).trans ((persistDecision_commits hpersist).core x).symm
  have hbefore : db₁.edges = db.edges := (persistDecision_frame hpersist).edges
  have hold : ∀ a b e, db₁.edges.find? (a, b) = some e → Known db' a ∧ Known db' b := by
    intro a b e he
    rw [hbefore] at he
    exact ⟨hknown a (hj a b e he).1, hknown b (hj a b e he).2⟩
  rcases hrest with ⟨-, rfl⟩ | ⟨-, db₂, hobs, rfl⟩
  · exact hold
  generalize hdb' : redirectFor now d.incidentId _ _ = db' at hknown hold hcore ⊢
  have hedges : db'.edges = db₂.edges := by
    rw [← hdb']
    exact ((@regroup_engine _ db₂ _ _ freshGroupId now d.incidentId d.scopeKey).trans
      (redirectFor_engine now d.incidentId (regroup freshGroupId now d.incidentId d.scopeKey db₂).1)).edges
  intro a b e he
  rw [hedges] at he
  rcases observeIncident_writes hobs with rfl | ⟨participants, current, -, -, hthere, hwrites⟩
  · exact hold a b e he
  · by_cases hboth : a ∈ participants ∧ b ∈ participants
    · have hin : ∀ x ∈ participants, Known db' x := by
        intro x hx
        obtain ⟨i, hi, -⟩ := hthere x hx
        rw [known_iff_core, hcore, core_of_find? hi]
        rfl
      exact ⟨hin a hboth.1, hin b hboth.2⟩
    · rw [hwrites.edges a b hboth] at he
      exact hold a b e he

/-- **In every state of a deployment** the edges join incidents that are there. -/
theorem DeploymentRun.edgesJoin {h : List (Transition (Deployment K) Turn)} {s : Deployment K}
    (r : DeploymentRun rt h s) : EdgesJoin s.db := by
  refine r.induct (I := fun _ s => EdgesJoin s.db) ?_ ?_
  · rintro _ rfl a b e he
    simp [Deployment.initial, Database.empty] at he
  · intro h s turn s' _ hj hnext
    cases turn with
    | request q => exact engineNext_edgesJoin (deploymentNext_request hnext).1 hj
    | worker w step =>
        have hframe := (deploymentNext_worker hnext).1.frame
        intro a b e he
        rw [hframe] at he
        unfold Known
        rw [hframe]
        exact hj a b e he

/-- A new incident has no ties. -/
theorem EdgesJoin.known_of_ties {now : ℤ} {d : EngineDecision} (hj : EdgesJoin db) {y : String}
    (h : y ∈ ties rt now d db) : Known db d.incidentId := by
  unfold ties at h
  split_ifs at h
  · cases h
  · obtain ⟨k, e, he, hk⟩ := exists_edge_of_strongNeighbour h
    dsimp only at he
    rw [Table.find?_update] at he
    obtain ⟨e', he', -⟩ := Option.map_eq_some_iff.1 he
    rcases hk with rfl | rfl
    · exact (hj _ _ e' he').1
    · exact (hj _ _ e' he').2

end EdgesJoin

end PulseGraph
