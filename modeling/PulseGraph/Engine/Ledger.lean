/-
# What every transaction appends to

No transaction removes a raw event, an incident or an edge, and a raw event it adds comes after
all that are there and names an incident that is there when it commits.  `Appends` says so of two
databases, and every request leads to such a database (`engineNext_appends`).
-/

import PulseGraph.Engine.Queue

namespace PulseGraph

open Library (Table bind_eq_ok foldlM_induct)

variable {K : Type}

/-- The ledger is kept newest row first, and its rows name incidents that are there. -/
structure Ledgered (db : Database K) : Prop where
  ordered : db.rawEvents.Pairwise fun r r' => r'.seq < r.seq
  positive : ∀ r ∈ db.rawEvents, 0 < r.seq
  known : ∀ r ∈ db.rawEvents, (db.incidents.find? r.incidentId).isSome = true

theorem ledgered_empty : Ledgered (Database.empty : Database K) where
  ordered := List.Pairwise.nil
  positive _ hr := absurd hr List.not_mem_nil
  known _ hr := absurd hr List.not_mem_nil

/-- Its sequence numbers are distinct. -/
theorem Ledgered.nodup_seq {db : Database K} (hl : Ledgered db) : (db.rawEvents.map (·.seq)).Nodup :=
  List.pairwise_map.2 (hl.ordered.imp fun h => h.ne')

/-- The database `db'` is later than `db`: it has all its raw events, incidents and edges. -/
structure Appends (db db' : Database K) : Prop where
  ledger : ∃ rows, db'.rawEvents = rows ++ db.rawEvents
  incidents : ∀ x, (db.incidents.find? x).isSome = true → (db'.incidents.find? x).isSome = true
  edges : ∀ k, (db.edges.find? k).isSome = true → (db'.edges.find? k).isSome = true
  ledgered : Ledgered db → Ledgered db'

section Appends

variable {rt : Runtime K} {db db' db'' : Database K}

theorem Appends.refl (db : Database K) : Appends db db :=
  ⟨⟨[], rfl⟩, fun _ => id, fun _ => id, id⟩

theorem Appends.trans (h : Appends db db') (h' : Appends db' db'') : Appends db db'' := by
  obtain ⟨rows, hrows⟩ := h.ledger
  obtain ⟨rows', hrows'⟩ := h'.ledger
  exact ⟨⟨rows' ++ rows, by rw [hrows', hrows, List.append_assoc]⟩,
    fun x hx => h'.incidents x (h.incidents x hx), fun k hk => h'.edges k (h.edges k hk),
    fun hl => h'.ledgered (h.ledgered hl)⟩

theorem Appends.mem (h : Appends db db') {r : RawEvent} (hr : r ∈ db.rawEvents) : r ∈ db'.rawEvents := by
  obtain ⟨rows, hrows⟩ := h.ledger
  rw [hrows]
  exact List.mem_append_right _ hr

/-- **An earlier row is there with a later one**: what the ledger has up to a row it had when the
row was committed. -/
theorem Appends.mem_of_le (h : Appends db db') (hl : Ledgered db') {r r' : RawEvent}
    (hr' : r' ∈ db.rawEvents) (hr : r ∈ db'.rawEvents) (hle : r.seq ≤ r'.seq) : r ∈ db.rawEvents := by
  obtain ⟨rows, hrows⟩ := h.ledger
  have hordered := hl.ordered
  rw [hrows] at hr hordered
  rcases List.mem_append.1 hr with hnew | hold
  · have hlt := (List.pairwise_append.1 hordered).2.2 r hnew r' hr'
    omega
  · exact hold

/-- A write to the incidents that keeps them, with nothing appended. -/
theorem Appends.of_same (hledger : db'.rawEvents = db.rawEvents)
    (hincidents : ∀ x, (db'.incidents.find? x).isSome = (db.incidents.find? x).isSome)
    (hedges : ∀ k, (db.edges.find? k).isSome = true → (db'.edges.find? k).isSome = true) :
    Appends db db' := by
  refine ⟨⟨[], hledger⟩, fun x hx => (hincidents x).trans hx, hedges, fun hl => ⟨?_, ?_, ?_⟩⟩
  · rw [hledger]
    exact hl.ordered
  · rw [hledger]
    exact hl.positive
  · intro r hr
    rw [hledger] at hr
    rw [hincidents]
    exact hl.known r hr

/-- A persisted decision. -/
theorem appends_persisted {now : ℤ} {d : EngineDecision} : Appends db (persisted rt now d db) := by
  have hkeeps : ∀ x, (db.incidents.find? x).isSome = true →
      ((persisted rt now d db).incidents.find? x).isSome = true := by
    intro x hx
    rw [find?_persisted]
    split_ifs
    · rfl
    · exact hx
  refine ⟨⟨[ledgerRow rt now d db], persisted_rawEvents⟩, hkeeps, fun k hk => by rwa [persisted_edges], ?_⟩
  intro hl
  have hseq : 0 < (ledgerRow rt now d db).seq ∧ ∀ r ∈ db.rawEvents, r.seq < (ledgerRow rt now d db).seq := by
    have hordered := hl.ordered
    show 0 < (nextSeqAndPrevHash db).1 ∧ ∀ r ∈ db.rawEvents, r.seq < (nextSeqAndPrevHash db).1
    unfold nextSeqAndPrevHash
    cases hrows : db.rawEvents with
    | nil => exact ⟨Nat.one_pos, fun r hr => absurd hr List.not_mem_nil⟩
    | cons row rows =>
        refine ⟨Nat.succ_pos _, fun r hr => ?_⟩
        rw [hrows] at hordered
        rcases List.mem_cons.1 hr with rfl | hr
        · exact Nat.lt_succ_self _
        · exact Nat.lt_succ_of_lt (List.rel_of_pairwise_cons hordered hr)
  refine ⟨?_, ?_, ?_⟩
  · rw [persisted_rawEvents]
    exact List.pairwise_cons.2 ⟨hseq.2, hl.ordered⟩
  · rw [persisted_rawEvents]
    intro r hr
    rcases List.mem_cons.1 hr with rfl | hr
    · exact hseq.1
    · exact hl.positive r hr
  · intro r hr
    rw [persisted_rawEvents] at hr
    rcases List.mem_cons.1 hr with rfl | hr
    · show ((persisted rt now d db).incidents.find? d.incidentId).isSome = true
      rw [find?_persisted_self]
      rfl
    · exact hkeeps _ (hl.known r hr)

end Appends

/-! ## The transactions -/

section Transactions

variable [Field K] [LinearOrder K] {rt : Runtime K} {db db' : Database K}

/-- An observation drops no edge. -/
theorem observeIncident_edges {incidentId : String} {fingerprints : List String}
    (h : observeIncident rt incidentId fingerprints db = .ok db') (k : String × String)
    (hk : (db.edges.find? k).isSome = true) : (db'.edges.find? k).isSome = true := by
  unfold observeIncident at h
  dsimp only at h
  split_ifs at h with hf
  · exact Except.ok.inj h ▸ hk
  · split at h
    · exact Except.ok.inj h ▸ hk
    · obtain ⟨db₂, hround, hloop⟩ := bind_eq_ok.1 h
      obtain ⟨db₁, hnodes, hscope⟩ := bind_eq_ok.1 hround
      -- the round counts, and writes no edge
      have h₁ : db₁.edges = db.edges := by
        refine foldlM_induct (P := fun a => a.edges = db.edges) hnodes rfl fun a x b _ ha hab => ?_
        unfold recordParticipant at hab
        obtain ⟨w, -, hab⟩ := bind_eq_ok.1 hab
        obtain rfl := Except.ok.inj hab
        exact ha
      have h₂ : db₂.edges = db₁.edges := by
        unfold recordScope at hscope
        obtain ⟨w, -, hscope⟩ := bind_eq_ok.1 hscope
        obtain rfl := Except.ok.inj hscope
        rfl
      refine foldlM_induct (P := fun a => (a.edges.find? k).isSome = true) hloop (by rw [h₂, h₁]; exact hk) ?_
      intro a related b _ ha hab
      unfold observeRelated at hab
      by_cases hself : related.1 = incidentId
      · rw [if_pos hself] at hab
        exact Except.ok.inj hab ▸ ha
      · rw [if_neg hself] at hab
        obtain ⟨w, -, hab⟩ := bind_eq_ok.1 hab
        obtain rfl := Except.ok.inj hab
        dsimp only
        generalize (if related.2.lastAlertAt ≤ _ then (related.1, incidentId) else (incidentId, related.1)) = key
        rw [Table.find?_upsert_const]
        split_ifs
        · rfl
        · exact ha

theorem appends_observeIncident {incidentId : String} {fingerprints : List String}
    (h : observeIncident rt incidentId fingerprints db = .ok db') : Appends db db' := by
  have hframe := observeIncident_frame h
  exact .of_same (by rw [hframe]) (fun x => by rw [hframe]) (observeIncident_edges h)

omit [Field K] [LinearOrder K] in
/-- Storms are written beside the ledger and the edges. -/
theorem Regrouped.appends (h : Regrouped db db') (hedges : db'.edges = db.edges) : Appends db db' := by
  refine .of_same h.ledger (fun x => ?_) fun k hk => by rwa [hedges]
  have hmap := congrArg Option.isSome (h.incidents x)
  rwa [Option.isSome_map, Option.isSome_map] at hmap

theorem regroup_edges (freshGroupId : String) (now : ℤ) (x scopeKey : String) :
    (regroup freshGroupId now x scopeKey db).2.edges = db.edges := by
  have hassign : (assignGroup freshGroupId now x scopeKey db).2.edges = db.edges := by
    rw [assignGroup_frame]
  unfold regroup
  split
  · next heq => rw [heq] at hassign; exact hassign
  · next heq =>
      rw [heq] at hassign
      rw [refreshGroupForMember_frame]
      exact hassign

theorem appends_ingestEvent {freshId freshGroupId : String} {now : ℤ} {event : NormalizedEvent}
    {d : EngineDecision} (h : ingestEvent rt freshId freshGroupId now event db = .ok (d, db')) :
    Appends db db' := by
  obtain ⟨-, db₁, hpersist, hrest⟩ := ingestEvent_parts h
  obtain ⟨-, rfl⟩ := persistDecision_ok.1 hpersist
  rcases hrest with ⟨-, rfl⟩ | ⟨-, db₂, hobs, rfl⟩
  · exact appends_persisted
  · refine (appends_persisted.trans (appends_observeIncident hobs)).trans ?_
    refine ((regroup_regrouped _ _ _ _).trans (redirectFor_regrouped _ _ _)).appends ?_
    rw [redirectFor_frame]
    exact regroup_edges _ _ _ _

theorem appends_applyExternalAction {freshEventId : String} {now : ℤ} {action : ExternalAction}
    {result : ReconcileResult}
    (h : applyExternalAction rt freshEventId now action db = .ok (result, db')) : Appends db db' := by
  rcases applyExternalAction_cases h with ⟨-, -, hdb⟩ | ⟨-, i, next, d, db₁, -, -, hp, rfl⟩
  · rw [hdb]
    exact .of_same rfl (fun _ => rfl) fun _ => id
  obtain ⟨-, rfl⟩ := persistDecision_ok.1 hp
  have hpersisted : Appends db (persisted rt now d db) := appends_persisted
  refine hpersisted.trans ?_
  have hsame : SameCore (persisted rt now d db)
      (settleAction now action i.status next (persisted rt now d db)) :=
    settleAction_sameCore now action i.status next
  refine .of_same hsame.ledger (fun x => ?_) fun k hk => ?_
  · have hcore := congrArg Option.isSome (congrFun hsame.core x)
    rwa [Database.core, Database.core, Option.isSome_map, Option.isSome_map] at hcore
  · unfold settleAction recordInbound
    dsimp only
    rw [redirectFor_frame, refreshGroupForMember_frame]
    exact hk

/-- **Every request appends.** -/
theorem engineNext_appends {q : Request} (h : engineNext rt db q = some db') : Appends db db' := by
  unfold engineNext at h
  split_ifs at h
  obtain rfl := Option.some.inj h
  cases q with
  | ingest freshId freshGroupId now event =>
      cases hr : ingestEvent rt freshId freshGroupId now event db with
      | ok r => rw [serve, hr]; exact appends_ingestEvent hr
      | error e => rw [serve, hr]; exact Appends.refl db
  | timer freshEventId now incidentId quietAtMs =>
      cases hr : persistTrigger rt freshEventId now { incidentId, quietAtMs } db with
      | ok r =>
          obtain ⟨committed, db'⟩ := r
          rw [serve, hr]
          rcases persistTrigger_commits hr with ⟨-, rfl⟩ | ⟨d, -, hp⟩
          · exact Appends.refl db'
          · obtain ⟨-, rfl⟩ := persistDecision_ok.1 hp
            exact appends_persisted
      | error e => rw [serve, hr]; exact Appends.refl db
  | external freshEventId now action =>
      cases hr : applyExternalAction rt freshEventId now action db with
      | ok r => rw [serve, hr]; exact appends_applyExternalAction hr
      | error e => rw [serve, hr]; exact Appends.refl db
  | sweep freshEventIds now moment =>
      cases hr : sweepOnce rt freshEventIds now moment db with
      | ok r =>
          rw [serve, hr]
          exact sweepOnce_induct (P := Appends db) hr (Appends.refl db)
            fun _ _ _ _ _ _ _ _ ha h => ha.trans (appends_applyExternalAction h)
      | error e => rw [serve, hr]; exact Appends.refl db

end Transactions

end PulseGraph
