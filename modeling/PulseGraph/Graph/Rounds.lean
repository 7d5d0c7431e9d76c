/-
# One observation round

What `observe_incident` reads off the incidents before it writes anything is a `Round`: when
it is, who takes part, and which edges it observes.  What it then does to the three graph
tables is a function of the round alone (`observeIncident_cases`): one more observation for
each participant, for the scope and for each edge, and nothing else.
-/

import PulseGraph.Graph.ObserveIncident

namespace PulseGraph

open Library (Table bind_eq_ok foldlM_once)

/-- What an observation records. -/
structure Round where
  observedAt : ℤ
  scopeKey : String
  participants : List String
  edges : List (String × String)

section Rounds

variable {K : Type}

/-- The edge to a related incident: whoever fired first is the source. -/
def edgeKey (currentId : String) (currentTimeMs : ℤ) (related : String × Incident) : String × String :=
  if related.2.lastAlertAt ≤ currentTimeMs then (related.1, currentId) else (currentId, related.1)

/-- The round of `observe_incident`, where there is one: the active incidents with the given
fingerprints, if the incident itself is among them. -/
def roundOf (incidentId : String) (fingerprintList : List String) (db : Database K) : Option Round :=
  let fingerprints := fingerprintList.filter (· ≠ "")
  if fingerprints = [] then none
  else
    let incidents := db.incidents.select fun _ i =>
      fingerprints.contains i.stableFingerprint && i.status.active
    (incidents.find? fun row => row.1 = incidentId).map fun current =>
      { observedAt := current.2.lastAlertAt
        scopeKey := current.2.scopeKey
        participants := incidents.map Prod.fst
        edges := (incidents.filter fun related => related.1 ≠ incidentId).map
          (edgeKey incidentId current.2.lastAlertAt) }

/-- The counter of a node. -/
def nodeRow (db : Database K) (x : String) : Option (K × ℤ) :=
  (db.nodeStats.find? x).map fun s => (s.observations, s.lastObservedAt)

/-- The counter of a scope. -/
def scopeRow (db : Database K) (k : String) : Option (K × ℤ) :=
  (db.scopeStats.find? k).map fun s => (s.rounds, s.lastObservedAt)

/-- The counter of an edge. -/
def edgeRow (db : Database K) (a b : String) : Option (K × ℤ) :=
  (db.edges.find? (a, b)).map fun e => (e.weight, e.lastSeenAt)

/-! ## The edges of a round -/

/-- Where a round comes from. -/
theorem roundOf_eq_some {incidentId : String} {fingerprints : List String} {db : Database K} {r : Round}
    (h : roundOf incidentId fingerprints db = some r) : ∃ incidents current,
      incidents = db.incidents.select (fun _ i =>
        (fingerprints.filter (· ≠ "")).contains i.stableFingerprint && i.status.active) ∧
      (incidentId, current) ∈ incidents ∧ r =
        { observedAt := current.lastAlertAt
          scopeKey := current.scopeKey
          participants := incidents.map Prod.fst
          edges := (incidents.filter fun related => related.1 ≠ incidentId).map
            (edgeKey incidentId current.lastAlertAt) } := by
  unfold roundOf at h
  dsimp only at h
  split_ifs at h
  obtain ⟨⟨x, current⟩, hfind, rfl⟩ := Option.map_eq_some_iff.1 h
  have hx : x = incidentId := by simpa using List.find?_some hfind
  subst hx
  exact ⟨_, current, rfl, List.mem_of_find?_eq_some hfind, rfl⟩

/-- An edge of a round joins two participants. -/
theorem mem_edges {incidentId : String} {fingerprints : List String} {db : Database K} {r : Round}
    (h : roundOf incidentId fingerprints db = some r) {a b : String} (hab : (a, b) ∈ r.edges) :
    a ∈ r.participants ∧ b ∈ r.participants ∧ a ≠ b := by
  obtain ⟨incidents, current, -, hcurrent, rfl⟩ := roundOf_eq_some h
  obtain ⟨related, hrelated, hkey⟩ := List.mem_map.1 hab
  obtain ⟨hmem, hne⟩ := List.mem_filter.1 hrelated
  have hne : related.1 ≠ incidentId := by simpa using hne
  have hthere : related.1 ∈ incidents.map Prod.fst := List.mem_map_of_mem hmem
  have hself : incidentId ∈ incidents.map Prod.fst := List.mem_map_of_mem hcurrent
  unfold edgeKey at hkey
  split_ifs at hkey
  · obtain ⟨rfl, rfl⟩ := Prod.mk.inj hkey
    exact ⟨hthere, hself, hne⟩
  · obtain ⟨rfl, rfl⟩ := Prod.mk.inj hkey
    exact ⟨hself, hthere, hne.symm⟩

/-- **The edges of a round**: one for each other active incident that carries one of the fingerprints,
if the incident is active and carries one itself. -/
theorem roundOf_edges {incidentId : String} {fingerprintList : List String} {db : Database K}
    {current : Incident} (h : db.incidents.find? incidentId = some current) :
    ((roundOf incidentId fingerprintList db).map (·.edges)).getD [] =
      if (fingerprintList.filter (· ≠ "")).contains current.stableFingerprint && current.status.active then
        (db.incidents.select fun k i => decide (k ≠ incidentId) &&
          ((fingerprintList.filter (· ≠ "")).contains i.stableFingerprint && i.status.active)).map
            (edgeKey incidentId current.lastAlertAt)
      else [] := by
  split_ifs with hcarries
  · have hmem : (incidentId, current) ∈ db.incidents.select fun _ i =>
        (fingerprintList.filter (· ≠ "")).contains i.stableFingerprint && i.status.active :=
      Table.mem_select.2 ⟨h, hcarries⟩
    cases hround : roundOf incidentId fingerprintList db with
    | some r =>
        obtain ⟨incidents, current', rfl, hcurrent, rfl⟩ := roundOf_eq_some hround
        obtain rfl := Option.some.inj (h.symm.trans (Table.mem_select.1 hcurrent).1)
        show List.map _ (List.filter _ (List.filter _ _)) = _
        rw [List.filter_filter]
        rfl
    | none =>
        unfold roundOf at hround
        dsimp only at hround
        split_ifs at hround with hempty
        · rw [hempty] at hcarries
          simp at hcarries
        · have hfind := List.find?_eq_none.1 (Option.map_eq_none_iff.1 hround) _ hmem
          simp at hfind
  · cases hround : roundOf incidentId fingerprintList db with
    | none => rfl
    | some r =>
        obtain ⟨incidents, current', rfl, hcurrent, rfl⟩ := roundOf_eq_some hround
        obtain ⟨hfind, hsel⟩ := Table.mem_select.1 hcurrent
        obtain rfl := Option.some.inj (h.symm.trans hfind)
        exact absurd hsel hcarries

/-- Two related incidents have different edges to the current one. -/
theorem edgeKey_inj {currentId : String} {t : ℤ} {p q : String × Incident} (hp : p.1 ≠ currentId)
    (hq : q.1 ≠ currentId) (h : edgeKey currentId t p = edgeKey currentId t q) : p.1 = q.1 := by
  unfold edgeKey at h
  split_ifs at h
  · exact (Prod.mk.inj h).1
  · exact absurd (Prod.mk.inj h).1 hp
  · exact absurd (Prod.mk.inj h).1.symm hq
  · exact (Prod.mk.inj h).2

/-- Two rows of a selection under one key are one row. -/
theorem eq_of_mem_select {κ ρ : Type} [DecidableEq κ] {t : Table κ ρ} {p : κ → ρ → Bool} {x y : κ × ρ}
    (hx : x ∈ t.select p) (hy : y ∈ t.select p) (h : x.1 = y.1) : x = y := by
  obtain ⟨k, r⟩ := x
  obtain ⟨k', r'⟩ := y
  obtain rfl : k = k' := h
  exact Prod.ext rfl (Option.some.inj ((Table.mem_select.1 hx).1.symm.trans (Table.mem_select.1 hy).1))

/-- **An edge is observed in one direction.** -/
theorem not_mem_edges_swap {incidentId : String} {fingerprints : List String} {db : Database K}
    {r : Round} (h : roundOf incidentId fingerprints db = some r) {a b : String}
    (hab : (a, b) ∈ r.edges) : (b, a) ∉ r.edges := by
  obtain ⟨incidents, current, hincidents, -, rfl⟩ := roundOf_eq_some h
  intro hba
  obtain ⟨p, hp, hpkey⟩ := List.mem_map.1 hab
  obtain ⟨q, hq, hqkey⟩ := List.mem_map.1 hba
  obtain ⟨hpmem, hpne⟩ := List.mem_filter.1 hp
  obtain ⟨hqmem, hqne⟩ := List.mem_filter.1 hq
  have hpne : p.1 ≠ incidentId := by simpa using hpne
  have hqne : q.1 ≠ incidentId := by simpa using hqne
  have hone : p.1 = q.1 → p = q := eq_of_mem_select (hincidents ▸ hpmem) (hincidents ▸ hqmem)
  unfold edgeKey at hpkey hqkey
  split_ifs at hpkey hqkey with hple hqle hqle
  · exact hqne ((Prod.mk.inj hqkey).1.trans (Prod.mk.inj hpkey).2.symm)
  · have hpq := hone ((Prod.mk.inj hpkey).1.trans (Prod.mk.inj hqkey).2.symm)
    exact hqle (hpq ▸ hple)
  · have hpq := hone ((Prod.mk.inj hpkey).2.trans (Prod.mk.inj hqkey).1.symm)
    exact hple (hpq ▸ hqle)
  · exact hpne ((Prod.mk.inj hpkey).2.trans (Prod.mk.inj hqkey).1.symm)

end Rounds

/-! ## What a round records -/

section RoundRecorded

variable {K : Type} [Field K] [LinearOrder K]

/-- One more observation for every counter of the round, all at its instant. -/
structure RoundRecorded (rt : Runtime K) (r : Round) (db db' : Database K) : Prop where
  nodes : ∀ x ∈ r.participants, ∃ count, nextCount rt (nodeRow db x) r.observedAt = .ok count ∧
    db'.nodeStats.find? x = some ⟨r.scopeKey, count, r.observedAt⟩
  other_nodes : ∀ x ∉ r.participants, db'.nodeStats.find? x = db.nodeStats.find? x
  scope : ∃ count, nextCount rt (scopeRow db r.scopeKey) r.observedAt = .ok count ∧
    scopeRow db' r.scopeKey = some (count, r.observedAt)
  other_scopes : ∀ k, k ≠ r.scopeKey → db'.scopeStats.find? k = db.scopeStats.find? k
  edges : ∀ k ∈ r.edges, ∃ weight, nextWeight rt (db.edges.find? k) r.observedAt = .ok weight ∧
    db'.edges.find? k = some ⟨weight, r.observedAt⟩
  other_edges : ∀ k ∉ r.edges, db'.edges.find? k = db.edges.find? k

variable {rt : Runtime K} {db db' : Database K}

/-- The loop over the participants. -/
theorem recordParticipants_find? {participants : List String} {scopeKey : String} {now : ℤ}
    (hnodup : participants.Nodup) (h : participants.foldlM (recordParticipant rt scopeKey now) db = .ok db')
    (x : String) :
    (x ∈ participants → ∃ count, nextCount rt (nodeRow db x) now = .ok count ∧
      db'.nodeStats.find? x = some ⟨scopeKey, count, now⟩) ∧
    (x ∉ participants → db'.nodeStats.find? x = db.nodeStats.find? x) := by
  have honce := @foldlM_once _ _ _ _ _ _ (fun (db : Database K) x => db.nodeStats.find? x)
    (fun a x => a = x) (fun _ old new => ∃ count,
      nextCount rt (old.map fun s => (s.observations, s.lastObservedAt)) now = .ok count ∧
        new = some ⟨scopeKey, count, now⟩) _ _ _ h ?_ ?_ x
  · exact ⟨fun hx => honce.1 ⟨x, hx, rfl⟩, fun hx => honce.2 fun a ha heq => hx (heq ▸ ha)⟩
  · intro db₁ a db₂ _ hstep y
    unfold recordParticipant at hstep
    obtain ⟨count, hcount, hstep⟩ := bind_eq_ok.1 hstep
    obtain rfl := Except.ok.inj hstep
    dsimp only
    rw [Table.find?_upsert_const]
    constructor
    · rintro rfl
      exact ⟨count, hcount, if_pos rfl⟩
    · intro hne
      exact if_neg (Ne.symm hne)
  · exact hnodup.imp fun hne k hak hbk => hne (hak.trans hbk.symm)

/-- The loop over the related incidents. -/
theorem observeRelateds_find? {incidents : List (String × Incident)} {currentId : String} {now : ℤ}
    (hnodup : (incidents.map Prod.fst).Nodup)
    (h : incidents.foldlM (observeRelated rt currentId now) db = .ok db') (k : String × String) :
    (k ∈ (incidents.filter fun related => related.1 ≠ currentId).map (edgeKey currentId now) →
      ∃ weight, nextWeight rt (db.edges.find? k) now = .ok weight ∧
        db'.edges.find? k = some ⟨weight, now⟩) ∧
    (k ∉ (incidents.filter fun related => related.1 ≠ currentId).map (edgeKey currentId now) →
      db'.edges.find? k = db.edges.find? k) := by
  have honce := @foldlM_once _ _ _ _ _ _ (fun (db : Database K) k => db.edges.find? k)
    (fun related k => related.1 ≠ currentId ∧ edgeKey currentId now related = k)
    (fun _ old new => ∃ weight, nextWeight rt old now = .ok weight ∧ new = some ⟨weight, now⟩)
    _ _ _ h ?_ ?_ k
  · constructor
    · intro hk
      obtain ⟨related, hrelated, hkey⟩ := List.mem_map.1 hk
      obtain ⟨hmem, hne⟩ := List.mem_filter.1 hrelated
      exact honce.1 ⟨related, hmem, by simpa using hne, hkey⟩
    · intro hk
      refine honce.2 fun related hmem hhit => hk ?_
      exact List.mem_map.2 ⟨related, List.mem_filter.2 ⟨hmem, by simpa using hhit.1⟩, hhit.2⟩
  · intro db₁ related db₂ _ hstep key
    unfold observeRelated at hstep
    by_cases hc : related.1 = currentId
    · rw [if_pos hc] at hstep
      obtain rfl := Except.ok.inj hstep
      exact ⟨fun hhit => absurd hc hhit.1, fun _ => rfl⟩
    · rw [if_neg hc] at hstep
      obtain ⟨weight, hweight, hstep⟩ := bind_eq_ok.1 hstep
      obtain rfl := Except.ok.inj hstep
      dsimp only
      rw [Table.find?_upsert_const]
      constructor
      · rintro ⟨-, rfl⟩
        exact ⟨weight, hweight, if_pos rfl⟩
      · intro hmiss
        exact if_neg fun heq => hmiss ⟨hc, heq.symm⟩
  · refine (List.pairwise_map.1 hnodup).imp fun hne key hp hq => ?_
    exact hne (edgeKey_inj hp.1 hq.1 (hp.2.trans hq.2.symm))

omit [Field K] [LinearOrder K] in
/-- A step that leaves a part of the database alone, over a whole loop. -/
theorem foldlM_same {α τ : Type} {f : Database K → α → Except EngineError (Database K)}
    {g : Database K → τ} {l : List α} (h : l.foldlM f db = .ok db')
    (hstep : ∀ db a db', f db a = .ok db' → g db' = g db) : g db' = g db :=
  Library.foldlM_induct (P := fun b => g b = g db) h rfl fun a x b _ ha hab => (hstep a x b hab).trans ha

theorem recordParticipant_same {scopeKey : String} {now : ℤ} {x : String}
    (h : recordParticipant rt scopeKey now db x = .ok db') :
    (db'.edges, db'.scopeStats) = (db.edges, db.scopeStats) := by
  unfold recordParticipant at h
  obtain ⟨count, -, h⟩ := bind_eq_ok.1 h
  obtain rfl := Except.ok.inj h
  rfl

theorem observeRelated_same {currentId : String} {now : ℤ} {related : String × Incident}
    (h : observeRelated rt currentId now db related = .ok db') :
    (db'.nodeStats, db'.scopeStats) = (db.nodeStats, db.scopeStats) := by
  unfold observeRelated at h
  by_cases hc : related.1 = currentId
  · rw [if_pos hc] at h
    obtain rfl := Except.ok.inj h
    rfl
  · rw [if_neg hc] at h
    obtain ⟨weight, -, h⟩ := bind_eq_ok.1 h
    obtain rfl := Except.ok.inj h
    rfl

/-- **An observation records its round**, and does nothing where there is none. -/
theorem observeIncident_cases {incidentId : String} {fingerprints : List String}
    (h : observeIncident rt incidentId fingerprints db = .ok db') :
    (roundOf incidentId fingerprints db = none ∧ db' = db) ∨
      ∃ r, roundOf incidentId fingerprints db = some r ∧ RoundRecorded rt r db db' := by
  unfold observeIncident at h
  unfold roundOf
  dsimp only at h ⊢
  split_ifs at h ⊢ with hf
  · exact .inl ⟨rfl, (Except.ok.inj h).symm⟩
  · split at h
    · next hnone => exact .inl ⟨by rw [hnone]; rfl, (Except.ok.inj h).symm⟩
    · next x current hfind =>
        rw [hfind]
        refine .inr ⟨_, rfl, ?_⟩
        obtain ⟨db₂, hround, hloop⟩ := bind_eq_ok.1 h
        obtain ⟨db₁, hnodes, hscope⟩ := bind_eq_ok.1 hround
        unfold recordScope at hscope
        obtain ⟨rounds, hrounds, hscope⟩ := bind_eq_ok.1 hscope
        obtain rfl := Except.ok.inj hscope
        have hkeep₁ := foldlM_same hnodes fun _ _ _ hstep => recordParticipant_same hstep
        have hkeep₃ := foldlM_same hloop fun _ _ _ hstep => observeRelated_same hstep
        obtain ⟨hedges₁, hscopes₁⟩ := Prod.mk.inj hkeep₁
        obtain ⟨hnodes₃, hscopes₃⟩ := Prod.mk.inj hkeep₃
        have hnodup := Table.nodup_select db.incidents fun _ i =>
          (fingerprints.filter (· ≠ "")).contains i.stableFingerprint && i.status.active
        have hnode := recordParticipants_find? hnodup hnodes
        have hedge := observeRelateds_find? hnodup hloop
        dsimp only at hnodes₃ hscopes₃ hedge
        rw [hscopes₁] at hrounds hscopes₃
        refine ⟨fun x hx => ?_, fun x hx => ?_, ⟨rounds, hrounds, ?_⟩, fun k hk => ?_, fun k hk => ?_,
          fun k hk => ?_⟩
        · rw [hnodes₃]
          exact (hnode x).1 hx
        · rw [hnodes₃]
          exact (hnode x).2 hx
        · show (db'.scopeStats.find? _).map _ = _
          rw [hscopes₃, Table.find?_upsert, if_pos rfl]
          cases db.scopeStats.find? current.scopeKey <;> rfl
        · rw [hscopes₃, Table.find?_upsert, if_neg hk]
        · rw [← hedges₁]
          exact (hedge k).1 hk
        · rw [← hedges₁]
          exact (hedge k).2 hk

end RoundRecorded

end PulseGraph
