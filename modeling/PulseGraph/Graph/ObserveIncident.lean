/-
# The co-occurrence graph

`src/graph/edge_decay.py` and `src/graph/observe_incident.py`, over an ordered
field of weights.  An observation round writes the three graph tables alone
(`observeIncident_frame`).
-/

import PulseGraph.Config
import PulseGraph.Db.Schema
import PulseGraph.Library.Checked

namespace PulseGraph

open Library (Table bind_eq_ok foldlM_induct)

variable {K : Type} [Field K] [LinearOrder K] (rt : Runtime K)

/-- `DecayedWeights`. -/
structure DecayedWeights (K : Type) where
  joint : K
  source : K
  target : K

/-- `_validate_non_negative`. -/
def validateNonNegative (value : K) (fieldName : String) : Except EngineError K :=
  if value < 0 then .error (.valueError (fieldName ++ " must be finite and non-negative"))
  else .ok value

/-- `_decay`. -/
def decay (value elapsedMs halfLifeMs : K) : K := value * rt.halving elapsedMs halfLifeMs

/-- `decay_weights`. -/
def decayWeights (jointWeight sourceWeight targetWeight elapsedMs halfLifeMs : K) :
    Except EngineError (DecayedWeights K) := do
  let joint ← validateNonNegative jointWeight "joint_weight"
  let source ← validateNonNegative sourceWeight "source_weight"
  let target ← validateNonNegative targetWeight "target_weight"
  let elapsed ← validateNonNegative elapsedMs "elapsed_ms"
  let halfLife ← validateNonNegative halfLifeMs "half_life_ms"
  if halfLife = 0 then .error (.valueError "half_life_ms must be greater than zero")
  else .ok ⟨decay rt joint elapsed halfLife, decay rt source elapsed halfLife,
    decay rt target elapsed halfLife⟩

/-- `increment_weights`, with the increments of one observation. -/
def incrementWeights (previous : DecayedWeights K) (elapsedMs halfLifeMs : K) :
    Except EngineError (DecayedWeights K) := do
  let decayed ← decayWeights rt previous.joint previous.source previous.target elapsedMs halfLifeMs
  .ok ⟨decayed.joint + 1, decayed.source + 1, decayed.target + 1⟩

/-- `DEFAULT_HALF_LIFE_MS`. -/
def defaultHalfLifeMs : K := 3600000

/-- A marginal counter of `_record_round` after one more observation: `1.0` for a
counter that has no row yet, else the decayed count and one. -/
def nextCount (row : Option (K × ℤ)) (nowMs : ℤ) : Except EngineError K :=
  match row with
  | none => .ok 1
  | some (count, lastObservedAt) => do
      let elapsedMs := max 0 (nowMs - lastObservedAt)
      let decayed ← decayWeights rt count 0 0 elapsedMs defaultHalfLifeMs
      .ok (decayed.joint + 1)

/-- One participant's marginal counter in `_record_round`. -/
def recordParticipant (scopeKey : String) (nowMs : ℤ) (db : Database K) (incidentId : String) :
    Except EngineError (Database K) := do
  let row := (db.nodeStats.find? incidentId).map fun s => (s.observations, s.lastObservedAt)
  let observations ← nextCount rt row nowMs
  let stats : NodeStats K := ⟨scopeKey, observations, nowMs⟩
  .ok { db with nodeStats := db.nodeStats.upsert incidentId stats fun _ => stats }

/-- The scope's round counter in `_record_round`. -/
def recordScope (scopeKey : String) (nowMs : ℤ) (db : Database K) :
    Except EngineError (Database K) := do
  let row := (db.scopeStats.find? scopeKey).map fun s => (s.rounds, s.lastObservedAt)
  let rounds ← nextCount rt row nowMs
  .ok { db with
    scopeStats := db.scopeStats.upsert scopeKey ⟨rounds, nowMs, 1, 0⟩ fun row =>
      { row with
        rounds := rounds
        lastObservedAt := nowMs
        observedRevision := row.observedRevision + 1 } }

/-- `_record_round`. -/
def recordRound (participants : List String) (scopeKey : String) (nowMs : ℤ) (db : Database K) :
    Except EngineError (Database K) := do
  let db ← participants.foldlM (recordParticipant rt scopeKey nowMs) db
  recordScope rt scopeKey nowMs db

/-- The weight of an edge after one more observation. -/
def nextWeight (edge : Option (Edge K)) (currentTimeMs : ℤ) : Except EngineError K :=
  match edge with
  | none => .ok 1
  | some edge => do
      let elapsedMs := max 0 (currentTimeMs - edge.lastSeenAt)
      let updated ← incrementWeights rt ⟨edge.weight, edge.weight, edge.weight⟩ elapsedMs
        defaultHalfLifeMs
      .ok updated.joint

/-- One edge of the loop of `observe_incident`: the incident that fired first is the source. -/
def observeRelated (currentId : String) (currentTimeMs : ℤ) (db : Database K)
    (related : String × Incident) : Except EngineError (Database K) :=
  if related.1 = currentId then .ok db
  else do
    let key := if related.2.lastAlertAt ≤ currentTimeMs then (related.1, currentId)
      else (currentId, related.1)
    let weight ← nextWeight rt (db.edges.find? key) currentTimeMs
    let edge : Edge K := ⟨weight, currentTimeMs⟩
    .ok { db with edges := db.edges.upsert key edge fun _ => edge }

/-- `observe_incident`. -/
def observeIncident (incidentId : String) (fingerprintList : List String) (db : Database K) :
    Except EngineError (Database K) :=
  let fingerprints := fingerprintList.filter (· ≠ "")
  if fingerprints = [] then .ok db
  else
    let incidents := db.incidents.select fun _ i =>
      fingerprints.contains i.stableFingerprint && i.status.active
    match incidents.find? fun row => row.1 = incidentId with
    | none => .ok db
    | some (_, current) => do
        let db ← recordRound rt (incidents.map Prod.fst) current.scopeKey current.lastAlertAt db
        incidents.foldlM (observeRelated rt incidentId current.lastAlertAt) db

/-! ## What a round leaves alone -/

/-- Two databases that differ in the graph tables at most. -/
def SameButGraph (db db' : Database K) : Prop :=
  db' = { db with edges := db'.edges, nodeStats := db'.nodeStats, scopeStats := db'.scopeStats }

omit [Field K] [LinearOrder K] in
theorem SameButGraph.refl (db : Database K) : SameButGraph db db := rfl

omit [Field K] [LinearOrder K] in
theorem SameButGraph.trans {a b c : Database K} (h₁ : SameButGraph a b) (h₂ : SameButGraph b c) :
    SameButGraph a c := by
  unfold SameButGraph at *
  rw [h₂, h₁]

section Frame

variable {rt} {db db' : Database K}

theorem recordParticipant_frame {scopeKey : String} {nowMs : ℤ} {incidentId : String}
    (h : recordParticipant rt scopeKey nowMs db incidentId = .ok db') : SameButGraph db db' := by
  unfold recordParticipant at h
  obtain ⟨w, -, h⟩ := bind_eq_ok.1 h
  obtain rfl := Except.ok.inj h
  rfl

theorem recordScope_frame {scopeKey : String} {nowMs : ℤ}
    (h : recordScope rt scopeKey nowMs db = .ok db') : SameButGraph db db' := by
  unfold recordScope at h
  obtain ⟨w, -, h⟩ := bind_eq_ok.1 h
  obtain rfl := Except.ok.inj h
  rfl

theorem observeRelated_frame {currentId : String} {t : ℤ} {related : String × Incident}
    (h : observeRelated rt currentId t db related = .ok db') : SameButGraph db db' := by
  unfold observeRelated at h
  by_cases hc : related.1 = currentId
  · rw [if_pos hc] at h
    exact Except.ok.inj h ▸ SameButGraph.refl db
  · rw [if_neg hc] at h
    obtain ⟨w, -, h⟩ := bind_eq_ok.1 h
    obtain rfl := Except.ok.inj h
    rfl

/-- **A round writes the graph tables alone.** -/
theorem observeIncident_frame {incidentId : String} {fingerprints : List String}
    (h : observeIncident rt incidentId fingerprints db = .ok db') : SameButGraph db db' := by
  unfold observeIncident at h
  dsimp only at h
  split_ifs at h with hf
  · exact Except.ok.inj h ▸ SameButGraph.refl db
  · split at h
    · exact Except.ok.inj h ▸ SameButGraph.refl db
    · obtain ⟨db₂, hround, hloop⟩ := bind_eq_ok.1 h
      obtain ⟨db₁, hnodes, hscope⟩ := bind_eq_ok.1 hround
      have h₁ : SameButGraph db db₁ := foldlM_induct hnodes (SameButGraph.refl db)
        fun a _ b _ ha hab => ha.trans (recordParticipant_frame hab)
      have h₂ : SameButGraph db₁ db₂ := recordScope_frame hscope
      exact foldlM_induct hloop (h₁.trans h₂) fun a _ b _ ha hab => ha.trans (observeRelated_frame hab)

end Frame

/-! ## Which rows a round writes -/

/-- A round of some incidents writes edges between two of them, their marginals under the scope of
the round, and the counter of that scope. -/
structure RoundWrites (participants : List String) (scopeKey : String) (db db' : Database K) :
    Prop where
  edges : ∀ a b, ¬ (a ∈ participants ∧ b ∈ participants) →
    db'.edges.find? (a, b) = db.edges.find? (a, b)
  nodeStats : ∀ x, db'.nodeStats.find? x = db.nodeStats.find? x ∨
    x ∈ participants ∧ ∃ s, db'.nodeStats.find? x = some s ∧ s.scopeKey = scopeKey
  scopeStats : ∀ k, k ≠ scopeKey → db'.scopeStats.find? k = db.scopeStats.find? k

omit [Field K] [LinearOrder K] in
theorem RoundWrites.refl (participants : List String) (scopeKey : String) (db : Database K) :
    RoundWrites participants scopeKey db db :=
  ⟨fun _ _ _ => rfl, fun _ => .inl rfl, fun _ _ => rfl⟩

omit [Field K] [LinearOrder K] in
theorem RoundWrites.trans {participants : List String} {scopeKey : String} {a b c : Database K}
    (h₁ : RoundWrites participants scopeKey a b) (h₂ : RoundWrites participants scopeKey b c) :
    RoundWrites participants scopeKey a c := by
  refine ⟨fun x y hxy => (h₂.edges x y hxy).trans (h₁.edges x y hxy), fun x => ?_,
    fun k hk => (h₂.scopeStats k hk).trans (h₁.scopeStats k hk)⟩
  rcases h₂.nodeStats x with hsame | hwritten
  · rw [hsame]
    exact h₁.nodeStats x
  · exact .inr hwritten

section Writes

variable {rt} {db db' : Database K} {participants : List String} {scopeKey : String}

theorem recordParticipant_writes {nowMs : ℤ} {incidentId : String} (hmem : incidentId ∈ participants)
    (h : recordParticipant rt scopeKey nowMs db incidentId = .ok db') :
    RoundWrites participants scopeKey db db' := by
  unfold recordParticipant at h
  obtain ⟨observations, -, h⟩ := bind_eq_ok.1 h
  obtain rfl := Except.ok.inj h
  refine ⟨fun _ _ _ => rfl, fun x => ?_, fun _ _ => rfl⟩
  dsimp only
  rw [Table.find?_upsert_const]
  by_cases hx : x = incidentId
  · rw [if_pos hx]
    exact .inr ⟨hx ▸ hmem, _, rfl, rfl⟩
  · rw [if_neg hx]
    exact .inl rfl

theorem recordScope_writes {nowMs : ℤ} (h : recordScope rt scopeKey nowMs db = .ok db') :
    RoundWrites participants scopeKey db db' := by
  unfold recordScope at h
  obtain ⟨rounds, -, h⟩ := bind_eq_ok.1 h
  obtain rfl := Except.ok.inj h
  refine ⟨fun _ _ _ => rfl, fun _ => .inl rfl, fun k hk => ?_⟩
  dsimp only
  rw [Table.find?_upsert, if_neg hk]

theorem observeRelated_writes {currentId : String} {t : ℤ} {related : String × Incident}
    (hcurrent : currentId ∈ participants) (hrelated : related.1 ∈ participants)
    (h : observeRelated rt currentId t db related = .ok db') :
    RoundWrites participants scopeKey db db' := by
  unfold observeRelated at h
  by_cases hc : related.1 = currentId
  · rw [if_pos hc] at h
    exact Except.ok.inj h ▸ RoundWrites.refl _ _ db
  · rw [if_neg hc] at h
    obtain ⟨weight, -, h⟩ := bind_eq_ok.1 h
    obtain rfl := Except.ok.inj h
    refine ⟨fun a b hab => ?_, fun _ => .inl rfl, fun _ _ => rfl⟩
    dsimp only
    rw [Table.find?_upsert_const, if_neg]
    intro hkey
    split_ifs at hkey
    · obtain ⟨rfl, rfl⟩ := Prod.mk.inj hkey
      exact hab ⟨hrelated, hcurrent⟩
    · obtain ⟨rfl, rfl⟩ := Prod.mk.inj hkey
      exact hab ⟨hcurrent, hrelated⟩

/-- **An observation** does nothing, or is a round of active incidents with the given fingerprints
in the scope of the incident, which is one of them. -/
theorem observeIncident_writes {incidentId : String} {fingerprints : List String}
    (h : observeIncident rt incidentId fingerprints db = .ok db') : db' = db ∨
    ∃ participants current, db.incidents.find? incidentId = some current ∧
      incidentId ∈ participants ∧
      (∀ x ∈ participants, ∃ i, db.incidents.find? x = some i ∧ i.stableFingerprint ∈ fingerprints ∧
        i.status.active = true) ∧
      RoundWrites participants current.scopeKey db db' := by
  unfold observeIncident at h
  dsimp only at h
  split_ifs at h with hf
  · exact .inl (Except.ok.inj h).symm
  · split at h
    · exact .inl (Except.ok.inj h).symm
    · next x current hfind =>
        have hx : x = incidentId := by simpa using List.find?_some hfind
        subst hx
        have hmem := List.mem_of_find?_eq_some hfind
        obtain ⟨db₂, hround, hloop⟩ := bind_eq_ok.1 h
        obtain ⟨db₁, hnodes, hscope⟩ := bind_eq_ok.1 hround
        have hself : x ∈ List.map Prod.fst _ := List.mem_map_of_mem hmem
        refine .inr ⟨_, current, (Table.mem_select.1 hmem).1, hself, fun y hy => ?_, ?_⟩
        · obtain ⟨⟨y, i⟩, hi, rfl⟩ := List.mem_map.1 hy
          obtain ⟨hi, hsel⟩ := Table.mem_select.1 hi
          simp only [Bool.and_eq_true, List.contains_iff_mem] at hsel
          exact ⟨i, hi, (List.mem_filter.1 hsel.1).1, hsel.2⟩
        · have h₁ := foldlM_induct (P := RoundWrites _ current.scopeKey db) hnodes
            (RoundWrites.refl _ _ db) fun a x b hx ha hab => ha.trans (recordParticipant_writes hx hab)
          have h₂ := h₁.trans (recordScope_writes hscope)
          exact foldlM_induct hloop h₂ fun a related b hrelated ha hab =>
            ha.trans (observeRelated_writes (List.mem_map_of_mem hmem) (List.mem_map_of_mem hrelated) hab)

end Writes

end PulseGraph
