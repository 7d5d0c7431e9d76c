/-
# The marginals of the graph

A round observes its participants, its scope and its edges with three statements, each of
which decays its own counter from the instant that counter was last written at.  Over a run
with instants that never go back all of them agree: whatever instant they are decayed to,
each counter is the sum of what is left of its own observations.

**Proved here.**  `marginals_of_run`: the closed form of every counter, and what follows from
it.  A pair was observed at most as often as either of its incidents, in both directions
together, and an incident at most as often as its scope.
-/

import PulseGraph.Graph.EdgeDecay
import PulseGraph.Graph.Rounds
import PulseGraph.Library.Run

namespace PulseGraph

open Library (Run Table Transition bind_eq_ok foldlM_ok)

/-! ## Runs of observations -/

/-- One step: a call of `observe_incident`, or anything that writes no counter. -/
inductive GraphStep where
  | observe (incidentId : String) (fingerprintList : List String)
  | other

section Runs

variable {K : Type} [Field K] [LinearOrder K]

/-- Two databases with the same counters. -/
structure SameCounters (db db' : Database K) : Prop where
  nodeStats : db'.nodeStats = db.nodeStats
  scopes : scopeRow db' = scopeRow db
  edges : db'.edges = db.edges

/-- What a step does. -/
def graphStep (rt : Runtime K) (db : Database K) : GraphStep → Database K → Prop
  | .observe incidentId fingerprintList, db' => observeIncident rt incidentId fingerprintList db = .ok db'
  | .other, db' => SameCounters db db'

/-- No counter has a row. -/
structure NoCounters (db : Database K) : Prop where
  nodeStats : ∀ x, db.nodeStats.find? x = none
  scopeStats : ∀ k, db.scopeStats.find? k = none
  edges : ∀ k, db.edges.find? k = none

/-- **The runs of the graph**, from a database without counters. -/
def GraphRun (rt : Runtime K) : List (Transition (Database K) GraphStep) → Database K → Prop :=
  Run NoCounters (graphStep rt)

/-- The rounds of a run, the latest first. -/
def roundsOf (h : List (Transition (Database K) GraphStep)) : List Round :=
  h.filterMap fun t => match t.label with
    | .observe incidentId fingerprintList => roundOf incidentId fingerprintList t.source
    | .other => none

end Runs

/-! ## The invariant -/

/-- Every counter is what is left of its rounds, and was last written in one of them. -/
structure Accounts (scope : String) (rounds : List Round) (db : Database ℝ) : Prop where
  nodes : ∀ x t, aged (nodeRow db x) t = halvedSum t (rounds.filter fun r => decide (x ∈ r.participants))
  scopes : ∀ t, aged (scopeRow db scope) t = halvedSum t rounds
  edges : ∀ a b t, aged (edgeRow db a b) t =
    halvedSum t (rounds.filter fun r => decide ((a, b) ∈ r.edges))
  nodes_dated : ∀ x c, nodeRow db x = some c → ∃ r ∈ rounds, c.2 = r.observedAt
  scope_dated : ∀ c, scopeRow db scope = some c → ∃ r ∈ rounds, c.2 = r.observedAt
  edges_dated : ∀ a b c, edgeRow db a b = some c → ∃ r ∈ rounds, c.2 = r.observedAt

section Invariant

variable {rt : Runtime ℝ} {db db' : Database ℝ} {scope : String} {rounds : List Round}

theorem accounts_of_noCounters (h : NoCounters db) : Accounts scope [] db := by
  have hnode : ∀ x, nodeRow db x = none := fun x => by rw [nodeRow, h.nodeStats]; rfl
  have hscope : scopeRow db scope = none := by rw [scopeRow, h.scopeStats]; rfl
  have hedge : ∀ a b, edgeRow db a b = none := fun a b => by rw [edgeRow, h.edges]; rfl
  constructor
  · intro x t
    rw [hnode]
    rfl
  · intro t
    rw [hscope]
    rfl
  · intro a b t
    rw [hedge]
    rfl
  · simp [hnode]
  · simp [hscope]
  · simp [hedge]

theorem SameCounters.accounts (h : SameCounters db db') (ha : Accounts scope rounds db) :
    Accounts scope rounds db' := by
  have hnode : nodeRow db' = nodeRow db := funext fun x => by rw [nodeRow, nodeRow, h.nodeStats]
  have hedge : edgeRow db' = edgeRow db :=
    funext fun a => funext fun b => by rw [edgeRow, edgeRow, h.edges]
  obtain ⟨hn, hs, he, hnd, hsd, hed⟩ := ha
  constructor
  · rwa [hnode]
  · rwa [h.scopes]
  · rwa [hedge]
  · rwa [hnode]
  · rwa [h.scopes]
  · rwa [hedge]

/-- A counter whose value is a sum of what is left is not negative. -/
theorem nonneg_of_aged {row : Option (ℝ × ℤ)} {rounds : List Round}
    (h : ∀ t, aged row t = halvedSum t rounds) : ∀ c, row = some c → 0 ≤ c.1 := by
  rintro ⟨count, last⟩ rfl
  have hlast := h last
  simp only [aged, sub_self, remaining_zero, mul_one] at hlast
  rw [hlast]
  exact halvedSum_nonneg _ _

/-- **A round is accounted for.** -/
theorem RoundRecorded.accounts {r : Round} (h : RoundRecorded rt r db db') (hexact : rt.Exact)
    (hscope : r.scopeKey = scope) (hmono : ∀ older ∈ rounds, older.observedAt ≤ r.observedAt)
    (ha : Accounts scope rounds db) : Accounts scope (r :: rounds) db' := by
  obtain ⟨hn, hs, he, hnd, hsd, hed⟩ := ha
  have hlast : ∀ c : ℝ × ℤ, (∃ q ∈ rounds, c.2 = q.observedAt) → c.2 ≤ r.observedAt := by
    rintro c ⟨q, hq, hc⟩
    exact hc ▸ hmono q hq
  subst hscope
  constructor
  · intro x t
    rw [halvedSum_filter_cons, ← hn]
    by_cases hx : x ∈ r.participants
    · obtain ⟨count, hcount, hrow⟩ := h.nodes x hx
      have hnew : nodeRow db' x = some (count, r.observedAt) := by rw [nodeRow, hrow]; rfl
      rw [hnew, aged_nextCount hexact (fun c hc => hlast c (hnd x c hc)) hcount, if_pos (by simpa using hx)]
    · have hsame : nodeRow db' x = nodeRow db x := by rw [nodeRow, nodeRow, h.other_nodes x hx]
      rw [hsame, if_neg (by simpa using hx), add_zero]
  · intro t
    obtain ⟨count, hcount, hrow⟩ := h.scope
    rw [halvedSum_cons, ← hs, hrow,
      aged_nextCount hexact (fun c hc => hlast c (hsd c hc)) hcount]
  · intro a b t
    rw [halvedSum_filter_cons, ← he]
    by_cases hab : (a, b) ∈ r.edges
    · obtain ⟨weight, hweight, hrow⟩ := h.edges (a, b) hab
      have hnonneg := nonneg_of_aged (he a b)
      have hpos : ∀ e, db.edges.find? (a, b) = some e → 0 ≤ e.weight := by
        intro e hfind
        refine hnonneg (e.weight, e.lastSeenAt) ?_
        rw [edgeRow, hfind]
        rfl
      rw [nextWeight_eq_nextCount _ hpos] at hweight
      have hnew : edgeRow db' a b = some (weight, r.observedAt) := by rw [edgeRow, hrow]; rfl
      rw [hnew, aged_nextCount hexact (fun c hc => hlast c (hed a b c hc)) hweight,
        if_pos (by simpa using hab)]
    · have hsame : edgeRow db' a b = edgeRow db a b := by rw [edgeRow, edgeRow, h.other_edges _ hab]
      rw [hsame, if_neg (by simpa using hab), add_zero]
  · intro x c hc
    by_cases hx : x ∈ r.participants
    · obtain ⟨count, -, hrow⟩ := h.nodes x hx
      rw [nodeRow, hrow] at hc
      obtain rfl := Option.some.inj hc
      exact ⟨r, List.mem_cons_self, rfl⟩
    · rw [nodeRow, h.other_nodes x hx] at hc
      obtain ⟨q, hq, hcq⟩ := hnd x c hc
      exact ⟨q, List.mem_cons_of_mem _ hq, hcq⟩
  · intro c hc
    obtain ⟨count, -, hrow⟩ := h.scope
    obtain rfl := Option.some.inj (hrow.symm.trans hc)
    exact ⟨r, List.mem_cons_self, rfl⟩
  · intro a b c hc
    by_cases hab : (a, b) ∈ r.edges
    · obtain ⟨weight, -, hrow⟩ := h.edges (a, b) hab
      rw [edgeRow, hrow] at hc
      obtain rfl := Option.some.inj hc
      exact ⟨r, List.mem_cons_self, rfl⟩
    · rw [edgeRow, h.other_edges _ hab] at hc
      obtain ⟨q, hq, hcq⟩ := hed a b c hc
      exact ⟨q, List.mem_cons_of_mem _ hq, hcq⟩

end Invariant

/-! ## No call fails -/

/-- No counter is negative. -/
structure NonnegCounters (db : Database ℝ) : Prop where
  nodes : ∀ x c, nodeRow db x = some c → 0 ≤ c.1
  scopes : ∀ k c, scopeRow db k = some c → 0 ≤ c.1
  edges : ∀ k e, db.edges.find? k = some e → 0 ≤ e.weight

section Total

variable {rt : Runtime ℝ} {db : Database ℝ}

theorem recordParticipant_ok (hexact : rt.Exact) (h : NonnegCounters db) (scopeKey : String) (now : ℤ)
    (x : String) : ∃ db', recordParticipant rt scopeKey now db x = .ok db' ∧ NonnegCounters db' := by
  obtain ⟨count, hcount, hpos⟩ := @nextCount_of_nonneg rt now _ hexact (h.nodes x)
  refine ⟨_, bind_eq_ok.2 ⟨count, hcount, rfl⟩, fun y c hc => ?_, h.scopes, h.edges⟩
  unfold nodeRow at hc
  dsimp only at hc
  rw [Table.find?_upsert_const] at hc
  split_ifs at hc
  · obtain rfl := Option.some.inj hc
    exact hpos.le
  · exact h.nodes y c hc

theorem recordScope_ok (hexact : rt.Exact) (h : NonnegCounters db) (scopeKey : String) (now : ℤ) :
    ∃ db', recordScope rt scopeKey now db = .ok db' ∧ NonnegCounters db' := by
  obtain ⟨count, hcount, hpos⟩ := @nextCount_of_nonneg rt now _ hexact (h.scopes scopeKey)
  refine ⟨_, bind_eq_ok.2 ⟨count, hcount, rfl⟩, h.nodes, fun k c hc => ?_, h.edges⟩
  unfold scopeRow at hc
  dsimp only at hc
  rw [Table.find?_upsert] at hc
  split_ifs at hc
  · obtain ⟨row, hrow, rfl⟩ := Option.map_eq_some_iff.1 hc
    cases hold : db.scopeStats.find? scopeKey with
    | none =>
        rw [hold] at hrow
        obtain rfl := Option.some.inj hrow
        exact hpos.le
    | some old =>
        rw [hold] at hrow
        obtain rfl := Option.some.inj hrow
        exact hpos.le
  · exact h.scopes k c hc

theorem observeRelated_ok (hexact : rt.Exact) (h : NonnegCounters db) (currentId : String) (now : ℤ)
    (related : String × Incident) :
    ∃ db', observeRelated rt currentId now db related = .ok db' ∧ NonnegCounters db' := by
  unfold observeRelated
  by_cases hc : related.1 = currentId
  · exact ⟨db, if_pos hc, h⟩
  · rw [if_neg hc]
    have hcounter := @nextWeight_eq_nextCount rt now _ (h.edges (edgeKey currentId now related))
    have hpos : ∀ c, (db.edges.find? (edgeKey currentId now related)).map
        (fun e => (e.weight, e.lastSeenAt)) = some c → 0 ≤ c.1 := by
      intro c hc
      obtain ⟨e, he, rfl⟩ := Option.map_eq_some_iff.1 hc
      exact h.edges _ e he
    obtain ⟨weight, hweight, hwpos⟩ := @nextCount_of_nonneg rt now _ hexact hpos
    rw [← hcounter] at hweight
    refine ⟨_, bind_eq_ok.2 ⟨weight, hweight, rfl⟩, h.nodes, h.scopes, fun k e he => ?_⟩
    dsimp only at he
    rw [Table.find?_upsert_const] at he
    by_cases hk : k = edgeKey currentId now related
    · obtain rfl := Option.some.inj ((if_pos hk).symm.trans he)
      exact hwpos.le
    · exact h.edges k e ((if_neg hk).symm.trans he)

/-- **No call is refused** where no counter is negative, and none is afterwards. -/
theorem observeIncident_ok (hexact : rt.Exact) (h : NonnegCounters db) (incidentId : String)
    (fingerprints : List String) :
    ∃ db', observeIncident rt incidentId fingerprints db = .ok db' ∧ NonnegCounters db' := by
  unfold observeIncident
  dsimp only
  split_ifs
  · exact ⟨db, rfl, h⟩
  · split
    · exact ⟨db, rfl, h⟩
    · next x current _ =>
        obtain ⟨db₁, hnodes, h₁⟩ := foldlM_ok (f := recordParticipant rt current.scopeKey current.lastAlertAt)
          (l := (db.incidents.select fun _ i => (fingerprints.filter (· ≠ "")).contains i.stableFingerprint &&
            i.status.active).map Prod.fst) h
          fun b y hb => recordParticipant_ok hexact hb current.scopeKey current.lastAlertAt y
        obtain ⟨db₂, hscope, h₂⟩ := recordScope_ok hexact h₁ current.scopeKey current.lastAlertAt
        obtain ⟨db₃, hloop, h₃⟩ := foldlM_ok (f := observeRelated rt incidentId current.lastAlertAt)
          (l := db.incidents.select fun _ i => (fingerprints.filter (· ≠ "")).contains i.stableFingerprint &&
            i.status.active) h₂
          fun b related hb => observeRelated_ok hexact hb incidentId current.lastAlertAt related
        exact ⟨db₃, bind_eq_ok.2 ⟨db₂, bind_eq_ok.2 ⟨db₁, hnodes, hscope⟩, hloop⟩, h₃⟩

end Total

/-! ## The law -/

/-- What the counters of one scope are at an instant, and how they bound each other. -/
structure MarginalsLaw (scope : String) (rounds : List Round) (db : Database ℝ) (t : ℝ) : Prop where
  nodes : ∀ x, aged (nodeRow db x) t = halvedSum t (rounds.filter fun r => decide (x ∈ r.participants))
  scopes : aged (scopeRow db scope) t = halvedSum t rounds
  edges : ∀ a b, aged (edgeRow db a b) t =
    halvedSum t (rounds.filter fun r => decide ((a, b) ∈ r.edges))
  pairs_le : ∀ a b, aged (edgeRow db a b) t + aged (edgeRow db b a) t ≤
    min (aged (nodeRow db a) t) (aged (nodeRow db b) t)
  nodes_le : ∀ a, aged (nodeRow db a) t ≤ aged (scopeRow db scope) t

section Law

variable {rt : Runtime ℝ} {db : Database ℝ} {h : List (Transition (Database ℝ) GraphStep)}
  {scope : String}

/-- A round of a run is the round of one of its calls. -/
theorem exists_call {r : Round} (hr : r ∈ roundsOf h) : ∃ incidentId fingerprints source,
    roundOf incidentId fingerprints (source : Database ℝ) = some r := by
  obtain ⟨t, -, ht⟩ := List.mem_filterMap.1 hr
  obtain ⟨source, label, target⟩ := t
  cases label with
  | observe incidentId fingerprints => exact ⟨incidentId, fingerprints, source, ht⟩
  | other => cases ht

/-- The invariant holds of every run of one scope whose instants do not go back. -/
theorem accounts_of_run (hexact : rt.Exact) (run : GraphRun rt h db)
    (hscope : ∀ r ∈ roundsOf h, r.scopeKey = scope)
    (hmono : (roundsOf h).Pairwise fun newer older => older.observedAt ≤ newer.observedAt) :
    Accounts scope (roundsOf h) db := by
  revert hscope hmono
  refine Run.induct (I := fun h db => (∀ r ∈ roundsOf h, r.scopeKey = scope) →
    ((roundsOf h).Pairwise fun newer older => older.observedAt ≤ newer.observedAt) →
    Accounts scope (roundsOf h) db) run (fun s hs _ _ => accounts_of_noCounters hs) ?_
  intro h s label s' _ ih hstep hscope hmono
  cases label with
  | other => exact SameCounters.accounts hstep (ih hscope hmono)
  | observe incidentId fingerprints =>
      rcases observeIncident_cases hstep with ⟨hnone, rfl⟩ | ⟨r, hr, hrecorded⟩
      · have hsame : roundsOf (⟨s', .observe incidentId fingerprints, s'⟩ :: h) = roundsOf h := by
          unfold roundsOf
          rw [List.filterMap_cons]
          dsimp only
          rw [hnone]
        rw [hsame] at hscope hmono ⊢
        exact ih hscope hmono
      · have hcons : roundsOf (⟨s, .observe incidentId fingerprints, s'⟩ :: h) = r :: roundsOf h := by
          unfold roundsOf
          rw [List.filterMap_cons]
          dsimp only
          rw [hr]
        rw [hcons] at hscope hmono ⊢
        obtain ⟨hlater, hmono⟩ := List.pairwise_cons.1 hmono
        exact hrecorded.accounts hexact (hscope r List.mem_cons_self) hlater
          (ih (fun q hq => hscope q (List.mem_cons_of_mem _ hq)) hmono)

/-- **The marginals of the graph.**  In every run of observations in one scope with instants that do
not go back, every counter decayed to a common instant is the sum of what is left of its
observations; an edge and its reverse were observed no more often than either of their
incidents, and an incident no more often than the scope. -/
theorem marginals_of_run (hexact : rt.Exact) (run : GraphRun rt h db)
    (hscope : ∀ r ∈ roundsOf h, r.scopeKey = scope)
    (hmono : (roundsOf h).Pairwise fun newer older => older.observedAt ≤ newer.observedAt) (t : ℝ) :
    MarginalsLaw scope (roundsOf h) db t := by
  have hacc := accounts_of_run hexact run hscope hmono
  have hjoins : ∀ r ∈ roundsOf h, ∀ a b, (a, b) ∈ r.edges →
      a ∈ r.participants ∧ b ∈ r.participants ∧ (b, a) ∉ r.edges := by
    intro r hr a b hab
    obtain ⟨incidentId, fingerprints, source, hround⟩ := exists_call hr
    obtain ⟨ha, hb, -⟩ := mem_edges hround hab
    exact ⟨ha, hb, not_mem_edges_swap hround hab⟩
  refine ⟨fun x => hacc.nodes x t, hacc.scopes t, fun a b => hacc.edges a b t, fun a b => ?_, fun a => ?_⟩
  · rw [hacc.edges, hacc.edges, hacc.nodes, hacc.nodes]
    refine le_min (halvedSum_filter_add_le t (fun r hr hab => ?_) fun r hr hba => ?_)
      (halvedSum_filter_add_le t (fun r hr hab => ?_) fun r hr hba => ?_)
    · obtain ⟨ha, -, hswap⟩ := hjoins r hr a b (by simpa using hab)
      simp [ha, hswap]
    · obtain ⟨-, ha, -⟩ := hjoins r hr b a (by simpa using hba)
      simp [ha]
    · obtain ⟨-, hb, hswap⟩ := hjoins r hr a b (by simpa using hab)
      simp [hb, hswap]
    · obtain ⟨hb, -, -⟩ := hjoins r hr b a (by simpa using hba)
      simp [hb]
  · rw [hacc.nodes, hacc.scopes]
    have hle := @halvedSum_filter_add_le t (fun r => decide (a ∈ r.participants)) (fun _ => false)
      (fun _ => true) (roundsOf h) (by simp) (by simp)
    simpa using hle

end Law

/-! ## A run -/

/-- The reference runtime with exact weights. -/
noncomputable def Runtime.exact : Runtime ℝ where
  settings := {}
  sha256 := Runtime.reference.sha256
  lower := Runtime.reference.lower
  upper := Runtime.reference.upper
  strip := Runtime.reference.strip
  halving := exactHalving

/-- An active incident of the scope `team`, last alerted at `lastAlertAt`. -/
def teamIncident (stableFingerprint : String) (lastAlertAt : ℤ) : Incident where
  scopeKey := "team"
  stableFingerprint := stableFingerprint
  title := stableFingerprint
  summary := none
  severity := .high
  status := .ACKNOWLEDGED
  alertCount := 1
  firstAlertAt := lastAlertAt
  lastAlertAt := lastAlertAt
  firstIngestedAt := some lastAlertAt
  lastIngestedAt := some lastAlertAt
  ewmaRate := 0
  quietAtMs := none
  ewmaMeanGap := 0
  ewmaVariance := 0
  gapHistory := []
  routeDecision := .slack
  rootCauseHint := none
  reopenCount := 0
  createdAt := lastAlertAt
  updatedAt := lastAlertAt

/-- Two incidents of the scope. -/
def teamIncidents (diskAt apiAt : ℤ) : Table String Incident :=
  (Table.empty.insert "disk" (teamIncident "disk" diskAt)).insert "api" (teamIncident "api" apiAt)

/-- A database with these incidents and no counters. -/
def teamDatabase {K : Type} (diskAt apiAt : ℤ) : Database K :=
  { Database.empty with incidents := teamIncidents diskAt apiAt }

/-- A round of the two, in which the disk was first. -/
def apiRound (observedAt : ℤ) : Round where
  observedAt := observedAt
  scopeKey := "team"
  participants := ["disk", "api"]
  edges := [("disk", "api")]

/-- The api fails two seconds after the disk, and again an hour later: two rounds, with the same
edge in both. -/
theorem marginals_of_run_pair : ∃ h db, GraphRun Runtime.exact h db ∧
    roundsOf h = [apiRound 3602000, apiRound 2000] ∧ MarginalsLaw "team" (roundsOf h) db 3602000 := by
  have hexact : Runtime.exact.Exact := rfl
  have hempty : NoCounters (K := ℝ) (teamDatabase 0 2000) :=
    ⟨fun _ => rfl, fun _ => rfl, fun _ => rfl⟩
  have hnonneg : NonnegCounters (teamDatabase 0 2000) :=
    ⟨by rintro x c ⟨⟩, by rintro k c ⟨⟩, by rintro k e ⟨⟩⟩
  obtain ⟨db₁, h₁, hnonneg₁⟩ := observeIncident_ok hexact hnonneg "api" ["disk", "api"]
  -- an hour later the api fires again
  have hagain : graphStep Runtime.exact db₁ .other { db₁ with incidents := teamIncidents 0 3602000 } :=
    ⟨rfl, rfl, rfl⟩
  have hnonneg₂ : NonnegCounters { db₁ with incidents := teamIncidents 0 3602000 } :=
    ⟨hnonneg₁.nodes, hnonneg₁.scopes, hnonneg₁.edges⟩
  obtain ⟨db₂, h₂, -⟩ := observeIncident_ok hexact hnonneg₂ "api" ["disk", "api"]
  obtain ⟨h, hrun, hrounds⟩ : ∃ h, GraphRun Runtime.exact h db₂ ∧
      roundsOf h = [apiRound 3602000, apiRound 2000] :=
    ⟨_, Run.next (Run.next (Run.next (Run.start hempty)
      (show graphStep Runtime.exact _ (.observe "api" ["disk", "api"]) db₁ from h₁)) hagain)
      (show graphStep Runtime.exact _ (.observe "api" ["disk", "api"]) db₂ from h₂), rfl⟩
  refine ⟨h, db₂, hrun, hrounds, marginals_of_run hexact hrun ?_ ?_ _⟩
  · rw [hrounds]
    simp [apiRound]
  · rw [hrounds]
    simp [apiRound]

end PulseGraph
