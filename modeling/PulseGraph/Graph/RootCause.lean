/-
# Ranking a root cause

`src/graph/root_cause_ranker.py`, for the candidates of one neighbourhood or for all active
incidents: each node of the edges between them is weighed by how much it leads beyond what it follows, over decayed
weights and their lift, and a leader is named when it is clear of the field.
`describe_verdict` and `rank_scope` of `src/graph/root_cause_worker.py` store the answer
with every candidate.  The percentage of a confidence is formatted by a parameter.
-/

import PulseGraph.Graph.ObserveIncident

namespace PulseGraph

open Library (Table bind_eq_ok)

variable {K : Type} [Field K] [LinearOrder K]

/-! ## The ranker -/

/-- `MIN_SUPPORT`. -/
def minSupport : K := 1.5

/-- `FULL_SUPPORT`. -/
def fullSupport : K := 6

/-- `MIN_CONFIDENCE`. -/
def minConfidence : K := 7 / 20

/-- `MIN_DOMINANCE`. -/
def minDominance : K := 1 / 4

/-- `LIFT_CAP`. -/
def liftCap : K := 4

/-- `RootCauseVerdict`. -/
structure RootCauseVerdict (K : Type) where
  incidentId : String
  confidence : K
  support : K
  meanLift : K

/-- `_marginals`: how often each candidate was observed, and the rounds of their scope. -/
def marginals (incidentIds : List String) (db : Database K) : (String → K) × K :=
  let rows := db.nodeStats.select fun k _ => incidentIds.contains k
  match rows with
  | [] => (fun _ => 0, 0)
  | first :: _ =>
      (fun x => ((rows.find? fun r => r.1 = x).map fun r => r.2.observations).getD 0,
        ((db.scopeStats.find? first.2.scopeKey).map (·.rounds)).getD 0)

/-- `_lift`: how much more often this pair co-occurs than chance would predict. -/
def lift (weight : K) (srcId dstId : String) (observations : String → K) (rounds : K) : K :=
  let srcObs := observations srcId
  let dstObs := observations dstId
  if rounds ≤ 0 ∨ srcObs ≤ 0 ∨ dstObs ≤ 0 then 1 else min (weight * rounds / (srcObs * dstObs)) liftCap

/-- One edge as `_score` weighs it. -/
structure Evidence (K : Type) where
  src : String
  dst : String
  weight : K
  lift : K

/-- What an edge contributes. -/
def Evidence.contribution (e : Evidence K) : K := e.weight * e.lift

/-- The loop of `_score` over the edges: each decayed to the newest of them. -/
def evidence (rt : Runtime K) (halfLifeMs : K) (observations : String → K) (rounds : K)
    (rows : List ((String × String) × Edge K)) : Except EngineError (List (Evidence K)) :=
  let referenceMs := (rows.map fun r => r.2.lastSeenAt).max?.getD 0
  rows.mapM fun r => do
    let elapsedMs := max 0 (referenceMs - r.2.lastSeenAt)
    let decayed ← decayWeights rt r.2.weight 0 0 elapsedMs halfLifeMs
    .ok ⟨r.1.1, r.1.2, decayed.joint, lift decayed.joint r.1.1 r.1.2 observations rounds⟩

/-- The leader of the weighed edges, where it is clear of the field. -/
def leader (es : List (Evidence K)) : Option (RootCauseVerdict K) :=
  let outbound := fun node => ((es.filter fun e => e.src = node).map Evidence.contribution).sum
  let inbound := fun node => ((es.filter fun e => e.dst = node).map Evidence.contribution).sum
  let net := ((es.map (·.src)).dedup.map fun node => (node, outbound node - inbound node)).filter
    fun r => decide (0 < r.2)
  match net.insertionSort fun a b => b.2 < a.2 ∨ a.2 = b.2 ∧ b.1 ≤ a.1 with
  | [] => none
  | (leaderId, leaderScore) :: rest =>
      let runnerUp := (rest.head?.map Prod.snd).getD 0
      let led := es.filter fun e => e.src = leaderId
      let support := (led.map (·.weight)).sum
      let dominance := if outbound leaderId = 0 then 0 else leaderScore / outbound leaderId
      let margin := (leaderScore - runnerUp) / leaderScore
      let confidence := margin * min 1 (support / fullSupport)
      if support < minSupport then none
      else if dominance < minDominance then none
      else if confidence < minConfidence then none
      else some ⟨leaderId, confidence, support, (led.map (·.lift)).sum / (max 1 led.length : ℕ)⟩

/-- `_score`: rank by how much each node leads beyond what it follows. -/
def score (rt : Runtime K) (halfLifeMs : K) (observations : String → K) (rounds : K)
    (rows : List ((String × String) × Edge K)) : Except EngineError (Option (RootCauseVerdict K)) :=
  if rows = [] then .ok none
  else do
    let es ← evidence rt halfLifeMs observations rounds rows
    .ok (leader es)

/-- `score_root_cause` for the candidates of one neighbourhood. -/
def scoreRootCause (rt : Runtime K) (candidateIds : List String) (db : Database K) :
    Except EngineError (Option (RootCauseVerdict K)) :=
  let uniqueIds := candidateIds.dedup
  if uniqueIds.length < 2 then .ok none
  else
    let rows := db.edges.select fun k _ => uniqueIds.contains k.1 && uniqueIds.contains k.2
    let (observations, rounds) := marginals uniqueIds db
    score rt defaultHalfLifeMs observations rounds rows

/-- `DEFAULT_MAX_EDGES`. -/
def defaultMaxEdges : ℤ := 500

/-- The edges `score_root_cause` reads without candidates: the newest between active incidents. -/
def activeEdges (maxEdges : ℤ) (db : Database K) : List ((String × String) × Edge K) :=
  let active := fun x => (db.incidents.find? x).any (·.status.active)
  sqlLimit maxEdges ((db.edges.select fun k _ => active k.1 && active k.2).insertionSort
    fun a b => b.2.lastSeenAt ≤ a.2.lastSeenAt)

/-- The incidents at the ends of the edges. -/
def endpoints (rows : List ((String × String) × Edge K)) : List String :=
  (rows.flatMap fun r => [r.1.1, r.1.2]).dedup

/-- `score_root_cause` without candidates. -/
def scoreActive (rt : Runtime K) (maxEdges : Option ℤ) (db : Database K) :
    Except EngineError (Option (RootCauseVerdict K)) :=
  let rows := activeEdges (maxEdges.getD defaultMaxEdges) db
  let (observations, rounds) := marginals (endpoints rows) db
  score rt defaultHalfLifeMs observations rounds rows

/-! ## One scope -/

variable (rt : Runtime K) (percent : K → String)

/-- `describe_verdict`: the title of the leader, and how much to trust it. -/
def describeVerdict (verdict : RootCauseVerdict K) (db : Database K) : String :=
  let label := match (db.incidents.find? verdict.incidentId).map (·.title) with
    | some title => if title = "" then verdict.incidentId else title
    | none => verdict.incidentId
  label ++ " (confidence " ++ percent verdict.confidence ++ ")"

/-- The candidates of `rank_scope`: the most recently ingested active incidents of the scope inside
the correlation window. -/
def rankCandidates (nowMs : ℤ) (scopeKey : String) (db : Database K) : List String :=
  let windowStart := max 0 (nowMs - rt.settings.correlationWindowMs)
  let lastSeen := fun i : Incident => i.lastIngestedAt.getD i.lastAlertAt
  let rows := db.incidents.select fun _ i =>
    i.scopeKey = scopeKey && i.status.active && decide (windowStart ≤ lastSeen i)
  (sqlLimit rt.settings.correlationMaxNeighbours
    (rows.insertionSort fun a b => lastSeen b.2 ≤ lastSeen a.2)).map Prod.fst

/-- The hint of a ranking pass over a scope. -/
def scopeHint (nowMs : ℤ) (scopeKey : String) (db : Database K) : Except EngineError (Option String) := do
  let verdict ← scoreRootCause rt (rankCandidates rt nowMs scopeKey db) db
  .ok (verdict.map fun v => describeVerdict percent v db)

/-- `UPDATE incidents SET root_cause_hint = ? WHERE incident_id IN (…)`, and the revision the pass
consumed. -/
def writeHint (candidates : List String) (hint : Option String) (scopeKey : String)
    (rankedRevision : ℕ) (db : Database K) : Database K :=
  { db with
    incidents := db.incidents.update fun k i =>
      if candidates.contains k then { i with rootCauseHint := hint } else i
    scopeStats := db.scopeStats.update fun k s =>
      if k = scopeKey then { s with rankedRevision := rankedRevision } else s }

/-- `rank_scope`: recompute and store the hint for one scope's recent neighbourhood.  Returns how
many incidents were updated. -/
def rankScope (nowMs : ℤ) (scope : String × ℕ) (db : Database K) : Except EngineError (ℕ × Database K) := do
  let candidates := rankCandidates rt nowMs scope.1 db
  let hint ← scopeHint rt percent nowMs scope.1 db
  let updated := db.incidents.count fun k i => candidates.contains k && i.rootCauseHint ≠ hint
  .ok (updated, writeHint candidates hint scope.1 scope.2 db)

/-- `_dirty_scopes`: scopes observed since they were last ranked, with the revision seen. -/
def dirtyScopes (db : Database K) : List (String × ℕ) :=
  (db.scopeStats.select fun _ s => decide (s.rankedRevision < s.observedRevision)).map
    fun r => (r.1, r.2.observedRevision)

/-- `RootCauseWorker.sweep_once`: rank every dirty scope once, all in one transaction. -/
def rankDirty (nowMs : ℤ) (db : Database K) : Except EngineError (ℕ × Database K) :=
  (dirtyScopes db).foldlM (fun s scope => do
    let (updated, db) ← rankScope rt percent nowMs scope s.2
    .ok (s.1 + updated, db)) (0, db)

end PulseGraph
