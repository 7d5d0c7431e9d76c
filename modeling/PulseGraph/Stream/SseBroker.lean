/-
# The event stream

`src/stream/sse_broker.py`, with the maps that `web/src/hooks/usePulseGraphStream.ts` keeps of
what it is sent.  `read_snapshot` and `read_delta_events` are several queries, each of its own
state of the database: the queries are definitions of their own, and `streamNext` makes one of
them at a time.  On a database that nobody writes to they are the two functions of the source
(`streamNext_readSnapshot`, `streamNext_readDeltaEvents`).
-/

import PulseGraph.Config
import PulseGraph.Db.Schema
import PulseGraph.Library.Follow

namespace PulseGraph

open Library (Table Json overlay)

variable {K : Type}

/-! ## Events -/

/-- `STREAM_ID_STRIDE`. -/
def streamIdStride : ℕ := 10

/-- `_INCIDENT_OFFSET`. -/
def incidentOffset : ℕ := 1

/-- `_GRAPH_OFFSET`. -/
def graphOffset : ℕ := 2

/-- `_CARD_OFFSET`. -/
def cardOffset : ℕ := 3

/-- `_METRICS_OFFSET`. -/
def metricsOffset : ℕ := 4

/-- What a client is told of an incident. -/
structure IncidentPayload where
  incidentId : String
  title : String
  summary : Option String
  severity : Severity
  state : IncidentState
  alertCount : ℕ
  quietAtMs : Option ℤ
  rootCauseHint : Option String
  routeDecision : Channel
  ewmaRate : ℚ
  firstAlertAt : ℤ
  lastAlertAt : ℤ
  createdAt : ℤ
  updatedAt : ℤ
  deriving DecidableEq

/-- `_incident_payload`. -/
def incidentPayload (incidentId : String) (i : Incident) : IncidentPayload where
  incidentId := incidentId
  title := i.title
  summary := i.summary
  severity := i.severity
  state := i.status
  alertCount := i.alertCount
  quietAtMs := i.quietAtMs
  rootCauseHint := i.rootCauseHint
  routeDecision := i.routeDecision
  ewmaRate := i.ewmaRate
  firstAlertAt := i.firstAlertAt
  lastAlertAt := i.lastAlertAt
  createdAt := i.createdAt
  updatedAt := i.updatedAt

/-- What a client is told of an edge. -/
structure EdgePayload (K : Type) where
  sourceIncidentId : String
  targetIncidentId : String
  decayedJointWeight : K
  lastSeenAt : ℤ

/-- What a client is told of the edge under a key. -/
def edgePayload (k : String × String) (e : Edge K) : EdgePayload K where
  sourceIncidentId := k.1
  targetIncidentId := k.2
  decayedJointWeight := e.weight
  lastSeenAt := e.lastSeenAt

/-- `StreamEvent.data`, by `event_type`. -/
inductive StreamData (K : Type) where
  | snapshot (incidents : List IncidentPayload) (edges : List (EdgePayload K))
  | incidentUpsert (incident : IncidentPayload)
  | edgeUpsert (edges : List (EdgePayload K))
  | cardUpdate (incidentId : String) (decision : Json)
  | metricsUpdate (incidentId : String) (alertCount : ℕ) (state : IncidentState)

/-- `StreamEvent.event_type`. -/
def StreamData.eventType : StreamData K → String
  | .snapshot _ _ => "snapshot"
  | .incidentUpsert _ => "incident.upsert"
  | .edgeUpsert _ => "graph.edge.upsert"
  | .cardUpdate _ _ => "card.update"
  | .metricsUpdate _ _ _ => "metrics.update"

/-- `StreamEvent`. -/
structure StreamEvent (K : Type) where
  streamId : ℕ
  data : StreamData K

/-! ## Queries -/

/-- `_latest_stream_id`. -/
def latestStreamId (db : Database K) : ℕ := (db.rawEvents.map (·.seq)).foldr max 0 * streamIdStride

/-- The incidents of `read_snapshot`: `ORDER BY updated_at DESC LIMIT ?`. -/
def snapshotIncidents (incidentLimit : ℤ) (db : Database K) : List IncidentPayload :=
  (sqlLimit incidentLimit (db.incidents.rows.insertionSort fun a b => b.2.updatedAt ≤ a.2.updatedAt)).map
    fun r => incidentPayload r.1 r.2

/-- The edges of `read_snapshot`: `ORDER BY last_seen_at DESC LIMIT ?`. -/
def snapshotEdges (edgeLimit : ℤ) (db : Database K) : List (EdgePayload K) :=
  (sqlLimit edgeLimit (db.edges.rows.insertionSort fun a b => b.2.lastSeenAt ≤ a.2.lastSeenAt)).map
    fun r => edgePayload r.1 r.2

/-- `read_snapshot`. -/
def readSnapshot (incidentLimit edgeLimit : ℤ) (db : Database K) : StreamEvent K where
  streamId := latestStreamId db
  data := .snapshot (snapshotIncidents incidentLimit db) (snapshotEdges edgeLimit db)

/-- `_incident_for_event`. -/
def incidentForEvent (incidentId : String) (db : Database K) : Option IncidentPayload :=
  (db.incidents.find? incidentId).map (incidentPayload incidentId)

/-- `_edges_for_incident`. -/
def edgesForIncident (incidentId : String) (db : Database K) : List (EdgePayload K) :=
  ((db.edges.select fun k _ => k.1 = incidentId || k.2 = incidentId).insertionSort
    fun a b => b.2.lastSeenAt ≤ a.2.lastSeenAt).map fun r => edgePayload r.1 r.2

/-- The raw events after the cursor, with the one it points into, `ORDER BY seq ASC`. -/
def pendingRows (afterStreamId : ℕ) (db : Database K) : List RawEvent :=
  let rawSequence := afterStreamId / streamIdStride
  (db.rawEvents.filter fun r =>
    if afterStreamId % streamIdStride = 0 then decide (rawSequence < r.seq)
    else decide (rawSequence ≤ r.seq)).insertionSort fun a b => a.seq ≤ b.seq

/-- The rows after the cursor, with the one it points into. -/
theorem mem_pendingRows {db : Database K} {cursor : ℕ} {row : RawEvent} :
    row ∈ pendingRows cursor db ↔ row ∈ db.rawEvents ∧ cursor / streamIdStride ≤ row.seq ∧
      (cursor % streamIdStride = 0 → cursor / streamIdStride < row.seq) := by
  unfold pendingRows
  rw [List.mem_insertionSort, List.mem_filter]
  refine and_congr_right fun _ => ?_
  split_ifs with h
  · rw [decide_eq_true_eq]
    omega
  · rw [decide_eq_true_eq]
    exact ⟨fun hle => ⟨hle, fun h0 => absurd h0 h⟩, fun hle => hle.1⟩

/-- Their sequence numbers increase. -/
theorem pairwise_pendingRows {db : Database K} (hdistinct : (db.rawEvents.map (·.seq)).Nodup)
    (cursor : ℕ) : (pendingRows cursor db).Pairwise fun a b => a.seq < b.seq := by
  have hsorted : (pendingRows cursor db).Pairwise fun a b => a.seq ≤ b.seq := by
    have htotal : Std.Total fun a b : RawEvent => a.seq ≤ b.seq := ⟨fun a b => Nat.le_total a.seq b.seq⟩
    have htrans : IsTrans RawEvent fun a b => a.seq ≤ b.seq := ⟨fun a b c => Nat.le_trans⟩
    exact List.pairwise_insertionSort _ _
  have hne : (pendingRows cursor db).Pairwise fun a b => a.seq ≠ b.seq := by
    unfold pendingRows
    refine List.pairwise_map.1 (((List.perm_insertionSort _ _).map _).nodup_iff.2 ?_)
    exact (List.filter_sublist.map _).nodup hdistinct
  exact (hsorted.and hne).imp fun h => lt_of_le_of_ne h.1 h.2

/-- The raw events of `read_delta_events`. -/
def deltaRows (limit : ℤ) (afterStreamId : ℕ) (db : Database K) : List RawEvent :=
  sqlLimit limit (pendingRows afterStreamId db)

/-- The `candidates` of one raw event. -/
def deltaCandidates (rawEvent : RawEvent) (incident : IncidentPayload) (edges : List (EdgePayload K)) :
    List (StreamEvent K) :=
  let baseId := rawEvent.seq * streamIdStride
  [⟨baseId + incidentOffset, .incidentUpsert incident⟩, ⟨baseId + graphOffset, .edgeUpsert edges⟩,
    ⟨baseId + cardOffset, .cardUpdate rawEvent.incidentId rawEvent.decisionPayload⟩,
    ⟨baseId + metricsOffset, .metricsUpdate incident.incidentId incident.alertCount incident.state⟩]

/-- The candidates that are sent: those after the cursor. -/
def deltasOf (afterStreamId : ℕ) (rawEvent : RawEvent) (incident : IncidentPayload)
    (edges : List (EdgePayload K)) : List (StreamEvent K) :=
  (deltaCandidates rawEvent incident edges).filter fun event => afterStreamId < event.streamId

/-- The deltas of one raw event; an incident that is not there has none. -/
def deltasAt (afterStreamId : ℕ) (db : Database K) (rawEvent : RawEvent) : List (StreamEvent K) :=
  match incidentForEvent rawEvent.incidentId db with
  | none => []
  | some incident => deltasOf afterStreamId rawEvent incident (edgesForIncident rawEvent.incidentId db)

/-- `read_delta_events`. -/
def readDeltaEvents (limit : ℤ) (afterStreamId : ℕ) (db : Database K) : List (StreamEvent K) :=
  (deltaRows limit afterStreamId db).flatMap (deltasAt afterStreamId db)

/-! ## One query at a time -/

/-- Where `_stream_database` stands between two queries. -/
inductive StreamPhase (K : Type) where
  | connected
  | readIncidents (incidents : List IncidentPayload)
  | readEdges (incidents : List IncidentPayload) (edges : List (EdgePayload K))
  | polling (cursor : ℕ)
  | draining (cursor : ℕ) (rawEvents : List RawEvent) (deltas : List (StreamEvent K))
  | readIncident (cursor : ℕ) (rawEvent : RawEvent) (incident : IncidentPayload)
      (rawEvents : List RawEvent) (deltas : List (StreamEvent K))

/-- The `limit` of `read_delta_events`. -/
def deltaLimit : ℤ := 100

/-- The cursor once the deltas are sent. -/
def cursorAfter (cursor : ℕ) (deltas : List (StreamEvent K)) : ℕ :=
  (deltas.getLast?.map (·.streamId)).getD cursor

/-- The next query of `_stream_database`, with what is sent before the one after it. -/
def streamNext (incidentLimit edgeLimit : ℤ) (afterStreamId : ℕ) (db : Database K) :
    StreamPhase K → StreamPhase K × List (StreamEvent K)
  | .connected => (.readIncidents (snapshotIncidents incidentLimit db), [])
  | .readIncidents incidents => (.readEdges incidents (snapshotEdges edgeLimit db), [])
  | .readEdges incidents edges =>
      if afterStreamId < latestStreamId db then
        (.polling (latestStreamId db), [⟨latestStreamId db, .snapshot incidents edges⟩])
      else (.polling afterStreamId, [])
  | .polling cursor => (.draining cursor (deltaRows deltaLimit cursor db) [], [])
  | .draining cursor [] deltas => (.polling (cursorAfter cursor deltas), deltas)
  | .draining cursor (rawEvent :: rawEvents) deltas =>
      match incidentForEvent rawEvent.incidentId db with
      | none => (.draining cursor rawEvents deltas, [])
      | some incident => (.readIncident cursor rawEvent incident rawEvents deltas, [])
  | .readIncident cursor rawEvent incident rawEvents deltas =>
      (.draining cursor rawEvents
        (deltas ++ deltasOf cursor rawEvent incident (edgesForIncident rawEvent.incidentId db)), [])

/-- Queries of a database that nobody writes to. -/
def quietReads (incidentLimit edgeLimit : ℤ) (afterStreamId : ℕ) (db : Database K) :
    ℕ → StreamPhase K → StreamPhase K × List (StreamEvent K)
  | 0, phase => (phase, [])
  | n + 1, phase =>
      let next := streamNext incidentLimit edgeLimit afterStreamId db phase
      let rest := quietReads incidentLimit edgeLimit afterStreamId db n next.1
      (rest.1, next.2 ++ rest.2)

section Quiet

variable {incidentLimit edgeLimit : ℤ} {afterStreamId : ℕ} {db : Database K}

/-- Three queries of a database that nobody writes to are `read_snapshot`. -/
theorem streamNext_readSnapshot : quietReads incidentLimit edgeLimit afterStreamId db 3 .connected =
    if afterStreamId < latestStreamId db then
      (.polling (latestStreamId db), [readSnapshot incidentLimit edgeLimit db])
    else (.polling afterStreamId, []) := by
  simp only [quietReads, streamNext, readSnapshot]
  split_ifs <;> rfl

/-- The queries for the raw events that are left. -/
theorem quietReads_draining (cursor : ℕ) (rawEvents : List RawEvent) (deltas : List (StreamEvent K)) :
    ∃ n, quietReads incidentLimit edgeLimit afterStreamId db n (.draining cursor rawEvents deltas) =
      (.polling (cursorAfter cursor (deltas ++ rawEvents.flatMap (deltasAt cursor db))),
        deltas ++ rawEvents.flatMap (deltasAt cursor db)) := by
  induction rawEvents generalizing deltas with
  | nil =>
      refine ⟨1, ?_⟩
      simp only [quietReads, streamNext, List.flatMap_nil, List.append_nil]
  | cons rawEvent rawEvents ih =>
      rw [List.flatMap_cons]
      cases hi : incidentForEvent rawEvent.incidentId db with
      | none =>
          obtain ⟨n, hn⟩ := ih deltas
          have hnone : deltasAt cursor db rawEvent = [] := by rw [deltasAt, hi]
          refine ⟨n + 1, ?_⟩
          rw [hnone, List.nil_append, ← hn]
          simp only [quietReads, streamNext, hi, List.nil_append]
      | some incident =>
          obtain ⟨n, hn⟩ := ih (deltas ++ deltasAt cursor db rawEvent)
          refine ⟨n + 2, ?_⟩
          rw [← List.append_assoc, ← hn]
          simp only [quietReads, streamNext, hi, deltasAt, List.nil_append]

/-- **So many queries of it are `read_delta_events`.** -/
theorem streamNext_readDeltaEvents (cursor : ℕ) :
    ∃ n, quietReads incidentLimit edgeLimit afterStreamId db n (.polling cursor) =
      (.polling (cursorAfter cursor (readDeltaEvents deltaLimit cursor db)),
        readDeltaEvents deltaLimit cursor db) := by
  obtain ⟨n, hn⟩ := @quietReads_draining _ incidentLimit edgeLimit afterStreamId db cursor
    (deltaRows deltaLimit cursor db) []
  refine ⟨n + 1, ?_⟩
  rw [List.nil_append] at hn
  exact hn

end Quiet

/-! ## The client -/

/-- The maps of `usePulseGraphStream`. -/
structure View (K : Type) where
  incidents : String → Option IncidentPayload
  edges : String × String → Option (EdgePayload K)

/-- Nothing has been sent yet. -/
def View.empty : View K := ⟨fun _ => none, fun _ => none⟩

/-- `mergeIncidents`. -/
def View.mergeIncidents (rows : List IncidentPayload) (v : View K) : View K :=
  { v with incidents := overlay (·.incidentId) rows v.incidents }

/-- `mergeEdges`. -/
def View.mergeEdges (rows : List (EdgePayload K)) (v : View K) : View K :=
  { v with edges := overlay (fun e => (e.sourceIncidentId, e.targetIncidentId)) rows v.edges }

/-- What a client makes of an event: a snapshot replaces the maps, an upsert merges into them. -/
def View.apply (v : View K) (event : StreamEvent K) : View K :=
  match event.data with
  | .snapshot incidents edges => (View.empty.mergeIncidents incidents).mergeEdges edges
  | .incidentUpsert incident => v.mergeIncidents [incident]
  | .edgeUpsert edges => v.mergeEdges edges
  | .cardUpdate _ _ => v
  | .metricsUpdate _ _ _ => v

/-- What it makes of several. -/
def View.applyAll (v : View K) (events : List (StreamEvent K)) : View K := events.foldl View.apply v

end PulseGraph
