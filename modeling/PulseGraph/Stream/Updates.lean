/-
# What a client of the stream gets to see

A stream makes its queries one by one while the deployment commits.  The snapshot is three of
them, its cursor the last; every delta is two more for the raw event it is about.  A raw event is
*shown* when the client has, of its incident and of each of its edges, what some database of the
run has that holds the raw event.

**Proved here.**  If no raw event is committed while the snapshot is taken, and what it reads is
within its limits, then in every run the raw events the cursor is past are shown, and the cursor gets
past every raw event (`losesNothing_of_run`).  `not_losesNothing` commits one between the first
query and the last.
-/

import PulseGraph.Engine.Ledger
import PulseGraph.Outbox.Deployment
import PulseGraph.Stream.SseBroker

namespace PulseGraph

open Library (Table Run Transition ReadFrom overlay overlay_cases readFrom_overlay)

variable {K : Type}

/-! ## What the queries return -/

section Queries

variable {db : Database K} {x : String} {cursor : ℕ} {row m : RawEvent}

/-- The edge under a key, as a client is told of it. -/
def edgeAt (db : Database K) (k : String × String) : Option (EdgePayload K) :=
  (db.edges.find? k).map (edgePayload k)

/-- A row of the snapshot is the incident's. -/
theorem incidentForEvent_of_mem {limit : ℤ} {r : IncidentPayload} (h : r ∈ snapshotIncidents limit db) :
    incidentForEvent r.incidentId db = some r := by
  obtain ⟨⟨k, i⟩, hmem, rfl⟩ := List.mem_map.1 h
  have hrow := (List.mem_insertionSort _).1 ((sqlLimit_sublist _ _).subset hmem)
  show (db.incidents.find? k).map (incidentPayload k) = _
  rw [Table.find?_eq_some_iff.2 hrow]
  rfl

/-- Where the limit cuts nothing every incident has one. -/
theorem exists_mem_snapshotIncidents {limit : ℤ} (hlimit : (db.incidents.rows.length : ℤ) ≤ limit)
    {r : IncidentPayload} (h : incidentForEvent x db = some r) :
    ∃ r' ∈ snapshotIncidents limit db, r'.incidentId = x := by
  obtain ⟨i, hi, rfl⟩ := Option.map_eq_some_iff.1 h
  refine ⟨incidentPayload x i, List.mem_map.2 ⟨(x, i), ?_, rfl⟩, rfl⟩
  rw [sqlLimit_of_le (by rwa [List.length_insertionSort]), List.mem_insertionSort]
  exact Table.find?_eq_some_iff.1 hi

theorem edgeAt_of_mem {limit : ℤ} {r : EdgePayload K} (h : r ∈ snapshotEdges limit db) :
    edgeAt db (r.sourceIncidentId, r.targetIncidentId) = some r := by
  obtain ⟨⟨k, e⟩, hmem, rfl⟩ := List.mem_map.1 h
  have hrow := (List.mem_insertionSort _).1 ((sqlLimit_sublist _ _).subset hmem)
  show (db.edges.find? k).map (edgePayload k) = _
  rw [Table.find?_eq_some_iff.2 hrow]
  rfl

theorem exists_mem_snapshotEdges {limit : ℤ} (hlimit : (db.edges.rows.length : ℤ) ≤ limit)
    {k : String × String} {r : EdgePayload K} (h : edgeAt db k = some r) :
    ∃ r' ∈ snapshotEdges limit db, (r'.sourceIncidentId, r'.targetIncidentId) = k := by
  obtain ⟨e, he, rfl⟩ := Option.map_eq_some_iff.1 h
  refine ⟨edgePayload k e, List.mem_map.2 ⟨(k, e), ?_, rfl⟩, rfl⟩
  rw [sqlLimit_of_le (by rwa [List.length_insertionSort]), List.mem_insertionSort]
  exact Table.find?_eq_some_iff.1 he

/-- The edges of an incident are those that touch it. -/
theorem edgeAt_of_mem_edgesForIncident {r : EdgePayload K} (h : r ∈ edgesForIncident x db) :
    edgeAt db (r.sourceIncidentId, r.targetIncidentId) = some r := by
  obtain ⟨⟨k, e⟩, hmem, rfl⟩ := List.mem_map.1 h
  have hrow := Table.mem_select.1 ((List.mem_insertionSort _).1 hmem)
  show (db.edges.find? k).map (edgePayload k) = _
  rw [hrow.1]
  rfl

theorem exists_mem_edgesForIncident {k : String × String} (hk : k.1 = x ∨ k.2 = x) {r : EdgePayload K}
    (h : edgeAt db k = some r) :
    ∃ r' ∈ edgesForIncident x db, (r'.sourceIncidentId, r'.targetIncidentId) = k := by
  obtain ⟨e, he, rfl⟩ := Option.map_eq_some_iff.1 h
  refine ⟨edgePayload k e, List.mem_map.2 ⟨(k, e), ?_, rfl⟩, rfl⟩
  rw [List.mem_insertionSort]
  exact Table.mem_select.2 ⟨he, by simpa using hk⟩

theorem deltaRows_sublist : (deltaRows deltaLimit cursor db).Sublist (pendingRows cursor db) :=
  sqlLimit_sublist _ _

/-- What is read is an initial part of what is pending. -/
theorem deltaRows_complete (hl : Ledgered db) (hm : m ∈ deltaRows deltaLimit cursor db)
    (hrow : row ∈ pendingRows cursor db) (hle : row.seq ≤ m.seq) : row ∈ deltaRows deltaLimit cursor db := by
  have hsplit : deltaRows deltaLimit cursor db ++ (pendingRows cursor db).drop 100 = pendingRows cursor db :=
    List.take_append_drop 100 _
  have hordered := pairwise_pendingRows hl.nodup_seq cursor
  rw [← hsplit] at hrow hordered
  rcases List.mem_append.1 hrow with h | h
  · exact h
  · have hlt := (List.pairwise_append.1 hordered).2.2 m hm row h
    omega

/-- **A poll that has something to read** reads past its cursor. -/
theorem deltaRows_advances (hl : Ledgered db) (hrow : row ∈ db.rawEvents)
    (hlt : cursor < row.seq * streamIdStride) :
    ∃ m ∈ deltaRows deltaLimit cursor db, cursor < m.seq * streamIdStride := by
  have hpending : row ∈ pendingRows cursor db := by
    rw [mem_pendingRows]
    unfold streamIdStride at *
    exact ⟨hrow, by omega, by omega⟩
  have hordered := pairwise_pendingRows hl.nodup_seq cursor
  have hbound : ∀ a ∈ pendingRows cursor db, cursor / streamIdStride ≤ a.seq := fun a ha =>
    (mem_pendingRows.1 ha).2.1
  have htake : deltaRows deltaLimit cursor db = (pendingRows cursor db).take 100 := rfl
  rw [htake]
  cases hrows : pendingRows cursor db with
  | nil =>
      rw [hrows] at hpending
      exact absurd hpending List.not_mem_nil
  | cons a rest =>
      rw [hrows] at hpending hordered hbound
      by_cases ha : cursor < a.seq * streamIdStride
      · exact ⟨a, List.mem_cons_self, ha⟩
      · -- the first one is the one the cursor points into, so there is a second
        cases rest with
        | nil =>
            rw [List.mem_singleton.1 hpending] at hlt
            exact absurd hlt ha
        | cons b rest =>
            refine ⟨b, by simp, ?_⟩
            have hab := List.rel_of_pairwise_cons hordered (List.mem_cons_self (l := rest))
            have hle := hbound a List.mem_cons_self
            unfold streamIdStride at *
            omega

/-! ## What is sent of one raw event -/

variable {v : View K} {deltas : List (StreamEvent K)} {incident : IncidentPayload}
  {edges : List (EdgePayload K)}

theorem applyAll_append (v : View K) (events events' : List (StreamEvent K)) :
    v.applyAll (events ++ events') = (v.applyAll events).applyAll events' := List.foldl_append

theorem cursorAfter_append_singleton (cursor : ℕ) (events : List (StreamEvent K)) (event : StreamEvent K) :
    cursorAfter cursor (events ++ [event]) = event.streamId := by
  unfold cursorAfter
  rw [List.getLast?_concat]
  rfl

/-- **The deltas of a raw event that the cursor has not reached** are its incident and its edges. -/
theorem deltasOf_of_lt (h : cursor < m.seq * streamIdStride) :
    v.applyAll (deltasOf cursor m incident edges) = (v.mergeIncidents [incident]).mergeEdges edges ∧
      cursorAfter cursor (deltas ++ deltasOf cursor m incident edges) =
        m.seq * streamIdStride + metricsOffset := by
  have hall : deltasOf cursor m incident edges = deltaCandidates m incident edges := by
    refine List.filter_eq_self.2 fun event hevent => ?_
    simp only [deltaCandidates, List.mem_cons, List.not_mem_nil, or_false] at hevent
    rcases hevent with rfl | rfl | rfl | rfl <;> exact decide_eq_true (by dsimp only; omega)
  rw [hall]
  refine ⟨rfl, ?_⟩
  have hsplit : deltas ++ deltaCandidates m incident edges =
      (deltas ++ (deltaCandidates m incident edges).dropLast) ++
        [⟨m.seq * streamIdStride + metricsOffset,
          .metricsUpdate incident.incidentId incident.alertCount incident.state⟩] := by
    rw [List.append_assoc]
    rfl
  rw [hsplit, cursorAfter_append_singleton]

/-- Cards and metrics change no map. -/
theorem applyAll_of_forall {events : List (StreamEvent K)} (h : ∀ event ∈ events, v.apply event = v) :
    v.applyAll events = v := by
  unfold View.applyAll
  induction events with
  | nil => rfl
  | cons event events ih =>
      rw [List.foldl_cons, h event List.mem_cons_self]
      exact ih fun e he => h e (List.mem_cons_of_mem _ he)

/-- Of the one it points into at most the edges are still sent. -/
theorem deltasOf_of_gt (h : m.seq * streamIdStride < cursor) :
    v.applyAll (deltasOf cursor m incident edges) = v ∨
      v.applyAll (deltasOf cursor m incident edges) = v.mergeEdges edges := by
  have hincident : ¬ cursor < m.seq * streamIdStride + incidentOffset := by
    unfold incidentOffset
    omega
  have hquiet : ∀ (v' : View K), ∀ event ∈ [(⟨m.seq * streamIdStride + cardOffset,
      .cardUpdate m.incidentId m.decisionPayload⟩ : StreamEvent K), ⟨m.seq * streamIdStride + metricsOffset,
      .metricsUpdate incident.incidentId incident.alertCount incident.state⟩].filter
        fun event => cursor < event.streamId, v'.apply event = v' := by
    intro v' event hevent
    have hmem := (List.mem_filter.1 hevent).1
    simp only [List.mem_cons, List.not_mem_nil, or_false] at hmem
    rcases hmem with rfl | rfl <;> rfl
  unfold deltasOf deltaCandidates
  dsimp only
  rw [List.filter_cons_of_neg (by simpa using hincident)]
  by_cases hgraph : cursor < m.seq * streamIdStride + graphOffset
  · rw [List.filter_cons_of_pos (by simpa using hgraph)]
    exact .inr (applyAll_of_forall (hquiet (v.mergeEdges edges)))
  · rw [List.filter_cons_of_neg (by simpa using hgraph)]
    exact .inl (applyAll_of_forall (hquiet v))

/-- The cursor stays, or is at the last delta of the raw event. -/
theorem cursorAfter_deltasOf : cursorAfter cursor (deltas ++ deltasOf cursor m incident edges) =
      cursorAfter cursor deltas ∨
    cursor < m.seq * streamIdStride + metricsOffset ∧
      cursorAfter cursor (deltas ++ deltasOf cursor m incident edges) =
        m.seq * streamIdStride + metricsOffset := by
  by_cases hlast : cursor < m.seq * streamIdStride + metricsOffset
  · have hsplit : deltasOf cursor m incident edges =
        (deltaCandidates m incident edges).dropLast.filter (fun event => cursor < event.streamId) ++
          [⟨m.seq * streamIdStride + metricsOffset,
            .metricsUpdate incident.incidentId incident.alertCount incident.state⟩] := by
      have hsingle : [(⟨m.seq * streamIdStride + metricsOffset, .metricsUpdate incident.incidentId
          incident.alertCount incident.state⟩ : StreamEvent K)].filter
            (fun event => cursor < event.streamId) = [⟨m.seq * streamIdStride + metricsOffset,
              .metricsUpdate incident.incidentId incident.alertCount incident.state⟩] := by
        rw [List.filter_cons_of_pos (by simpa using hlast), List.filter_nil]
      rw [← hsingle, ← List.filter_append]
      rfl
    refine .inr ⟨hlast, ?_⟩
    rw [hsplit, ← List.append_assoc, cursorAfter_append_singleton]
  · have hnone : deltasOf cursor m incident edges = [] := by
      refine List.filter_eq_nil_iff.2 fun event hevent hc => ?_
      have hlt := of_decide_eq_true hc
      simp only [deltaCandidates, List.mem_cons, List.not_mem_nil, or_false] at hevent
      unfold metricsOffset at hlast
      rcases hevent with rfl | rfl | rfl | rfl <;>
        simp only [incidentOffset, graphOffset, cardOffset, metricsOffset] at hlt <;> omega
    refine .inl ?_
    rw [hnone, List.append_nil]

end Queries

/-! ## Runs -/

/-- A turn of the deployment, or the next query of the stream. -/
inductive StreamTurn where
  | turn (t : Turn)
  | query

/-- A deployment, one stream of its database, and the client at its other end. -/
structure Stream (K : Type) where
  deployment : Deployment K
  phase : StreamPhase K
  client : View K

/-- The database of the deployment. -/
def Stream.db (s : Stream K) : Database K := s.deployment.db

variable [Field K] [LinearOrder K]

/-- One turn. -/
def streamStep (rt : Runtime K) (incidentLimit edgeLimit : ℤ) (afterStreamId : ℕ) (s : Stream K) :
    StreamTurn → Option (Stream K)
  | .turn t => (deploymentNext rt s.deployment t).map fun d => { s with deployment := d }
  | .query =>
      let next := streamNext incidentLimit edgeLimit afterStreamId s.db s.phase
      some { s with phase := next.1, client := s.client.applyAll next.2 }

/-- **The runs of a stream**: the client connects to any database, and the deployment takes any turns
between the queries. -/
def StreamRun (rt : Runtime K) (incidentLimit edgeLimit : ℤ) (afterStreamId : ℕ) :
    List (Transition (Stream K) StreamTurn) → Stream K → Prop :=
  Run (fun s => Ledgered s.db ∧ s.phase = .connected ∧ s.client = View.empty)
    fun s l s' => streamStep rt incidentLimit edgeLimit afterStreamId s l = some s'

/-- The history has had the database. -/
def Visited (h : List (Transition (Stream K) StreamTurn)) (s : Stream K) (db : Database K) : Prop :=
  db = s.db ∨ ∃ t ∈ h, db = t.source.db

/-- **The effect of a raw event is shown**: of its incident, and of each edge of it, the client has what
some database of the run has that holds the raw event. -/
structure Shown (h : List (Transition (Stream K) StreamTurn)) (s : Stream K) (v : View K)
    (row : RawEvent) : Prop where
  incident : ReadFrom (fun db => Visited h s db ∧ row ∈ db.rawEvents)
    (fun db x => incidentForEvent x db) v.incidents row.incidentId
  edges : ∀ k, k.1 = row.incidentId ∨ k.2 = row.incidentId →
    ReadFrom (fun db => Visited h s db ∧ row ∈ db.rawEvents) edgeAt v.edges k

/-- The cursor of the deltas, once there is one. -/
def StreamPhase.cursor : StreamPhase K → Option ℕ
  | .connected => none
  | .readIncidents _ => none
  | .readEdges _ _ => none
  | .polling cursor => some cursor
  | .draining cursor _ _ => some cursor
  | .readIncident cursor _ _ _ _ => some cursor

/-- The cursor is past the raw event of that number: no delta of it is still to come. -/
def Passed (phase : StreamPhase K) (seq : ℕ) : Prop :=
  ∃ cursor, phase.cursor = some cursor ∧ seq * streamIdStride ≤ cursor

/-- The query asks for the raw events after the cursor. -/
def beginsPoll (t : Transition (Stream K) StreamTurn) : Bool :=
  match t.label, t.source.phase with
  | .query, .polling _ => true
  | _, _ => false

/-- How often the stream has asked for raw events since the one of that number is there. -/
def polls (h : List (Transition (Stream K) StreamTurn)) (seq : ℕ) : ℕ :=
  h.countP fun t => beginsPoll t && t.source.db.rawEvents.any fun r => r.seq = seq

/-- **Nothing is lost**: of the raw events that the client has not had before, those that the cursor is
past are shown, and it gets past each of them. -/
structure LosesNothing (afterStreamId : ℕ) (h : List (Transition (Stream K) StreamTurn))
    (s : Stream K) : Prop where
  shown : ∀ row ∈ s.db.rawEvents, afterStreamId < row.seq * streamIdStride → Passed s.phase row.seq →
    Shown h s s.client row
  passed : ∀ row ∈ s.db.rawEvents, row.seq < polls h row.seq → Passed s.phase row.seq

/-- What the snapshot is read of is within its limits. -/
structure WithinLimits (incidentLimit edgeLimit : ℤ) (t : Transition (Stream K) StreamTurn) : Prop where
  incidents : t.label = .query → t.source.phase = .connected →
    (t.source.db.incidents.rows.length : ℤ) ≤ incidentLimit
  edges : ∀ incidents, t.label = .query → t.source.phase = .readIncidents incidents →
    (t.source.db.edges.rows.length : ℤ) ≤ edgeLimit

/-- The snapshot has been begun, and its last query is still to be made. -/
def StreamPhase.takesSnapshot : StreamPhase K → Bool
  | .readIncidents _ => true
  | .readEdges _ _ => true
  | _ => false

/-- No raw event is committed while the snapshot is taken. -/
def SnapshotUndisturbed (t : Transition (Stream K) StreamTurn) : Prop :=
  t.label ≠ .query → t.source.phase.takesSnapshot = true → t.target.db.rawEvents = t.source.db.rawEvents

section Turns

variable {rt : Runtime K} {incidentLimit edgeLimit : ℤ} {afterStreamId : ℕ} {s s' : Stream K}
  {h : List (Transition (Stream K) StreamTurn)} {db : Database K}

/-- Every turn of a deployment appends. -/
theorem deploymentNext_appends {d d' : Deployment K} {turn : Turn}
    (hnext : deploymentNext rt d turn = some d') : Appends d.db d'.db := by
  cases turn with
  | request q => exact engineNext_appends (deploymentNext_request hnext).1
  | worker w step =>
      have hframe := (deploymentNext_worker hnext).1.frame
      rw [hframe]
      exact .of_same rfl (fun _ => rfl) fun _ => id

/-- **Every database of a deployment is ledgered**, so a stream may connect to any of them. -/
theorem DeploymentRun.ledgered {d : Deployment K} {g : List (Transition (Deployment K) Turn)}
    (r : DeploymentRun rt g d) : Ledgered d.db := by
  refine r.induct (I := fun _ d => Ledgered d.db) (fun d hd => hd ▸ ledgered_empty) ?_
  intro g d turn d' _ hl hnext
  exact (deploymentNext_appends hnext).ledgered hl

/-- A turn of the deployment leaves the stream alone. -/
theorem streamStep_turn {t : Turn}
    (hnext : streamStep rt incidentLimit edgeLimit afterStreamId s (.turn t) = some s') :
    Appends s.db s'.db ∧ s'.phase = s.phase ∧ s'.client = s.client := by
  obtain ⟨d, hd, rfl⟩ := Option.map_eq_some_iff.1 hnext
  exact ⟨deploymentNext_appends hd, rfl, rfl⟩

/-- Every turn appends. -/
theorem streamStep_appends {l : StreamTurn}
    (hnext : streamStep rt incidentLimit edgeLimit afterStreamId s l = some s') : Appends s.db s'.db := by
  cases l with
  | turn t => exact (streamStep_turn hnext).1
  | query =>
      obtain rfl := Option.some.inj hnext
      exact Appends.refl s.db

omit [Field K] [LinearOrder K] in
theorem Visited.step {l : StreamTurn} (hv : Visited h s db) : Visited (⟨s, l, s'⟩ :: h) s' db := by
  rcases hv with rfl | ⟨t, ht, rfl⟩
  · exact .inr ⟨_, List.mem_cons_self, rfl⟩
  · exact .inr ⟨t, List.mem_cons_of_mem _ ht, rfl⟩

omit [Field K] [LinearOrder K] in
/-- What is shown stays shown: the databases that were visited stay visited. -/
theorem Shown.step {l : StreamTurn} {v : View K} {row : RawEvent} (hs : Shown h s v row) :
    Shown (⟨s, l, s'⟩ :: h) s' v row := by
  refine ⟨hs.incident.mono fun db hdb => ⟨hdb.1.step, hdb.2⟩, fun k hk => ?_⟩
  exact (hs.edges k hk).mono fun db hdb => ⟨hdb.1.step, hdb.2⟩

end Turns

/-! ## A map that is up to date -/

/-- The map has all that is due up to the cursor, and no edge that is not there. -/
structure UpTo (afterStreamId : ℕ) (h : List (Transition (Stream K) StreamTurn)) (s : Stream K)
    (v : View K) (cursor : ℕ) : Prop where
  shown : ∀ row ∈ s.db.rawEvents, afterStreamId < row.seq * streamIdStride →
    row.seq * streamIdStride ≤ cursor → Shown h s v row
  edges : ∀ k, (v.edges k).isSome = true → (s.db.edges.find? k).isSome = true
  reached : cursor ≤ afterStreamId ∨
    ∃ m ∈ s.db.rawEvents, cursor ≤ m.seq * streamIdStride + metricsOffset

/-- The raw events that a poll has read and that are left: the next ones after the cursor. -/
structure Batch (s : Stream K) (cursor : ℕ) (rawEvents : List RawEvent) (last : ℕ) : Prop where
  mem : ∀ m ∈ rawEvents, m ∈ s.db.rawEvents
  sorted : rawEvents.Pairwise fun a b => a.seq < b.seq
  ahead : ∀ m ∈ rawEvents, last / streamIdStride ≤ m.seq
  complete : ∀ row ∈ s.db.rawEvents, ∀ m ∈ rawEvents, last < row.seq * streamIdStride →
    row.seq ≤ m.seq → row ∈ rawEvents
  within : ∀ m ∈ rawEvents, m.seq * streamIdStride ≠ cursor
  le : cursor ≤ last

section UpTo

variable {rt : Runtime K} {incidentLimit edgeLimit : ℤ} {afterStreamId cursor last : ℕ} {s s' : Stream K}
  {h : List (Transition (Stream K) StreamTurn)} {v : View K} {row m : RawEvent}
  {rawEvents : List RawEvent} {deltas : List (StreamEvent K)}

omit [Field K] [LinearOrder K] in
/-- A raw event that is committed later is past every cursor. -/
theorem UpTo.step {l : StreamTurn} (hu : UpTo afterStreamId h s v cursor) (ha : Appends s.db s'.db)
    (hl : Ledgered s'.db) : UpTo afterStreamId (⟨s, l, s'⟩ :: h) s' v cursor := by
  refine ⟨fun row hrow hafter hle => ?_, fun k hk => ha.edges k (hu.edges k hk), ?_⟩
  · refine (hu.shown row ?_ hafter hle).step
    rcases hu.reached with hc | ⟨m, hm, hc⟩
    · omega
    · refine ha.mem_of_le hl hm hrow ?_
      unfold streamIdStride metricsOffset at *
      omega
  · exact hu.reached.imp_right fun ⟨m, hm, hc⟩ => ⟨m, ha.mem hm, hc⟩

omit [Field K] [LinearOrder K] in
theorem Batch.step (hb : Batch s cursor rawEvents last) (ha : Appends s.db s'.db) (hl : Ledgered s'.db) :
    Batch s' cursor rawEvents last where
  mem m hm := ha.mem (hb.mem m hm)
  sorted := hb.sorted
  ahead := hb.ahead
  complete row hrow m hm hlt hle :=
    hb.complete row (ha.mem_of_le hl (hb.mem m hm) hrow hle) m hm hlt hle
  within := hb.within
  le := hb.le

omit [Field K] [LinearOrder K] in
/-- What a poll reads. -/
theorem batch_deltaRows (hl : Ledgered s.db) :
    Batch s cursor (deltaRows deltaLimit cursor s.db) cursor where
  mem m hm := (mem_pendingRows.1 (deltaRows_sublist.subset hm)).1
  sorted := (pairwise_pendingRows hl.nodup_seq _).sublist deltaRows_sublist
  ahead m hm := (mem_pendingRows.1 (deltaRows_sublist.subset hm)).2.1
  complete row hrow m hm hlt hle := by
    refine deltaRows_complete hl hm (mem_pendingRows.2 ⟨hrow, ?_, ?_⟩) hle
    · unfold streamIdStride at *
      omega
    · unfold streamIdStride at *
      omega
  within m hm heq := by
    have hm := (mem_pendingRows.1 (deltaRows_sublist.subset hm)).2.2
    unfold streamIdStride at *
    omega
  le := le_rfl

omit [Field K] [LinearOrder K] in
/-- Once the first of them is turned into deltas the others are left. -/
theorem Batch.next {incident : IncidentPayload} {edges : List (EdgePayload K)}
    (hb : Batch s cursor (m :: rawEvents) (cursorAfter cursor deltas)) :
    Batch s cursor rawEvents (cursorAfter cursor (deltas ++ deltasOf cursor m incident edges)) := by
  have hlater : ∀ m' ∈ rawEvents, m.seq < m'.seq := fun m' hm' => List.rel_of_pairwise_cons hb.sorted hm'
  have hahead := hb.ahead m List.mem_cons_self
  have hwithin := hb.within m List.mem_cons_self
  have hle := hb.le
  have hreached : cursor < m.seq * streamIdStride →
      cursorAfter cursor (deltas ++ deltasOf cursor m incident edges) =
        m.seq * streamIdStride + metricsOffset := fun hlt =>
    (deltasOf_of_lt (v := View.empty) hlt).2
  have hcursor := @cursorAfter_deltasOf _ cursor m deltas incident edges
  generalize cursorAfter cursor (deltas ++ deltasOf cursor m incident edges) = next at *
  generalize cursorAfter cursor deltas = last at *
  unfold streamIdStride metricsOffset at *
  refine ⟨fun m' hm' => hb.mem m' (List.mem_cons_of_mem _ hm'), (List.pairwise_cons.1 hb.sorted).2,
    fun m' hm' => ?_, fun row hrow m' hm' hlt hle' => ?_,
    fun m' hm' => hb.within m' (List.mem_cons_of_mem _ hm'), ?_⟩
  · have hlt := hlater m' hm'
    show next / 10 ≤ m'.seq
    omega
  · have hlt : next < row.seq * 10 := hlt
    have hmem := hb.complete row hrow m' (List.mem_cons_of_mem _ hm') (by unfold streamIdStride; omega) hle'
    rcases List.mem_cons.1 hmem with rfl | hmem
    · omega
    · exact hmem
  · omega

omit [Field K] [LinearOrder K] in
/-- A row of an incident that is read of a database with a later raw event leaves an effect shown. -/
theorem Shown.mergeIncidents {x : String} {incident : IncidentPayload} {db : Database K}
    (hs : Shown h s v row) (hv : Visited h s db) (hrow : row ∈ db.rawEvents)
    (hi : incidentForEvent x db = some incident) : Shown h s (v.mergeIncidents [incident]) row := by
  refine ⟨hs.incident.overlay ⟨hv, hrow⟩ fun r hr => ?_, hs.edges⟩
  obtain rfl := List.mem_singleton.1 hr
  obtain ⟨i, hfind, rfl⟩ := Option.map_eq_some_iff.1 hi
  exact hi

omit [Field K] [LinearOrder K] in
theorem Shown.mergeEdges {x : String} (hs : Shown h s v row) (hrow : row ∈ s.db.rawEvents) :
    Shown h s (v.mergeEdges (edgesForIncident x s.db)) row := by
  refine ⟨hs.incident, fun k hk => ?_⟩
  exact (hs.edges k hk).overlay ⟨.inl rfl, hrow⟩ fun r hr => edgeAt_of_mem_edgesForIncident hr

omit [Field K] [LinearOrder K] in
/-- **The deltas of a raw event show its effect.** -/
theorem shown_deltas {incident : IncidentPayload} {db : Database K} (hv : Visited h s db)
    (hm : m ∈ db.rawEvents) (hm' : m ∈ s.db.rawEvents)
    (hi : incidentForEvent m.incidentId db = some incident)
    (hedges : ∀ k, (v.edges k).isSome = true → (s.db.edges.find? k).isSome = true) :
    Shown h s ((v.mergeIncidents [incident]).mergeEdges (edgesForIncident m.incidentId s.db)) m := by
  obtain ⟨i, hfind, rfl⟩ := Option.map_eq_some_iff.1 hi
  refine ⟨readFrom_overlay ⟨hv, hm⟩ (fun r hr => ?_) (fun r _ => ⟨_, List.mem_singleton_self _, rfl⟩)
    fun hnone => ?_, fun k hk => ?_⟩
  · obtain rfl := List.mem_singleton.1 hr
    exact hi
  · rw [hi] at hnone
    cases hnone
  · refine readFrom_overlay ⟨.inl rfl, hm'⟩ (fun r hr => edgeAt_of_mem_edgesForIncident hr)
      (fun r hr => exists_mem_edgesForIncident hk hr) fun hnone => ?_
    have hnone : s.db.edges.find? k = none := Option.map_eq_none_iff.1 hnone
    refine Option.not_isSome_iff_eq_none.1 fun hsome => ?_
    have hthere := hedges k hsome
    rw [hnone] at hthere
    cases hthere

omit [Field K] [LinearOrder K] in
/-- Edges that are read of the database are there. -/
theorem edges_mergeEdges {x : String}
    (hedges : ∀ k, (v.edges k).isSome = true → (s.db.edges.find? k).isSome = true) (k : String × String)
    (hk : ((v.mergeEdges (edgesForIncident x s.db)).edges k).isSome = true) :
    (s.db.edges.find? k).isSome = true := by
  rcases @overlay_cases _ _ _ (fun e : EdgePayload K => (e.sourceIncidentId, e.targetIncidentId))
    (edgesForIncident x s.db) v.edges k with ⟨r, hr, rfl, -⟩ | ⟨-, heq⟩
  · obtain ⟨e, he, -⟩ := Option.map_eq_some_iff.1 (edgeAt_of_mem_edgesForIncident hr)
    rw [he]
    rfl
  · refine hedges k ?_
    rw [← heq]
    exact hk

omit [Field K] [LinearOrder K] in
/-- **The deltas of the next raw event keep the map up to date.** -/
theorem UpTo.mergeDeltas {incident : IncidentPayload} {db : Database K}
    (hu : UpTo afterStreamId h s v (cursorAfter cursor deltas)) (hl : Ledgered s.db)
    (hearlier : Appends db s.db) (hv : Visited h s db) (hm : m ∈ db.rawEvents)
    (hi : incidentForEvent m.incidentId db = some incident)
    (hb : Batch s cursor (m :: rawEvents) (cursorAfter cursor deltas)) :
    UpTo afterStreamId h s (v.applyAll (deltasOf cursor m incident (edgesForIncident m.incidentId s.db)))
      (cursorAfter cursor (deltas ++ deltasOf cursor m incident (edgesForIncident m.incidentId s.db))) := by
  have hmem := hb.mem m List.mem_cons_self
  have hle := hb.le
  have hcursor := @cursorAfter_deltasOf _ cursor m deltas incident (edgesForIncident m.incidentId s.db)
  rcases Nat.lt_or_gt_of_ne (hb.within m List.mem_cons_self) with hgt | hlt
  · -- the cursor points into it: nothing is newly due
    refine ⟨fun row hrow hafter hle' => ?_, ?_, ?_⟩
    · have hshown := hu.shown row hrow hafter <| by
        unfold streamIdStride metricsOffset at *
        omega
      rcases deltasOf_of_gt (v := v) hgt with heq | heq
      · rw [heq]
        exact hshown
      · rw [heq]
        exact hshown.mergeEdges hrow
    · rcases deltasOf_of_gt (v := v) hgt with heq | heq
      · rw [heq]
        exact hu.edges
      · rw [heq]
        exact edges_mergeEdges hu.edges
    · rcases hcursor with heq | ⟨-, heq⟩
      · rw [heq]
        exact hu.reached
      · rw [heq]
        exact .inr ⟨m, hmem, le_rfl⟩
  · have hsent := @deltasOf_of_lt _ cursor m v deltas incident (edgesForIncident m.incidentId s.db) hlt
    rw [hsent.1, hsent.2]
    refine ⟨fun row hrow hafter hle' => ?_, edges_mergeEdges hu.edges, .inr ⟨m, hmem, le_rfl⟩⟩
    have hseq : row.seq ≤ m.seq := by
      unfold streamIdStride metricsOffset at *
      omega
    by_cases hbefore : row.seq * streamIdStride ≤ cursorAfter cursor deltas
    · have hold := hearlier.mem_of_le hl hm hrow hseq
      exact ((hu.shown row hrow hafter hbefore).mergeIncidents hv hold hi).mergeEdges hrow
    · -- it is the next one
      have hnext := hb.complete row hrow m List.mem_cons_self (Nat.lt_of_not_le hbefore) hseq
      rcases List.mem_cons.1 hnext with rfl | hlater
      · exact shown_deltas hv hm hmem hi hu.edges
      · have hafter := List.rel_of_pairwise_cons hb.sorted hlater
        omega

omit [Field K] [LinearOrder K] in
/-- **A snapshot that no raw event was committed under** is up to date with the last one. -/
theorem upTo_snapshot {db₁ db₂ : Database K} (hv₁ : Visited h s db₁)
    (hv₂ : Visited h s db₂) (hearlier : Appends db₂ s.db) (hledger₁ : db₁.rawEvents = s.db.rawEvents)
    (hledger₂ : db₂.rawEvents = s.db.rawEvents)
    (hincidents : (db₁.incidents.rows.length : ℤ) ≤ incidentLimit)
    (hedges : (db₂.edges.rows.length : ℤ) ≤ edgeLimit) :
    UpTo afterStreamId h s (View.empty.apply
        ⟨latestStreamId s.db, .snapshot (snapshotIncidents incidentLimit db₁) (snapshotEdges edgeLimit db₂)⟩)
      (latestStreamId s.db) := by
  refine ⟨fun row hrow _ _ => ⟨?_, fun k _ => ?_⟩, fun k hk => ?_, ?_⟩
  · exact readFrom_overlay ⟨hv₁, hledger₁ ▸ hrow⟩ (fun r hr => incidentForEvent_of_mem hr)
      (fun r hr => exists_mem_snapshotIncidents hincidents hr) fun _ => rfl
  · exact readFrom_overlay ⟨hv₂, hledger₂ ▸ hrow⟩ (fun r hr => edgeAt_of_mem hr)
      (fun r hr => exists_mem_snapshotEdges hedges hr) fun _ => rfl
  · refine hearlier.edges k ?_
    rcases @overlay_cases _ _ _ (fun e : EdgePayload K => (e.sourceIncidentId, e.targetIncidentId))
      (snapshotEdges edgeLimit db₂) (fun _ => none) k with ⟨r, hr, rfl, -⟩ | ⟨-, heq⟩
    · obtain ⟨e, he, -⟩ := Option.map_eq_some_iff.1 (edgeAt_of_mem hr)
      rw [he]
      rfl
    · have hnone : (View.empty.apply ⟨latestStreamId s.db, .snapshot (snapshotIncidents incidentLimit db₁)
          (snapshotEdges edgeLimit db₂)⟩ : View K).edges k = none := heq
      rw [hnone] at hk
      cases hk
  · by_cases hempty : s.db.rawEvents.map (·.seq) = []
    · refine .inl ?_
      unfold latestStreamId
      rw [hempty]
      exact Nat.le_trans (Nat.le_of_eq (Nat.zero_mul _)) (Nat.zero_le _)
    · obtain ⟨m, hm, hmax⟩ := List.mem_map.1 (Library.Table.foldr_max_mem hempty)
      refine .inr ⟨m, hm, ?_⟩
      unfold latestStreamId
      rw [← hmax]
      exact Nat.le_add_right _ _

end UpTo

/-! ## What a query does -/

/-- **One query**: the phase it leaves, the phase it leads to, and what is sent. -/
inductive QueryMove (incidentLimit edgeLimit : ℤ) (afterStreamId : ℕ) (db : Database K) :
    StreamPhase K → StreamPhase K → List (StreamEvent K) → Prop
  | incidents : QueryMove incidentLimit edgeLimit afterStreamId db .connected
      (.readIncidents (snapshotIncidents incidentLimit db)) []
  | edges {incidents} : QueryMove incidentLimit edgeLimit afterStreamId db (.readIncidents incidents)
      (.readEdges incidents (snapshotEdges edgeLimit db)) []
  | snapshot {incidents edges} : afterStreamId < latestStreamId db →
      QueryMove incidentLimit edgeLimit afterStreamId db (.readEdges incidents edges)
        (.polling (latestStreamId db)) [⟨latestStreamId db, .snapshot incidents edges⟩]
  | resume {incidents edges} : latestStreamId db ≤ afterStreamId →
      QueryMove incidentLimit edgeLimit afterStreamId db (.readEdges incidents edges) (.polling afterStreamId) []
  | poll {cursor} : QueryMove incidentLimit edgeLimit afterStreamId db (.polling cursor)
      (.draining cursor (deltaRows deltaLimit cursor db) []) []
  | deliver {cursor deltas} : QueryMove incidentLimit edgeLimit afterStreamId db (.draining cursor [] deltas)
      (.polling (cursorAfter cursor deltas)) deltas
  | skip {cursor m rawEvents deltas} : incidentForEvent m.incidentId db = none →
      QueryMove incidentLimit edgeLimit afterStreamId db (.draining cursor (m :: rawEvents) deltas)
        (.draining cursor rawEvents deltas) []
  | incident {cursor m incident rawEvents deltas} : incidentForEvent m.incidentId db = some incident →
      QueryMove incidentLimit edgeLimit afterStreamId db (.draining cursor (m :: rawEvents) deltas)
        (.readIncident cursor m incident rawEvents deltas) []
  | deltas {cursor m incident rawEvents deltas} :
      QueryMove incidentLimit edgeLimit afterStreamId db (.readIncident cursor m incident rawEvents deltas)
        (.draining cursor rawEvents
          (deltas ++ deltasOf cursor m incident (edgesForIncident m.incidentId db))) []

section Moves

variable {rt : Runtime K} {incidentLimit edgeLimit : ℤ} {afterStreamId : ℕ} {s s' : Stream K}

omit [Field K] [LinearOrder K] in
theorem streamNext_move (db : Database K) (phase : StreamPhase K) :
    QueryMove incidentLimit edgeLimit afterStreamId db phase
      (streamNext incidentLimit edgeLimit afterStreamId db phase).1
      (streamNext incidentLimit edgeLimit afterStreamId db phase).2 := by
  cases phase with
  | connected => exact .incidents
  | readIncidents incidents => exact .edges
  | readEdges incidents edges =>
      unfold streamNext
      split_ifs with hlt
      · exact .snapshot hlt
      · exact .resume (Nat.le_of_not_lt hlt)
  | polling cursor => exact .poll
  | draining cursor rawEvents deltas =>
      cases rawEvents with
      | nil => exact .deliver
      | cons m rawEvents =>
          simp only [streamNext]
          cases hi : incidentForEvent m.incidentId db with
          | none => exact .skip hi
          | some incident => exact .incident hi
  | readIncident cursor m incident rawEvents deltas => exact .deltas

/-- A query leaves the database alone. -/
theorem streamStep_query
    (hnext : streamStep rt incidentLimit edgeLimit afterStreamId s .query = some s') :
    s'.db = s.db ∧ ∃ events, s'.client = s.client.applyAll events ∧
      QueryMove incidentLimit edgeLimit afterStreamId s.db s.phase s'.phase events := by
  obtain rfl := Option.some.inj hnext
  exact ⟨rfl, _, rfl, streamNext_move s.db s.phase⟩

end Moves

/-! ## What every run keeps -/

/-- What a poll has read is a batch of raw events. -/
def Batched (s : Stream K) : StreamPhase K → Prop
  | .draining cursor rawEvents deltas => Batch s cursor rawEvents (cursorAfter cursor deltas)
  | .readIncident cursor rawEvent _ rawEvents deltas =>
      Batch s cursor (rawEvent :: rawEvents) (cursorAfter cursor deltas)
  | _ => True

/-- The databases of a run are earlier than the one it has reached, and its polls read batches. -/
structure Reading (h : List (Transition (Stream K) StreamTurn)) (s : Stream K) : Prop where
  ledgered : Ledgered s.db
  earlier : ∀ db, Visited h s db → Appends db s.db
  batched : Batched s s.phase

section Reading

variable {rt : Runtime K} {incidentLimit edgeLimit : ℤ} {afterStreamId : ℕ} {s s' : Stream K}
  {h : List (Transition (Stream K) StreamTurn)}

omit [Field K] [LinearOrder K] in
theorem Batched.step {phase : StreamPhase K} (hb : Batched s phase) (ha : Appends s.db s'.db)
    (hl : Ledgered s'.db) : Batched s' phase := by
  cases phase with
  | draining cursor rawEvents deltas => exact Batch.step hb ha hl
  | readIncident cursor m incident rawEvents deltas => exact Batch.step hb ha hl
  | _ => trivial

omit [Field K] [LinearOrder K] in
/-- The incident of a raw event that is read is there. -/
theorem Batch.exists_incident {cursor last : ℕ} {m : RawEvent} {rawEvents : List RawEvent}
    (hb : Batch s cursor (m :: rawEvents) last) (hl : Ledgered s.db) :
    incidentForEvent m.incidentId s.db ≠ none := by
  intro hnone
  have hknown := hl.known m (hb.mem m List.mem_cons_self)
  rw [Option.map_eq_none_iff.1 hnone] at hknown
  cases hknown

omit [Field K] [LinearOrder K] in
/-- A query keeps the batch. -/
theorem QueryMove.batched {phase phase' : StreamPhase K} {events : List (StreamEvent K)}
    (hmove : QueryMove incidentLimit edgeLimit afterStreamId s.db phase phase' events)
    (hl : Ledgered s.db) (hb : Batched s phase) : Batched s phase' := by
  cases hmove with
  | poll => exact batch_deltaRows hl
  | skip hi => exact absurd hi (Batch.exists_incident hb hl)
  | incident hi => exact hb
  | deltas => exact Batch.next hb
  | _ => trivial

/-- **What the queries have read in every run.** -/
theorem StreamRun.reading (r : StreamRun rt incidentLimit edgeLimit afterStreamId h s) : Reading h s := by
  refine r.induct (I := fun h s => Reading h s) ?_ ?_
  · rintro s ⟨hl, hp, -⟩
    refine ⟨hl, fun db hdb => ?_, by rw [hp]; trivial⟩
    rcases hdb with rfl | ⟨t, ht, -⟩
    · exact Appends.refl s.db
    · exact absurd ht List.not_mem_nil
  · rintro h s l s' - hread hnext
    have happends := streamStep_appends hnext
    have hl' := happends.ledgered hread.ledgered
    refine ⟨hl', fun db hdb => ?_, ?_⟩
    · rcases hdb with rfl | ⟨t, ht, rfl⟩
      · exact Appends.refl s'.db
      · rcases List.mem_cons.1 ht with rfl | ht
        · exact happends
        · exact (hread.earlier _ (.inr ⟨t, ht, rfl⟩)).trans happends
    · cases l with
      | turn t =>
          rw [(streamStep_turn hnext).2.1]
          exact hread.batched.step happends hl'
      | query =>
          obtain ⟨-, events, -, hmove⟩ := streamStep_query hnext
          exact (hmove.batched hread.ledgered hread.batched).step happends hl'

end Reading

/-- What has been read is what the database had when no raw event since was there. -/
structure ReadOf (h : List (Transition (Stream K) StreamTurn)) (s : Stream K) (db : Database K) : Prop where
  visited : Visited h s db
  ledger : db.rawEvents = s.db.rawEvents

/-- Where the map of the client stands, by the phase of the stream. -/
def StreamInvariant (incidentLimit edgeLimit : ℤ) (afterStreamId : ℕ)
    (h : List (Transition (Stream K) StreamTurn)) (s : Stream K) (v : View K) : StreamPhase K → Prop
  | .connected => v = View.empty
  | .readIncidents incidents => v = View.empty ∧ ∃ db, ReadOf h s db ∧
      incidents = snapshotIncidents incidentLimit db ∧ (db.incidents.rows.length : ℤ) ≤ incidentLimit
  | .readEdges incidents edges => v = View.empty ∧ ∃ db db', ReadOf h s db ∧ ReadOf h s db' ∧
      incidents = snapshotIncidents incidentLimit db ∧ (db.incidents.rows.length : ℤ) ≤ incidentLimit ∧
      edges = snapshotEdges edgeLimit db' ∧ (db'.edges.rows.length : ℤ) ≤ edgeLimit
  | .polling cursor => UpTo afterStreamId h s v cursor
  | .draining cursor _ deltas => UpTo afterStreamId h s v cursor ∧
      UpTo afterStreamId h s (v.applyAll deltas) (cursorAfter cursor deltas)
  | .readIncident cursor rawEvent incident _ deltas => UpTo afterStreamId h s v cursor ∧
      UpTo afterStreamId h s (v.applyAll deltas) (cursorAfter cursor deltas) ∧
      ∃ db, Visited h s db ∧ rawEvent ∈ db.rawEvents ∧
        incidentForEvent rawEvent.incidentId db = some incident

section Invariant

variable {rt : Runtime K} {incidentLimit edgeLimit : ℤ} {afterStreamId : ℕ} {s s' : Stream K}
  {h : List (Transition (Stream K) StreamTurn)} {v : View K} {phase phase' : StreamPhase K}

omit [Field K] [LinearOrder K] in
theorem ReadOf.step {l : StreamTurn} {db : Database K} (hr : ReadOf h s db)
    (hledger : s'.db.rawEvents = s.db.rawEvents) : ReadOf (⟨s, l, s'⟩ :: h) s' db :=
  ⟨hr.visited.step, hr.ledger.trans hledger.symm⟩

omit [Field K] [LinearOrder K] in
/-- A commit keeps it, if it adds no raw event while a snapshot is taken. -/
theorem StreamInvariant.step {l : StreamTurn}
    (hI : StreamInvariant incidentLimit edgeLimit afterStreamId h s v phase) (ha : Appends s.db s'.db)
    (hl : Ledgered s'.db) (hquiet : phase.takesSnapshot = true → s'.db.rawEvents = s.db.rawEvents) :
    StreamInvariant incidentLimit edgeLimit afterStreamId (⟨s, l, s'⟩ :: h) s' v phase := by
  cases phase with
  | connected => exact hI
  | readIncidents incidents =>
      obtain ⟨hempty, db, hfrom, hrest⟩ := hI
      exact ⟨hempty, db, hfrom.step (hquiet rfl), hrest⟩
  | readEdges incidents edges =>
      obtain ⟨hempty, db, db', hfrom, hfrom', hrest⟩ := hI
      exact ⟨hempty, db, db', hfrom.step (hquiet rfl), hfrom'.step (hquiet rfl), hrest⟩
  | polling cursor => exact UpTo.step hI ha hl
  | draining cursor rawEvents deltas => exact ⟨hI.1.step ha hl, hI.2.step ha hl⟩
  | readIncident cursor rawEvent incident rawEvents deltas =>
      obtain ⟨hclient, hpending, db, hv, hrest⟩ := hI
      exact ⟨hclient.step ha hl, hpending.step ha hl, db, hv.step, hrest⟩

omit [Field K] [LinearOrder K] in
/-- **A query keeps it**, if what a snapshot reads is within its limits. -/
theorem StreamInvariant.query {events : List (StreamEvent K)}
    (hI : StreamInvariant incidentLimit edgeLimit afterStreamId h s v phase)
    (hmove : QueryMove incidentLimit edgeLimit afterStreamId s.db phase phase' events)
    (hl : Ledgered s.db) (hearlier : ∀ db, Visited h s db → Appends db s.db) (hb : Batched s phase)
    (hincidents : phase = .connected → (s.db.incidents.rows.length : ℤ) ≤ incidentLimit)
    (hedges : ∀ incidents, phase = .readIncidents incidents → (s.db.edges.rows.length : ℤ) ≤ edgeLimit) :
    StreamInvariant incidentLimit edgeLimit afterStreamId h s (v.applyAll events) phase' := by
  cases hmove with
  | incidents => exact ⟨hI, s.db, ⟨.inl rfl, rfl⟩, rfl, hincidents rfl⟩
  | @edges incidents =>
      obtain ⟨hempty, db, hfrom, heq, hwithin⟩ := hI
      exact ⟨hempty, db, s.db, hfrom, ⟨.inl rfl, rfl⟩, heq, hwithin, rfl, hedges incidents rfl⟩
  | snapshot hlt =>
      obtain ⟨rfl, db, db', hfrom, hfrom', rfl, hwithin, rfl, hwithin'⟩ := hI
      exact upTo_snapshot hfrom.visited hfrom'.visited (hearlier db' hfrom'.visited) hfrom.ledger
        hfrom'.ledger hwithin hwithin'
  | resume hle =>
      -- the client resumes: what it has not had before is still to be committed
      obtain ⟨rfl, -⟩ := hI
      refine ⟨fun row _ hafter hle => ?_, fun k hk => ?_, .inl le_rfl⟩
      · omega
      · cases hk
  | poll => exact ⟨hI, hI⟩
  | deliver => exact hI.2
  | skip hi => exact absurd hi (Batch.exists_incident hb hl)
  | incident hi =>
      exact ⟨hI.1, hI.2, s.db, .inl rfl, Batch.mem hb _ List.mem_cons_self, hi⟩
  | @deltas cursor m incident rawEvents deltas =>
      obtain ⟨hclient, hpending, db, hv, hmem, hi⟩ := hI
      have hsent := hpending.mergeDeltas hl (hearlier db hv) hv hmem hi hb
      rw [← applyAll_append] at hsent
      exact ⟨hclient, hsent⟩

/-- **Nothing that the cursor is past is lost**, in every state of a run. -/
theorem StreamRun.invariant (r : StreamRun rt incidentLimit edgeLimit afterStreamId h s)
    (hc : ∀ t ∈ h, WithinLimits incidentLimit edgeLimit t ∧ SnapshotUndisturbed t) :
    StreamInvariant incidentLimit edgeLimit afterStreamId h s s.client s.phase := by
  refine Run.induct_of_forall
    (I := fun h s => StreamInvariant incidentLimit edgeLimit afterStreamId h s s.client s.phase) r hc ?_ ?_
  · rintro s ⟨-, hp, hempty⟩
    rw [hp]
    exact hempty
  · rintro h s l s' hrun - hI ⟨hlimits, hquiet⟩ hnext
    have hread := StreamRun.reading hrun
    have happends := streamStep_appends hnext
    have hl' := happends.ledgered hread.ledgered
    cases l with
    | turn t =>
        obtain ⟨-, hphase, hclient⟩ := streamStep_turn hnext
        rw [hphase, hclient]
        exact hI.step happends hl' (hquiet (by simp))
    | query =>
        obtain ⟨hdb, events, hclient, hmove⟩ := streamStep_query hnext
        rw [hclient]
        have hI' := hI.query hmove hread.ledgered hread.earlier hread.batched (hlimits.incidents rfl)
          fun incidents => hlimits.edges incidents rfl
        exact hI'.step happends hl' fun _ => by rw [hdb]

end Invariant

/-! ## The stream gets past every raw event -/

/-- The batch takes the cursor past the raw event it points into. -/
def Advances (cursor : ℕ) (rawEvents : List RawEvent) (last : ℕ) : Prop :=
  (∃ m ∈ rawEvents, cursor < m.seq * streamIdStride) ∨ cursor / streamIdStride < last / streamIdStride

/-- How far `n` polls that had something to read have come. -/
def PollsReach (seq n : ℕ) : StreamPhase K → Prop
  | .polling cursor => n ≤ cursor / streamIdStride ∨ seq * streamIdStride ≤ cursor
  | .draining cursor rawEvents deltas => n ≤ cursor / streamIdStride ∨ seq * streamIdStride ≤ cursor ∨
      n ≤ cursor / streamIdStride + 1 ∧ Advances cursor rawEvents (cursorAfter cursor deltas)
  | .readIncident cursor rawEvent _ rawEvents deltas =>
      n ≤ cursor / streamIdStride ∨ seq * streamIdStride ≤ cursor ∨ n ≤ cursor / streamIdStride + 1 ∧
        Advances cursor (rawEvent :: rawEvents) (cursorAfter cursor deltas)
  | _ => n = 0

section Progress

variable {rt : Runtime K} {incidentLimit edgeLimit : ℤ} {afterStreamId seq n : ℕ} {s s' : Stream K}
  {h : List (Transition (Stream K) StreamTurn)} {phase phase' : StreamPhase K}

omit [Field K] [LinearOrder K] in
/-- The deltas of a raw event of the batch take the cursor along. -/
theorem Batch.advances {cursor : ℕ} {m : RawEvent} {rawEvents : List RawEvent}
    {deltas : List (StreamEvent K)} {incident : IncidentPayload} {edges : List (EdgePayload K)}
    (hb : Batch s cursor (m :: rawEvents) (cursorAfter cursor deltas))
    (h : Advances cursor (m :: rawEvents) (cursorAfter cursor deltas)) :
    Advances cursor rawEvents (cursorAfter cursor (deltas ++ deltasOf cursor m incident edges)) := by
  have hahead := hb.ahead m List.mem_cons_self
  have hcursor := @cursorAfter_deltasOf _ cursor m deltas incident edges
  have hreached : cursor < m.seq * streamIdStride →
      cursorAfter cursor (deltas ++ deltasOf cursor m incident edges) =
        m.seq * streamIdStride + metricsOffset := fun hlt =>
    (deltasOf_of_lt (v := View.empty) hlt).2
  rcases h with ⟨m', hm', hlt⟩ | hlt
  · rcases List.mem_cons.1 hm' with rfl | hm'
    · refine .inr ?_
      rw [hreached hlt]
      unfold streamIdStride metricsOffset at *
      omega
    · exact .inl ⟨m', hm', hlt⟩
  · refine .inr ?_
    unfold streamIdStride metricsOffset at *
    omega

omit [Field K] [LinearOrder K] in
/-- A query that asks for no raw events keeps what the polls have reached. -/
theorem QueryMove.pollsReach {events : List (StreamEvent K)}
    (hmove : QueryMove incidentLimit edgeLimit afterStreamId s.db phase phase' events)
    (hl : Ledgered s.db) (hb : Batched s phase) (hp : ∀ cursor, phase ≠ .polling cursor)
    (hreach : PollsReach seq n phase) : PollsReach seq n phase' := by
  cases hmove with
  | incidents => exact hreach
  | edges => exact hreach
  | snapshot _ => exact .inl (hreach ▸ Nat.zero_le _)
  | resume _ => exact .inl (hreach ▸ Nat.zero_le _)
  | poll => exact absurd rfl (hp _)
  | skip hi => exact absurd hi (Batch.exists_incident hb hl)
  | incident _ => exact hreach
  | @deliver cursor =>
      have hle : cursor ≤ cursorAfter cursor events := Batch.le hb
      have hdiv : cursor / streamIdStride ≤ cursorAfter cursor events / streamIdStride :=
        Nat.div_le_div_right hle
      rcases hreach with hn | hseq | ⟨hn, hadvances⟩
      · exact .inl (hn.trans hdiv)
      · exact .inr (hseq.trans hle)
      · rcases hadvances with ⟨m, hm, -⟩ | hlt
        · exact absurd hm List.not_mem_nil
        · exact .inl (hn.trans hlt)
  | @deltas cursor m incident rawEvents sent =>
      rcases hreach with hn | hseq | ⟨hn, hadvances⟩
      · exact .inl hn
      · exact .inr (.inl hseq)
      · exact .inr (.inr ⟨hn, Batch.advances hb hadvances⟩)

/-- **What the polls have reached**, in every run: since a raw event is there, each poll gets at least one
raw event further, as long as the cursor is not past that one. -/
theorem StreamRun.pollsReach (r : StreamRun rt incidentLimit edgeLimit afterStreamId h s) :
    PollsReach seq (polls h seq) s.phase := by
  refine r.induct (I := fun h s => PollsReach seq (polls h seq) s.phase) ?_ ?_
  · rintro s ⟨-, hp, -⟩
    rw [hp]
    rfl
  · rintro h s l s' hrun hI hnext
    have hread := StreamRun.reading hrun
    cases l with
    | turn t =>
        obtain ⟨-, hphase, -⟩ := streamStep_turn hnext
        have hsame : polls (⟨s, .turn t, s'⟩ :: h) seq = polls h seq := by
          unfold polls
          rw [List.countP_cons_of_neg (by simp [beginsPoll])]
        rw [hphase, hsame]
        exact hI
    | query =>
        obtain ⟨hdb, events, -, hmove⟩ := streamStep_query hnext
        by_cases hp : ∃ cursor, s.phase = .polling cursor
        swap
        · have hsame : polls (⟨s, .query, s'⟩ :: h) seq = polls h seq := by
            unfold polls
            rw [List.countP_cons_of_neg]
            unfold beginsPoll
            dsimp only
            split
            · next cursor _ heq => exact absurd ⟨cursor, heq⟩ hp
            · simp
          rw [hsame]
          exact hmove.pollsReach hread.ledgered hread.batched (fun cursor heq => hp ⟨cursor, heq⟩) hI
        obtain ⟨cursor, hp⟩ := hp
        have hpolls : polls (⟨s, .query, s'⟩ :: h) seq =
            polls h seq + if s.db.rawEvents.any fun r => r.seq = seq then 1 else 0 := by
          unfold polls
          rw [List.countP_cons]
          simp [beginsPoll, hp]
        rw [hp] at hI hmove
        rw [hpolls]
        generalize s'.phase = phase' at hmove ⊢
        cases hmove with
        | poll =>
            rcases hI with hn | hseq
            · by_cases hany : (s.db.rawEvents.any fun r => r.seq = seq) = true
              · rw [if_pos hany]
                obtain ⟨row, hrow, hrseq⟩ := List.any_eq_true.1 hany
                obtain rfl := of_decide_eq_true hrseq
                by_cases hpast : row.seq * streamIdStride ≤ cursor
                · exact .inr (.inl hpast)
                · exact .inr (.inr ⟨Nat.succ_le_succ hn,
                    .inl (deltaRows_advances hread.ledgered hrow (Nat.lt_of_not_le hpast))⟩)
              · rw [if_neg hany]
                exact .inl hn
            · exact .inr (.inl hseq)

end Progress

/-- **A snapshot that no raw event is committed under loses nothing**: in every run the client is shown
the effect of each raw event that it has not had before once the cursor is past it, and the cursor gets
past each raw event with one poll for each raw event up to it and one more. -/
theorem losesNothing_of_run {rt : Runtime K} {incidentLimit edgeLimit : ℤ} {afterStreamId : ℕ}
    {s : Stream K} {h : List (Transition (Stream K) StreamTurn)}
    (r : StreamRun rt incidentLimit edgeLimit afterStreamId h s)
    (hlimits : ∀ t ∈ h, WithinLimits incidentLimit edgeLimit t) (hquiet : ∀ t ∈ h, SnapshotUndisturbed t) :
    LosesNothing afterStreamId h s := by
  have hI := r.invariant fun t ht => ⟨hlimits t ht, hquiet t ht⟩
  refine ⟨fun row hrow hafter ⟨cursor, hcursor, hle⟩ => ?_, fun row hrow hlt => ?_⟩
  · have hu : UpTo afterStreamId h s s.client cursor := by
      generalize s.phase = phase at hI hcursor
      cases phase with
      | polling c => cases hcursor; exact hI
      | draining c _ _ => cases hcursor; exact hI.1
      | readIncident c _ _ _ _ => cases hcursor; exact hI.1
      | _ => cases hcursor
    exact hu.shown row hrow hafter hle
  · have hreach := @StreamRun.pollsReach _ _ _ rt incidentLimit edgeLimit afterStreamId row.seq s h r
    unfold Passed
    generalize s.phase = phase at hreach ⊢
    unfold streamIdStride
    cases phase with
    | polling c =>
        refine ⟨c, rfl, ?_⟩
        unfold PollsReach streamIdStride at hreach
        omega
    | draining c _ _ =>
        refine ⟨c, rfl, ?_⟩
        unfold PollsReach streamIdStride at hreach
        omega
    | readIncident c _ _ _ _ =>
        refine ⟨c, rfl, ?_⟩
        unfold PollsReach streamIdStride at hreach
        omega
    | _ =>
        unfold PollsReach at hreach
        omega

/-! ## Runs to look at -/

/-- A client connects to a deployment that has not served anything. -/
def Stream.initial : Stream K := ⟨Deployment.initial, .connected, View.empty⟩

/-- What a replay from there computes is true of a run. -/
theorem StreamRun.of_replay {rt : Runtime K} {incidentLimit edgeLimit : ℤ} {afterStreamId : ℕ}
    {turns : List StreamTurn} {β : Type} {f : List (Transition (Stream K) StreamTurn) × Stream K → β} {b : β}
    (h : (Library.replay (streamStep rt incidentLimit edgeLimit afterStreamId) turns
      ([], Stream.initial)).map f = some b) :
    ∃ h s, StreamRun rt incidentLimit edgeLimit afterStreamId h s ∧ f (h, s) = b := by
  have hinit : Ledgered (Stream.initial : Stream K).db ∧ (Stream.initial : Stream K).phase = .connected ∧
      (Stream.initial : Stream K).client = View.empty := ⟨ledgered_empty, rfl, rfl⟩
  exact @Run.exists_of_replay _ _
    (fun s : Stream K => Ledgered s.db ∧ s.phase = .connected ∧ s.client = View.empty) _ _ _ _ _ _ hinit h

/-- A high alert of the disk; `freshId` is the id of the incident it would open. -/
def diskTurn (freshId eventId : String) : StreamTurn :=
  .turn (.request (.ingest freshId "unused" 1000 (alertOf "disk" eventId)))

/-- Whether what a transition reads is within the limits. -/
def readsWithin (incidentLimit edgeLimit : ℤ) (t : Transition (Stream K) StreamTurn) : Bool :=
  match t.label, t.source.phase with
  | .query, .connected => decide ((t.source.db.incidents.rows.length : ℤ) ≤ incidentLimit)
  | .query, .readIncidents _ => decide ((t.source.db.edges.rows.length : ℤ) ≤ edgeLimit)
  | _, _ => true

omit [Field K] [LinearOrder K] in
theorem withinLimits_of_readsWithin {incidentLimit edgeLimit : ℤ} {t : Transition (Stream K) StreamTurn}
    (h : readsWithin incidentLimit edgeLimit t = true) : WithinLimits incidentLimit edgeLimit t := by
  unfold readsWithin at h
  refine ⟨fun hl hp => ?_, fun incidents hl hp => ?_⟩
  · rw [hl, hp] at h
    exact of_decide_eq_true h
  · rw [hl, hp] at h
    exact of_decide_eq_true h

/-- The client connects after the first alert, and the second is committed once the snapshot is sent. -/
def quietTurns : List StreamTurn :=
  [diskTurn "A" "1", .query, .query, .query, diskTurn "B" "2", .query, .query, .query, .query]

/-- The second alert is delivered as a delta. -/
theorem losesNothing_of_run_quiet : ∃ h s, StreamRun Runtime.reference 100 200 0 h s ∧
    (s.client.incidents "A").map (·.alertCount) = some 2 ∧ s.phase.cursor = some 24 ∧
    LosesNothing 0 h s := by
  have hreplay : (Library.replay (streamStep Runtime.reference 100 200 0) quietTurns
      ([], Stream.initial)).map (fun s => (s.1.all (readsWithin 100 200),
        s.1.all (fun t => match t.label with | .turn _ => !t.source.phase.takesSnapshot | .query => true),
        (s.2.client.incidents "A").map (·.alertCount), s.2.phase.cursor)) =
      some (true, true, some 2, some 24) := by decide +kernel
  obtain ⟨h, s, r, heq⟩ := StreamRun.of_replay hreplay
  simp only [Prod.mk.injEq] at heq
  obtain ⟨hlimits, hquiet, hclient, hcursor⟩ := heq
  refine ⟨h, s, r, hclient, hcursor, losesNothing_of_run r
    (fun t ht => withinLimits_of_readsWithin (List.all_eq_true.1 hlimits t ht)) fun t ht hl hp => ?_⟩
  have hcheck := List.all_eq_true.1 hquiet t ht
  cases hlabel : t.label with
  | turn turn =>
      rw [hlabel] at hcheck
      dsimp only at hcheck
      rw [hp] at hcheck
      cases hcheck
  | query => exact absurd hlabel hl

/-- The second alert is committed while the snapshot is taken. -/
def disturbedTurns : List StreamTurn :=
  [diskTurn "A" "1", .query, diskTurn "B" "2", .query, .query, .query, .query]

/-- **An alert that is committed while the snapshot is taken is lost**: the snapshot has the incident
without it, and the cursor of the deltas is past it. -/
theorem not_losesNothing : ¬ ∀ h s, StreamRun Runtime.reference 100 200 0 h s →
    (∀ t ∈ h, WithinLimits 100 200 t) → LosesNothing 0 h s := by
  have hreplay : (Library.replay (streamStep Runtime.reference 100 200 0) disturbedTurns
      ([], Stream.initial)).map (fun s => (s.1.all (readsWithin 100 200) && (s.2.db :: s.1.map (·.source.db)).all
          (fun db => !(db.rawEvents.any fun r => r.seq = 2) ||
            decide ((db.incidents.find? "A").map (·.alertCount) = some 2)),
        s.2.db.rawEvents.head?.map (fun r => (r.seq, r.incidentId)),
        (s.2.client.incidents "A").map (·.alertCount), s.2.phase.cursor)) =
      some (true, some (2, "A"), some 1, some 20) := by decide +kernel
  obtain ⟨h, s, r, heq⟩ := StreamRun.of_replay hreplay
  simp only [Prod.mk.injEq, Bool.and_eq_true] at heq
  obtain ⟨⟨hlimits, hdbs⟩, hhead, hclient, hcursor⟩ := heq
  intro hall
  have hnothing := hall h s r fun t ht => withinLimits_of_readsWithin (List.all_eq_true.1 hlimits t ht)
  obtain ⟨row, hrow, hfields⟩ := Option.map_eq_some_iff.1 hhead
  obtain ⟨hseq, hid⟩ := Prod.mk.inj hfields
  have hshown := hnothing.shown row (List.mem_of_mem_head? hrow) (by rw [hseq]; decide)
    ⟨20, hcursor, by rw [hseq]; decide⟩
  obtain ⟨db, ⟨hvisited, hmem⟩, hread⟩ := hshown.incident
  have hdb : db ∈ s.db :: h.map (·.source.db) := by
    rcases hvisited with rfl | ⟨t, ht, rfl⟩
    · exact List.mem_cons_self
    · exact List.mem_cons_of_mem _ (List.mem_map.2 ⟨t, ht, rfl⟩)
  have hcount := List.all_eq_true.1 hdbs db hdb
  have hany : (db.rawEvents.any fun r => r.seq = 2) = true :=
    List.any_eq_true.2 ⟨row, hmem, decide_eq_true hseq⟩
  rw [hany, Bool.not_true, Bool.false_or, decide_eq_true_eq] at hcount
  rw [hid] at hread
  have hmap := congrArg (Option.map (·.alertCount)) hread
  rw [hclient] at hmap
  unfold incidentForEvent at hmap
  rw [Option.map_map] at hmap
  have htwo : some 1 = some 2 := hmap.trans hcount
  cases htwo

end PulseGraph
