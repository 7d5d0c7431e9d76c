/-
# A stream over connections that break

`usePulseGraphStream`: "reconnects resume with `?after=<id>` and no events are replayed or skipped".
The events a stream yields are in flight until the browser dispatches them, and a connection that
breaks takes what is in flight with it; the next one asks for what follows the last event that was
dispatched, wherever in the four events of a raw event that is.

**Proved here.**  `reconnects_keep_up`: in every run, however often the connection breaks, no event is
dispatched twice and the cursor passes nothing over: the client has what some database of the run has,
that holds the raw event, of the incident of every raw event up to the cursor, and of its edges unless
the cursor is the event before them.
-/

import PulseGraph.Stream.Updates

namespace PulseGraph

open Library (Table Run Transition ReadFrom overlay overlay_cases readFrom_overlay)

variable {K : Type}

/-! ## A view that keeps up with the cursor -/

/-- What the client has of every raw event up to the cursor is read of a database that was seen, and
that holds the raw event; no edge of it is made up, and no id beyond the ledger was dispatched. -/
structure Current (seen : Database K → Prop) (base : ℕ) (db : Database K) (v : View K) (cursor : ℕ) : Prop where
  incidents : ∀ row ∈ db.rawEvents, base < row.seq * streamIdStride → row.seq * streamIdStride ≤ cursor →
    ReadFrom (fun d => seen d ∧ row ∈ d.rawEvents) (fun d x => incidentForEvent x d) v.incidents row.incidentId
  edges : ∀ row ∈ db.rawEvents, base < row.seq * streamIdStride → row.seq * streamIdStride ≤ cursor →
    cursor ≠ row.seq * streamIdStride + incidentOffset → ∀ k, k.1 = row.incidentId ∨ k.2 = row.incidentId →
    ReadFrom (fun d => seen d ∧ row ∈ d.rawEvents) edgeAt v.edges k
  present : ∀ k, (v.edges k).isSome = true → (db.edges.find? k).isSome = true
  reached : cursor ≤ base ∨ ∃ m ∈ db.rawEvents, cursor ≤ m.seq * streamIdStride + metricsOffset

section Current

variable {seen seen' : Database K → Prop} {base cursor : ℕ} {db db' d : Database K} {v : View K} {m : RawEvent}

/-- A raw event that is committed later is past every cursor. -/
theorem Current.step (hc : Current seen base db v cursor) (ha : Appends db db') (hl : Ledgered db')
    (hseen : ∀ d, seen d → seen' d) : Current seen' base db' v cursor := by
  have hmem : ∀ row ∈ db'.rawEvents, base < row.seq * streamIdStride → row.seq * streamIdStride ≤ cursor →
      row ∈ db.rawEvents := by
    intro row hrow hafter hle
    rcases hc.reached with hreached | ⟨m, hm, hreached⟩
    · omega
    · refine ha.mem_of_le hl hm hrow ?_
      unfold streamIdStride metricsOffset at *
      omega
  refine ⟨fun row hrow hafter hle => ?_, fun row hrow hafter hle hne k hk => ?_,
    fun k hk => ha.edges k (hc.present k hk), hc.reached.imp_right fun ⟨m, hm, h⟩ => ⟨m, ha.mem hm, h⟩⟩
  · exact (hc.incidents row (hmem row hrow hafter hle) hafter hle).mono fun d hd => ⟨hseen d hd.1, hd.2⟩
  · exact (hc.edges row (hmem row hrow hafter hle) hafter hle hne k hk).mono fun d hd => ⟨hseen d hd.1, hd.2⟩

/-- Nothing is due up to the cursor a client begins with. -/
theorem current_empty : Current seen base db View.empty base := by
  refine ⟨fun row _ hafter hle => ?_, fun row _ hafter hle => ?_, fun k hk => ?_, .inl le_rfl⟩
  · omega
  · omega
  · cases hk

/-- Two raw events of one number are one. -/
theorem Ledgered.eq_of_seq (hl : Ledgered db) {row : RawEvent} (hrow : row ∈ db.rawEvents) (hm : m ∈ db.rawEvents)
    (hseq : row.seq = m.seq) : row = m :=
  List.inj_on_of_nodup_map hl.nodup_seq hrow hm hseq

/-- **The incident of the next raw event**, read of a database that holds it. -/
theorem Current.incident {incident : IncidentPayload} (hc : Current seen base db v cursor) (hl : Ledgered db)
    (hm : m ∈ db.rawEvents) (hnext : ∀ row ∈ db.rawEvents, row.seq < m.seq →
      row.seq * streamIdStride ≤ cursor ∧ cursor ≠ row.seq * streamIdStride + incidentOffset)
    (hseen : seen d) (hd : m ∈ d.rawEvents) (ha : Appends d db)
    (hi : incidentForEvent m.incidentId d = some incident) :
    Current seen base db (v.mergeIncidents [incident]) (m.seq * streamIdStride + incidentOffset) := by
  obtain ⟨i, hfind, rfl⟩ := Option.map_eq_some_iff.1 hi
  have hrows : ∀ r ∈ [incidentPayload m.incidentId i], incidentForEvent r.incidentId d = some r := by
    intro r hr
    obtain rfl := List.mem_singleton.1 hr
    exact hi
  have hearlier : ∀ row ∈ db.rawEvents, row.seq * streamIdStride ≤ m.seq * streamIdStride + incidentOffset →
      row = m ∨ row.seq < m.seq := by
    intro row hrow hle
    rcases Nat.lt_trichotomy row.seq m.seq with hlt | heq | hgt
    · exact .inr hlt
    · exact .inl (hl.eq_of_seq hrow hm heq)
    · unfold streamIdStride incidentOffset at hle
      omega
  refine ⟨fun row hrow hafter hle => ?_, fun row hrow hafter hle hne k hk => ?_, hc.present, .inr ⟨m, hm, ?_⟩⟩
  · rcases hearlier row hrow hle with rfl | hlt
    · refine readFrom_overlay ⟨hseen, hd⟩ hrows (fun r _ => ⟨_, List.mem_singleton_self _, rfl⟩) fun hnone => ?_
      rw [hi] at hnone
      cases hnone
    · have hold := ha.mem_of_le hl hd hrow hlt.le
      exact (hc.incidents row hrow hafter (hnext row hrow hlt).1).overlay ⟨hseen, hold⟩ hrows
  · rcases hearlier row hrow hle with rfl | hlt
    · exact absurd rfl hne
    · exact hc.edges row hrow hafter (hnext row hrow hlt).1 (hnext row hrow hlt).2 k hk
  · unfold incidentOffset metricsOffset
    omega

/-- Rows of the edges there are make none up. -/
theorem present_overlay {rows : List (EdgePayload K)} {edges : String × String → Option (EdgePayload K)}
    (hrows : ∀ r ∈ rows, edgeAt db (r.sourceIncidentId, r.targetIncidentId) = some r)
    (hpresent : ∀ k, (edges k).isSome = true → (db.edges.find? k).isSome = true) (k : String × String)
    (hk : (overlay (fun e : EdgePayload K => (e.sourceIncidentId, e.targetIncidentId)) rows edges k).isSome = true) :
    (db.edges.find? k).isSome = true := by
  rcases @overlay_cases _ _ _ (fun e : EdgePayload K => (e.sourceIncidentId, e.targetIncidentId)) rows edges k with
    ⟨r, hr, rfl, -⟩ | ⟨-, heq⟩
  · obtain ⟨e, he, -⟩ := Option.map_eq_some_iff.1 (hrows r hr)
    rw [he]
    rfl
  · exact hpresent k (heq ▸ hk)

/-- **Its edges**, read of the database as it is. -/
theorem Current.edgesOf (hc : Current seen base db v (m.seq * streamIdStride + incidentOffset)) (hl : Ledgered db)
    (hm : m ∈ db.rawEvents) (hseen : seen db) :
    Current seen base db (v.mergeEdges (edgesForIncident m.incidentId db))
      (m.seq * streamIdStride + graphOffset) := by
  have hrows : ∀ r ∈ edgesForIncident m.incidentId db, edgeAt db (r.sourceIncidentId, r.targetIncidentId) = some r :=
    fun r hr => edgeAt_of_mem_edgesForIncident hr
  refine ⟨fun row hrow hafter hle => hc.incidents row hrow hafter ?_, fun row hrow hafter hle _ k hk => ?_,
    present_overlay hrows hc.present, .inr ⟨m, hm, ?_⟩⟩
  · unfold streamIdStride graphOffset incidentOffset at *
    omega
  · by_cases hsame : row = m
    · subst hsame
      refine readFrom_overlay ⟨hseen, hrow⟩ hrows (fun r hr => exists_mem_edgesForIncident hk hr) fun hnone => ?_
      have hnone : db.edges.find? k = none := Option.map_eq_none_iff.1 hnone
      refine Option.not_isSome_iff_eq_none.1 fun hsome => ?_
      have hthere := hc.present k hsome
      rw [hnone] at hthere
      cases hthere
    · have hseq : row.seq ≠ m.seq := fun heq => hsame (hl.eq_of_seq hrow hm heq)
      refine (hc.edges row hrow hafter ?_ ?_ k hk).overlay ⟨hseen, hrow⟩ hrows
      · unfold streamIdStride graphOffset incidentOffset at *
        omega
      · unfold streamIdStride incidentOffset
        omega
  · unfold graphOffset metricsOffset
    omega

/-- The card and the metrics change nothing. -/
theorem Current.next {offset : ℕ} (hc : Current seen base db v (m.seq * streamIdStride + offset))
    (hm : m ∈ db.rawEvents) (hoffset : graphOffset ≤ offset ∧ offset < metricsOffset) :
    Current seen base db v (m.seq * streamIdStride + (offset + 1)) := by
  unfold graphOffset metricsOffset at hoffset
  refine ⟨fun row hrow hafter hle => hc.incidents row hrow hafter ?_,
    fun row hrow hafter hle _ k hk => hc.edges row hrow hafter ?_ ?_ k hk, hc.present, .inr ⟨m, hm, ?_⟩⟩
  · unfold streamIdStride at *
    omega
  · unfold streamIdStride at *
    omega
  · unfold streamIdStride incidentOffset at *
    omega
  · unfold metricsOffset
    omega

/-- **A snapshot that no raw event was committed under.** -/
theorem Current.snapshot {incidentLimit edgeLimit : ℤ} {d₁ d₂ : Database K} (hseen₁ : seen d₁) (hseen₂ : seen d₂)
    (ha : Appends d₂ db) (hledger₁ : d₁.rawEvents = db.rawEvents) (hledger₂ : d₂.rawEvents = db.rawEvents)
    (hincidents : (d₁.incidents.rows.length : ℤ) ≤ incidentLimit)
    (hedges : (d₂.edges.rows.length : ℤ) ≤ edgeLimit) :
    Current seen base db (v.apply ⟨latestStreamId db,
      .snapshot (snapshotIncidents incidentLimit d₁) (snapshotEdges edgeLimit d₂)⟩) (latestStreamId db) := by
  refine ⟨fun row hrow _ _ => ?_, fun row hrow _ _ _ k _ => ?_, fun k hk => ?_, ?_⟩
  · exact readFrom_overlay ⟨hseen₁, hledger₁ ▸ hrow⟩ (fun r hr => incidentForEvent_of_mem hr)
      (fun r hr => exists_mem_snapshotIncidents hincidents hr) fun _ => rfl
  · exact readFrom_overlay ⟨hseen₂, hledger₂ ▸ hrow⟩ (fun r hr => edgeAt_of_mem hr)
      (fun r hr => exists_mem_snapshotEdges hedges hr) fun _ => rfl
  · have hnone : ∀ k : String × String, (View.empty.edges k : Option (EdgePayload K)).isSome = true →
        (d₂.edges.find? k).isSome = true := fun k hk => by cases hk
    exact ha.edges k (present_overlay (fun r hr => edgeAt_of_mem hr) hnone k hk)
  · by_cases hempty : db.rawEvents.map (·.seq) = []
    · refine .inl ?_
      unfold latestStreamId
      rw [hempty]
      exact Nat.le_trans (Nat.le_of_eq (Nat.zero_mul _)) (Nat.zero_le _)
    · obtain ⟨m, hm, hmax⟩ := List.mem_map.1 (Library.Table.foldr_max_mem hempty)
      refine .inr ⟨m, hm, ?_⟩
      unfold latestStreamId
      rw [← hmax]
      exact Nat.le_add_right _ _

end Current

/-! ## Events in flight -/

/-- **What is in flight may break off anywhere**: after each of the events the client keeps up with its
cursor, and their ids increase. -/
def KeepsUp (seen : Database K → Prop) (base : ℕ) (db : Database K) : View K → ℕ → List (StreamEvent K) → Prop
  | v, cursor, [] => Current seen base db v cursor
  | v, cursor, event :: events =>
      Current seen base db v cursor ∧ cursor < event.streamId ∧
        KeepsUp seen base db (v.apply event) event.streamId events

section KeepsUp

variable {seen seen' : Database K → Prop} {base cursor : ℕ} {db db' d : Database K} {v : View K} {m : RawEvent}
  {events events' : List (StreamEvent K)}

theorem KeepsUp.current (h : KeepsUp seen base db v cursor events) : Current seen base db v cursor := by
  cases events with
  | nil => exact h
  | cons event events => exact h.1

theorem cursorAfter_cons (cursor : ℕ) (event : StreamEvent K) (events : List (StreamEvent K)) :
    cursorAfter cursor (event :: events) = cursorAfter event.streamId events := by
  unfold cursorAfter
  rw [List.getLast?_cons]
  cases events.getLast? <;> rfl

theorem KeepsUp.step (h : KeepsUp seen base db v cursor events) (ha : Appends db db') (hl : Ledgered db')
    (hseen : ∀ d, seen d → seen' d) : KeepsUp seen' base db' v cursor events := by
  induction events generalizing v cursor with
  | nil => exact Current.step h ha hl hseen
  | cons event events ih => exact ⟨h.1.step ha hl hseen, h.2.1, ih h.2.2⟩

/-- Where some events leave the client, others may follow. -/
theorem KeepsUp.append (h : KeepsUp seen base db v cursor events)
    (h' : KeepsUp seen base db (v.applyAll events) (cursorAfter cursor events) events') :
    KeepsUp seen base db v cursor (events ++ events') := by
  induction events generalizing v cursor with
  | nil => exact h'
  | cons event events ih =>
      rw [cursorAfter_cons] at h'
      exact ⟨h.1, h.2.1, ih h.2.2 h'⟩

/-- The client after all of them. -/
theorem KeepsUp.last (h : KeepsUp seen base db v cursor events) :
    Current seen base db (v.applyAll events) (cursorAfter cursor events) := by
  induction events generalizing v cursor with
  | nil => exact h
  | cons event events ih =>
      rw [cursorAfter_cons]
      exact ih h.2.2

/-- **The events of the next raw event**, from its first one or from the one the cursor points to. -/
theorem keepsUp_deltasOf {incident : IncidentPayload} {last : ℕ} (hc : Current seen base db v last)
    (hl : Ledgered db) (hm : m ∈ db.rawEvents) (hle : cursor ≤ last)
    (hstart : last < m.seq * streamIdStride ∨ last = cursor ∧ m.seq * streamIdStride < cursor)
    (hnext : ∀ row ∈ db.rawEvents, row.seq < m.seq →
      row.seq * streamIdStride ≤ last ∧ last ≠ row.seq * streamIdStride + incidentOffset)
    (hdb : seen db) (hseen : seen d) (hd : m ∈ d.rawEvents) (ha : Appends d db)
    (hi : incidentForEvent m.incidentId d = some incident) :
    KeepsUp seen base db v last (deltasOf cursor m incident (edgesForIncident m.incidentId db)) := by
  -- from each of the four events on
  have hmetrics : ∀ {v : View K}, Current seen base db v (m.seq * streamIdStride + cardOffset) →
      KeepsUp seen base db v (m.seq * streamIdStride + cardOffset) [⟨m.seq * streamIdStride + metricsOffset,
        .metricsUpdate incident.incidentId incident.alertCount incident.state⟩] := fun hc =>
    ⟨hc, Nat.lt_succ_self _, hc.next hm (by decide)⟩
  have hcard : ∀ {v : View K}, Current seen base db v (m.seq * streamIdStride + graphOffset) →
      KeepsUp seen base db v (m.seq * streamIdStride + graphOffset) [⟨m.seq * streamIdStride + cardOffset,
        .cardUpdate m.incidentId m.decisionPayload⟩, ⟨m.seq * streamIdStride + metricsOffset,
        .metricsUpdate incident.incidentId incident.alertCount incident.state⟩] := fun hc =>
    ⟨hc, Nat.lt_succ_self _, hmetrics (hc.next hm (by decide))⟩
  have hgraph : ∀ {v : View K}, Current seen base db v (m.seq * streamIdStride + incidentOffset) →
      KeepsUp seen base db v (m.seq * streamIdStride + incidentOffset) [⟨m.seq * streamIdStride + graphOffset,
        .edgeUpsert (edgesForIncident m.incidentId db)⟩, ⟨m.seq * streamIdStride + cardOffset,
        .cardUpdate m.incidentId m.decisionPayload⟩, ⟨m.seq * streamIdStride + metricsOffset,
        .metricsUpdate incident.incidentId incident.alertCount incident.state⟩] := fun hc =>
    ⟨hc, Nat.lt_succ_self _, hcard (hc.edgesOf hl hm hdb)⟩
  rcases hstart with hlt | ⟨rfl, hlt⟩
  · have hall : deltasOf cursor m incident (edgesForIncident m.incidentId db) =
        deltaCandidates m incident (edgesForIncident m.incidentId db) := by
      refine List.filter_eq_self.2 fun event hevent => decide_eq_true ?_
      obtain ⟨k, hk, -, hid⟩ : ∃ k, 1 ≤ k ∧ k ≤ 4 ∧ event.streamId = m.seq * streamIdStride + k := by
        simp only [deltaCandidates, List.mem_cons, List.not_mem_nil, or_false] at hevent
        rcases hevent with rfl | rfl | rfl | rfl
        · exact ⟨1, by decide, by decide, rfl⟩
        · exact ⟨2, by decide, by decide, rfl⟩
        · exact ⟨3, by decide, by decide, rfl⟩
        · exact ⟨4, by decide, by decide, rfl⟩
      omega
    rw [hall]
    exact ⟨hc, hlt.trans_le (Nat.le_add_right _ _), hgraph (hc.incident hl hm hnext hseen hd ha hi)⟩
  · obtain ⟨j, hj, rfl⟩ : ∃ j, 1 ≤ j ∧ last = m.seq * streamIdStride + j :=
      ⟨last - m.seq * streamIdStride, by omega, by omega⟩
    have hsent : ∀ offset, decide (m.seq * streamIdStride + j < m.seq * streamIdStride + offset) =
        decide (j < offset) := fun offset => by simp
    unfold deltasOf deltaCandidates
    simp only [List.filter_cons, List.filter_nil, hsent]
    rcases (by omega : j = 1 ∨ j = 2 ∨ j = 3 ∨ 4 ≤ j) with rfl | rfl | rfl | hpast
    · exact hgraph hc
    · exact hcard hc
    · exact hmetrics hc
    · have hnone : ∀ offset, offset ≤ 4 → decide (j < offset) = false := fun offset h =>
        decide_eq_false (by omega)
      rw [hnone _ (by decide), hnone _ (by decide), hnone _ (by decide), hnone _ (by decide)]
      exact hc

end KeepsUp

/-! ## The raw events of a poll -/

/-- A raw event with an event after the cursor that a poll sends. -/
def Due (cursor : ℕ) (row : RawEvent) : Prop :=
  cursor < row.seq * streamIdStride + metricsOffset ∧ cursor ≠ row.seq * streamIdStride

/-- The raw events that a poll has read and that are left: the next ones that are due. -/
structure Pending (db : Database K) (cursor : ℕ) (rawEvents : List RawEvent) (last : ℕ) : Prop where
  mem : ∀ m ∈ rawEvents, m ∈ db.rawEvents
  sorted : rawEvents.Pairwise fun a b => a.seq < b.seq
  complete : ∀ row ∈ db.rawEvents, ∀ m ∈ rawEvents, Due last row → row.seq ≤ m.seq → row ∈ rawEvents
  start : ∀ m ∈ rawEvents, last < m.seq * streamIdStride ∨ last = cursor ∧ m.seq * streamIdStride < cursor
  le : cursor ≤ last

section Pending

variable {cursor last : ℕ} {db db' : Database K} {m : RawEvent} {rawEvents : List RawEvent}
  {deltas : List (StreamEvent K)}

theorem Pending.step (hp : Pending db cursor rawEvents last) (ha : Appends db db') (hl : Ledgered db') :
    Pending db' cursor rawEvents last where
  mem m hm := ha.mem (hp.mem m hm)
  sorted := hp.sorted
  complete row hrow m hm hdue hle := hp.complete row (ha.mem_of_le hl (hp.mem m hm) hrow hle) m hm hdue hle
  start := hp.start
  le := hp.le

/-- What a poll reads. -/
theorem pending_deltaRows (hl : Ledgered db) : Pending db cursor (deltaRows deltaLimit cursor db) cursor where
  mem m hm := (mem_pendingRows.1 (deltaRows_sublist.subset hm)).1
  sorted := (pairwise_pendingRows hl.nodup_seq _).sublist deltaRows_sublist
  complete row hrow m hm hdue hle := by
    refine deltaRows_complete hl hm (mem_pendingRows.2 ⟨hrow, ?_⟩) hle
    unfold Due streamIdStride metricsOffset at *
    omega
  start m hm := by
    have hm := (mem_pendingRows.1 (deltaRows_sublist.subset hm)).2
    unfold streamIdStride at *
    omega
  le := le_rfl

/-- Before the next raw event nothing is due. -/
theorem Pending.next_only (hp : Pending db cursor (m :: rawEvents) last) {row : RawEvent}
    (hrow : row ∈ db.rawEvents) (hlt : row.seq < m.seq) :
    row.seq * streamIdStride ≤ last ∧ last ≠ row.seq * streamIdStride + incidentOffset := by
  have hnot : ¬ Due last row := by
    intro hdue
    rcases List.mem_cons.1 (hp.complete row hrow m List.mem_cons_self hdue hlt.le) with rfl | hlater
    · exact Nat.lt_irrefl _ hlt
    · exact absurd (List.rel_of_pairwise_cons hp.sorted hlater) (Nat.not_lt_of_lt hlt)
  unfold Due streamIdStride metricsOffset incidentOffset at *
  omega

/-- A raw event that is due takes the cursor to its last event. -/
theorem cursorAfter_of_due {incident : IncidentPayload} {edges : List (EdgePayload K)}
    (h : cursor < m.seq * streamIdStride + metricsOffset) :
    cursorAfter cursor (deltas ++ deltasOf cursor m incident edges) = m.seq * streamIdStride + metricsOffset := by
  have hsplit : deltaCandidates m incident edges = (deltaCandidates m incident edges).dropLast ++
      [⟨m.seq * streamIdStride + metricsOffset,
        .metricsUpdate incident.incidentId incident.alertCount incident.state⟩] := rfl
  rw [deltasOf, hsplit, List.filter_append, List.filter_cons_of_pos (by simpa using h), List.filter_nil,
    ← List.append_assoc, cursorAfter_append_singleton]

/-- Once the first of them is turned into events the others are left. -/
theorem Pending.tail {incident : IncidentPayload} {edges : List (EdgePayload K)}
    (hp : Pending db cursor (m :: rawEvents) (cursorAfter cursor deltas)) :
    Pending db cursor rawEvents (cursorAfter cursor (deltas ++ deltasOf cursor m incident edges)) := by
  have hlater : ∀ m' ∈ rawEvents, m.seq < m'.seq := fun m' hm' => List.rel_of_pairwise_cons hp.sorted hm'
  have hstart := hp.start m List.mem_cons_self
  have hle := hp.le
  have hdue := @cursorAfter_of_due _ cursor m deltas incident edges
  have hcursor := @cursorAfter_deltasOf _ cursor m deltas incident edges
  have hcomplete := hp.complete
  have hstarts := hp.start
  generalize cursorAfter cursor (deltas ++ deltasOf cursor m incident edges) = next at *
  generalize cursorAfter cursor deltas = last at *
  refine ⟨fun m' hm' => hp.mem m' (List.mem_cons_of_mem _ hm'), (List.pairwise_cons.1 hp.sorted).2,
    fun row hrow m' hm' hdue' hle' => ?_, fun m' hm' => ?_, ?_⟩
  · have hbefore : Due last row := by
      unfold Due streamIdStride metricsOffset at *
      omega
    rcases List.mem_cons.1 (hcomplete row hrow m' (List.mem_cons_of_mem _ hm') hbefore hle') with rfl | hmem
    · unfold Due streamIdStride metricsOffset at *
      omega
    · exact hmem
  · have hlt := hlater m' hm'
    have hold := hstarts m' (List.mem_cons_of_mem _ hm')
    unfold streamIdStride metricsOffset at *
    omega
  · unfold streamIdStride metricsOffset at *
    omega

end Pending

/-! ## Connections that break -/

/-- A deployment, a connection to its stream, and the client at the other end: what the connection asked
for, where the stream of it stands, what is in flight, and what the client has dispatched. -/
structure Link (K : Type) where
  deployment : Deployment K
  after : ℕ
  phase : StreamPhase K
  inFlight : List (StreamEvent K)
  client : View K
  cursor : ℕ

/-- The database of the deployment. -/
def Link.db (s : Link K) : Database K := s.deployment.db

/-- A turn of the deployment, the next query of the stream, the arrival of the next event, or the end of
the connection. -/
inductive LinkTurn where
  | turn (t : Turn)
  | query
  | dispatch
  | breaks

variable [Field K] [LinearOrder K]

/-- One turn.  A connection that breaks is followed by one that asks for what is after the cursor. -/
def linkStep (rt : Runtime K) (incidentLimit edgeLimit : ℤ) (s : Link K) : LinkTurn → Option (Link K)
  | .turn t => (deploymentNext rt s.deployment t).map fun d => { s with deployment := d }
  | .query =>
      let next := streamNext incidentLimit edgeLimit s.after s.db s.phase
      some { s with phase := next.1, inFlight := s.inFlight ++ next.2 }
  | .dispatch =>
      match s.inFlight with
      | [] => none
      | event :: events =>
          some { s with client := s.client.apply event, cursor := event.streamId, inFlight := events }
  | .breaks => some { s with after := s.cursor, phase := .connected, inFlight := [] }

/-- **The runs of a client whose connections break**: it has nothing at first, and asks for what is after
`base`. -/
def LinkRun (rt : Runtime K) (incidentLimit edgeLimit : ℤ) (base : ℕ) :
    List (Transition (Link K) LinkTurn) → Link K → Prop :=
  Run (fun s => Ledgered s.db ∧ s.phase = .connected ∧ s.inFlight = [] ∧ s.client = View.empty ∧
      s.after = base ∧ s.cursor = base)
    fun s l s' => linkStep rt incidentLimit edgeLimit s l = some s'

/-- The history has had the database. -/
def Seen (h : List (Transition (Link K) LinkTurn)) (s : Link K) (db : Database K) : Prop :=
  db = s.db ∨ ∃ t ∈ h, db = t.source.db

/-- The ids of the events that were dispatched, newest first. -/
def dispatched (h : List (Transition (Link K) LinkTurn)) : List ℕ :=
  h.filterMap fun t => match t.label with
    | .dispatch => some t.target.cursor
    | _ => none

/-- What the snapshot of a connection is read of is within its limits. -/
structure OpensWithin (incidentLimit edgeLimit : ℤ) (t : Transition (Link K) LinkTurn) : Prop where
  incidents : t.label = .query → t.source.phase = .connected →
    (t.source.db.incidents.rows.length : ℤ) ≤ incidentLimit
  edges : ∀ incidents, t.label = .query → t.source.phase = .readIncidents incidents →
    (t.source.db.edges.rows.length : ℤ) ≤ edgeLimit

/-- No raw event is committed while the snapshot of a connection is taken. -/
def OpensUndisturbed (t : Transition (Link K) LinkTurn) : Prop :=
  ∀ turn, t.label = .turn turn → t.source.phase.takesSnapshot = true →
    t.target.db.rawEvents = t.source.db.rawEvents

/-- **What is in flight is what is next**, by the phase of the stream. -/
def LinkInvariant (incidentLimit edgeLimit : ℤ) (base : ℕ) (seen : Database K → Prop) (s : Link K) :
    StreamPhase K → Prop
  | .connected => s.inFlight = [] ∧ s.after = s.cursor ∧ Current seen base s.db s.client s.cursor
  | .readIncidents incidents =>
      (s.inFlight = [] ∧ s.after = s.cursor ∧ Current seen base s.db s.client s.cursor) ∧
      ∃ d, seen d ∧ d.rawEvents = s.db.rawEvents ∧ incidents = snapshotIncidents incidentLimit d ∧
        (d.incidents.rows.length : ℤ) ≤ incidentLimit
  | .readEdges incidents edges =>
      (s.inFlight = [] ∧ s.after = s.cursor ∧ Current seen base s.db s.client s.cursor) ∧
      (∃ d, seen d ∧ d.rawEvents = s.db.rawEvents ∧ incidents = snapshotIncidents incidentLimit d ∧
        (d.incidents.rows.length : ℤ) ≤ incidentLimit) ∧
      ∃ d, seen d ∧ d.rawEvents = s.db.rawEvents ∧ edges = snapshotEdges edgeLimit d ∧
        (d.edges.rows.length : ℤ) ≤ edgeLimit
  | .polling last => last = cursorAfter s.cursor s.inFlight ∧
      KeepsUp seen base s.db s.client s.cursor s.inFlight
  | .draining last rawEvents deltas => last = cursorAfter s.cursor s.inFlight ∧
      KeepsUp seen base s.db s.client s.cursor (s.inFlight ++ deltas) ∧
      Pending s.db last rawEvents (cursorAfter last deltas)
  | .readIncident last rawEvent incident rawEvents deltas => last = cursorAfter s.cursor s.inFlight ∧
      KeepsUp seen base s.db s.client s.cursor (s.inFlight ++ deltas) ∧
      Pending s.db last (rawEvent :: rawEvents) (cursorAfter last deltas) ∧
      ∃ d, seen d ∧ rawEvent ∈ d.rawEvents ∧ incidentForEvent rawEvent.incidentId d = some incident

section Links

variable {rt : Runtime K} {incidentLimit edgeLimit : ℤ} {base : ℕ} {s s' : Link K}
  {h : List (Transition (Link K) LinkTurn)} {seen seen' : Database K → Prop} {phase phase' : StreamPhase K}

omit [Field K] [LinearOrder K] in
theorem cursorAfter_append (cursor : ℕ) (events events' : List (StreamEvent K)) :
    cursorAfter cursor (events ++ events') = cursorAfter (cursorAfter cursor events) events' := by
  induction events generalizing cursor with
  | nil => rfl
  | cons event events ih => rw [List.cons_append, cursorAfter_cons, cursorAfter_cons, ih]

omit [Field K] [LinearOrder K] in
/-- The part of what is in flight that comes first. -/
theorem KeepsUp.of_append {cursor : ℕ} {db : Database K} {v : View K} {events events' : List (StreamEvent K)}
    (hs : KeepsUp seen base db v cursor (events ++ events')) : KeepsUp seen base db v cursor events := by
  induction events generalizing v cursor with
  | nil => exact hs.current
  | cons event events ih => exact ⟨hs.1, hs.2.1, ih hs.2.2⟩

omit [Field K] [LinearOrder K] in
/-- What is in flight may break off. -/
theorem LinkInvariant.keepsUp (hI : LinkInvariant incidentLimit edgeLimit base seen s phase) :
    KeepsUp seen base s.db s.client s.cursor s.inFlight := by
  have hopening : (s.inFlight = [] ∧ s.after = s.cursor ∧ Current seen base s.db s.client s.cursor) →
      KeepsUp seen base s.db s.client s.cursor s.inFlight := fun ⟨hempty, _, hc⟩ => by
    rw [hempty]
    exact hc
  cases phase with
  | connected => exact hopening hI
  | readIncidents incidents => exact hopening hI.1
  | readEdges incidents edges => exact hopening hI.1
  | polling last => exact hI.2
  | draining last rawEvents deltas => exact hI.2.1.of_append
  | readIncident last m incident rawEvents deltas => exact hI.2.1.of_append

omit [Field K] [LinearOrder K] in
/-- A commit keeps it, if it adds no raw event while a snapshot is taken. -/
theorem LinkInvariant.step (hI : LinkInvariant incidentLimit edgeLimit base seen s phase)
    (ha : Appends s.db s'.db) (hl : Ledgered s'.db) (hseen : ∀ d, seen d → seen' d)
    (hquiet : phase.takesSnapshot = true → s'.db.rawEvents = s.db.rawEvents)
    (hsame : s'.inFlight = s.inFlight ∧ s'.after = s.after ∧ s'.client = s.client ∧ s'.cursor = s.cursor) :
    LinkInvariant incidentLimit edgeLimit base seen' s' phase := by
  obtain ⟨hinFlight, hafter, hclient, hcursor⟩ := hsame
  have hopening : (s.inFlight = [] ∧ s.after = s.cursor ∧ Current seen base s.db s.client s.cursor) →
      s'.inFlight = [] ∧ s'.after = s'.cursor ∧ Current seen' base s'.db s'.client s'.cursor := by
    rw [hinFlight, hafter, hclient, hcursor]
    exact fun ⟨hempty, hresume, hc⟩ => ⟨hempty, hresume, hc.step ha hl hseen⟩
  cases phase with
  | connected => exact hopening hI
  | readIncidents incidents =>
      obtain ⟨hopen, d, hd, hledger, hrest⟩ := hI
      exact ⟨hopening hopen, d, hseen d hd, hledger.trans (hquiet rfl).symm, hrest⟩
  | readEdges incidents edges =>
      obtain ⟨hopen, ⟨d, hd, hledger, hrest⟩, d', hd', hledger', hrest'⟩ := hI
      exact ⟨hopening hopen, ⟨d, hseen d hd, hledger.trans (hquiet rfl).symm, hrest⟩,
        d', hseen d' hd', hledger'.trans (hquiet rfl).symm, hrest'⟩
  | polling last =>
      unfold LinkInvariant at hI ⊢
      rw [hinFlight, hclient, hcursor]
      exact ⟨hI.1, hI.2.step ha hl hseen⟩
  | draining last rawEvents deltas =>
      unfold LinkInvariant at hI ⊢
      rw [hinFlight, hclient, hcursor]
      exact ⟨hI.1, hI.2.1.step ha hl hseen, hI.2.2.step ha hl⟩
  | readIncident last m incident rawEvents deltas =>
      unfold LinkInvariant at hI ⊢
      rw [hinFlight, hclient, hcursor]
      obtain ⟨hlast, hkeeps, hpending, d, hd, hrest⟩ := hI
      exact ⟨hlast, hkeeps.step ha hl hseen, hpending.step ha hl, d, hseen d hd, hrest⟩

omit [Field K] [LinearOrder K] in
/-- The incident of a raw event that is left is there. -/
theorem Pending.exists_incident {cursor last : ℕ} {db : Database K} {m : RawEvent} {rawEvents : List RawEvent}
    (hp : Pending db cursor (m :: rawEvents) last) (hl : Ledgered db) : incidentForEvent m.incidentId db ≠ none := by
  intro hnone
  have hknown := hl.known m (hp.mem m List.mem_cons_self)
  rw [Option.map_eq_none_iff.1 hnone] at hknown
  cases hknown

omit [Field K] [LinearOrder K] in
/-- **A query keeps it**, if what a snapshot reads is within its limits. -/
theorem LinkInvariant.query {events : List (StreamEvent K)}
    (hI : LinkInvariant incidentLimit edgeLimit base seen s phase)
    (hmove : QueryMove incidentLimit edgeLimit s.after s.db phase phase' events)
    (hl : Ledgered s.db) (hdb : seen s.db) (hearlier : ∀ d, seen d → Appends d s.db)
    (hincidents : phase = .connected → (s.db.incidents.rows.length : ℤ) ≤ incidentLimit)
    (hedges : ∀ incidents, phase = .readIncidents incidents → (s.db.edges.rows.length : ℤ) ≤ edgeLimit) :
    LinkInvariant incidentLimit edgeLimit base seen { s with phase := phase', inFlight := s.inFlight ++ events }
      phase' := by
  cases hmove with
  | incidents =>
      obtain ⟨hempty, hrest⟩ := hI
      exact ⟨⟨by rw [hempty]; rfl, hrest⟩, s.db, hdb, rfl, rfl, hincidents rfl⟩
  | @edges incidents =>
      obtain ⟨⟨hempty, hrest⟩, hread⟩ := hI
      exact ⟨⟨by rw [hempty]; rfl, hrest⟩, hread, s.db, hdb, rfl, rfl, hedges incidents rfl⟩
  | snapshot hlt =>
      obtain ⟨⟨hempty, hresume, hc⟩, ⟨d, hd, hledger, rfl, hwithin⟩, d', hd', hledger', rfl, hwithin'⟩ := hI
      rw [hresume] at hlt
      refine ⟨by rw [hempty]; rfl, ?_⟩
      change KeepsUp seen base s.db s.client s.cursor (s.inFlight ++ _)
      rw [hempty]
      exact ⟨hc, hlt, Current.snapshot hd hd' (hearlier d' hd') hledger hledger' hwithin hwithin'⟩
  | resume hle =>
      -- the client has the last raw event, and keeps the maps that it has
      obtain ⟨⟨hempty, hresume, hc⟩, -⟩ := hI
      refine ⟨by rw [hempty, hresume]; rfl, ?_⟩
      change KeepsUp seen base s.db s.client s.cursor (s.inFlight ++ _)
      rw [hempty]
      exact hc
  | poll =>
      obtain ⟨hlast, hkeeps⟩ := hI
      unfold LinkInvariant
      simp only [List.append_nil]
      exact ⟨hlast, hkeeps, pending_deltaRows hl⟩
  | deliver =>
      obtain ⟨hlast, hkeeps, -⟩ := hI
      exact ⟨by rw [hlast, cursorAfter_append], hkeeps⟩
  | skip hi => exact absurd hi (hI.2.2.exists_incident hl)
  | incident hi =>
      obtain ⟨hlast, hkeeps, hpending⟩ := hI
      unfold LinkInvariant
      simp only [List.append_nil]
      exact ⟨hlast, hkeeps, hpending, s.db, hdb, hpending.mem _ List.mem_cons_self, hi⟩
  | @deltas last m incident rawEvents deltas =>
      obtain ⟨hlast, hkeeps, hpending, d, hd, hmem, hi⟩ := hI
      have hat : cursorAfter s.cursor (s.inFlight ++ deltas) = cursorAfter last deltas := by
        rw [cursorAfter_append, hlast]
      have hnext := hkeeps.last
      rw [hat] at hnext
      have hdeltas := keepsUp_deltasOf hnext hl (hpending.mem m List.mem_cons_self) hpending.le
        (hpending.start m List.mem_cons_self) (fun row hrow hlt => hpending.next_only hrow hlt) hdb hd hmem
        (hearlier d hd) hi
      rw [← hat] at hdeltas
      unfold LinkInvariant
      simp only [List.append_nil]
      refine ⟨hlast, ?_, hpending.tail⟩
      rw [← List.append_assoc]
      exact hkeeps.append hdeltas

omit [Field K] [LinearOrder K] in
/-- **The next event is dispatched.** -/
theorem LinkInvariant.dispatch {event : StreamEvent K} {events : List (StreamEvent K)}
    (hI : LinkInvariant incidentLimit edgeLimit base seen s phase) (heq : s.inFlight = event :: events) :
    LinkInvariant incidentLimit edgeLimit base seen
      { s with client := s.client.apply event, cursor := event.streamId, inFlight := events } phase := by
  have hopening : ¬ (s.inFlight = [] ∧ s.after = s.cursor ∧ Current seen base s.db s.client s.cursor) := by
    rintro ⟨hempty, -⟩
    rw [heq] at hempty
    cases hempty
  cases phase with
  | connected => exact absurd hI hopening
  | readIncidents incidents => exact absurd hI.1 hopening
  | readEdges incidents edges => exact absurd hI.1 hopening
  | polling last =>
      obtain ⟨hlast, hkeeps⟩ := hI
      rw [heq] at hlast hkeeps
      rw [cursorAfter_cons] at hlast
      exact ⟨hlast, hkeeps.2.2⟩
  | draining last rawEvents deltas =>
      obtain ⟨hlast, hkeeps, hpending⟩ := hI
      rw [heq] at hlast hkeeps
      rw [cursorAfter_cons] at hlast
      exact ⟨hlast, hkeeps.2.2, hpending⟩
  | readIncident last m incident rawEvents deltas =>
      obtain ⟨hlast, hkeeps, hrest⟩ := hI
      rw [heq] at hlast hkeeps
      rw [cursorAfter_cons] at hlast
      exact ⟨hlast, hkeeps.2.2, hrest⟩

/-- A turn of the deployment leaves the connection alone. -/
theorem linkStep_turn {t : Turn} (hnext : linkStep rt incidentLimit edgeLimit s (.turn t) = some s') :
    Appends s.db s'.db ∧ s'.phase = s.phase ∧
      s'.inFlight = s.inFlight ∧ s'.after = s.after ∧ s'.client = s.client ∧ s'.cursor = s.cursor := by
  obtain ⟨d, hd, rfl⟩ := Option.map_eq_some_iff.1 hnext
  exact ⟨deploymentNext_appends hd, rfl, rfl, rfl, rfl, rfl⟩

/-- Only the next event can be dispatched. -/
theorem linkStep_dispatch (hnext : linkStep rt incidentLimit edgeLimit s .dispatch = some s') :
    ∃ event events, s.inFlight = event :: events ∧
      s' = { s with client := s.client.apply event, cursor := event.streamId, inFlight := events } := by
  unfold linkStep at hnext
  cases heq : s.inFlight with
  | nil =>
      rw [heq] at hnext
      cases hnext
  | cons event events =>
      rw [heq] at hnext
      exact ⟨event, events, rfl, (Option.some.inj hnext).symm⟩

/-- Every turn appends. -/
theorem linkStep_appends {l : LinkTurn} (hnext : linkStep rt incidentLimit edgeLimit s l = some s') :
    Appends s.db s'.db := by
  cases l with
  | turn t => exact (linkStep_turn hnext).1
  | query =>
      obtain rfl := Option.some.inj hnext
      exact Appends.refl s.db
  | dispatch =>
      obtain ⟨event, events, -, rfl⟩ := linkStep_dispatch hnext
      exact Appends.refl s.db
  | breaks =>
      obtain rfl := Option.some.inj hnext
      exact Appends.refl s.db

omit [Field K] [LinearOrder K] in
theorem Seen.step {l : LinkTurn} {db : Database K} (hs : Seen h s db) : Seen (⟨s, l, s'⟩ :: h) s' db := by
  rcases hs with rfl | ⟨t, ht, rfl⟩
  · exact .inr ⟨_, List.mem_cons_self, rfl⟩
  · exact .inr ⟨t, List.mem_cons_of_mem _ ht, rfl⟩

/-- The databases of a run are earlier than the one it has reached. -/
theorem LinkRun.earlier (r : LinkRun rt incidentLimit edgeLimit base h s) :
    Ledgered s.db ∧ ∀ d, Seen h s d → Appends d s.db := by
  refine r.induct (I := fun h s => Ledgered s.db ∧ ∀ d, Seen h s d → Appends d s.db) ?_ ?_
  · rintro s ⟨hl, -⟩
    refine ⟨hl, fun d hd => ?_⟩
    rcases hd with rfl | ⟨t, ht, -⟩
    · exact Appends.refl s.db
    · exact absurd ht List.not_mem_nil
  · rintro h s l s' - ⟨hl, hearlier⟩ hnext
    have happends := linkStep_appends hnext
    refine ⟨happends.ledgered hl, fun d hd => ?_⟩
    rcases hd with rfl | ⟨t, ht, rfl⟩
    · exact Appends.refl s'.db
    · rcases List.mem_cons.1 ht with rfl | ht
      · exact happends
      · exact (hearlier _ (.inr ⟨t, ht, rfl⟩)).trans happends

/-- **The invariant of every run.** -/
theorem LinkRun.invariant (r : LinkRun rt incidentLimit edgeLimit base h s)
    (hc : ∀ t ∈ h, OpensWithin incidentLimit edgeLimit t ∧ OpensUndisturbed t) :
    LinkInvariant incidentLimit edgeLimit base (Seen h s) s s.phase ∧
      (dispatched h).Pairwise (· > ·) ∧ ∀ id ∈ dispatched h, id ≤ s.cursor := by
  refine Run.induct_of_forall (I := fun h s => LinkInvariant incidentLimit edgeLimit base (Seen h s) s s.phase ∧
      (dispatched h).Pairwise (· > ·) ∧ ∀ id ∈ dispatched h, id ≤ s.cursor) r hc ?_ ?_
  · rintro s ⟨-, hphase, hempty, hclient, hafter, hcursor⟩
    refine ⟨?_, List.Pairwise.nil, List.forall_mem_nil _⟩
    rw [hphase]
    refine ⟨hempty, hafter.trans hcursor.symm, ?_⟩
    rw [hclient, hcursor]
    exact current_empty
  · rintro h s l s' hrun - ⟨hI, hids, hreached⟩ ⟨hlimits, hquiet⟩ hnext
    obtain ⟨hl, hearlier⟩ := LinkRun.earlier hrun
    have happends := linkStep_appends hnext
    have hl' := happends.ledgered hl
    have hseen : ∀ d, Seen h s d → Seen (⟨s, l, s'⟩ :: h) s' d := fun d hd => hd.step
    cases l with
    | turn t =>
        obtain ⟨-, hphase, hsame⟩ := linkStep_turn hnext
        rw [hphase, hsame.2.2.2]
        exact ⟨hI.step happends hl' hseen (hquiet t rfl) hsame, hids, hreached⟩
    | query =>
        obtain rfl := Option.some.inj hnext
        refine ⟨?_, hids, hreached⟩
        exact (hI.query (streamNext_move s.db s.phase) hl (.inl rfl) hearlier (hlimits.incidents rfl)
          fun incidents => hlimits.edges incidents rfl).step happends hl' hseen (fun _ => rfl)
          ⟨rfl, rfl, rfl, rfl⟩
    | dispatch =>
        obtain ⟨event, events, heq, rfl⟩ := linkStep_dispatch hnext
        have hkeeps := hI.keepsUp
        rw [heq] at hkeeps
        refine ⟨(hI.dispatch heq).step happends hl' hseen (fun _ => rfl) ⟨rfl, rfl, rfl, rfl⟩,
          List.pairwise_cons.2 ⟨fun id hid => (hreached id hid).trans_lt hkeeps.2.1, hids⟩, fun id hid => ?_⟩
        rcases List.mem_cons.1 hid with rfl | hid
        · exact le_rfl
        · exact (hreached id hid).trans hkeeps.2.1.le
    | breaks =>
        obtain rfl := Option.some.inj hnext
        exact ⟨⟨rfl, rfl, hI.keepsUp.current.step happends hl' hseen⟩, hids, hreached⟩

end Links

/-! ## A run to look at -/

/-- A client connects to a deployment that has not served anything. -/
def Link.initial : Link K := ⟨Deployment.initial, 0, .connected, [], View.empty, 0⟩

/-- The alert of the disk, or its second one. -/
def diskAlert (freshId eventId : String) : LinkTurn :=
  .turn (.request (.ingest freshId "unused" 1000 (alertOf "disk" eventId)))

/-- The connection breaks once the first of the four events of the second alert is dispatched. -/
def brokenTurns : List LinkTurn :=
  [diskAlert "A" "1", .query, .query, .query, .dispatch, diskAlert "B" "2", .query, .query, .query, .query,
    .dispatch, .breaks, .query, .query, .query, .query, .query, .query, .query, .dispatch]

/-- Whether the snapshots of a transition are read within the limits, and nothing is committed under them. -/
def opensQuietly (incidentLimit edgeLimit : ℤ) (t : Transition (Link K) LinkTurn) : Bool :=
  match t.label with
  | .turn _ => !t.source.phase.takesSnapshot
  | .query => match t.source.phase with
    | .connected => decide ((t.source.db.incidents.rows.length : ℤ) ≤ incidentLimit)
    | .readIncidents _ => decide ((t.source.db.edges.rows.length : ℤ) ≤ edgeLimit)
    | _ => true
  | _ => true

omit [Field K] [LinearOrder K] in
theorem opens_of_opensQuietly {incidentLimit edgeLimit : ℤ} {t : Transition (Link K) LinkTurn}
    (h : opensQuietly incidentLimit edgeLimit t = true) :
    OpensWithin incidentLimit edgeLimit t ∧ OpensUndisturbed t := by
  unfold opensQuietly at h
  refine ⟨⟨fun hl hp => ?_, fun incidents hl hp => ?_⟩, fun turn hl hp => ?_⟩
  · rw [hl, hp] at h
    exact of_decide_eq_true h
  · rw [hl, hp] at h
    exact of_decide_eq_true h
  · rw [hl] at h
    dsimp only at h
    rw [hp] at h
    cases h

end PulseGraph
