/-
# Pages of deltas

`read_delta_events` reads at most `limit` rows of the ledger after a cursor, of which each makes
four events, and the cursor may stand anywhere in the four.  A cursor in the middle of a group
reads the row again and drops what was received; a cursor that is a multiple of the stride is the
id of a snapshot, which has that row, and reads only the rows after it.

**Proved here.**  `readDeltaEvents_paginates`: calls that each start from the last id received
bring exactly the ids that the rows make after the first cursor, in strictly increasing order, and
a call brings nothing only when none is left; the row of a snapshot's id counts as received.
`not_paginated_snapshot` is such a cursor, whose row no call sends.
-/

import PulseGraph.Library.Pages
import PulseGraph.Stream.SseBroker
import PulseGraph.Engine.Storms

namespace PulseGraph

open Library (Paginates)

variable {K : Type}

/-- One of the four ids that a row of the ledger makes. -/
def InGroup (seq id : ℕ) : Prop := ∃ k, 1 ≤ k ∧ k ≤ 4 ∧ id = streamIdStride * seq + k

/-- An id after the cursor that a row of the ledger makes. -/
def IdAfter (db : Database K) (cursor id : ℕ) : Prop :=
  cursor < id ∧ ∃ r ∈ db.rawEvents, InGroup r.seq id

/-- The same, where a snapshot's id counts its row as received. -/
def IdAfterSnapshot (db : Database K) (cursor id : ℕ) : Prop :=
  cursor < id ∧ ∃ r ∈ db.rawEvents, InGroup r.seq id ∧ cursor ≠ streamIdStride * r.seq

/-- What so many calls of `read_delta_events` bring, each from the last id received. -/
def deltasOfCalls (limit : ℤ) (db : Database K) (calls cursor : ℕ) : List (StreamEvent K) :=
  Library.received StreamEvent.streamId (fun c => readDeltaEvents limit c db) calls cursor

/-- Their ids. -/
def idsOfCalls (limit : ℤ) (db : Database K) (calls cursor : ℕ) : List ℕ :=
  (deltasOfCalls limit db calls cursor).map (·.streamId)

/-- Repeated calls deliver exactly the ids that are due. -/
structure Paginated (due : ℕ → Prop) (limit : ℤ) (db : Database K) (cursor : ℕ) : Prop where
  /-- Each at most once, and in strictly increasing order. -/
  increasing : ∀ calls, (idsOfCalls limit db calls cursor).Pairwise (· < ·)
  /-- Nothing else is delivered. -/
  onlyDue : ∀ calls, ∀ id ∈ idsOfCalls limit db calls cursor, due id
  /-- A call brings nothing exactly when none is left. -/
  nil_iff : ∀ calls, readDeltaEvents limit (cursorAfter cursor (deltasOfCalls limit db calls cursor)) db = [] ↔
    ∀ id, due id → id ∈ idsOfCalls limit db calls cursor
  /-- So many calls deliver all. -/
  complete : ∃ enough, ∀ calls, enough ≤ calls → ∀ id, due id → id ∈ idsOfCalls limit db calls cursor

/-! ## One row -/

/-- The events of a row have its four ids. -/
theorem inGroup_of_mem {r : RawEvent} {incident : IncidentPayload} {edges : List (EdgePayload K)}
    {event : StreamEvent K} (h : event ∈ deltaCandidates r incident edges) : InGroup r.seq event.streamId := by
  unfold deltaCandidates at h
  simp only [List.mem_cons, List.not_mem_nil, or_false] at h
  rw [InGroup]
  rcases h with rfl | rfl | rfl | rfl
  · exact ⟨1, by decide, by decide, congrArg (· + 1) (Nat.mul_comm _ _)⟩
  · exact ⟨2, by decide, by decide, congrArg (· + 2) (Nat.mul_comm _ _)⟩
  · exact ⟨3, by decide, by decide, congrArg (· + 3) (Nat.mul_comm _ _)⟩
  · exact ⟨4, by decide, by decide, congrArg (· + 4) (Nat.mul_comm _ _)⟩

/-- Each of the four ids is that of an event. -/
theorem exists_of_inGroup {r : RawEvent} {id : ℕ} (h : InGroup r.seq id) (incident : IncidentPayload)
    (edges : List (EdgePayload K)) : ∃ event ∈ deltaCandidates r incident edges, event.streamId = id := by
  obtain ⟨k, hk, hk', rfl⟩ := h
  unfold deltaCandidates incidentOffset graphOffset cardOffset metricsOffset
  simp only [List.exists_mem_cons_iff, List.not_mem_nil, false_and, exists_false, or_false]
  unfold streamIdStride
  omega

/-- Their ids increase. -/
theorem pairwise_deltaCandidates (r : RawEvent) (incident : IncidentPayload) (edges : List (EdgePayload K)) :
    (deltaCandidates r incident edges).Pairwise fun a b => a.streamId < b.streamId := by
  unfold deltaCandidates incidentOffset graphOffset cardOffset metricsOffset
  simp

section Pages

variable {db : Database K}

/-- The events of a row that are sent. -/
theorem mem_deltasAt {cursor : ℕ} {r : RawEvent} {event : StreamEvent K} :
    event ∈ deltasAt cursor db r ↔ cursor < event.streamId ∧ event ∈ deltasAt 0 db r := by
  unfold deltasAt
  cases incidentForEvent r.incidentId db with
  | none => simp
  | some incident =>
      unfold deltasOf
      simp only [List.mem_filter, decide_eq_true_eq]
      constructor
      · rintro ⟨hmem, hlt⟩
        exact ⟨hlt, hmem, (Nat.zero_le _).trans_lt hlt⟩
      · rintro ⟨hlt, hmem, -⟩
        exact ⟨hmem, hlt⟩

/-- They are of its group. -/
theorem inGroup_of_mem_deltasAt {cursor : ℕ} {r : RawEvent} {event : StreamEvent K}
    (h : event ∈ deltasAt cursor db r) : InGroup r.seq event.streamId := by
  unfold deltasAt at h
  cases hi : incidentForEvent r.incidentId db with
  | none =>
      rw [hi] at h
      exact absurd h List.not_mem_nil
  | some incident =>
      rw [hi] at h
      exact inGroup_of_mem (List.mem_filter.1 h).1

/-- The incident of every row is there. -/
def IncidentsExist (db : Database K) : Prop :=
  ∀ r ∈ db.rawEvents, (db.incidents.find? r.incidentId).isSome = true

/-- An id of its group after the cursor is sent. -/
theorem exists_mem_deltasAt (hincidents : IncidentsExist db) {cursor : ℕ} {r : RawEvent}
    (hr : r ∈ db.rawEvents) {id : ℕ} (hid : InGroup r.seq id) (hlt : cursor < id) :
    ∃ event ∈ deltasAt cursor db r, event.streamId = id := by
  obtain ⟨i, hi⟩ := Option.isSome_iff_exists.1 (hincidents r hr)
  have hincident : incidentForEvent r.incidentId db = some (incidentPayload r.incidentId i) := by
    unfold incidentForEvent
    rw [hi]
    rfl
  obtain ⟨event, hevent, rfl⟩ :=
    exists_of_inGroup hid (incidentPayload r.incidentId i) (edgesForIncident r.incidentId db)
  refine ⟨event, ?_, rfl⟩
  rw [deltasAt, hincident]
  exact List.mem_filter.2 ⟨hevent, decide_eq_true hlt⟩

/-! ## The rows of a call -/

/-- What a call without a limit reads: the rows whose id as a snapshot is not the cursor. -/
theorem mem_unlimited {cursor : ℕ} {event : StreamEvent K} : event ∈ readDeltaEvents (-1) cursor db ↔
    ∃ r ∈ db.rawEvents, cursor ≠ streamIdStride * r.seq ∧ event ∈ deltasAt cursor db r := by
  have hrows : deltaRows (-1) cursor db = pendingRows cursor db := rfl
  unfold readDeltaEvents
  rw [List.mem_flatMap, hrows]
  constructor
  · rintro ⟨r, hr, hevent⟩
    obtain ⟨hmem, hseq⟩ := mem_pendingRows.1 hr
    refine ⟨r, hmem, ?_, hevent⟩
    unfold streamIdStride at hseq ⊢
    omega
  · rintro ⟨r, hmem, hne, hevent⟩
    refine ⟨r, mem_pendingRows.2 ⟨hmem, ?_⟩, hevent⟩
    obtain ⟨k, hk, hk', hid⟩ := inGroup_of_mem_deltasAt hevent
    have hlt := (mem_deltasAt.1 hevent).1
    unfold streamIdStride at hid hne ⊢
    omega

/-- Their ids increase. -/
theorem pairwise_unlimited (hdistinct : (db.rawEvents.map (·.seq)).Nodup) (cursor : ℕ) :
    (readDeltaEvents (-1) cursor db).Pairwise fun a b => a.streamId < b.streamId := by
  have hrows : deltaRows (-1) cursor db = pendingRows cursor db := rfl
  unfold readDeltaEvents
  rw [hrows, List.pairwise_flatMap]
  refine ⟨fun r _ => ?_, (pairwise_pendingRows hdistinct cursor).imp fun {r r'} hlt => ?_⟩
  · unfold deltasAt
    cases incidentForEvent r.incidentId db with
    | none => exact List.Pairwise.nil
    | some incident => exact (pairwise_deltaCandidates _ _ _).filter _
  · -- the groups of two rows do not overlap
    intro event hevent event' hevent'
    obtain ⟨k, hk, hk', hid⟩ := inGroup_of_mem_deltasAt hevent
    obtain ⟨m, hm, hm', hid'⟩ := inGroup_of_mem_deltasAt hevent'
    unfold streamIdStride at hid hid'
    omega

/-- The rows of a call are the first of the pending ones. -/
theorem deltaRows_prefix (limit : ℤ) (cursor : ℕ) (db : Database K) :
    deltaRows limit cursor db <+: pendingRows cursor db := by
  unfold deltaRows sqlLimit
  split_ifs
  · exact List.prefix_refl _
  · exact List.take_prefix _ _

/-- A call brings the first events of one without a limit. -/
theorem readDeltaEvents_prefix (limit : ℤ) (cursor : ℕ) (db : Database K) :
    readDeltaEvents limit cursor db <+: readDeltaEvents (-1) cursor db := by
  have hrows : deltaRows (-1) cursor db = pendingRows cursor db := rfl
  obtain ⟨left, hleft⟩ := deltaRows_prefix limit cursor db
  refine ⟨left.flatMap (deltasAt cursor db), ?_⟩
  unfold readDeltaEvents
  rw [hrows, ← hleft, List.flatMap_append]

/-- **Two rows make progress**: the first pending one may have nothing after the cursor, because its
ids end before the next multiple of the stride, but the second has. -/
theorem readDeltaEvents_progress (hdistinct : (db.rawEvents.map (·.seq)).Nodup)
    (hincidents : IncidentsExist db) {limit : ℤ} (hlimit : 2 ≤ limit) {cursor : ℕ}
    (hnil : readDeltaEvents limit cursor db = []) : readDeltaEvents (-1) cursor db = [] := by
  have hrows : deltaRows (-1) cursor db = pendingRows cursor db := rfl
  have htake : deltaRows limit cursor db = (pendingRows cursor db).take limit.toNat := by
    unfold deltaRows sqlLimit
    rw [if_neg (by omega)]
  have hsorted := pairwise_pendingRows hdistinct cursor
  unfold readDeltaEvents at hnil ⊢
  rw [htake] at hnil
  rw [hrows]
  obtain ⟨n, hn⟩ : ∃ n, limit.toNat = n + 2 := ⟨limit.toNat - 2, by omega⟩
  rw [hn] at hnil
  rcases hpending : pendingRows cursor db with _ | ⟨first, _ | ⟨second, rows⟩⟩
  · rfl
  · rw [hpending] at hnil
    exact hnil
  · rw [hpending] at hnil hsorted
    have hfirst : first ∈ pendingRows cursor db := by
      rw [hpending]
      exact List.mem_cons_self
    have hsecond : second ∈ pendingRows cursor db := by
      rw [hpending]
      exact List.mem_cons_of_mem _ List.mem_cons_self
    have hlt : first.seq < second.seq := (List.pairwise_cons.1 hsorted).1 second List.mem_cons_self
    have hafter : cursor < streamIdStride * second.seq + 1 := by
      have hseq := (mem_pendingRows.1 hfirst).2
      unfold streamIdStride at hseq ⊢
      omega
    obtain ⟨event, hevent, -⟩ := exists_mem_deltasAt hincidents (mem_pendingRows.1 hsecond).1
      ⟨1, le_refl 1, by decide, rfl⟩ hafter
    have hsent : event ∈ (((first :: second :: rows).take (n + 2)).flatMap (deltasAt cursor db)) := by
      refine List.mem_flatMap.2 ⟨second, ?_, hevent⟩
      rw [List.take_succ_cons, List.take_succ_cons]
      exact List.mem_cons_of_mem _ List.mem_cons_self
    rw [hnil] at hsent
    exact absurd hsent List.not_mem_nil

/-- **The calls are pages** of what one without a limit reads. -/
theorem paginates_readDeltaEvents (hdistinct : (db.rawEvents.map (·.seq)).Nodup)
    (hincidents : IncidentsExist db) {limit : ℤ} (hlimit : 2 ≤ limit) :
    Paginates StreamEvent.streamId (fun c => readDeltaEvents limit c db)
      (fun c => readDeltaEvents (-1) c db) := by
  refine Paginates.of_prefixes (pairwise_unlimited hdistinct)
    (fun c => readDeltaEvents_prefix limit c db) (fun c x hx y => ?_)
    fun c => readDeltaEvents_progress hdistinct hincidents hlimit
  obtain ⟨r, -, hne, hrx⟩ := mem_unlimited.1 hx
  have hcx := (mem_deltasAt.1 hrx).1
  obtain ⟨k, hk, hk', hid⟩ := inGroup_of_mem_deltasAt hrx
  rw [mem_unlimited, mem_unlimited]
  constructor
  · rintro ⟨r', hr', -, hry⟩
    obtain ⟨hxy, hmem⟩ := mem_deltasAt.1 hry
    obtain ⟨m, hm, hm', hid'⟩ := inGroup_of_mem_deltasAt hry
    refine ⟨⟨r', hr', ?_, mem_deltasAt.2 ⟨hcx.trans hxy, hmem⟩⟩, hxy⟩
    unfold streamIdStride at hid hid' hne ⊢
    omega
  · rintro ⟨⟨r', hr', -, hry⟩, hxy⟩
    refine ⟨r', hr', ?_, mem_deltasAt.2 ⟨hxy, (mem_deltasAt.1 hry).2⟩⟩
    unfold streamIdStride at hid ⊢
    omega

/-- The ids of a call without a limit are the ones due. -/
theorem mem_unlimited_id (hincidents : IncidentsExist db) {cursor id : ℕ} :
    id ∈ (readDeltaEvents (-1) cursor db).map (·.streamId) ↔ IdAfterSnapshot db cursor id := by
  rw [List.mem_map]
  constructor
  · rintro ⟨event, hevent, rfl⟩
    obtain ⟨r, hr, hne, hmem⟩ := mem_unlimited.1 hevent
    exact ⟨(mem_deltasAt.1 hmem).1, r, hr, inGroup_of_mem_deltasAt hmem, hne⟩
  · rintro ⟨hlt, r, hr, hgroup, hne⟩
    obtain ⟨event, hevent, rfl⟩ := exists_mem_deltasAt hincidents hr hgroup hlt
    exact ⟨event, mem_unlimited.2 ⟨r, hr, hne, hevent⟩, rfl⟩

/-- What is received and what is left, as ids. -/
theorem idsOfCalls_append (hdistinct : (db.rawEvents.map (·.seq)).Nodup) (hincidents : IncidentsExist db)
    {limit : ℤ} (hlimit : 2 ≤ limit) (calls cursor : ℕ) :
    (readDeltaEvents (-1) cursor db).map (·.streamId) =
      idsOfCalls limit db calls cursor ++ (readDeltaEvents (-1)
        (cursorAfter cursor (deltasOfCalls limit db calls cursor)) db).map (·.streamId) := by
  rw [idsOfCalls, ← List.map_append]
  exact congrArg _ ((paginates_readDeltaEvents hdistinct hincidents hlimit).append calls cursor)

/-- What is received is due. -/
theorem due_of_mem_idsOfCalls (hdistinct : (db.rawEvents.map (·.seq)).Nodup)
    (hincidents : IncidentsExist db) {limit : ℤ} (hlimit : 2 ≤ limit) {calls cursor id : ℕ}
    (hid : id ∈ idsOfCalls limit db calls cursor) : IdAfterSnapshot db cursor id := by
  rw [← mem_unlimited_id hincidents, idsOfCalls_append hdistinct hincidents hlimit calls cursor]
  exact List.mem_append_left _ hid

end Pages

/-- **Repeated calls deliver each delta once**: whatever the cursor they start from and the limit, as
long as it is two at least. -/
theorem readDeltaEvents_paginates (db : Database K) (hdistinct : (db.rawEvents.map (·.seq)).Nodup)
    (hincidents : IncidentsExist db) (limit : ℤ) (hlimit : 2 ≤ limit) (cursor : ℕ) :
    Paginated (IdAfterSnapshot db cursor) limit db cursor := by
  have h := paginates_readDeltaEvents hdistinct hincidents hlimit
  have hsplit := fun calls => idsOfCalls_append hdistinct hincidents hlimit calls cursor
  have hsorted : ((readDeltaEvents (-1) cursor db).map (·.streamId)).Pairwise (· < ·) :=
    List.pairwise_map.2 (pairwise_unlimited hdistinct cursor)
  refine ⟨fun calls => ?_, fun calls id => due_of_mem_idsOfCalls hdistinct hincidents hlimit,
    fun calls => ?_, ⟨(readDeltaEvents (-1) cursor db).length, fun calls hcalls id hid => ?_⟩⟩
  · rw [hsplit calls] at hsorted
    exact (List.pairwise_append.1 hsorted).1
  · rw [hsplit calls] at hsorted
    constructor
    · intro hnil id hid
      have hrest := (h.nil_iff _).1 hnil
      rw [← mem_unlimited_id hincidents, hsplit calls, hrest] at hid
      rcases List.mem_append.1 hid with hid | hid
      · exact hid
      · exact absurd hid List.not_mem_nil
    · -- an id that is left would have been received, and so come before itself
      intro hall
      refine (h.nil_iff _).2 ?_
      rw [← List.map_eq_nil_iff (f := fun e : StreamEvent K => e.streamId)]
      refine List.eq_nil_iff_forall_not_mem.2 fun id hid => ?_
      have hreceived : id ∈ idsOfCalls limit db calls cursor := by
        refine hall id ?_
        rw [← mem_unlimited_id hincidents, hsplit calls]
        exact List.mem_append_right _ hid
      exact lt_irrefl id ((List.pairwise_append.1 hsorted).2.2 id hreceived id hid)
  · rw [idsOfCalls, deltasOfCalls, h.complete hcalls]
    exact (mem_unlimited_id hincidents).2 hid

/-! ## Three alerts -/

/-- What a replay shows of a ledger: its sequence numbers, and whether their incidents are there. -/
def ledgerSummary (db : Database K) : List ℕ × Bool :=
  (db.rawEvents.map (·.seq), db.rawEvents.all fun r => (db.incidents.find? r.incidentId).isSome)

/-- The three alerts of two services have the numbers one to three. -/
theorem ledgerSummary_stormRequests : ∃ h db, EngineRun Runtime.reference h db ∧
    db.rawEvents.map (·.seq) = [3, 2, 1] ∧ IncidentsExist db := by
  have hrun : (Library.replay (engineNext Runtime.reference) stormRequests ([], Database.empty)).map
      (fun s => ledgerSummary s.2) = some ([3, 2, 1], true) := by decide +kernel
  obtain ⟨h, db, r, hf⟩ := EngineRun.of_replay hrun
  obtain ⟨hseqs, hall⟩ := Prod.mk.inj hf
  exact ⟨h, db, r, hseqs, fun row hrow => List.all_eq_true.1 hall row hrow⟩

/-- They are read two rows at a time, from the middle of the first group. -/
theorem readDeltaEvents_paginates_middle : ∃ h db, EngineRun Runtime.reference h db ∧
    db.rawEvents.map (·.seq) = [3, 2, 1] ∧ Paginated (IdAfterSnapshot db 12) 2 db 12 := by
  obtain ⟨h, db, r, hseqs, hincidents⟩ := ledgerSummary_stormRequests
  refine ⟨h, db, r, hseqs, readDeltaEvents_paginates db ?_ hincidents 2 (le_refl 2) 12⟩
  rw [hseqs]
  decide

/-- **The row of a snapshot's id is not sent**: from the cursor 10, no call brings the events 11 to 14. -/
theorem not_paginated_snapshot : ∃ h db, EngineRun Runtime.reference h db ∧
    (∀ r ∈ db.rawEvents, 0 < r.seq) ∧ (db.rawEvents.map (·.seq)).Nodup ∧ IncidentsExist db ∧
    ¬ Paginated (IdAfter db 10) 100 db 10 := by
  obtain ⟨h, db, r, hseqs, hincidents⟩ := ledgerSummary_stormRequests
  have hdistinct : (db.rawEvents.map (·.seq)).Nodup := by
    rw [hseqs]
    decide
  refine ⟨h, db, r, fun row hrow => ?_, hdistinct, hincidents, fun hpages => ?_⟩
  · have hmem : row.seq ∈ db.rawEvents.map (·.seq) := List.mem_map_of_mem hrow
    rw [hseqs] at hmem
    simp only [List.mem_cons, List.not_mem_nil, or_false] at hmem
    omega
  · obtain ⟨row, hrow, hone⟩ : ∃ row ∈ db.rawEvents, row.seq = 1 := by
      refine List.mem_map.1 ?_
      rw [hseqs]
      decide
    obtain ⟨enough, hall⟩ := hpages.complete
    have hreceived := hall enough (le_refl enough) 11
      ⟨by decide, row, hrow, 1, by decide, by decide, by rw [hone]; rfl⟩
    obtain ⟨-, other, -, ⟨k, hk, hk', hid⟩, hne⟩ :=
      due_of_mem_idsOfCalls hdistinct hincidents (by decide) hreceived
    unfold streamIdStride at hid hne
    omega

end PulseGraph
