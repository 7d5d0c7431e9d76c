/-
# The ledger the program writes, read by its verifier

`persist_decision` hashes the event it holds in memory; `scripts/verify_chain.py`
rebuilds the event from the stored columns.  Every field but one comes back as it
was: labels and payloads with their keys in order, which the canonical text does not
show, and the timestamp cut to whole milliseconds and moved to UTC (`restored`,
`storedPayload_ledgerRow`).

So **a ledger verifies exactly when every timestamp it was given is a whole
millisecond in UTC** (`chain_verifies_iff`), although the verifier's
`_canonical_payload` is written to mirror the writer's.
-/

import PulseGraph.Db.VerifyChain
import PulseGraph.Engine.DbAdapter
import PulseGraph.Library.Checked

namespace PulseGraph

open Library (Json)
open Library.Json (WellFormed)

variable {K : Type}

/-! ## The stored columns -/

/-- A `dict[str, str]` as JSON. -/
def Labels.dump (l : Labels) : Json := .obj (l.items.map fun kv => (kv.1, .str kv.2))

/-- A ledger row as the text of its columns. -/
def RawEvent.stored (row : RawEvent) : StoredEvent where
  eventId := row.eventId
  seq := row.seq
  fingerprint := row.fingerprint
  source := row.source.text
  service := row.service
  alertname := row.alertname
  severityRaw := row.severityRaw
  status := row.status.text
  labelsJson := row.labels.dump.dumps true
  message := row.message
  firedAt := isoText row.firedAt
  rawPayload := (Json.obj row.rawPayload).dumps true
  prevHash := row.prevHash
  rowHash := row.rowHash
  decisionPayloadJson := row.decisionPayload.dumps true

/-- What the types of a decision say and its record here does not: the event id is the
text of a UUID, both payloads are values `json` can write, and the UTC year of the
timestamp is one a `datetime` has. -/
structure EngineDecision.Storable (d : EngineDecision) : Prop where
  eventId : uuidText d.event.eventId = some d.event.eventId
  rawPayload : WellFormed (.obj d.event.rawPayload)
  decisionPayload : WellFormed d.decisionPayload
  firedAt : InYears d.event.firedAt.isoMs

/-- A decision whose timestamp went through storage. -/
def EngineDecision.restored (d : EngineDecision) : EngineDecision :=
  { d with event := { d.event with firedAt := DateTime.ofIsoMs d.event.firedAt.isoMs } }

theorem Labels.wellFormed_dump (l : Labels) : WellFormed l.dump := by
  refine .obj ?_ ?_
  · rw [List.map_map]
    exact l.nodup
  · intro f hf
    obtain ⟨kv, -, rfl⟩ := List.mem_map.1 hf
    exact .str kv.2

theorem Labels.sorted_dump (l : Labels) : l.dump.sorted = l.sorted.dump := by
  rw [Labels.dump, Json.sorted, Json.sortedFields_eq_map, List.map_map]
  exact congrArg Json.obj (Json.sortFields_map Json.str l.items)

/-- Stored labels read back in the order of their keys. -/
theorem Labels.loads_dump (l : Labels) :
    (Json.loads (l.dump.dumps true)).bind labelsOf = some l.sorted := by
  have hitems : (l.sorted.items.map fun kv => (kv.1, Json.str kv.2)).mapM
      (fun kv => (strOf kv.2).map (kv.1, ·)) = some l.sorted.items := by
    generalize l.sorted.items = items
    induction items with
    | nil => rfl
    | cons kv items ih => rw [List.map_cons, List.mapM_cons, ih]; rfl
  rw [Json.loads_dumps true l.wellFormed_dump, Option.bind_some, l.sorted_dump, labelsOf, Labels.dump]
  simp only [dictOf, Option.bind_eq_bind, Option.bind_some, hitems]
  exact dif_pos l.sorted.nodup

/-- A payload stored as a dictionary reads back as one, its keys in order. -/
theorem loads_dict {fields : List (String × Json)} (h : WellFormed (.obj fields)) :
    (Json.loads ((Json.obj fields).dumps true)).bind dictOf =
      some (Json.sortFields (Json.sortedFields fields)) := by
  rw [Json.loads_dumps true h]
  rfl

/-- The text of an event depends on the texts of its labels and its payload. -/
theorem dumps_dump_congr {event : NormalizedEvent} {labels : Labels}
    {rawPayload : List (String × Json)}
    (hlabels : labels.dump.dumps false = event.labels.dump.dumps false)
    (hraw : (Json.obj rawPayload).dumps false = (Json.obj event.rawPayload).dumps false) :
    ({ event with labels := labels, rawPayload := rawPayload } : NormalizedEvent).dump.dumps false =
      event.dump.dumps false := by
  refine Json.dumps_obj_congr ?_
  rw [Labels.dump, Labels.dump] at hlabels
  simp only [Json.dumpsFields, hlabels, hraw]

/-- **What the verifier hashes for a row** is what the writer would have hashed for
the decision with its timestamp as stored. -/
theorem storedPayload_ledgerRow {rt : Runtime K} {now : ℤ} {d : EngineDecision} {db : Database K}
    (h : d.Storable) :
    storedPayload Readers.standard (ledgerRow rt now d db).stored =
      some (canonicalPayload d.restored) := by
  have hevent : rowToEvent Readers.standard (ledgerRow rt now d db).stored = some
      { d.restored.event with
        labels := d.event.labels.sorted.sorted
        rawPayload := Json.sortFields (Json.sortedFields d.event.rawPayload) } := by
    have hlabels := d.event.labels.sorted.loads_dump
    have hraw := loads_dict h.rawPayload
    have hdate := fromIsoFormat_isoText h.firedAt
    have hid := h.eventId
    simp only [rowToEvent, RawEvent.stored, ledgerRow, Readers.standard, hid, hlabels, hraw, hdate,
      Source.ofText_text, EventStatus.ofText_text, Option.bind_eq_bind, Option.bind_some]
    rfl
  have hlabels : d.event.labels.sorted.sorted.dump.dumps false = d.event.labels.dump.dumps false := by
    rw [← Labels.sorted_dump, Json.dumps_sorted false (Labels.wellFormed_dump _),
      ← Labels.sorted_dump, Json.dumps_sorted false (Labels.wellFormed_dump _)]
  have hraw := Json.dumps_sorted false h.rawPayload
  have hdecision : (if (ledgerRow rt now d db).stored.decisionPayloadJson = "" then "\x7b\x7d"
      else (ledgerRow rt now d db).stored.decisionPayloadJson) = d.decisionPayload.dumps true := by
    refine if_neg fun hempty => ?_
    obtain ⟨c, cs, htext, -⟩ := (Json.readsBack true h.decisionPayload).head
    have hnil : d.decisionPayload.dumps true = "" := hempty
    rw [hnil] at htext
    cases htext
  have hloads : Readers.standard.loads (d.decisionPayload.dumps true) = some d.decisionPayload.sorted :=
    Json.loads_dumps true h.decisionPayload
  rw [storedPayload, hevent, hdecision]
  simp only [Option.bind_eq_bind, Option.bind_some, hloads]
  rw [Option.some.injEq, canonicalPayload]
  refine Json.dumps_obj_congr ?_
  simp only [Json.dumpsFields, Json.dumps_sorted false h.decisionPayload]
  have hevents := @dumps_dump_congr d.restored.event _ _ hlabels hraw
  rw [hevents]
  rfl

/-! ## What the timestamp does to the text -/

/-- The keys of a dumped event. -/
def eventKeys : List String :=
  ["event_id", "fingerprint", "source", "service", "alertname", "severity_raw", "status", "labels",
    "message", "fired_at", "raw_payload"]

theorem nodup_eventKeys : eventKeys.Nodup := by decide

theorem wellFormed_dump {event : NormalizedEvent} (h : WellFormed (.obj event.rawPayload)) :
    WellFormed event.dump := by
  refine .obj nodup_eventKeys ?_
  intro f hf
  simp only [List.mem_cons, List.not_mem_nil, or_false] at hf
  rcases hf with rfl | rfl | rfl | rfl | rfl | rfl | rfl | rfl | rfl | rfl | rfl
  case inr.inr.inr.inr.inr.inr.inr.inl => exact event.labels.wellFormed_dump
  case inr.inr.inr.inr.inr.inr.inr.inr.inr.inr => exact h
  all_goals exact .str _

/-- The value of a canonical payload. -/
def EngineDecision.payloadValue (d : EngineDecision) : Json :=
  .obj [("event", d.event.dump), ("decision", d.decisionPayload)]

theorem EngineDecision.Storable.wellFormed {d : EngineDecision} (h : d.Storable) :
    WellFormed d.payloadValue := by
  refine .obj (show ["event", "decision"].Nodup by decide) ?_
  intro f hf
  simp only [List.mem_cons, List.not_mem_nil, or_false] at hf
  rcases hf with rfl | rfl
  · exact wellFormed_dump h.rawPayload
  · exact h.decisionPayload

/-- **The canonical text shows the timestamp.**  The payload of a decision and of the
same decision restored are written alike exactly when the timestamp is a whole
millisecond in UTC. -/
theorem canonicalPayload_restored_iff {d : EngineDecision} (h : d.Storable) :
    canonicalPayload d.restored = canonicalPayload d ↔
      d.event.firedAt.utcOffset = some 0 ∧ d.event.firedAt.utcUs % 1000 = 0 := by
  rw [← dump_ofIsoMs_eq_iff]
  have hrestored : d.restored.Storable := ⟨h.eventId, h.rawPayload, h.decisionPayload, by
    have hms : (DateTime.ofIsoMs d.event.firedAt.isoMs).isoMs = d.event.firedAt.isoMs := by
      simp only [DateTime.isoMs, DateTime.ofIsoMs]
      omega
    show InYears (DateTime.ofIsoMs d.event.firedAt.isoMs).isoMs
    rw [hms]
    exact h.firedAt⟩
  constructor
  · intro htext
    have hvalue := Json.dumps_injective hrestored.wellFormed h.wellFormed htext
    have hevent := Json.field_eq_of_sorted_eq hvalue (show ["event", "decision"].Nodup by decide)
      (.head _) (.head _)
    have hfired := @Json.field_eq_of_sorted_eq _ _ "fired_at" _ _ hevent nodup_eventKeys
      (.tail _ <| .tail _ <| .tail _ <| .tail _ <| .tail _ <| .tail _ <| .tail _ <| .tail _ <|
        .tail _ <| .head _)
      (.tail _ <| .tail _ <| .tail _ <| .tail _ <| .tail _ <| .tail _ <| .tail _ <| .tail _ <|
        .tail _ <| .head _)
    exact Json.str.inj hfired
  · intro hdump
    have hevent : d.restored.event.dump = d.event.dump := by
      rw [NormalizedEvent.dump, NormalizedEvent.dump]
      show Json.obj _ = Json.obj _
      rw [show d.restored.event.firedAt.dump = d.event.firedAt.dump from hdump]
      rfl
    rw [canonicalPayload, canonicalPayload, hevent]
    rfl

/-! ## Decisions persisted one after another -/

section Ledger

variable (rt : Runtime K)

/-- `persist_decision` for each of a sequence of decisions, at its own instant. -/
def persistAll (ds : List (ℤ × EngineDecision)) (db : Database K) :
    Except EngineError (Database K) :=
  ds.foldlM (fun db d => persistDecision rt d.1 d.2 db) db

/-- The ledger rows a sequence of decisions appends, oldest first. -/
def ledgerRows : Database K → List (ℤ × EngineDecision) → List RawEvent
  | _, [] => []
  | db, (now, d) :: ds => ledgerRow rt now d db :: ledgerRows (persisted rt now d db) ds

/-- The texts that writing a sequence of decisions and verifying their rows hash. -/
def ledgerTexts : Database K → List (ℤ × EngineDecision) → List String
  | _, [] => []
  | db, (now, d) :: ds =>
      ((nextSeqAndPrevHash db).2 ++ canonicalPayload d) ::
        ((nextSeqAndPrevHash db).2 ++ canonicalPayload d.restored) ::
          ledgerTexts (persisted rt now d db) ds

variable {rt} {db db' : Database K} {ds : List (ℤ × EngineDecision)}

/-- What a sequence of decisions appends to the ledger. -/
theorem rawEvents_persistAll (h : persistAll rt ds db = .ok db') :
    db'.rawEvents = (ledgerRows rt db ds).reverse ++ db.rawEvents := by
  induction ds generalizing db with
  | nil =>
      obtain rfl : db = db' := Except.ok.inj h
      rfl
  | cons d ds ih =>
      rw [persistAll, List.foldlM_cons] at h
      obtain ⟨db₁, h₁, h₂⟩ := Library.bind_eq_ok.1 h
      obtain ⟨-, rfl⟩ := persistDecision_ok.1 h₁
      rw [ih h₂, ledgerRows, List.reverse_cons, List.append_assoc]
      rfl

theorem length_ledgerRows : (ledgerRows rt db ds).length = ds.length := by
  induction ds generalizing db with
  | nil => rfl
  | cons d ds ih => rw [ledgerRows, List.length_cons, List.length_cons, ih]

/-- Rows are numbered in the order they are written. -/
theorem pairwise_ledgerRows : (ledgerRows rt db ds).Pairwise (fun a b => a.seq < b.seq) ∧
    ∀ row ∈ ledgerRows rt db ds, (nextSeqAndPrevHash db).1 ≤ row.seq := by
  induction ds generalizing db with
  | nil => exact ⟨.nil, fun row hrow => absurd hrow List.not_mem_nil⟩
  | cons d ds ih =>
      obtain ⟨hpair, hle⟩ := @ih (persisted rt d.1 d.2 db)
      have hnext : (nextSeqAndPrevHash (persisted rt d.1 d.2 db)).1 =
          (nextSeqAndPrevHash db).1 + 1 := rfl
      rw [hnext] at hle
      refine ⟨.cons (fun row hrow => hle row hrow) hpair, fun row hrow => ?_⟩
      rcases List.mem_cons.1 hrow with rfl | hrow
      · exact le_rfl
      · exact (Nat.le_succ _).trans (hle row hrow)

/-- The verifier reads the rows in the order they were written. -/
theorem bySeq_ledgerRows :
    bySeq ((ledgerRows rt db ds).reverse.map RawEvent.stored) =
      (ledgerRows rt db ds).map RawEvent.stored := by
  have hlt : ((ledgerRows rt db ds).map RawEvent.stored).Pairwise (fun a b => a.seq < b.seq) :=
    List.pairwise_map.2 ((pairwise_ledgerRows).1.imp fun h => Int.ofNat_lt.2 h)
  have hperm : (bySeq ((ledgerRows rt db ds).reverse.map RawEvent.stored)).Perm
      ((ledgerRows rt db ds).map RawEvent.stored) :=
    (List.perm_insertionSort _ _).trans ((List.reverse_perm _).map _)
  have : IsTrans StoredEvent fun a b => a.seq ≤ b.seq := ⟨fun _ _ _ => le_trans⟩
  have : Std.Total fun a b : StoredEvent => a.seq ≤ b.seq := ⟨fun a b => le_total a.seq b.seq⟩
  have hnd : (((ledgerRows rt db ds).map RawEvent.stored).map (·.seq)).Nodup :=
    (List.pairwise_map.2 hlt).imp ne_of_lt
  refine List.Perm.eq_of_pairwise ?_
    (List.pairwise_insertionSort (fun a b : StoredEvent => a.seq ≤ b.seq) _)
    (hlt.imp le_of_lt) hperm
  intro a b ha hb hab hba
  exact List.inj_on_of_nodup_map hnd (hperm.mem_iff.1 ha) hb (le_antisymm hab hba)

/-- **A row verifies exactly when its timestamp survives storage**, and so does a
whole ledger: the link is the head the writer read, and the two texts hashed after it
differ in nothing but the timestamp. -/
theorem verifyRows_ledgerRows (hds : ∀ d ∈ ds, d.2.Storable)
    (hinj : Set.InjOn rt.sha256 {text | text ∈ ledgerTexts rt db ds}) :
    verifyRows rt Readers.standard (nextSeqAndPrevHash db).2
        ((ledgerRows rt db ds).map RawEvent.stored) = .ok () ↔
      ∀ d ∈ ds, d.2.event.firedAt.utcOffset = some 0 ∧ d.2.event.firedAt.utcUs % 1000 = 0 := by
  induction ds generalizing db with
  | nil => exact iff_of_true rfl fun d hd => absurd hd List.not_mem_nil
  | cons d ds ih =>
      have hd := hds d List.mem_cons_self
      have hrest := @ih (persisted rt d.1 d.2 db) (fun e he => hds e (List.mem_cons_of_mem _ he))
        (hinj.mono fun text ht => List.mem_cons_of_mem _ (List.mem_cons_of_mem _ ht))
      have hhash : (ledgerRow rt d.1 d.2 db).stored.rowHash =
          computeRowHash rt (nextSeqAndPrevHash db).2 (canonicalPayload d.2.restored) ↔
            canonicalPayload d.2.restored = canonicalPayload d.2 := by
        constructor
        · intro h
          have htexts := hinj (List.mem_cons_self) (List.mem_cons_of_mem _ List.mem_cons_self) h
          exact (String.append_right_inj _).1 htexts.symm
        · intro h
          rw [h]
          rfl
      rw [ledgerRows, List.map_cons, verifyRows_cons_eq_ok, List.forall_mem_cons, ← hrest,
        ← canonicalPayload_restored_iff hd, ← hhash]
      constructor
      · rintro ⟨-, payload, hpayload, hrow, hok⟩
        rw [storedPayload_ledgerRow hd] at hpayload
        obtain rfl := Option.some.inj hpayload
        exact ⟨hrow, hok⟩
      · rintro ⟨hrow, hok⟩
        exact ⟨rfl, _, storedPayload_ledgerRow hd, hrow, hok⟩

/-- The verifier starts from the head the first row was written after. -/
theorem verifyChain_persistAll {rd : Readers} (hempty : db.rawEvents = [])
    (hrun : persistAll rt ds db = .ok db') :
    verifyChain rt rd (db'.rawEvents.map RawEvent.stored) = .ok ds.length ↔
      verifyRows rt rd (nextSeqAndPrevHash db).2 ((ledgerRows rt db ds).map RawEvent.stored) =
        .ok () := by
  have hgenesis : (nextSeqAndPrevHash db).2 = genesisHash := by rw [nextSeqAndPrevHash, hempty]
  rw [rawEvents_persistAll hrun, hempty, List.append_nil, verifyChain_eq_ok, bySeq_ledgerRows,
    hgenesis, List.length_map, List.length_reverse, length_ledgerRows]
  exact and_iff_left rfl

end Ledger

/-! ## The claim, and where it fails -/

/-- A persisted decision about an alert that fired at an instant. -/
def sampleDecision (eventId : String) (firedAt : DateTime) : EngineDecision where
  event :=
    { eventId := eventId
      fingerprint := "f"
      source := .prometheus
      service := "api"
      alertname := "HighCpu"
      severityRaw := "warning"
      status := .firing
      labels := ⟨[("env", "prod"), ("dc", "eu")], by decide⟩
      message := "cpu at 97%"
      firedAt := firedAt
      rawPayload := [("value", .num "97"), ("tags", .arr [.null, .str "é"])] }
  incidentId := "incident-1"
  state := .ACKNOWLEDGED
  isDuplicate := false
  severityFinal := .medium
  alertCount := 1
  title := "HighCpu"
  summary := none
  scopeKey := "prod"
  stableFingerprint := "f"
  decisionPayload := .obj [("state", .str "ACKNOWLEDGED")]

theorem storable_sampleDecision {eventId : String} {firedAt : DateTime}
    (hid : uuidText eventId = some eventId) (hyears : InYears firedAt.isoMs) :
    (sampleDecision eventId firedAt).Storable where
  eventId := hid
  rawPayload := by
    refine .obj (show ["value", "tags"].Nodup by decide) ?_
    intro f hf
    simp only [sampleDecision, List.mem_cons, List.not_mem_nil, or_false] at hf
    rcases hf with rfl | rfl
    · exact .num (by decide) (by decide)
    · refine .arr ?_
      intro x hx
      simp only [List.mem_cons, List.not_mem_nil, or_false] at hx
      rcases hx with rfl | rfl
      · exact .null
      · exact .str _
  decisionPayload := by
    refine .obj (show ["state"].Nodup by decide) ?_
    intro f hf
    simp only [List.mem_cons, List.not_mem_nil, or_false] at hf
    rcases hf with rfl
    exact .str _
  firedAt := hyears

/-- A whole millisecond in UTC. -/
def utcDecision : EngineDecision :=
  sampleDecision "00000000-0000-4000-8000-000000000001" ⟨1700000000123000, some 0⟩

/-- The same instant in another zone. -/
def zonedDecision : EngineDecision :=
  sampleDecision "00000000-0000-4000-8000-000000000002" ⟨1700000000123000, some 19800⟩

theorem storable_utcDecision : utcDecision.Storable :=
  storable_sampleDecision (by decide +kernel) ⟨by decide, by decide⟩

theorem storable_zonedDecision : zonedDecision.Storable :=
  storable_sampleDecision (by decide +kernel) ⟨by decide, by decide⟩

/-- **The ledger the program writes verifies exactly when every timestamp is a whole
millisecond in UTC.** -/
theorem chain_verifies_iff {rt : Runtime K} {db db' : Database K} {ds : List (ℤ × EngineDecision)}
    (hempty : db.rawEvents = []) (hds : ∀ d ∈ ds, d.2.Storable)
    (hinj : Set.InjOn rt.sha256 {text | text ∈ ledgerTexts rt db ds})
    (hrun : persistAll rt ds db = .ok db') :
    verifyChain rt Readers.standard (db'.rawEvents.map RawEvent.stored) = .ok ds.length ↔
      ∀ d ∈ ds, d.2.event.firedAt.utcOffset = some 0 ∧ d.2.event.firedAt.utcUs % 1000 = 0 :=
  (verifyChain_persistAll hempty hrun).trans (verifyRows_ledgerRows hds hinj)

theorem chain_verifies_iff_twoDecisions :
    verifyChain Runtime.reference Readers.standard
        ((persisted Runtime.reference 1 zonedDecision
          (persisted Runtime.reference 0 utcDecision Database.empty)).rawEvents.map
            RawEvent.stored) = .ok 2 ↔
      ∀ d ∈ [((0 : ℤ), utcDecision), (1, zonedDecision)],
        d.2.event.firedAt.utcOffset = some 0 ∧ d.2.event.firedAt.utcUs % 1000 = 0 := by
  refine @chain_verifies_iff ℚ Runtime.reference Database.empty _
    [(0, utcDecision), (1, zonedDecision)] rfl ?_ (fun _ _ _ _ h => h) ?_
  · intro d hd
    simp only [List.mem_cons, List.not_mem_nil, or_false] at hd
    rcases hd with rfl | rfl
    · exact storable_utcDecision
    · exact storable_zonedDecision
  · have h₁ : persistDecision Runtime.reference 0 utcDecision Database.empty = .ok _ :=
      persistDecision_ok.2 ⟨fun r hr => absurd hr List.not_mem_nil, rfl⟩
    have h₂ : persistDecision Runtime.reference 1 zonedDecision
        (persisted Runtime.reference 0 utcDecision Database.empty) = .ok _ :=
      persistDecision_ok.2 ⟨fun r hr => by
        rw [List.mem_singleton.1 hr]
        decide, rfl⟩
    exact Library.bind_eq_ok.2 ⟨_, h₁, Library.bind_eq_ok.2 ⟨_, h₂, rfl⟩⟩

/-- One alert with a timestamp of another zone makes its own ledger look tampered with. -/
theorem not_chain_verifies : ¬ ∀ (ds : List (ℤ × EngineDecision)) (db : Database ℚ),
    (∀ d ∈ ds, d.2.Storable) → persistAll Runtime.reference ds Database.empty = .ok db →
      verifyChain Runtime.reference Readers.standard (db.rawEvents.map RawEvent.stored) =
        .ok ds.length := by
  intro h
  have hds : ∀ d ∈ [((0 : ℤ), zonedDecision)], d.2.Storable := by
    intro d hd
    rw [List.mem_singleton.1 hd]
    exact storable_zonedDecision
  have hrun : persistAll Runtime.reference [(0, zonedDecision)] Database.empty = .ok _ :=
    Library.bind_eq_ok.2 ⟨_, persistDecision_ok.2 ⟨fun r hr => absurd hr List.not_mem_nil, rfl⟩, rfl⟩
  have hok := (verifyChain_persistAll rfl hrun).1 (h _ _ hds hrun)
  have hzone := (verifyRows_ledgerRows hds (fun _ _ _ _ h => h)).1 hok _ List.mem_cons_self
  exact absurd hzone.1 (by decide)

end PulseGraph
