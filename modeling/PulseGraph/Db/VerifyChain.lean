/-
# The verifier of the ledger

`scripts/verify_chain.py`.  It reads `raw_events` by increasing `seq`, rebuilds the
normalized event and the decision of every row from the stored text, and accepts
when each row names the head before it and carries the hash of that head and its
own canonical payload.

The library readers it calls on the stored text are a parameter, `Readers`, with
`Readers.standard` for the forms a ledger stores: what is proved here holds whatever
they return.  **Two accepted ledgers with one head carry
the same payloads** (`verifyChain_payloads`), so an edit, a deletion, an insertion or
a reordering of earlier rows is rejected or moves the head.
-/

import PulseGraph.Db.HashChain
import PulseGraph.Db.IsoText
import PulseGraph.Library.HashChain
import PulseGraph.Library.JsonLoads

namespace PulseGraph

open Library (Json hashedPairs foldl_hash_injective)

/-- A row of `raw_events` as the verifier reads it: the columns it looks up, as text. -/
structure StoredEvent where
  eventId : String
  seq : ℤ
  fingerprint : String
  source : String
  service : String
  alertname : String
  severityRaw : String
  status : String
  labelsJson : String
  message : String
  firedAt : String
  rawPayload : String
  prevHash : String
  rowHash : String
  decisionPayloadJson : String

/-- The library functions that read stored text; `none` is an exception. -/
structure Readers where
  /-- `str(UUID(text))`. -/
  uuid : String → Option String
  /-- `datetime.fromisoformat`. -/
  fromIsoFormat : String → Option DateTime
  /-- `json.loads`. -/
  loads : String → Option Json

/-- `str(UUID(text))` of 32 hexadecimal digits with hyphens between them. -/
def uuidText (text : String) : Option String :=
  let hex := (text.toList.filter (· ≠ '-')).map Char.toLower
  if hex.length = 32 ∧ hex.all (fun c => (Json.hexValue c).isSome) then
    some (String.ofList (hex.take 8 ++ '-' :: ((hex.drop 8).take 4 ++ '-' ::
      ((hex.drop 12).take 4 ++ '-' :: ((hex.drop 16).take 4 ++ '-' :: hex.drop 20)))))
  else none

/-- The readers of the standard library, on the forms a ledger stores. -/
def Readers.standard : Readers where
  uuid := uuidText
  fromIsoFormat := PulseGraph.fromIsoFormat
  loads := Json.loads

/-- A name `NormalizedEvent.source` admits. -/
def Source.ofText (text : String) : Option Source :=
  [.prometheus, .datadog, .grafana, .generic].find? fun s : Source => s.text = text

/-- A name `NormalizedEvent.status` admits. -/
def EventStatus.ofText (text : String) : Option EventStatus :=
  [.firing, .resolved].find? fun s : EventStatus => s.text = text

@[simp] theorem Source.ofText_text (s : Source) : Source.ofText s.text = some s := by
  cases s <;> decide

@[simp] theorem EventStatus.ofText_text (s : EventStatus) : EventStatus.ofText s.text = some s := by
  cases s <;> decide

/-- A `dict`: the items of a JSON object. -/
def dictOf : Json → Option (List (String × Json))
  | .obj fields => some fields
  | _ => none

/-- A `str`. -/
def strOf : Json → Option String
  | .str s => some s
  | _ => none

/-- A `dict[str, str]`. -/
def labelsOf (v : Json) : Option Labels := do
  let fields ← dictOf v
  let items ← fields.mapM fun kv => (strOf kv.2).map (kv.1, ·)
  if h : (items.map Prod.fst).Nodup then some ⟨items, h⟩ else none

section Verifier

variable {K : Type} (rt : Runtime K) (rd : Readers)

/-- `_row_to_event`. -/
def rowToEvent (row : StoredEvent) : Option NormalizedEvent := do
  let eventId ← rd.uuid row.eventId
  let labels ← (rd.loads row.labelsJson).bind labelsOf
  let firedAt ← rd.fromIsoFormat (offsetSuffix row.firedAt)
  let rawPayload ← (rd.loads row.rawPayload).bind dictOf
  let source ← Source.ofText row.source
  let status ← EventStatus.ofText row.status
  some { eventId, fingerprint := row.fingerprint, source, service := row.service,
         alertname := row.alertname, severityRaw := row.severityRaw, status, labels,
         message := row.message, firedAt, rawPayload }

/-- `_canonical_payload`: the text the verifier hashes for a row. -/
def storedPayload (row : StoredEvent) : Option String := do
  let event ← rowToEvent rd row
  let decision ← rd.loads (if row.decisionPayloadJson = "" then "\x7b\x7d" else row.decisionPayloadJson)
  some ((Json.obj [("event", event.dump), ("decision", decision)]).dumps false)

/-- Why a ledger is not accepted. -/
inductive VerifyError where
  /-- `CHAIN TAMPERED`, with the link the row should and does carry. -/
  | prevHash (seq : ℤ) (eventId expected stored : String)
  /-- `CHAIN TAMPERED`, with the hash the row carries and the hash it should carry. -/
  | rowHash (seq : ℤ) (eventId stored recomputed : String)
  /-- A reader raised on the row's text. -/
  | unreadable
  deriving DecidableEq, Repr

/-- The loop of `main`, from an expected link. -/
def verifyRows (expectedPrevHash : String) : List StoredEvent → Except VerifyError Unit
  | [] => .ok ()
  | row :: rows =>
      if row.prevHash ≠ expectedPrevHash then
        .error (.prevHash row.seq row.eventId expectedPrevHash row.prevHash)
      else match storedPayload rd row with
        | none => .error .unreadable
        | some payload =>
            if computeRowHash rt row.prevHash payload ≠ row.rowHash then
              .error (.rowHash row.seq row.eventId row.rowHash (computeRowHash rt row.prevHash payload))
            else verifyRows row.rowHash rows

/-- `SELECT * FROM raw_events ORDER BY seq ASC`. -/
def bySeq (table : List StoredEvent) : List StoredEvent :=
  table.insertionSort fun a b => a.seq ≤ b.seq

/-- `main`: the number of rows verified. -/
def verifyChain (table : List StoredEvent) : Except VerifyError ℕ := do
  verifyRows rt rd genesisHash (bySeq table)
  return table.length

/-- The hash of the newest row. -/
def headHash (table : List StoredEvent) : Option String := (bySeq table).getLast?.map (·.rowHash)

/-- The texts a verification hashes. -/
def hashedTexts (table : List StoredEvent) : List String :=
  table.filterMap fun row => (storedPayload rd row).map (row.prevHash ++ ·)

end Verifier

/-! ## What an accepted ledger is -/

section Accepted

variable {K : Type} {rt : Runtime K} {rd : Readers} {expected : String} {row : StoredEvent}
  {rows table table' : List StoredEvent} {n n' : ℕ}

/-- A row is accepted when it names the expected head and carries the hash of that
head and its payload; the next row is then held against its hash. -/
theorem verifyRows_cons_eq_ok : verifyRows rt rd expected (row :: rows) = .ok () ↔
    row.prevHash = expected ∧ ∃ payload, storedPayload rd row = some payload ∧
      row.rowHash = computeRowHash rt expected payload ∧
      verifyRows rt rd row.rowHash rows = .ok () := by
  rw [verifyRows]
  by_cases hprev : row.prevHash = expected
  · rw [if_neg (not_not.2 hprev)]
    cases hp : storedPayload rd row with
    | none => simp
    | some payload =>
        by_cases hhash : computeRowHash rt row.prevHash payload = row.rowHash
        · simp only [if_neg (not_not.2 hhash)]
          simp [hprev, ← hhash]
        · simp only [if_pos hhash]
          simp [← hprev, Ne.symm hhash]
  · rw [if_pos hprev]
    simp [hprev]

/-- **An accepted ledger is a hash chain**: its rows have payloads, their hashes are
the heads of the chain over these, and each row hashed its payload after the head
before it. -/
theorem payloads_of_verifyRows : ∀ {rows : List StoredEvent} {expected : String},
    verifyRows rt rd expected rows = .ok () → ∃ payloads : List String,
      rows.map (storedPayload rd) = payloads.map some ∧
      (rows.getLast?.map (·.rowHash)).getD expected = payloads.foldl (computeRowHash rt) expected ∧
      (hashedPairs (computeRowHash rt) expected payloads).map (fun p => p.1 ++ p.2) =
        hashedTexts rd rows
  | [], _, _ => ⟨[], rfl, rfl, rfl⟩
  | row :: rows, expected, h => by
      obtain ⟨hprev, payload, hpayload, hhash, hrest⟩ := verifyRows_cons_eq_ok.1 h
      obtain ⟨payloads, hmap, hlast, htexts⟩ := payloads_of_verifyRows hrest
      refine ⟨payload :: payloads, ?_, ?_, ?_⟩
      · rw [List.map_cons, List.map_cons, hpayload, hmap]
      · rw [List.foldl_cons, ← hhash, ← hlast, List.getLast?_cons]
        cases rows.getLast? <;> rfl
      · rw [hashedPairs, ← hhash, List.map_cons, htexts, hashedTexts, hashedTexts,
          List.filterMap_cons, hpayload, hprev]
        rfl

theorem verifyChain_eq_ok : verifyChain rt rd table = .ok n ↔
    verifyRows rt rd genesisHash (bySeq table) = .ok () ∧ table.length = n := by
  unfold verifyChain
  cases verifyRows rt rd genesisHash (bySeq table) with
  | error e => simp [bind, Except.bind]
  | ok u => simp [bind, Except.bind, pure, Except.pure]

theorem mem_hashedTexts_bySeq {text : String} :
    text ∈ hashedTexts rd (bySeq table) ↔ text ∈ hashedTexts rd table :=
  ((List.perm_insertionSort _ table).filterMap _).mem_iff

/-- The heads of a chain are digests, of the genesis value's length. -/
theorem length_of_mem_hashedPairs (hlen : ∀ text, (rt.sha256 text).length = 64) {g : String}
    (hg : g.length = 64) : ∀ {payloads : List String} {p : String × String},
    p ∈ hashedPairs (computeRowHash rt) g payloads → p.1.length = 64
  | payload :: payloads, p, h => by
      rcases List.mem_cons.1 h with rfl | h
      · exact hg
      · exact length_of_mem_hashedPairs hlen (hlen _) h

/-- **The framing of a hashed text is unambiguous**: the link has a fixed length. -/
theorem framing_injective {p q : String × String} (hp : p.1.length = 64) (hq : q.1.length = 64)
    (h : p.1 ++ p.2 = q.1 ++ q.2) : p = q := by
  have htext : p.1.toList ++ p.2.toList = q.1.toList ++ q.2.toList := by
    rw [← String.toList_append, ← String.toList_append, h]
  obtain ⟨h₁, h₂⟩ := List.append_inj htext (by rw [String.length_toList, String.length_toList, hp, hq])
  exact Prod.ext (String.toList_injective h₁) (String.toList_injective h₂)

/-- **Tamper evidence.**  Two ledgers the verifier accepts, with one head,
carry the same canonical payload at every position and are equally long: where
SHA-256 gives 64 digits, is injective on the texts the two verifications hash, and
gives the genesis value on none of them. -/
theorem verifyChain_payloads (hlen : ∀ text, (rt.sha256 text).length = 64)
    (hinj : Set.InjOn rt.sha256 {text | text ∈ hashedTexts rd table ++ hashedTexts rd table'})
    (hgen : ∀ text ∈ hashedTexts rd table ++ hashedTexts rd table', rt.sha256 text ≠ genesisHash)
    (h : verifyChain rt rd table = .ok n) (h' : verifyChain rt rd table' = .ok n')
    (hhead : headHash table = headHash table') :
    n = n' ∧ (bySeq table).map (storedPayload rd) = (bySeq table').map (storedPayload rd) := by
  obtain ⟨hrows, rfl⟩ := verifyChain_eq_ok.1 h
  obtain ⟨hrows', rfl⟩ := verifyChain_eq_ok.1 h'
  obtain ⟨payloads, hmap, hlast, htexts⟩ := payloads_of_verifyRows hrows
  obtain ⟨payloads', hmap', hlast', htexts'⟩ := payloads_of_verifyRows hrows'
  have hgenesis : genesisHash.length = 64 := by decide
  -- the pairs either verification hashed
  let S : Set (String × String) := {p | p.1.length = 64 ∧
    p.1 ++ p.2 ∈ hashedTexts rd table ++ hashedTexts rd table'}
  have hS : ∀ p ∈ hashedPairs (computeRowHash rt) genesisHash payloads, p ∈ S := by
    intro p hp
    refine ⟨length_of_mem_hashedPairs hlen hgenesis hp, List.mem_append_left _ ?_⟩
    rw [← mem_hashedTexts_bySeq, ← htexts]
    exact List.mem_map_of_mem hp
  have hS' : ∀ p ∈ hashedPairs (computeRowHash rt) genesisHash payloads', p ∈ S := by
    intro p hp
    refine ⟨length_of_mem_hashedPairs hlen hgenesis hp, List.mem_append_right _ ?_⟩
    rw [← mem_hashedTexts_bySeq, ← htexts']
    exact List.mem_map_of_mem hp
  have hfold : payloads.foldl (computeRowHash rt) genesisHash =
      payloads'.foldl (computeRowHash rt) genesisHash := by
    rw [← hlast, ← hlast']
    exact congrArg (Option.getD · genesisHash) hhead
  have hpayloads : payloads = payloads' := foldl_hash_injective
    (fun p hp q hq he => framing_injective hp.1 hq.1 (hinj hp.2 hq.2 he))
    (fun p hp => hgen _ hp.2) hS hS' hfold
  refine ⟨?_, by rw [hmap, hmap', hpayloads]⟩
  have hl := congrArg List.length (hmap.trans ((congrArg _ hpayloads).trans hmap'.symm))
  simpa [bySeq] using hl

end Accepted

/-! ## Ledgers of two rows -/

/-- Digests that differ make a digest injective on their texts, and on any texts among them. -/
theorem injOn_of_nodup {texts texts' : List String} {digest : String → String}
    (h : (texts.map digest).Nodup) (hsub : ∀ text ∈ texts', text ∈ texts) :
    Set.InjOn digest {text | text ∈ texts'} :=
  fun _ ha _ hb => List.inj_on_of_nodup_map h (hsub _ ha) (hsub _ hb)

section Linked

variable {K : Type} (rt : Runtime K) (rd : Readers)

/-- The row, linked to the head before it. -/
def StoredEvent.link (head : String) (row : StoredEvent) : StoredEvent :=
  { row with
    prevHash := head
    rowHash := computeRowHash rt head ((storedPayload rd row).getD "") }

/-- Two rows as a chain. -/
def linked (first second : StoredEvent) : List StoredEvent :=
  [first.link rt rd genesisHash, second.link rt rd (first.link rt rd genesisHash).rowHash]

variable {rt rd} {first second : StoredEvent} {p q : String}

/-- The link of a row is not part of its payload. -/
theorem storedPayload_link {head : String} {row : StoredEvent} :
    storedPayload rd (row.link rt rd head) = storedPayload rd row := rfl

/-- Neither is its number, nor the spelling of what a reader reads. -/
theorem storedPayload_respell {row : StoredEvent} {seq : ℤ} {eventId firedAt : String}
    (hid : rd.uuid eventId = rd.uuid row.eventId)
    (hfired : rd.fromIsoFormat (offsetSuffix firedAt) = rd.fromIsoFormat (offsetSuffix row.firedAt)) :
    storedPayload rd { row with seq, eventId, firedAt } = storedPayload rd row := by
  unfold storedPayload rowToEvent
  rw [hid, hfired]

theorem payloads_linked : (linked rt rd first second).map (storedPayload rd) =
    [storedPayload rd first, storedPayload rd second] := by
  rw [linked, List.map_cons, List.map_singleton, storedPayload_link, storedPayload_link]

/-- **Two linked rows are accepted**, and their hashes are the digests of the texts hashed for them. -/
theorem verifyRows_linked (hp : storedPayload rd first = some p) (hq : storedPayload rd second = some q) :
    verifyRows rt rd genesisHash (linked rt rd first second) = .ok () ∧
      hashedTexts rd (linked rt rd first second) =
        [genesisHash ++ p, computeRowHash rt genesisHash p ++ q] ∧
      (linked rt rd first second).map (·.rowHash) =
        (hashedTexts rd (linked rt rd first second)).map rt.sha256 := by
  have hhead : (first.link rt rd genesisHash).rowHash = computeRowHash rt genesisHash p := by
    rw [StoredEvent.link, hp, Option.getD_some]
  have hlast : (second.link rt rd (first.link rt rd genesisHash).rowHash).rowHash =
      computeRowHash rt (first.link rt rd genesisHash).rowHash q := by
    rw [StoredEvent.link, hq, Option.getD_some]
  have htexts : hashedTexts rd (linked rt rd first second) =
      [genesisHash ++ p, computeRowHash rt genesisHash p ++ q] := by
    rw [linked, hashedTexts, List.filterMap_cons, List.filterMap_cons, List.filterMap_nil,
      storedPayload_link, storedPayload_link, hp, hq, hhead]
    rfl
  refine ⟨?_, htexts, ?_⟩
  · exact verifyRows_cons_eq_ok.2 ⟨rfl, p, hp, hhead, verifyRows_cons_eq_ok.2 ⟨rfl, q, hq, hlast, rfl⟩⟩
  · rw [htexts, linked, List.map_cons, List.map_singleton, hlast, hhead]
    rfl

/-- Read by number, two linked rows are the chain they are, whichever is stored first. -/
theorem bySeq_linked (h : first.seq < second.seq) :
    bySeq (linked rt rd first second) = linked rt rd first second ∧
      bySeq (linked rt rd first second).reverse = linked rt rd first second := by
  have hle : first.seq ≤ second.seq := h.le
  have hnle : ¬ second.seq ≤ first.seq := not_le.2 h
  constructor
  · simp [bySeq, linked, StoredEvent.link, hle]
  · simp [bySeq, linked, StoredEvent.link, hnle]

end Linked

/-- The digits of a number in base sixteen, the lowest first. -/
def hexDigits (n width : ℕ) : List Char := (List.range width).map fun k => Nat.digitChar (n / 16 ^ k % 16)

/-- A runtime whose digest is a polynomial of the bytes of the text, in 64 digits. -/
def Runtime.polynomial : Runtime ℚ :=
  { Runtime.reference with
    sha256 := fun text => String.ofList (hexDigits
      (text.toByteArray.data.toList.foldl (fun n b => (n * 257 + b.toNat) % 16 ^ 64) 1) 64) }

theorem length_polynomial (text : String) : (Runtime.polynomial.sha256 text).length = 64 := by
  show (String.ofList (hexDigits _ 64)).length = 64
  rw [String.length_ofList, hexDigits, List.length_map, List.length_range]

/-- The row of an alert, before it is linked. -/
def firstStored : StoredEvent where
  eventId := "00000000-0000-4000-8000-000000000001"
  seq := 1
  fingerprint := "f"
  source := "prometheus"
  service := "api"
  alertname := "HighCpu"
  severityRaw := "critical"
  status := "firing"
  labelsJson := "\x7b\"env\":\"prod\"\x7d"
  message := "cpu at 97%"
  firedAt := "2023-11-14T22:13:20.123Z"
  rawPayload := "\x7b\"value\":97\x7d"
  prevHash := ""
  rowHash := ""
  decisionPayloadJson := "\x7b\"state\":\"OPEN\"\x7d"

/-- The row of the event that resolves it, before it is linked. -/
def secondStored : StoredEvent :=
  { firstStored with
    eventId := "00000000-0000-4000-8000-000000000002"
    seq := 2
    status := "resolved"
    decisionPayloadJson := "\x7b\"state\":\"RESOLVED\"\x7d" }

/-- The first row in other words: another number, the instant with its offset spelled out. -/
def firstRespelled : StoredEvent :=
  { firstStored with seq := 7, firedAt := "2023-11-14T22:13:20.123000+00:00" }

/-- The second row in other words: another number, the id without its hyphens. -/
def secondRespelled : StoredEvent :=
  { secondStored with seq := 9, eventId := "00000000000040008000000000000002" }

/-- The first row after an edit. -/
def firstEdited : StoredEvent := { firstStored with message := "cpu at 12%" }

/-- The ledger of the two events. -/
def sampleLedger : List StoredEvent := linked Runtime.polynomial Readers.standard firstStored secondStored

/-- The same events in other words, the last row first. -/
def respelledLedger : List StoredEvent :=
  (linked Runtime.polynomial Readers.standard firstRespelled secondRespelled).reverse

/-- The ledger after an edit of its first row, with every link after it made good. -/
def editedLedger : List StoredEvent := linked Runtime.polynomial Readers.standard firstEdited secondStored

theorem sampleHashes_nodup : (genesisHash :: (sampleLedger ++ editedLedger).map (·.rowHash)).Nodup := by
  decide +kernel

/-- **A ledger in other words, and an edited one.**  The two accepted ledgers with one head carry the
same payloads, and the edited one, which is accepted too, has another head. -/
theorem verifyChain_payloads_respelled :
    (sampleLedger.length = respelledLedger.length ∧
      (bySeq sampleLedger).map (storedPayload Readers.standard) =
        (bySeq respelledLedger).map (storedPayload Readers.standard)) ∧
    verifyChain Runtime.polynomial Readers.standard editedLedger = .ok 2 ∧
    headHash sampleLedger ≠ headHash editedLedger := by
  obtain ⟨p, hp⟩ : ∃ p, storedPayload Readers.standard firstStored = some p :=
    Option.isSome_iff_exists.1 (by decide +kernel)
  obtain ⟨p', hp'⟩ : ∃ p, storedPayload Readers.standard firstEdited = some p :=
    Option.isSome_iff_exists.1 (by decide +kernel)
  obtain ⟨q, hq⟩ : ∃ q, storedPayload Readers.standard secondStored = some q :=
    Option.isSome_iff_exists.1 (by decide +kernel)
  have hrespelled : storedPayload Readers.standard firstRespelled = some p :=
    (storedPayload_respell rfl (by decide +kernel)).trans hp
  have hrespelled' : storedPayload Readers.standard secondRespelled = some q :=
    (storedPayload_respell (by decide +kernel) rfl).trans hq
  obtain ⟨hrows, htexts, hhashes⟩ := @verifyRows_linked _ Runtime.polynomial _ _ _ _ _ hp hq
  obtain ⟨hrows', htexts', hhashes'⟩ := @verifyRows_linked _ Runtime.polynomial _ _ _ _ _ hp' hq
  obtain ⟨hrows'', htexts'', hhashes''⟩ := @verifyRows_linked _ Runtime.polynomial _ _ _ _ _ hrespelled hrespelled'
  have hsorted : bySeq sampleLedger = sampleLedger := (bySeq_linked (by decide)).1
  have hsorted' : bySeq editedLedger = editedLedger := (bySeq_linked (by decide)).1
  have hsorted'' : bySeq respelledLedger =
      linked Runtime.polynomial Readers.standard firstRespelled secondRespelled := (bySeq_linked (by decide)).2
  have hok : verifyChain Runtime.polynomial Readers.standard sampleLedger = .ok 2 :=
    verifyChain_eq_ok.2 ⟨by rw [hsorted]; exact hrows, rfl⟩
  have hok' : verifyChain Runtime.polynomial Readers.standard editedLedger = .ok 2 :=
    verifyChain_eq_ok.2 ⟨by rw [hsorted']; exact hrows', rfl⟩
  have hok'' : verifyChain Runtime.polynomial Readers.standard respelledLedger = .ok 2 :=
    verifyChain_eq_ok.2 ⟨by rw [hsorted'']; exact hrows'', rfl⟩
  -- no two of the digests of the first and the edited ledger are equal, and none is the genesis value
  have hdigests : (sampleLedger ++ editedLedger).map (·.rowHash) =
      (hashedTexts Readers.standard sampleLedger ++ hashedTexts Readers.standard editedLedger).map
        Runtime.polynomial.sha256 := by
    rw [List.map_append, List.map_append, sampleLedger, editedLedger, hhashes, hhashes']
  have hnodup := sampleHashes_nodup
  rw [hdigests, List.nodup_cons] at hnodup
  have hgen : ∀ text ∈ hashedTexts Readers.standard sampleLedger ++ hashedTexts Readers.standard editedLedger,
      Runtime.polynomial.sha256 text ≠ genesisHash := fun text ht heq =>
    hnodup.1 (List.mem_map.2 ⟨text, ht, heq⟩)
  -- the respelled ledger hashes the texts of the first one
  have hsame : ∀ text ∈ hashedTexts Readers.standard sampleLedger ++
      hashedTexts Readers.standard respelledLedger,
      text ∈ hashedTexts Readers.standard sampleLedger ++ hashedTexts Readers.standard editedLedger := by
    intro text ht
    refine List.mem_append_left _ ((List.mem_append.1 ht).elim id fun h => ?_)
    rw [← mem_hashedTexts_bySeq, hsorted'', htexts'', ← htexts] at h
    exact h
  have hhead : headHash sampleLedger = headHash respelledLedger := by
    rw [headHash, headHash, hsorted, hsorted'', ← List.getLast?_map, ← List.getLast?_map, hhashes'', htexts'',
      sampleLedger, hhashes, htexts]
  have hpayload : p ≠ p' := by
    rintro rfl
    have htwice := hnodup.2
    rw [List.map_append, sampleLedger, editedLedger, htexts, htexts'] at htwice
    exact List.disjoint_of_nodup_append htwice List.mem_cons_self List.mem_cons_self
  refine ⟨verifyChain_payloads length_polynomial (injOn_of_nodup hnodup.2 hsame)
    (fun text ht => hgen text (hsame text ht)) hok hok'' hhead, hok', fun hmoved => ?_⟩
  have heq := (verifyChain_payloads length_polynomial (injOn_of_nodup hnodup.2 fun _ => id) hgen hok hok' hmoved).2
  rw [hsorted, hsorted', sampleLedger, editedLedger, payloads_linked, payloads_linked, hp, hp'] at heq
  exact hpayload (Option.some.inj (List.cons.inj heq).1)

end PulseGraph
