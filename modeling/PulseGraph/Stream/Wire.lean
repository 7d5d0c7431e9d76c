/-
# The stream on the wire

What `_stream_database` yields, as text: `StreamEvent.encode`, and a comment when a poll brings
nothing.  A connection may break off anywhere.  The browser then asks again with the id of the last
event it has dispatched, which `stream` takes for the cursor.

**Proved here.**  `stream_cut_anywhere`: of the bytes that arrive before the connection breaks off, the
browser dispatches the complete events, each with the id, the type and the data it was yielded with,
and the cursor the next connection starts from is that of the last of them: nothing is skipped, and
nothing is read twice.
-/

import PulseGraph.Db.IsoText
import PulseGraph.GitHub.Payload
import PulseGraph.Library.EventStream
import PulseGraph.Library.FormText
import PulseGraph.Library.JsonValues
import PulseGraph.Stream.SseBroker

namespace PulseGraph

open Library (forall_mem_of_all Json Message EventReader StreamItem utf8 utf8Decode streamText messages lastId)
open Library.Json (WellFormed Printable)

variable {K : Type}

/-! ## Events as text -/

/-- `float.__repr__` of the numbers an event carries. -/
structure Spelling (K : Type) where
  rate : ℚ → String
  weight : K → String
  rate_number : ∀ x, WellFormed (.num (rate x))
  weight_number : ∀ x, WellFormed (.num (weight x))

section Encode

variable (sp : Spelling K)

/-- `_incident_payload`, as the dictionary it is. -/
def IncidentPayload.json (i : IncidentPayload) : Json :=
  .obj [("incidentId", .str i.incidentId), ("title", .str i.title), ("summary", Json.optStr i.summary),
    ("severity", .str i.severity.text), ("state", .str i.state.text), ("alertCount", .int i.alertCount),
    ("quietAtMs", (i.quietAtMs.map Json.int).getD .null), ("rootCauseHint", Json.optStr i.rootCauseHint),
    ("routeDecision", .str i.routeDecision.text), ("ewmaRate", .num (sp.rate i.ewmaRate)),
    ("firstAlertAt", .str (isoText i.firstAlertAt)), ("lastAlertAt", .str (isoText i.lastAlertAt)),
    ("createdAt", .str (isoText i.createdAt)), ("updatedAt", .str (isoText i.updatedAt))]

/-- An edge, as the dictionary it is. -/
def EdgePayload.json (e : EdgePayload K) : Json :=
  .obj [("sourceIncidentId", .str e.sourceIncidentId), ("targetIncidentId", .str e.targetIncidentId),
    ("decayed_joint_weight", .num (sp.weight e.decayedJointWeight)), ("lastSeenAt", .str (isoText e.lastSeenAt))]

/-- `StreamEvent.data`, as the dictionary it is. -/
def StreamData.fields : StreamData K → List (String × Json)
  | .snapshot incidents edges =>
      [("incidents", .arr (incidents.map (·.json sp))), ("edges", .arr (edges.map (·.json sp)))]
  | .incidentUpsert incident => [("incident", incident.json sp)]
  | .edgeUpsert edges => [("edges", .arr (edges.map (·.json sp)))]
  | .cardUpdate incidentId decision => [("incidentId", .str incidentId), ("decision", decision)]
  | .metricsUpdate incidentId alertCount state =>
      [("incidentId", .str incidentId), ("alertCount", .int alertCount), ("state", .str state.text)]

/-- `envelope`. -/
def StreamEvent.envelope (event : StreamEvent K) : Json :=
  .obj (("streamId", .int event.streamId) :: event.data.fields sp)

/-- `StreamEvent.encode`. -/
def StreamEvent.encode (event : StreamEvent K) : String :=
  "id: " ++ toString event.streamId ++ "\nevent: " ++ event.data.eventType ++ "\ndata: " ++
    Json.write true (event.envelope sp) ++ "\n\n"

/-- What `_stream_database` yields: an event, or a comment. -/
def yieldText : Option (StreamEvent K) → String
  | some event => event.encode sp
  | none => ": keepalive\n\n"

/-- The bytes of a connection. -/
def wireBytes (yields : List (Option (StreamEvent K))) : List UInt8 :=
  utf8 (yields.flatMap fun y => (yieldText sp y).toList)

/-- An event as the browser dispatches it. -/
def StreamEvent.message (event : StreamEvent K) : Message :=
  ⟨(toString event.streamId).toList, event.data.eventType.toList, (Json.write true (event.envelope sp)).toList⟩

end Encode

/-- The cursor of `stream`: `after`, or the header; a negative one counts as none. -/
def resumeCursor (rt : Runtime K) (after : Option ℤ) (lastEventId : Option String) : Option ℕ :=
  match after with
  | some after => some after.toNat
  | none => match lastEventId with
    | none => some 0
    | some text => if text = "" then some 0 else (GitHub.int? rt (.str text)).map Int.toNat

/-- The header of a connection that was open before: the id of the last event, if there was one. -/
def lastEventIdHeader (id : List Char) : Option String := if id = [] then none else some (String.ofList id)

/-! ## Reading it back -/

/-- What `json.loads` of a stored decision gives. -/
def StreamData.Sendable : StreamData K → Prop
  | .cardUpdate _ decision => WellFormed decision
  | _ => True

section Events

variable {sp : Spelling K} {event : StreamEvent K}

theorem wellFormed_optStr (s : Option String) : WellFormed (Json.optStr s) := by
  cases s with
  | none => exact .null
  | some s => exact .str s

theorem IncidentPayload.wellFormed_json (i : IncidentPayload) : WellFormed (i.json sp) := by
  refine .obj (by simp) ?_
  simp only [List.forall_mem_cons]
  refine ⟨.str _, .str _, wellFormed_optStr _, .str _, .str _, .int _, ?_, wellFormed_optStr _, .str _,
    sp.rate_number _, .str _, .str _, .str _, .str _, List.forall_mem_nil _⟩
  cases i.quietAtMs with
  | none => exact .null
  | some ms => exact .int ms

theorem EdgePayload.wellFormed_json (e : EdgePayload K) : WellFormed (e.json sp) := by
  refine .obj (by simp) ?_
  simp only [List.forall_mem_cons]
  exact ⟨.str _, .str _, sp.weight_number _, .str _, List.forall_mem_nil _⟩

/-- The list of some dictionaries. -/
theorem wellFormed_map {α : Type} {f : α → Json} (xs : List α) (h : ∀ x, WellFormed (f x)) :
    WellFormed (.arr (xs.map f)) := by
  refine .arr fun v hv => ?_
  obtain ⟨x, -, rfl⟩ := List.mem_map.1 hv
  exact h x

/-- An envelope is a JSON value. -/
theorem wellFormed_envelope (h : event.data.Sendable) : WellFormed (event.envelope sp) := by
  obtain ⟨id, data⟩ := event
  cases data with
  | snapshot incidents edges =>
      refine .obj (by simp [StreamData.fields]) ?_
      simp only [StreamData.fields, List.forall_mem_cons]
      exact ⟨.int _, wellFormed_map _ (·.wellFormed_json), wellFormed_map _ (·.wellFormed_json), List.forall_mem_nil _⟩
  | incidentUpsert incident =>
      refine .obj (by simp [StreamData.fields]) ?_
      simp only [StreamData.fields, List.forall_mem_cons]
      exact ⟨.int _, incident.wellFormed_json, List.forall_mem_nil _⟩
  | edgeUpsert edges =>
      refine .obj (by simp [StreamData.fields]) ?_
      simp only [StreamData.fields, List.forall_mem_cons]
      exact ⟨.int _, wellFormed_map _ (·.wellFormed_json), List.forall_mem_nil _⟩
  | cardUpdate incidentId decision =>
      refine .obj (by simp [StreamData.fields]) ?_
      simp only [StreamData.fields, List.forall_mem_cons]
      exact ⟨.int _, .str _, h, List.forall_mem_nil _⟩
  | metricsUpdate incidentId alertCount state =>
      refine .obj (by simp [StreamData.fields]) ?_
      simp only [StreamData.fields, List.forall_mem_cons]
      exact ⟨.int _, .str _, .int _, .str _, List.forall_mem_nil _⟩

/-- The item of the stream that is yielded. -/
def yieldItem (sp : Spelling K) : Option (StreamEvent K) → StreamItem
  | some event => .frame (event.message sp)
  | none => .comment " keepalive".toList

theorem yieldText_eq (y : Option (StreamEvent K)) : (yieldText sp y).toList = (yieldItem sp y).text := by
  cases y with
  | none => simp [yieldText, yieldItem, StreamItem.text, StreamItem.lines, Library.linesText]
  | some event =>
      simp only [yieldText, StreamEvent.encode, yieldItem, StreamItem.text, StreamItem.lines, StreamItem.fieldLine,
        StreamEvent.message, Library.linesText, List.flatMap_cons, List.flatMap_nil, String.toList_append,
        List.append_assoc, List.append_nil]
      rfl

theorem eventType_plain (data : StreamData K) :
    Library.OneLine data.eventType.toList ∧ data.eventType.toList ≠ [] := by
  cases data <;> simp only [StreamData.eventType] <;> exact ⟨forall_mem_of_all (by decide), by decide⟩

/-- No line of a yield breaks. -/
theorem proper_yieldItem {y : Option (StreamEvent K)} (h : ∀ event, y = some event → event.data.Sendable) :
    (yieldItem sp y).Proper := by
  cases y with
  | none =>
      change ∀ c ∈ " keepalive".toList, _
      exact forall_mem_of_all (by decide)
  | some event =>
      have hdigit : ∀ c ∈ (toString event.streamId).toList, c.isDigit = true := fun c hc =>
        Nat.isDigit_of_mem_toDigits (by decide) le_rfl (Nat.toList_repr ▸ hc)
      have hvalue : WellFormed (event.envelope sp) := wellFormed_envelope (h event rfl)
      have hprintable := Json.printable_write hvalue
      obtain ⟨hplain, hne⟩ := eventType_plain event.data
      refine ⟨fun c hc => ?_, hplain, fun c hc => ?_, hne, fun hnul => ?_⟩
      · constructor <;> rintro rfl <;> exact absurd (hdigit _ hc) (by decide)
      · have hc := hprintable c hc
        constructor <;> rintro rfl <;> exact absurd hc (by decide)
      · exact absurd (hdigit _ hnul) (by decide)

/-- The text of a yield is ASCII. -/
theorem yieldText_ascii {y : Option (StreamEvent K)} (h : ∀ event, y = some event → event.data.Sendable) :
    ∀ c ∈ (yieldText sp y).toList, c.toNat < 128 := by
  cases y with
  | none =>
      change ∀ c ∈ ": keepalive\n\n".toList, c.toNat < 128
      exact forall_mem_of_all (by decide)
  | some event =>
      have hlabels : ∀ label ∈ ["id: ", "\nevent: ", "\ndata: ", "\n\n"], ∀ c ∈ label.toList, c.toNat < 128 := by
        simp only [List.forall_mem_cons]
        refine ⟨?_, ?_, ?_, ?_, List.forall_mem_nil _⟩ <;> exact forall_mem_of_all (by decide)
      have hid : ∀ c ∈ (toString event.streamId).toList, c.toNat < 128 := fun c hc =>
        (Json.printable_of_isDigit (Nat.isDigit_of_mem_toDigits (by decide) le_rfl (Nat.toList_repr ▸ hc))).2.trans
          (by decide)
      have htype : ∀ c ∈ event.data.eventType.toList, c.toNat < 128 := by
        cases event.data <;> simp only [StreamData.eventType] <;> exact forall_mem_of_all (by decide)
      have hvalue : WellFormed (event.envelope sp) := wellFormed_envelope (h event rfl)
      have hdata := Json.printable_write hvalue
      intro c hc
      simp only [yieldText, StreamEvent.encode, String.toList_append, List.mem_append] at hc
      rcases hc with (((((hc | hc) | hc) | hc) | hc) | hc) | hc
      · exact hlabels _ (by decide) c hc
      · exact hid c hc
      · exact hlabels _ (by decide) c hc
      · exact htype c hc
      · exact hlabels _ (by decide) c hc
      · exact (hdata c hc).2.trans (by decide)
      · exact hlabels _ (by decide) c hc

end Events

/-! ## Connections that break off -/

section Connection

variable {sp : Spelling K} {yields : List (Option (StreamEvent K))}

/-- What a text of ASCII characters begins with is the bytes of what it begins with. -/
theorem prefix_utf8 {cs : List Char} (h : ∀ c ∈ cs, c.toNat < 128) {bytes : List UInt8} (hbytes : bytes <+: utf8 cs) :
    ∃ ds, ds <+: cs ∧ bytes = utf8 ds := by
  have hds : ∀ c ∈ cs.take bytes.length, c.toNat < 128 := fun c hc => h c (List.mem_of_mem_take hc)
  refine ⟨cs.take bytes.length, List.take_prefix _ _, ?_⟩
  rw [Library.utf8_of_ascii h] at hbytes
  rw [Library.utf8_of_ascii hds, List.map_take]
  exact List.prefix_iff_eq_take.1 hbytes

/-- Texts of ASCII characters begin with one another as their bytes do. -/
theorem utf8_prefix_iff {cs ds : List Char} (hd : ∀ c ∈ ds, c.toNat < 128) : utf8 cs <+: utf8 ds ↔ cs <+: ds := by
  constructor
  · intro h
    obtain ⟨es, hes, heq⟩ := prefix_utf8 hd h
    have heq := congrArg utf8Decode heq
    rw [Library.utf8Decode_utf8, Library.utf8Decode_utf8] at heq
    exact heq ▸ hes
  · rintro ⟨rest, rfl⟩
    rw [Library.utf8_append]
    exact List.prefix_append _ _

theorem wireBytes_eq : wireBytes sp yields = utf8 (streamText (yields.map (yieldItem sp))) := by
  rw [wireBytes, streamText, List.flatMap_map]
  exact congrArg utf8 (List.flatMap_congr fun y _ => yieldText_eq y)

theorem messages_yields : messages (yields.map (yieldItem sp)) = yields.reduceOption.map (·.message sp) := by
  induction yields with
  | nil => rfl
  | cons y yields ih =>
      rw [List.map_cons, messages, List.filterMap_cons]
      cases y with
      | none => exact ih
      | some event => exact congrArg _ ih

/-- What the events leave as the last id. -/
theorem lastId_yields (id : List Char) : lastId id (yields.map (yieldItem sp)) =
    (yields.reduceOption.getLast?.map fun event => (toString event.streamId).toList).getD id := by
  induction yields generalizing id with
  | nil => rfl
  | cons y yields ih =>
      rw [List.map_cons, lastId, List.foldl_cons]
      cases y with
      | none => exact ih id
      | some event =>
          refine (ih _).trans ?_
          have hcons : (some event :: yields).reduceOption = event :: yields.reduceOption := rfl
          rw [hcons, List.getLast?_cons]
          cases yields.reduceOption.getLast? <;> rfl

/-- No digit is an underscore. -/
theorem dropUnderscores_digits {cs : List Char} (h : ∀ c ∈ cs, c.isDigit = true) :
    GitHub.dropUnderscores cs = cs := by
  fun_induction GitHub.dropUnderscores cs with
  | case1 c d cs hunderscore => exact absurd (h '_' (by simp)) (by decide)
  | case2 c d cs hnone ih => exact absurd (h '_' (by simp)) (by decide)
  | case3 c cs hother ih => rw [ih fun d hd => h d (List.mem_cons_of_mem _ hd)]
  | case4 => rfl

/-- A cursor reads back from its text. -/
theorem int?_str_nat (rt : Runtime K) (hstrip : ∀ n : ℕ, rt.strip (toString n) = toString n) (n : ℕ) :
    GitHub.int? rt (.str (toString n)) = some (n : ℤ) := by
  have hdigits : ∀ c ∈ Nat.toDigits 10 n, c.isDigit = true :=
    fun c hc => Nat.isDigit_of_mem_toDigits (by decide) le_rfl hc
  have htext : (toString n).toList = Nat.toDigits 10 n := Nat.toList_repr
  have hread : GitHub.natOf (GitHub.dropUnderscores (Nat.toDigits 10 n)) = some n := by
    rw [dropUnderscores_digits hdigits, GitHub.natOf_toDigits]
  obtain ⟨d, ds, hds⟩ := List.exists_cons_of_ne_nil (@Nat.toDigits_ne_nil n 10)
  have hd : d.isDigit = true := hdigits d (hds ▸ List.mem_cons_self)
  have hsign : d ≠ '-' ∧ d ≠ '+' := by
    constructor <;> rintro rfl <;> exact absurd hd (by decide)
  rw [hds] at hread
  rw [GitHub.int?, hstrip, htext, hds, GitHub.signed, if_neg hsign.1, if_neg (by simp [hsign.2]), hread]
  rfl

/-- The cursor of a header that the reader has from a cursor. -/
theorem resumeCursor_header (rt : Runtime K) (hstrip : ∀ n : ℕ, rt.strip (toString n) = toString n) (n : ℕ) :
    resumeCursor rt none (lastEventIdHeader (toString n).toList) = some n := by
  have hne : toString n ≠ "" := by
    intro hempty
    have htext : (toString n).toList = Nat.toDigits 10 n := Nat.toList_repr
    rw [hempty] at htext
    exact Nat.toDigits_ne_nil htext.symm
  have hsome : (toString n).toList ≠ [] := fun h => hne (String.toList_eq_nil_iff.1 h)
  rw [lastEventIdHeader, if_neg hsome, String.ofList_toList, resumeCursor, if_neg hne, int?_str_nat rt hstrip]
  rfl

/-- The id a reader remembers before it has read anything: that of the cursor, if there is one. -/
def rememberedId (after : ℕ) : List Char := if after = 0 then [] else (toString after).toList

/-- **A connection may break off anywhere**: what has arrived is read as the complete events, in order
and each as it was yielded, and the next connection starts from the cursor of the last of them. -/
theorem stream_cut_anywhere (rt : Runtime K) (hstrip : ∀ n : ℕ, rt.strip (toString n) = toString n)
    (hsendable : ∀ event, some event ∈ yields → event.data.Sendable) (after : ℕ) {bytes : List UInt8}
    (hbytes : bytes <+: wireBytes sp yields) :
    ∃ k ≤ yields.length, wireBytes sp (yields.take k) <+: bytes ∧
      (k < yields.length → ¬ wireBytes sp (yields.take (k + 1)) <+: bytes) ∧
      ((EventReader.between (rememberedId after)).read (utf8Decode bytes)).2 =
        (yields.take k).reduceOption.map (·.message sp) ∧
      resumeCursor rt none (lastEventIdHeader
        ((EventReader.between (rememberedId after)).read (utf8Decode bytes)).1.lastEventId) =
          some (cursorAfter after (yields.take k).reduceOption) := by
  have hproper : ∀ item ∈ yields.map (yieldItem sp), item.Proper := by
    intro item hitem
    obtain ⟨y, hy, rfl⟩ := List.mem_map.1 hitem
    exact proper_yieldItem fun event heq => hsendable event (heq ▸ hy)
  have hascii : ∀ c ∈ streamText (yields.map (yieldItem sp)), c.toNat < 128 := by
    intro c hc
    rw [streamText, List.flatMap_map, List.mem_flatMap] at hc
    obtain ⟨y, hy, hc⟩ := hc
    rw [← yieldText_eq] at hc
    exact yieldText_ascii (fun event heq => hsendable event (heq ▸ hy)) c hc
  rw [wireBytes_eq] at hbytes
  obtain ⟨cs, hcs, rfl⟩ := prefix_utf8 hascii hbytes
  obtain ⟨k, hk, hmessages, hid, hcomplete, hmore⟩ := @Library.read_prefix (rememberedId after) _ _ hproper hcs
  have hcs_ascii : ∀ c ∈ cs, c.toNat < 128 := fun c hc => hascii c (hcs.subset hc)
  have htake : ∀ n, (yields.map (yieldItem sp)).take n = (yields.take n).map (yieldItem sp) :=
    fun n => List.map_take.symm
  rw [List.length_map] at hk hmore
  rw [htake] at hmessages hid hcomplete
  rw [htake] at hmore
  rw [Library.utf8Decode_utf8]
  refine ⟨k, hk, ?_, fun hlt => ?_, hmessages.trans messages_yields, ?_⟩
  · rw [wireBytes_eq]
    exact (utf8_prefix_iff hcs_ascii).2 hcomplete
  · rw [wireBytes_eq, utf8_prefix_iff hcs_ascii]
    exact hmore hlt
  · rw [hid, lastId_yields, cursorAfter]
    cases (yields.take k).reduceOption.getLast? with
    | some event => exact resumeCursor_header rt hstrip event.streamId
    | none =>
        change resumeCursor rt none (lastEventIdHeader (rememberedId after)) = some after
        unfold rememberedId
        split_ifs with hzero
        · rw [hzero]
          rfl
        · exact resumeCursor_header rt hstrip after

end Connection

/-- Digits have no blanks around them. -/
theorem reference_strip (n : ℕ) : Runtime.reference.strip (toString n) = toString n := by
  have htext : (toString n).toList = Nat.toDigits 10 n := Nat.toList_repr
  have hstop : ∀ cs : List Char, (∀ c ∈ cs, c.isDigit = true) → cs.dropWhile Char.isWhitespace = cs := by
    intro cs hcs
    cases cs with
    | nil => rfl
    | cons c cs =>
        have hdigit := hcs c List.mem_cons_self
        refine List.dropWhile_cons_of_neg fun hblank => ?_
        simp only [Char.isWhitespace, Bool.or_eq_true, decide_eq_true_eq] at hblank
        rcases hblank with ((rfl | rfl) | rfl) | rfl <;> exact absurd hdigit (by decide)
  have hdigits : ∀ c ∈ Nat.toDigits 10 n, c.isDigit = true :=
    fun c hc => Nat.isDigit_of_mem_toDigits (by decide) le_rfl hc
  change String.ofList (((toString n).toList.dropWhile Char.isWhitespace).reverse.dropWhile
    Char.isWhitespace).reverse = toString n
  rw [htext, hstop _ hdigits, hstop _ fun c hc => hdigits c (List.mem_reverse.1 hc), List.reverse_reverse, ← htext,
    String.ofList_toList]

/-- No number of the events below is a `float`. -/
def Spelling.zero : Spelling ℚ where
  rate _ := "0.0"
  weight _ := "0.0"
  rate_number _ := .num (by decide) (by decide)
  weight_number _ := .num (by decide) (by decide)

/-- Two events with a comment between them. -/
def sampleYields : List (Option (StreamEvent ℚ)) :=
  [some ⟨14, .metricsUpdate "i1" 2 .OPEN⟩, none, some ⟨24, .metricsUpdate "i1" 3 .OPEN⟩]

/-- What has come of them when the connection breaks off. -/
def sampleBytes : List UInt8 := (wireBytes Spelling.zero sampleYields).take 130

/-- `stream_cut_anywhere` where the connection breaks off within the second event. -/
theorem stream_cut_anywhere_second : ∃ k ≤ sampleYields.length,
    wireBytes Spelling.zero (sampleYields.take k) <+: sampleBytes ∧
    (k < sampleYields.length → ¬ wireBytes Spelling.zero (sampleYields.take (k + 1)) <+: sampleBytes) ∧
    ((EventReader.between (rememberedId 0)).read (utf8Decode sampleBytes)).2 =
      (sampleYields.take k).reduceOption.map (·.message Spelling.zero) ∧
    resumeCursor Runtime.reference none (lastEventIdHeader
      ((EventReader.between (rememberedId 0)).read (utf8Decode sampleBytes)).1.lastEventId) =
        some (cursorAfter 0 (sampleYields.take k).reduceOption) := by
  have hsendable : ∀ event, some event ∈ sampleYields → event.data.Sendable := by
    intro event hevent
    simp only [sampleYields, List.mem_cons, Option.some.injEq, reduceCtorEq, List.not_mem_nil, or_false,
      false_or] at hevent
    rcases hevent with rfl | rfl <;> trivial
  have hcut : sampleBytes <+: wireBytes Spelling.zero sampleYields := List.take_prefix 130 _
  exact stream_cut_anywhere Runtime.reference reference_strip hsendable 0 hcut

end PulseGraph
