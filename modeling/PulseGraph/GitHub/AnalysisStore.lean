/-
# Stored diagnoses

`_sanitize_text`, `_diagnosis_projection`, `persist_diagnosis_result` from its projection on,
`get_diagnosis_result` and `_record_from_row` of `src/github_integration/analysis_store.py` over the
table `github_incident_analyses`, and the `DiagnosisResult` that `create_github_patch_preview` makes
of a record.  The regular expressions of the sanitiser are any functions on texts at all.

**Proved here.**  A diagnosis that is stored is loaded and validated again, at any later time, as one
with the same status, provider, confidence, places of evidence, number of steps and affected paths,
so that it is grounded in the same requests (`persistDiagnosisResult_laws`).
-/

import PulseGraph.GitHub.Grounding
import PulseGraph.GitHub.Texts
import PulseGraph.GitHub.WorkspaceApply
import PulseGraph.Library.JsonLoads

namespace PulseGraph
namespace GitHub

open Library (Json Table raiseIf raiseIf_eq_ok bind_eq_ok mapError_eq_ok mapM_self_of_mem optionMapM_self
  optionMapM_map trim
  collapse)
open Library.Json (WellFormed)

variable {K : Type}

/-! ## Sanitising -/

/-- The regular expressions of `_sanitize_text`. -/
structure Sanitizer where
  /-- The five substitutions, one after the other. -/
  substitute : String → String
  /-- `_SOURCE_LIKE_LINE.match`. -/
  sourceLike : String → Bool

section Storing

variable (rt : Runtime K) (sanitizer : Sanitizer)

/-- `_sanitize_text`. -/
def sanitizeText (value : String) (maximum : ℕ) : String :=
  let text := sanitizer.substitute value
  let safeLines := (splitLines [] text.toList).map fun line =>
    if sanitizer.sourceLike line then "[source code omitted]" else line
  let joined := " ".intercalate ((safeLines.map rt.strip).filter fun part => part ≠ "")
  let normalized := rt.strip (String.ofList (collapse isWhitespace ' ' false joined.toList))
  let normalized := if normalized = "" then "[details omitted]" else normalized
  String.ofList (normalized.toList.take maximum)

/-! ## Rows -/

/-- The columns of `github_incident_analyses` that hold a diagnosis. -/
structure AnalysisColumns where
  status : String
  provider : String
  confidence : ℚ
  rootCauseSummary : Option String := none
  rootCauseReasoning : Option String := none
  evidenceJson : String
  proposedFixSummary : Option String := none
  proposedFixStepsJson : String
  proposedFixPathsJson : String
  fallbackReason : Option String := none
  fallbackMessage : Option String := none
  fallbackNextStepsJson : String

/-- A row: its columns pass the CHECK constraints of the table. -/
structure AnalysisRow extends AnalysisColumns where
  statusKnown : status = "diagnosed" ∨ status = "fallback"
  confidenceBounded : 0 ≤ confidence ∧ confidence ≤ 1

/-- `github_incident_analyses`, under `analysis_id`. -/
abbrev AnalysisTable := Table String AnalysisRow

/-- What the store of analyses raises. -/
inductive AnalysisError where
  /-- `GitHubAnalysisStoreError(detail)`. -/
  | store (detail : String)
  /-- `sqlite3.IntegrityError`. -/
  | integrity
  /-- `AssertionError`. -/
  | assertion
  deriving DecidableEq, Repr

/-- `DiagnosisEvidence.kind` as a text. -/
def EvidenceKind.text : EvidenceKind → String
  | .incident => "incident"
  | .sourceExcerpt => "source_excerpt"

/-- `DiagnosisResult.status` as a text. -/
def DiagnosisStatus.text : DiagnosisStatus → String
  | .diagnosed => "diagnosed"
  | .fallback => "fallback"

/-- `FallbackReason` as a text. -/
def FallbackReason.text : FallbackReason → String
  | .noSourceExcerpts => "no_source_excerpts"
  | .providerUnavailable => "provider_unavailable"
  | .invalidProviderResult => "invalid_provider_result"
  | .insufficientEvidence => "insufficient_evidence"

/-- An integer or `null`. -/
def optInt : Option ℤ → Json
  | some n => Json.int n
  | none => .null

/-- The fields of one entry of the evidence in `_diagnosis_projection`. -/
def evidenceFields (item : DiagnosisEvidence) : Fields :=
  ("kind", .str item.kind.text) :: ("explanation", .str (sanitizeText rt sanitizer item.explanation 1000)) ::
    match item.kind with
    | .incident => []
    | .sourceExcerpt =>
        [("file_path", Json.optStr item.filePath), ("blob_sha", Json.optStr item.blobSha),
          ("start_line", optInt item.startLine), ("end_line", optInt item.endLine)]

/-- `_json_array`. -/
def jsonArray (values : List Json) : String := Json.dumps false (.arr values)

/-- `_diagnosis_projection`, each list in the JSON text of its column. -/
def diagnosisProjection (result : DiagnosisResult) : Except AnalysisError AnalysisColumns := do
  let validated ← (result.validate rt).mapError fun _ => .store "diagnosis result is invalid"
  let projection : AnalysisColumns :=
    { status := validated.status.text, provider := validated.provider, confidence := validated.confidence,
      evidenceJson := jsonArray (validated.evidence.map fun item => .obj (evidenceFields rt sanitizer item)),
      proposedFixStepsJson := jsonArray [], proposedFixPathsJson := jsonArray [],
      fallbackNextStepsJson := jsonArray [] }
  match validated.status, validated.rootCauseHypothesis, validated.proposedFix, validated.fallback with
  | .diagnosed, some hypothesis, some fix, _ =>
      return { projection with
        rootCauseSummary := some (sanitizeText rt sanitizer hypothesis.summary 2000)
        rootCauseReasoning := some (sanitizeText rt sanitizer hypothesis.reasoning 4000)
        proposedFixSummary := some (sanitizeText rt sanitizer fix.summary 2000)
        proposedFixStepsJson := jsonArray (fix.steps.map fun step => .str (sanitizeText rt sanitizer step 1000))
        proposedFixPathsJson := jsonArray (fix.affectedPaths.map .str) }
  | .fallback, _, _, some fallback =>
      return { projection with
        fallbackReason := some fallback.reason.text
        fallbackMessage := some (sanitizeText rt sanitizer fallback.message 2000)
        fallbackNextStepsJson :=
          jsonArray (fallback.nextSteps.map fun step => .str (sanitizeText rt sanitizer step 1000)) }
  | _, _, _, _ => throw .assertion

/-- `INSERT INTO github_incident_analyses`. -/
def insertAnalysis (table : AnalysisTable) (analysisId : String) (columns : AnalysisColumns) :
    Except AnalysisError AnalysisTable :=
  if hstatus : columns.status = "diagnosed" ∨ columns.status = "fallback" then
    if hconfidence : 0 ≤ columns.confidence ∧ columns.confidence ≤ 1 then
      if (table.find? analysisId).isSome then .error .integrity
      else .ok (table.insert analysisId ⟨columns, hstatus, hconfidence⟩)
    else .error .integrity
  else .error .integrity

/-! ## Records -/

/-- `diagnosis["root_cause_hypothesis"]` of a record. -/
structure StoredHypothesis where
  summary : Option String
  reasoning : Option String

/-- `diagnosis["proposed_fix"]`; the two flags are constants. -/
structure StoredFix where
  summary : Option String
  steps : List Json
  affectedPaths : List Json

/-- `diagnosis["fallback"]`; its flag is a constant. -/
structure StoredFallback where
  reason : Option String
  message : Option String
  nextSteps : List Json

/-- The field `diagnosis` of a record. -/
structure StoredDiagnosis where
  status : String
  provider : String
  confidence : ℚ
  rootCauseHypothesis : Option StoredHypothesis := none
  evidence : List Json
  proposedFix : Option StoredFix := none
  fallback : Option StoredFallback := none

/-- `_json_list`. -/
def jsonList (value fieldName : String) : Except AnalysisError (List Json) :=
  match Json.loads value with
  | some (.arr parsed) => .ok parsed
  | _ => .error (.store ("stored " ++ fieldName ++ " is invalid"))

/-- `_record_from_row`, its field `diagnosis`. -/
def recordFromRow (row : AnalysisColumns) : Except AnalysisError StoredDiagnosis := do
  let evidence ← jsonList row.evidenceJson "evidence"
  let proposedSteps ← jsonList row.proposedFixStepsJson "proposed fix steps"
  let proposedPaths ← jsonList row.proposedFixPathsJson "proposed fix paths"
  let fallbackSteps ← jsonList row.fallbackNextStepsJson "fallback next steps"
  let diagnosis : StoredDiagnosis :=
    { status := row.status, provider := row.provider, confidence := row.confidence, evidence := evidence }
  if row.status = "diagnosed" then
    return { diagnosis with
      rootCauseHypothesis := some ⟨row.rootCauseSummary, row.rootCauseReasoning⟩
      proposedFix := some ⟨row.proposedFixSummary, proposedSteps, proposedPaths⟩ }
  else if row.status = "fallback" then
    return { diagnosis with fallback := some ⟨row.fallbackReason, row.fallbackMessage, fallbackSteps⟩ }
  else throw (.store "stored analysis status is invalid")

/-- `get_diagnosis_result`. -/
def getDiagnosisResult (table : AnalysisTable) (analysisId : String) : Except AnalysisError StoredDiagnosis :=
  match table.find? analysisId with
  | none => .error (.store "diagnosis result was not found")
  | some row => recordFromRow row.toAnalysisColumns

/-- `persist_diagnosis_result`, from the projection on; `analysisId` is the new `uuid4`. -/
def persistDiagnosisResult (table : AnalysisTable) (analysisId : String) (result : DiagnosisResult) :
    Except AnalysisError (AnalysisTable × StoredDiagnosis) := do
  let projection ← diagnosisProjection rt sanitizer result
  let table ← insertAnalysis table analysisId projection
  let record ← getDiagnosisResult table analysisId
  return (table, record)

/-- One call after the other; one that raises leaves the table. -/
def persistAll (table : AnalysisTable) (calls : List (String × DiagnosisResult)) : AnalysisTable :=
  calls.foldl (fun table call =>
    ((persistDiagnosisResult rt sanitizer table call.1 call.2).toOption.map Prod.fst).getD table)
    table

end Storing

/-! ## Reading a record as a model -/

/-- A text. -/
def readText : Json → Option String
  | .str s => some s
  | _ => none

/-- `str | None`. -/
def readOptionalText : Json → Option (Option String)
  | .null => some none
  | .str s => some (some s)
  | _ => none

/-- `int | None`. -/
def readOptionalInt : Json → Option (Option ℤ)
  | .null => some none
  | .num number => (signed false natOf number.toList).map some
  | _ => none

/-- `Literal["incident", "source_excerpt"]`. -/
def readEvidenceKind : Json → Option EvidenceKind
  | .str "incident" => some .incident
  | .str "source_excerpt" => some .sourceExcerpt
  | _ => none

/-- `Literal["diagnosed", "fallback"]`. -/
def readStatus : String → Option DiagnosisStatus
  | "diagnosed" => some .diagnosed
  | "fallback" => some .fallback
  | _ => none

/-- `FallbackReason`. -/
def readFallbackReason : String → Option FallbackReason
  | "no_source_excerpts" => some .noSourceExcerpts
  | "provider_unavailable" => some .providerUnavailable
  | "invalid_provider_result" => some .invalidProviderResult
  | "insufficient_evidence" => some .insufficientEvidence
  | _ => none

/-- The fields of a `DiagnosisEvidence`. -/
def readEvidence : Json → Option DiagnosisEvidence
  | .obj fields => do
      onlyKeys fields ["kind", "explanation", "file_path", "blob_sha", "start_line", "end_line"]
      let kind ← readEvidenceKind (Fields.get fields "kind")
      let explanation ← readText (Fields.get fields "explanation")
      let filePath ← readOptionalText (Fields.get fields "file_path")
      let blobSha ← readOptionalText (Fields.get fields "blob_sha")
      let startLine ← readOptionalInt (Fields.get fields "start_line")
      let endLine ← readOptionalInt (Fields.get fields "end_line")
      return { kind := kind, explanation := explanation, filePath := filePath, blobSha := blobSha,
               startLine := startLine, endLine := endLine }
  | _ => none

/-- The fields of a `RootCauseHypothesis`. -/
def StoredHypothesis.read (stored : StoredHypothesis) : Option RootCauseHypothesis := do
  return ⟨← stored.summary, ← stored.reasoning⟩

/-- The fields of a `ProposedFix`. -/
def StoredFix.read (stored : StoredFix) : Option ProposedFix := do
  return { summary := ← stored.summary, steps := ← stored.steps.mapM readText,
           affectedPaths := ← stored.affectedPaths.mapM readText }

/-- The fields of a `SafeFallback`. -/
def StoredFallback.read (stored : StoredFallback) : Option SafeFallback := do
  return { reason := ← readFallbackReason (← stored.reason), message := ← stored.message,
           nextSteps := ← stored.nextSteps.mapM readText }

/-- The fields of a `DiagnosisResult`.  What the lax mode would make of other types is left out: a
column holds none. -/
def StoredDiagnosis.read (stored : StoredDiagnosis) : Option DiagnosisResult := do
  return { status := ← readStatus stored.status, provider := stored.provider,
           rootCauseHypothesis := ← stored.rootCauseHypothesis.mapM StoredHypothesis.read,
           evidence := ← stored.evidence.mapM readEvidence,
           proposedFix := ← stored.proposedFix.mapM StoredFix.read, confidence := stored.confidence,
           fallback := ← stored.fallback.mapM StoredFallback.read }

/-- `DiagnosisResult.model_validate(analysis["diagnosis"])`. -/
def StoredDiagnosis.modelValidate (rt : Runtime K) (stored : StoredDiagnosis) : Except String DiagnosisResult :=
  match stored.read with
  | none => .error "1 validation error for DiagnosisResult"
  | some result => result.validate rt

/-! ## What the sanitiser leaves -/

section Loaded

variable {rt : Runtime K} {sanitizer : Sanitizer}

/-- **What the sanitiser leaves** is within its bound and not blank. -/
theorem sanitizeText_fits (laws : TextLaws rt) (value : String) {maximum : ℕ} (hpos : 0 < maximum) :
    (sanitizeText rt sanitizer value maximum).length ≤ maximum ∧
      rt.strip (sanitizeText rt sanitizer value maximum) ≠ "" := by
  unfold sanitizeText
  dsimp only
  generalize String.ofList (collapse isWhitespace ' ' false _) = joined
  have hhead : ∀ normalized, normalized = (if rt.strip joined = "" then "[details omitted]" else rt.strip joined) →
      ∃ c cs, normalized.toList = c :: cs ∧ isWhitespace c = false := by
    rintro normalized rfl
    split_ifs with hblank
    · exact ⟨'[', _, rfl, by decide⟩
    · have hne : (rt.strip joined).toList ≠ [] := fun hnil => hblank (String.toList_eq_nil_iff.1 hnil)
      obtain ⟨c, cs, hcs⟩ := List.exists_cons_of_ne_nil hne
      refine ⟨c, cs, hcs, Library.head?_trim (p := isWhitespace) (l := joined.toList) ?_⟩
      rw [laws.strip, String.toList_ofList] at hcs
      rw [hcs]
      rfl
  obtain ⟨c, cs, hcs, hc⟩ := hhead _ rfl
  rw [hcs]
  obtain ⟨n, rfl⟩ := Nat.exists_eq_succ_of_ne_zero hpos.ne'
  refine ⟨?_, fun hstrip => ?_⟩
  · rw [String.length_ofList]
    exact List.length_take_le _ _
  · have hall := (laws.strip_eq_empty_iff _).1 hstrip c (by rw [String.toList_ofList]; exact List.mem_cons_self)
    rw [hc] at hall
    cases hall

/-- A sanitised text is accepted under every bound as large as its own. -/
theorem requiredText_sanitizeText (laws : TextLaws rt) (value fieldName : String) {maximum bound : ℕ}
    (hpos : 0 < maximum) (hle : maximum ≤ bound) :
    requiredText rt (sanitizeText rt sanitizer value maximum) fieldName bound =
      .ok (rt.strip (sanitizeText rt sanitizer value maximum)) := by
  obtain ⟨hlength, hblank⟩ := @sanitizeText_fits _ _ sanitizer laws value _ hpos
  exact requiredText_eq_ok.2 ⟨rfl, hblank, ((laws.length_strip_le _).trans hlength).trans hle⟩

/-! ## Other texts -/

/-- The evidence with its explanation rewritten. -/
def DiagnosisEvidence.withTexts (text : String → ℕ → String) (item : DiagnosisEvidence) : DiagnosisEvidence :=
  { item with explanation := text item.explanation 1000 }

/-- The hypothesis with its texts rewritten. -/
def RootCauseHypothesis.withTexts (text : String → ℕ →
    String) (hypothesis : RootCauseHypothesis) : RootCauseHypothesis :=
  ⟨text hypothesis.summary 2000, text hypothesis.reasoning 4000⟩

/-- The fix with its texts rewritten; paths are none of them. -/
def ProposedFix.withTexts (text : String → ℕ → String) (fix : ProposedFix) : ProposedFix :=
  { fix with summary := text fix.summary 2000, steps := fix.steps.map fun step => text step 1000 }

/-- The fallback with its texts rewritten. -/
def SafeFallback.withTexts (text : String → ℕ → String) (fallback : SafeFallback) : SafeFallback :=
  { fallback with message := text fallback.message 2000, nextSteps :=
    fallback.nextSteps.map fun step => text step 1000 }

/-- The result with every explanatory text rewritten. -/
def DiagnosisResult.withTexts (text : String → ℕ → String) (result : DiagnosisResult) : DiagnosisResult :=
  { result with
    rootCauseHypothesis := result.rootCauseHypothesis.map (RootCauseHypothesis.withTexts text)
    evidence := result.evidence.map (DiagnosisEvidence.withTexts text)
    proposedFix := result.proposedFix.map (ProposedFix.withTexts text)
    fallback := result.fallback.map (SafeFallback.withTexts text) }

/-- What the validators make of the sanitised texts. -/
def reloadedText (rt : Runtime K) (sanitizer : Sanitizer) (value : String) (maximum : ℕ) : String :=
  rt.strip (sanitizeText rt sanitizer value maximum)

section Validated

variable (laws : TextLaws rt)
include laws

theorem length_sanitizeText_le (value : String) {maximum : ℕ} (hpos : 0 < maximum) :
    (sanitizeText rt sanitizer value maximum).length ≤ maximum :=
  (sanitizeText_fits laws value hpos).1

/-- The steps are accepted one by one. -/
theorem mapM_requiredText_sanitizeText (steps : List String) (fieldName : String) :
    ((steps.map fun step => sanitizeText rt sanitizer step 1000).mapM
        fun value => requiredText rt value fieldName 1000) =
      .ok (steps.map fun step => reloadedText rt sanitizer step 1000) := by
  rw [List.mapM_map]
  exact Library.mapM_eq_pure fun step _ => requiredText_sanitizeText laws step fieldName (by decide) le_rfl

theorem DiagnosisEvidence.validate_withTexts {item : DiagnosisEvidence} (h : item.validate rt = .ok item) :
    (item.withTexts (sanitizeText rt sanitizer)).validate rt = .ok (item.withTexts (reloadedText rt sanitizer)) := by
  have accepts := DiagnosisEvidence.validate_eq_ok_iff.1 h
  have hlength : (sanitizeText rt sanitizer item.explanation 1000).length ≤ 1000 :=
    length_sanitizeText_le laws _ (by decide)
  exact DiagnosisEvidence.validate_eq_ok_iff.2 ⟨maxLength_eq_ok.2 (hlength.trans (by decide)),
    requiredText_sanitizeText laws item.explanation "explanation" (by decide) (by decide), accepts.filePath,
      accepts.blobSha,
    ⟨rfl, rfl, rfl⟩, accepts.located⟩

theorem RootCauseHypothesis.validate_withTexts (hypothesis : RootCauseHypothesis) :
    (hypothesis.withTexts (sanitizeText rt sanitizer)).validate rt =
      .ok (hypothesis.withTexts (reloadedText rt sanitizer)) :=
  RootCauseHypothesis.validate_eq_ok_iff.2
    ⟨⟨length_sanitizeText_le laws _ (by decide), length_sanitizeText_le laws _ (by decide)⟩,
      requiredText_sanitizeText laws _ "summary" (by decide) (by decide),
      requiredText_sanitizeText laws _ "reasoning" (by decide) le_rfl⟩

theorem ProposedFix.validate_withTexts {fix : ProposedFix} (h : fix.validate rt = .ok fix) :
    (fix.withTexts (sanitizeText rt sanitizer)).validate rt = .ok (fix.withTexts (reloadedText rt sanitizer)) := by
  have accepts := ProposedFix.validate_eq_ok_iff.1 h
  have hcount : (fix.withTexts (sanitizeText rt sanitizer)).steps.length = fix.steps.length := List.length_map _
  exact ProposedFix.validate_eq_ok_iff.2 ⟨length_sanitizeText_le laws _ (by decide),
    requiredText_sanitizeText laws _ "summary" (by decide) le_rfl, hcount ▸ accepts.count,
    mapM_requiredText_sanitizeText laws fix.steps "fix step", accepts.pathCount, accepts.affectedPaths, accepts.human,
    accepts.manual⟩

theorem SafeFallback.validate_withTexts {fallback : SafeFallback} (h : fallback.validate rt = .ok fallback) :
    (fallback.withTexts (sanitizeText rt sanitizer)).validate rt =
      .ok (fallback.withTexts (reloadedText rt sanitizer)) := by
  have accepts := SafeFallback.validate_eq_ok_iff.1 h
  have hcount : (fallback.withTexts (sanitizeText rt sanitizer)).nextSteps.length = fallback.nextSteps.length :=
    List.length_map _
  exact SafeFallback.validate_eq_ok_iff.2 ⟨rfl, length_sanitizeText_le laws _ (by decide),
    requiredText_sanitizeText laws _ "message" (by decide) le_rfl, hcount ▸ accepts.count,
    mapM_requiredText_sanitizeText laws fallback.nextSteps "fallback next step", accepts.human⟩

/-- **A valid result with sanitised texts is valid**, and keeps everything else. -/
theorem DiagnosisResult.validate_withTexts {result : DiagnosisResult} (h : result.validate rt = .ok result) :
    (result.withTexts (sanitizeText rt sanitizer)).validate rt = .ok (result.withTexts (reloadedText rt sanitizer)) :=
      by
  have accepts := DiagnosisResult.validate_eq_ok_iff.1 h
  have hcount : (result.withTexts (sanitizeText rt sanitizer)).evidence.length = result.evidence.length :=
    List.length_map _
  refine DiagnosisResult.validate_eq_ok_iff.2 ⟨accepts.length, accepts.provider, ?_, hcount ▸ accepts.count, ?_, ?_,
    accepts.bounds, ?_, ⟨rfl, rfl⟩, ?_⟩
  · exact optionMapM_map fun hypothesis _ => hypothesis.validate_withTexts laws
  · exact (List.mapM_map ..).trans (Library.mapM_eq_pure fun item hmem =>
      DiagnosisEvidence.validate_withTexts laws (mapM_self_of_mem accepts.evidence hmem))
  · exact optionMapM_map fun fix hfix => ProposedFix.validate_withTexts laws (optionMapM_self accepts.proposedFix hfix)
  · exact optionMapM_map fun fallback hfallback =>
      SafeFallback.validate_withTexts laws (optionMapM_self accepts.fallback hfallback)
  · have hshape := DiagnosisResult.validateShape_eq_ok_iff.1 accepts.shape
    rw [DiagnosisResult.validateShape_eq_ok_iff]
    simpa [DiagnosisResult.withTexts] using hshape

end Validated

/-! ## Reading back -/

/-- **A column reads back** as the values that were written, with their keys in order. -/
theorem jsonList_jsonArray {values : List Json} (h : ∀ v ∈ values, WellFormed v) (fieldName : String) :
    jsonList (jsonArray values) fieldName = .ok (values.map Json.sorted) := by
  unfold jsonList jsonArray
  rw [Json.loads_dumps false (.arr h), Json.sorted, Json.sortedList_eq_map]

/-- A column of texts reads back as they are. -/
theorem jsonList_texts (texts : List String) (fieldName : String) :
    jsonList (jsonArray (texts.map .str)) fieldName = .ok (texts.map .str) := by
  rw [jsonList_jsonArray, List.map_map]
  · rfl
  · intro v hv
    obtain ⟨s, -, rfl⟩ := List.mem_map.1 hv
    exact .str s

theorem mapM_readText (texts : List String) : (texts.map Json.str).mapM readText = some texts := by
  rw [List.mapM_map]
  exact (Library.mapM_eq_pure (g := id) fun _ _ => rfl).trans (congrArg some (List.map_id _))

theorem readOptionalInt_int (n : ℤ) : readOptionalInt (Json.int n) = some (some n) := by
  show (signed false natOf (toString n).toList).map some = some (some n)
  rw [signed_int, Option.map_some]

/-- The order of the keys does not matter to the reader. -/
theorem readEvidence_sortFields {fields : Fields} (h : (fields.map Prod.fst).Nodup) :
    readEvidence (.obj (Json.sortFields fields)) = readEvidence (.obj fields) := by
  have hget : ∀ key, Fields.get (Json.sortFields fields) key = Fields.get fields key := by
    intro key
    unfold Fields.get
    rw [Json.lookup_sortFields h]
  have hkeys : ∀ keys, onlyKeys (Json.sortFields fields) keys = onlyKeys fields keys := by
    intro keys
    unfold onlyKeys
    simp only [List.all_eq_true, Json.mem_sortFields]
  simp only [readEvidence, hget, hkeys]

/-- A value without fields: sorting leaves it. -/
structure Leaf (v : Json) : Prop where
  wellFormed : WellFormed v
  sorted : v.sorted = v

theorem Leaf.str (s : String) : Leaf (.str s) := ⟨.str s, rfl⟩

theorem Leaf.int (n : ℤ) : Leaf (Json.int n) := ⟨.int n, rfl⟩

/-- An object of leaves is read as it is written. -/
theorem readEvidence_sorted {fields : Fields} (hnodup : (fields.map Prod.fst).Nodup) (hleaf : ∀ f ∈ fields, Leaf f.2) :
    readEvidence (Json.obj fields).sorted = readEvidence (.obj fields) := by
  have hsorted : Json.sortedFields fields = fields := by
    rw [Json.sortedFields_eq_map]
    conv_rhs => rw [← List.map_id fields]
    exact List.map_congr_left fun f hf => Prod.ext rfl (hleaf f hf).sorted
  rw [Json.sorted, hsorted, readEvidence_sortFields hnodup]

/-- The keys of an entry, each of them once. -/
theorem nodup_evidenceFields (item : DiagnosisEvidence) : ((evidenceFields rt sanitizer item).map Prod.fst).Nodup := by
  unfold evidenceFields
  cases item.kind with
  | incident =>
      show ["kind", "explanation"].Nodup
      decide
  | sourceExcerpt =>
      show ["kind", "explanation", "file_path", "blob_sha", "start_line", "end_line"].Nodup
      decide

/-- An entry for evidence that is at a place, or at none, holds leaves. -/
theorem leaf_evidenceFields {item : DiagnosisEvidence} (h : item.Located) :
    ∀ f ∈ evidenceFields rt sanitizer item, Leaf f.2 := by
  unfold evidenceFields
  rcases h with ⟨hkind, -⟩ | ⟨hkind, p, sha, first, last, hpath, hsha, hstart, hend, -⟩
  · rw [hkind]
    simp only [List.forall_mem_cons, List.not_mem_nil, false_imp_iff, implies_true, and_true]
    exact ⟨.str _, .str _⟩
  · rw [hkind, hpath, hsha, hstart, hend]
    simp only [List.forall_mem_cons, List.not_mem_nil, false_imp_iff, implies_true, and_true]
    exact ⟨.str _, .str _, .str _, .str _, .int _, .int _⟩

/-- **An entry of the evidence reads back**, with its explanation sanitised. -/
theorem readEvidence_evidenceFields {item : DiagnosisEvidence} (h : item.Located) :
    readEvidence (Json.obj (evidenceFields rt sanitizer item)).sorted =
      some (item.withTexts (sanitizeText rt sanitizer)) := by
  rw [readEvidence_sorted (nodup_evidenceFields item) (leaf_evidenceFields h)]
  obtain ⟨kind, explanation, filePath, blobSha, startLine, endLine⟩ := item
  rcases h with ⟨hkind, hpath, hsha, hstart, hend⟩ | ⟨hkind, p, sha, first, last, hpath, hsha, hstart, hend, -⟩
  · simp only at hkind hpath hsha hstart hend
    subst hkind hpath hsha hstart hend
    rfl
  · simp only at hkind hpath hsha hstart hend
    subst hkind hpath hsha hstart hend
    have hread : readEvidence (.obj (evidenceFields rt sanitizer ⟨.sourceExcerpt, explanation, some p, some sha,
        some first, some last⟩)) = (readOptionalInt (Json.int first)).bind fun startLine =>
          (readOptionalInt (Json.int last)).bind fun endLine =>
            some ⟨.sourceExcerpt, sanitizeText rt sanitizer explanation 1000, some p, some sha, startLine, endLine⟩ :=
              rfl
    rw [hread, readOptionalInt_int, readOptionalInt_int]
    rfl

/-- The evidence of a valid result reads back from its column. -/
theorem jsonList_evidence {evidence : List DiagnosisEvidence} (h : ∀ item ∈ evidence, item.Located) :
    ∃ values, jsonList (jsonArray (evidence.map fun item => .obj (evidenceFields rt sanitizer item))) "evidence" =
      .ok values ∧
      values.mapM readEvidence = some (evidence.map (DiagnosisEvidence.withTexts (sanitizeText rt sanitizer))) := by
  refine ⟨_, jsonList_jsonArray ?_ "evidence", ?_⟩
  · intro v hv
    obtain ⟨item, hitem, rfl⟩ := List.mem_map.1 hv
    exact .obj (nodup_evidenceFields item) fun f hf => (leaf_evidenceFields (h item hitem) f hf).wellFormed
  · rw [List.map_map, List.mapM_map]
    exact Library.mapM_eq_pure fun item hitem => readEvidence_evidenceFields (h item hitem)

/-- Steps that were sanitised read back. -/
theorem jsonList_steps (steps : List String) (fieldName : String) :
    jsonList (jsonArray (steps.map fun step => .str (sanitizeText rt sanitizer step 1000))) fieldName =
      .ok ((steps.map fun step => sanitizeText rt sanitizer step 1000).map .str) := by
  rw [← jsonList_texts, List.map_map]
  rfl

theorem StoredFix.read_texts (summary : String) (steps affectedPaths : List String) :
    StoredFix.read ⟨some summary, steps.map .str, affectedPaths.map .str⟩ =
      some { summary := summary, steps := steps, affectedPaths := affectedPaths } := by
  unfold StoredFix.read
  rw [mapM_readText, mapM_readText]
  rfl

theorem StoredFallback.read_texts (reason : FallbackReason) (message : String) (nextSteps : List String) :
    StoredFallback.read ⟨some reason.text, some message, nextSteps.map .str⟩ =
      some { reason := reason, message := message, nextSteps := nextSteps } := by
  unfold StoredFallback.read
  rw [mapM_readText]
  cases reason <;> rfl

/-- What the projection of a result is, once it is a row. -/
structure Projects (rt : Runtime K) (sanitizer : Sanitizer) (result : DiagnosisResult)
    (columns : AnalysisColumns) : Prop where
  projection : diagnosisProjection rt sanitizer result = .ok columns
  statusKnown : columns.status = "diagnosed" ∨ columns.status = "fallback"
  confidenceBounded : 0 ≤ columns.confidence ∧ columns.confidence ≤ 1
  record : ∃ stored, recordFromRow columns = .ok stored ∧
    stored.read = some (result.withTexts (sanitizeText rt sanitizer))

/-- **A valid result is projected** to columns from which it is read back, its texts sanitised. -/
theorem projects_of_valid {result : DiagnosisResult} (h : result.validate rt = .ok result) :
    ∃ columns, Projects rt sanitizer result columns := by
  have accepts := DiagnosisResult.validate_eq_ok_iff.1 h
  obtain ⟨values, hvalues, hread⟩ := @jsonList_evidence _ rt sanitizer _ accepts.located
  have hnone : ∀ fieldName, jsonList (jsonArray []) fieldName = .ok [] := jsonList_texts []
  obtain ⟨status, provider, root, evidence, fix, confidence, fallback⟩ := result
  rcases DiagnosisResult.validateShape_eq_ok_iff.1 accepts.shape with ⟨hstatus, hroot, -, hfix, hfallback⟩ |
    ⟨hstatus, hroot, hfix, hevidence, hfallback, -⟩
  · obtain ⟨hypothesis, rfl⟩ := Option.isSome_iff_exists.1 hroot
    obtain ⟨fix, rfl⟩ := Option.isSome_iff_exists.1 hfix
    obtain rfl : status = .diagnosed := hstatus
    obtain rfl : fallback = none := hfallback
    refine ⟨_, bind_eq_ok.2 ⟨_, mapError_eq_ok.2 h, rfl⟩, .inl rfl, accepts.bounds, _, bind_eq_ok.2 ⟨_, hvalues,
      bind_eq_ok.2 ⟨_, jsonList_steps fix.steps _, bind_eq_ok.2 ⟨_, jsonList_texts fix.affectedPaths _,
      bind_eq_ok.2 ⟨_, hnone _, rfl⟩⟩⟩⟩, ?_⟩
    unfold StoredDiagnosis.read
    simp only [hread, Option.mapM_some, StoredFix.read_texts]
    -- the flags of the fix, which are no columns, are the ones a record states
    have kept := ProposedFix.validate_eq_ok_iff.1 (optionMapM_self accepts.proposedFix rfl)
    obtain ⟨summary, steps, affectedPaths, requiresHumanReview, automaticallyApplied⟩ := fix
    obtain rfl : requiresHumanReview = true := kept.human.1
    obtain rfl : automaticallyApplied = false := kept.manual.1
    rfl
  · obtain ⟨fallback, rfl⟩ := Option.isSome_iff_exists.1 hfallback
    obtain rfl : status = .fallback := hstatus
    obtain rfl : root = none := hroot
    obtain rfl : fix = none := hfix
    refine ⟨_, bind_eq_ok.2 ⟨_, mapError_eq_ok.2 h, rfl⟩, .inr rfl, accepts.bounds, _, bind_eq_ok.2 ⟨_, hvalues,
      bind_eq_ok.2 ⟨_, hnone _, bind_eq_ok.2 ⟨_, hnone _, bind_eq_ok.2 ⟨_, jsonList_steps fallback.nextSteps _,
        rfl⟩⟩⟩⟩, ?_⟩
    unfold StoredDiagnosis.read
    simp only [hread, Option.mapM_some, StoredFallback.read_texts]
    have kept := SafeFallback.validate_eq_ok_iff.1 (optionMapM_self accepts.fallback rfl)
    obtain ⟨reason, message, nextSteps, requiresHumanReview⟩ := fallback
    obtain rfl : requiresHumanReview = true := kept.human.1
    rfl

/-! ## The table -/

/-- A row that is there stays, whatever is appended. -/
theorem find?_persistDiagnosisResult {table table' : AnalysisTable} {analysisId : String} {result : DiagnosisResult}
    {stored : StoredDiagnosis} (h : persistDiagnosisResult rt sanitizer table analysisId result = .ok (table', stored))
    {other : String} {row : AnalysisRow} (hrow : table.find? other = some row) : table'.find? other = some row := by
  obtain ⟨columns, -, h⟩ := bind_eq_ok.1 h
  obtain ⟨inserted, hinsert, h⟩ := bind_eq_ok.1 h
  obtain ⟨_, -, h⟩ := bind_eq_ok.1 h
  obtain ⟨rfl, -⟩ := Prod.mk.inj (Except.ok.inj h)
  unfold insertAnalysis at hinsert
  split_ifs at hinsert with hstatus hconfidence hfresh
  obtain rfl := Except.ok.inj hinsert
  rw [Table.find?_insert]
  split_ifs with hsame
  · -- the key of a new row is free
    rw [← hsame, hrow] at hfresh
    exact absurd rfl hfresh
  · exact hrow

/-- So it is after any number of calls. -/
theorem find?_persistAll {analysisId : String} {row : AnalysisRow} (calls : List (String × DiagnosisResult)) :
    ∀ {table : AnalysisTable}, table.find? analysisId = some row →
      (persistAll rt sanitizer table calls).find? analysisId = some row := by
  unfold persistAll
  induction calls with
  | nil => exact id
  | cons call calls ih =>
      intro table hrow
      rw [List.foldl_cons]
      refine ih ?_
      cases hcall : persistDiagnosisResult rt sanitizer table call.1 call.2 with
      | error e => exact hrow
      | ok outcome =>
          obtain ⟨next, stored⟩ := outcome
          exact find?_persistDiagnosisResult hcall hrow

/-- What a loaded diagnosis has kept of the one that was stored. -/
structure KeptBy (loaded result : DiagnosisResult) : Prop where
  status : loaded.status = result.status
  provider : loaded.provider = result.provider
  confidence : loaded.confidence = result.confidence
  places : loaded.evidence.map (fun item => (item.kind, item.filePath, item.blobSha, item.startLine, item.endLine)) =
    result.evidence.map fun item => (item.kind, item.filePath, item.blobSha, item.startLine, item.endLine)
  steps : loaded.proposedFix.map (·.steps.length) = result.proposedFix.map (·.steps.length)
  affectedPaths : loaded.proposedFix.map (·.affectedPaths) = result.proposedFix.map (·.affectedPaths)
  reason : loaded.fallback.map (·.reason) = result.fallback.map (·.reason)

/-- Rewriting texts keeps the rest. -/
theorem keptBy_withTexts (text : String → ℕ →
    String) (result : DiagnosisResult) : KeptBy (result.withTexts text) result where
  status := rfl
  provider := rfl
  confidence := rfl
  places := List.map_map
  steps := by
    simp only [DiagnosisResult.withTexts, Option.map_map]
    congr 1
    funext fix
    exact List.length_map _
  affectedPaths := Option.map_map ..
  reason := Option.map_map ..

/-- Whether a diagnosis is grounded depends on what is kept. -/
theorem grounded_withTexts (text : String → ℕ → String) (request : DiagnosisRequest) (result : DiagnosisResult) :
    Grounded request (result.withTexts text) ↔ Grounded request result := by
  have hpaths : (result.withTexts text).affectedPaths = result.affectedPaths := by
    unfold DiagnosisResult.affectedPaths DiagnosisResult.withTexts
    rw [Option.map_map]
    rfl
  have hwithin : ∀ (item : DiagnosisEvidence) excerpt, (item.withTexts text).Within excerpt ↔ item.Within excerpt :=
    fun item excerpt => ⟨fun h => ⟨h.filePath, h.blobSha, h.lines⟩, fun h => ⟨h.filePath, h.blobSha, h.lines⟩⟩
  have hevidence : (result.withTexts text).evidence = result.evidence.map (DiagnosisEvidence.withTexts text) := rfl
  have hfix : (result.withTexts text).proposedFix.isSome = result.proposedFix.isSome := Option.isSome_map ..
  constructor
  · intro h
    obtain ⟨rewritten, hmem, hkind⟩ := h.cites
    obtain ⟨cited, hcited, rfl⟩ := List.mem_map.1 hmem
    refine ⟨h.status, ⟨cited, hcited, hkind⟩, fun item hmem hkind => ?_, hfix ▸ h.proposes, hpaths ▸ h.paths⟩
    have hwithin' := h.within (item.withTexts text) (List.mem_map_of_mem hmem) hkind
    simpa only [hwithin] using hwithin'
  · intro h
    refine ⟨h.status, ?_, ?_, hfix ▸ h.proposes, hpaths ▸ h.paths⟩
    · obtain ⟨cited, hcited, hkind⟩ := h.cites
      exact ⟨cited.withTexts text, List.mem_map_of_mem hcited, hkind⟩
    · rw [hevidence, List.forall_mem_map]
      intro item hmem hkind
      simpa only [hwithin] using h.within item hmem hkind

/-- **A diagnosis that is stored comes back.**  Whatever the sanitiser's expressions do, a valid result
is stored under a fresh id; its record, then and after any later calls, validates as a result with the
same status, provider, confidence, places of evidence, number of steps and affected paths; and that is
grounded in a request exactly when the stored one was. -/
theorem persistDiagnosisResult_laws (laws : TextLaws rt) (sanitizer : Sanitizer) {built result : DiagnosisResult}
    (hvalid : built.validate rt = .ok result) {table : AnalysisTable} {analysisId : String}
    (hfresh : table.find? analysisId = none) :
    ∃ table' stored loaded, persistDiagnosisResult rt sanitizer table analysisId result = .ok (table', stored) ∧
      (∀ calls, getDiagnosisResult (persistAll rt sanitizer table' calls) analysisId = .ok stored) ∧
      stored.modelValidate rt = .ok loaded ∧ KeptBy loaded result ∧
      ∀ request, (validateGrounding request loaded = .ok () ↔ validateGrounding request result = .ok ()) := by
  have hkept := DiagnosisResult.validate_kept laws hvalid
  obtain ⟨columns, hcolumns⟩ := @projects_of_valid _ _ sanitizer _ hkept
  obtain ⟨stored, hrecord, hread⟩ := hcolumns.record
  let row : AnalysisRow := ⟨columns, hcolumns.statusKnown, hcolumns.confidenceBounded⟩
  have hinsert : insertAnalysis table analysisId columns = .ok (table.insert analysisId row) := by
    unfold insertAnalysis
    rw [dif_pos hcolumns.statusKnown, dif_pos hcolumns.confidenceBounded, hfresh]
    rfl
  have hrow : (table.insert analysisId row).find? analysisId = some row := by
    rw [Table.find?_insert, if_pos rfl, hfresh]
    rfl
  have hget : ∀ table' : AnalysisTable, table'.find? analysisId = some row →
      getDiagnosisResult table' analysisId = .ok stored := by
    intro table' hfind
    unfold getDiagnosisResult
    rw [hfind]
    exact hrecord
  refine ⟨table.insert analysisId row, stored, result.withTexts (reloadedText rt sanitizer), ?_, ?_, ?_, ?_, ?_⟩
  · exact bind_eq_ok.2 ⟨columns, hcolumns.projection, bind_eq_ok.2 ⟨_, hinsert, bind_eq_ok.2 ⟨stored, hget _ hrow,
      rfl⟩⟩⟩
  · exact fun calls => hget _ (find?_persistAll calls hrow)
  · unfold StoredDiagnosis.modelValidate
    rw [hread]
    exact DiagnosisResult.validate_withTexts laws hkept
  · exact keptBy_withTexts _ result
  · intro request
    rw [validateGrounding_eq_ok_iff, validateGrounding_eq_ok_iff, grounded_withTexts]

/-- A sanitiser that leaves nothing of a text. -/
def silencing : Sanitizer := ⟨fun _ => "", fun _ => false⟩

example : sanitizeText strippingRuntime ⟨id, fun line => line = "x = 1"⟩ "one\r\n\tx = 1\nx = 1\n  two  words" 30 =
    "one x = 1 [source code omitted" := by decide +kernel

/-- A diagnosis that is stored and loaded. -/
theorem persistDiagnosisResult_laws_citing : ∃ result table stored loaded,
    persistDiagnosisResult strippingRuntime silencing Table.empty "analysis" result = .ok (table, stored) ∧
      stored.modelValidate strippingRuntime = .ok loaded ∧ KeptBy loaded result := by
  have hbuilt : (DiagnosisService.citingResult.validate strippingRuntime).toOption.isSome = true := by decide +kernel
  obtain ⟨result, hresult⟩ := Option.isSome_iff_exists.1 hbuilt
  obtain ⟨table, stored, loaded, hpersist, -, hloaded, hkept, -⟩ :=
    persistDiagnosisResult_laws textLaws_strippingRuntime silencing (Library.toOption_eq_some.1 hresult)
      (Table.find?_empty "analysis")
  exact ⟨result, table, stored, loaded, hpersist, hloaded, hkept⟩

end Loaded

end GitHub
end PulseGraph
