/-
# The diagnosis contract

The models of `src/github_integration/diagnosis.py` with the validators that run when one is built
or re-validated, and `build_diagnosis_request` of `src/github_integration/workflow.py`.  A validator
returns the value as it is kept (texts stripped, object ids in lower case) or the first error.

**Proved here.**  What each validator accepts, and what it keeps (`DiagnosisResult.validate_eq_ok_iff`
and one lemma for each model below it).  Re-validating a result changes neither its status nor the
paths its fix names (`DiagnosisResult.validate_eq_ok`).
-/

import PulseGraph.GitHub.Payload
import PulseGraph.Library.PathText

namespace PulseGraph
namespace GitHub

open Library (raiseIf raiseIf_eq_ok bind_eq_ok eq_of_mapM_ok mem_mapM_ok segments)

/-- `MAX_SOURCE_EXCERPTS`. -/
def maxSourceExcerpts : ℕ := 20

/-- `MAX_EXCERPT_BYTES`. -/
def maxExcerptBytes : ℕ := 8 * 1024

/-- `MAX_TOTAL_EXCERPT_BYTES`. -/
def maxTotalExcerptBytes : ℕ := 48 * 1024

/-! ## Texts -/

variable {K : Type} (rt : Runtime K)

/-- `Field(max_length=maximum)`. -/
def maxLength (value : String) (maximum : ℕ) : Except String Unit :=
  raiseIf (maximum < value.length) ("String should have at most " ++ toString maximum ++ " characters")

/-- `Field(min_length=minimum)` of a list. -/
def minItems {α : Type} (values : List α) (minimum : ℕ) : Except String Unit :=
  raiseIf (values.length < minimum)
    ("List should have at least " ++ toString minimum ++ " item after validation, not " ++ toString values.length)

/-- `Field(max_length=maximum)` of a list. -/
def maxItems {α : Type} (values : List α) (maximum : ℕ) : Except String Unit :=
  raiseIf (maximum < values.length)
    ("List should have at most " ++ toString maximum ++ " items after validation, not " ++ toString values.length)

/-- `_required_text`. -/
def requiredText (value fieldName : String) (maximum : ℕ) : Except String String := do
  let normalized := rt.strip value
  raiseIf (normalized = "") (fieldName ++ " must not be blank")
  raiseIf (maximum < normalized.length)
    (fieldName ++ " must be at most " ++ toString maximum ++ " characters")
  return normalized

/-- The digits of a Git object id. -/
def isHexDigit (c : Char) : Bool := c.isDigit || ('a' ≤ c && c ≤ 'f') || ('A' ≤ c && c ≤ 'F')

/-- `_git_object_id`. -/
def gitObjectId (value fieldName : String) : Except String String := do
  let normalized ← requiredText rt value fieldName 64
  raiseIf (¬ ((normalized.length = 40 ∨ normalized.length = 64) ∧ normalized.toList.all isHexDigit = true))
    (fieldName ++ " must be a 40- or 64-character Git object ID")
  return rt.lower normalized

/-- `_repository_path`. -/
def repositoryPath (value : String) (fieldName : String := "file_path") : Except String String := do
  raiseIf (value = "" ∨ 1024 < value.length) (fieldName ++ " must be between 1 and 1024 characters")
  raiseIf (Char.ofNat 0 ∈ value.toList ∨ '\\' ∈ value.toList ∨ value.toList.head? = some '/')
    (fieldName ++ " must be a relative POSIX repository path")
  raiseIf (∃ part ∈ segments value, part = "" ∨ part = "." ∨ part = "..")
    (fieldName ++ " must not contain empty, '.' or '..' path segments")
  return value

/-- The characters of a provider's name. -/
def isProviderChar (c : Char) : Bool := ('a' ≤ c && c ≤ 'z') || c.isDigit

/-- `_provider_label`. -/
def providerLabel (value : String) : Except String String := do
  let normalized := rt.lower (← requiredText rt value "provider" 64)
  raiseIf (¬ (normalized.length ≤ 64 ∧ normalized.toList.head?.any isProviderChar = true ∧
      (normalized.toList.all fun c => isProviderChar c || c = '.' || c = '_' || c = '-') = true))
    "provider must contain only lowercase letters, digits, '.', '_' or '-'"
  return normalized

/-- A path of the repository is kept as it is. -/
theorem eq_of_repositoryPath {value fieldName path : String} (h : repositoryPath value fieldName = .ok path) :
    path = value := by
  obtain ⟨_, -, h⟩ := bind_eq_ok.1 h
  obtain ⟨_, -, h⟩ := bind_eq_ok.1 h
  obtain ⟨_, -, h⟩ := bind_eq_ok.1 h
  exact (Except.ok.inj h).symm

/-! ## Requests -/

/-- `SourceExcerpt` of the diagnosis: a fragment of an immutable blob. -/
structure DiagnosisSourceExcerpt where
  filePath : String
  blobSha : String
  startLine : ℤ
  endLine : ℤ
  content : String

/-- The validators of `SourceExcerpt`. -/
def DiagnosisSourceExcerpt.validate (excerpt : DiagnosisSourceExcerpt) :
    Except String DiagnosisSourceExcerpt := do
  let filePath ← repositoryPath excerpt.filePath
  let blobSha ← gitObjectId rt excerpt.blobSha "blob_sha"
  raiseIf (excerpt.startLine < 1 ∨ excerpt.endLine < 1) "Input should be greater than or equal to 1"
  raiseIf (excerpt.content = "") "String should have at least 1 character"
  raiseIf (Char.ofNat 0 ∈ excerpt.content.toList) "content must not contain NUL bytes"
  raiseIf (rt.strip excerpt.content = "") "content must not be blank"
  raiseIf (maxExcerptBytes < excerpt.content.utf8ByteSize)
    ("content must be at most " ++ toString maxExcerptBytes ++ " UTF-8 bytes")
  raiseIf (excerpt.endLine < excerpt.startLine) "end_line must be greater than or equal to start_line"
  return { excerpt with filePath := filePath, blobSha := blobSha }

/-- `DiagnosisRequest`, its excerpts. -/
structure DiagnosisRequest where
  excerpts : List DiagnosisSourceExcerpt

/-- `source_bytes`. -/
def DiagnosisRequest.sourceBytes (request : DiagnosisRequest) : ℕ :=
  (request.excerpts.map fun excerpt => excerpt.content.utf8ByteSize).sum

/-- The validators of `DiagnosisRequest`. -/
def DiagnosisRequest.validate (request : DiagnosisRequest) : Except String DiagnosisRequest := do
  maxItems request.excerpts maxSourceExcerpts
  let excerpts ← request.excerpts.mapM (DiagnosisSourceExcerpt.validate rt)
  let validated : DiagnosisRequest := ⟨excerpts⟩
  raiseIf (maxTotalExcerptBytes < validated.sourceBytes)
    ("source excerpts must total at most " ++ toString maxTotalExcerptBytes ++ " UTF-8 bytes")
  return validated

/-- `SourceExcerpt` of `source_context.py`: the text of a pinned blob. -/
structure SourceExcerpt where
  path : String
  blobSha : String
  text : String

/-- `build_diagnosis_request`: whole files, blank ones left out. -/
def buildDiagnosisRequest (excerpts : List SourceExcerpt) : Except String DiagnosisRequest := do
  let excerpts ← (excerpts.filter fun excerpt => rt.strip excerpt.text != "").mapM fun excerpt =>
    DiagnosisSourceExcerpt.validate rt
      { filePath := excerpt.path, blobSha := excerpt.blobSha, startLine := 1,
        endLine := excerpt.text.toList.count '\n' + 1, content := excerpt.text }
  DiagnosisRequest.validate rt ⟨excerpts⟩

/-! ## Results -/

/-- `DiagnosisEvidence.kind`. -/
inductive EvidenceKind where
  | incident
  | sourceExcerpt
  deriving DecidableEq, Repr

/-- `DiagnosisEvidence`. -/
structure DiagnosisEvidence where
  kind : EvidenceKind
  explanation : String
  filePath : Option String := none
  blobSha : Option String := none
  startLine : Option ℤ := none
  endLine : Option ℤ := none

/-- The validators of `DiagnosisEvidence`. -/
def DiagnosisEvidence.validate (evidence : DiagnosisEvidence) : Except String DiagnosisEvidence := do
  maxLength evidence.explanation 2000
  let explanation ← requiredText rt evidence.explanation "explanation" 2000
  let filePath ← evidence.filePath.mapM fun value => repositoryPath value
  let blobSha ← evidence.blobSha.mapM fun value => gitObjectId rt value "blob_sha"
  raiseIf (evidence.startLine.any (· < 1) = true ∨ evidence.endLine.any (· < 1) = true)
    "Input should be greater than or equal to 1"
  let validated := { evidence with explanation := explanation, filePath := filePath, blobSha := blobSha }
  match evidence.kind with
  | .incident =>
      raiseIf (filePath.isSome ∨ blobSha.isSome ∨ evidence.startLine.isSome ∨ evidence.endLine.isSome)
        "incident evidence must not include source coordinates"
      return validated
  | .sourceExcerpt =>
      match filePath, blobSha, evidence.startLine, evidence.endLine with
      | some _, some _, some startLine, some endLine =>
          raiseIf (endLine < startLine) "evidence end_line must be greater than or equal to start_line"
          return validated
      | _, _, _, _ => throw "source_excerpt evidence requires a complete source location"

/-- `RootCauseHypothesis`. -/
structure RootCauseHypothesis where
  summary : String
  reasoning : String

/-- The validators of `RootCauseHypothesis`. -/
def RootCauseHypothesis.validate (hypothesis : RootCauseHypothesis) : Except String RootCauseHypothesis := do
  maxLength hypothesis.summary 2000
  let summary ← requiredText rt hypothesis.summary "summary" 4000
  maxLength hypothesis.reasoning 4000
  let reasoning ← requiredText rt hypothesis.reasoning "reasoning" 4000
  return ⟨summary, reasoning⟩

/-- `ProposedFix`. -/
structure ProposedFix where
  summary : String
  steps : List String
  affectedPaths : List String := []
  requiresHumanReview : Bool := true
  automaticallyApplied : Bool := false

/-- The validators of `ProposedFix`. -/
def ProposedFix.validate (fix : ProposedFix) : Except String ProposedFix := do
  maxLength fix.summary 2000
  let summary ← requiredText rt fix.summary "summary" 2000
  minItems fix.steps 1
  maxItems fix.steps 10
  let steps ← fix.steps.mapM fun value => requiredText rt value "fix step" 1000
  maxItems fix.affectedPaths 20
  let affectedPaths ← fix.affectedPaths.mapM fun value => repositoryPath value "affected_paths item"
  raiseIf (fix.requiresHumanReview = false) "Input should be True"
  raiseIf (fix.automaticallyApplied = true) "Input should be False"
  return { fix with summary := summary, steps := steps, affectedPaths := affectedPaths }

/-- `FallbackReason`. -/
inductive FallbackReason where
  | noSourceExcerpts
  | providerUnavailable
  | invalidProviderResult
  | insufficientEvidence
  deriving DecidableEq, Repr

/-- `SafeFallback`. -/
structure SafeFallback where
  reason : FallbackReason
  message : String
  nextSteps : List String
  requiresHumanReview : Bool := true

/-- The validators of `SafeFallback`. -/
def SafeFallback.validate (fallback : SafeFallback) : Except String SafeFallback := do
  maxLength fallback.message 2000
  let message ← requiredText rt fallback.message "message" 2000
  minItems fallback.nextSteps 1
  maxItems fallback.nextSteps 8
  let nextSteps ← fallback.nextSteps.mapM fun value => requiredText rt value "fallback next step" 1000
  raiseIf (fallback.requiresHumanReview = false) "Input should be True"
  return { fallback with message := message, nextSteps := nextSteps }

/-- `DiagnosisResult.status`. -/
inductive DiagnosisStatus where
  | diagnosed
  | fallback
  deriving DecidableEq, Repr

/-- `DiagnosisResult`. -/
structure DiagnosisResult where
  status : DiagnosisStatus
  provider : String
  rootCauseHypothesis : Option RootCauseHypothesis := none
  evidence : List DiagnosisEvidence := []
  proposedFix : Option ProposedFix := none
  confidence : ℚ
  fallback : Option SafeFallback := none

/-- `DiagnosisResult._validate_shape`. -/
def DiagnosisResult.validateShape (result : DiagnosisResult) : Except String Unit :=
  match result.status with
  | .diagnosed => do
      raiseIf (result.rootCauseHypothesis.isNone = true) "a diagnosed result requires root_cause_hypothesis"
      raiseIf (result.evidence.isEmpty = true) "a diagnosed result requires evidence"
      raiseIf (result.proposedFix.isNone = true) "a diagnosed result requires proposed_fix"
      raiseIf (result.fallback.isSome = true) "a diagnosed result must not include fallback"
  | .fallback => do
      raiseIf (result.rootCauseHypothesis.isSome ∨ result.proposedFix.isSome ∨ result.evidence.isEmpty = false)
        "a fallback result must not include an ungrounded diagnosis"
      raiseIf (result.fallback.isNone = true) "a fallback result requires fallback"
      raiseIf (result.confidence ≠ 0) "a fallback result must use zero confidence"

/-- The validators of `DiagnosisResult`. -/
def DiagnosisResult.validate (result : DiagnosisResult) : Except String DiagnosisResult := do
  maxLength result.provider 64
  let provider ← providerLabel rt result.provider
  let rootCauseHypothesis ← result.rootCauseHypothesis.mapM (RootCauseHypothesis.validate rt)
  maxItems result.evidence 24
  let evidence ← result.evidence.mapM (DiagnosisEvidence.validate rt)
  let proposedFix ← result.proposedFix.mapM (ProposedFix.validate rt)
  raiseIf (result.confidence < 0) "Input should be greater than or equal to 0"
  raiseIf (1 < result.confidence) "Input should be less than or equal to 1"
  let fallback ← result.fallback.mapM (SafeFallback.validate rt)
  let validated : DiagnosisResult :=
    { status := result.status, provider := provider, rootCauseHypothesis := rootCauseHypothesis,
      evidence := evidence, proposedFix := proposedFix, confidence := result.confidence, fallback := fallback }
  validated.validateShape
  return validated

/-- The paths that a result proposes to change. -/
def DiagnosisResult.affectedPaths (result : DiagnosisResult) : List String :=
  (result.proposedFix.map (·.affectedPaths)).getD []

variable {rt}

/-! ## What the validators accept -/

/-- A text passes its bound if and only if it is that short. -/
theorem maxLength_eq_ok {value : String} {maximum : ℕ} {u : Unit} :
    maxLength value maximum = .ok u ↔ value.length ≤ maximum := by
  unfold maxLength
  rw [raiseIf_eq_ok, not_lt]

/-- A list passes its lower bound if and only if it is that long. -/
theorem minItems_eq_ok {α : Type} {values : List α} {minimum : ℕ} {u : Unit} :
    minItems values minimum = .ok u ↔ minimum ≤ values.length := by
  unfold minItems
  rw [raiseIf_eq_ok, not_lt]

/-- A list passes its upper bound if and only if it is that short. -/
theorem maxItems_eq_ok {α : Type} {values : List α} {maximum : ℕ} {u : Unit} :
    maxItems values maximum = .ok u ↔ values.length ≤ maximum := by
  unfold maxItems
  rw [raiseIf_eq_ok, not_lt]

/-- A required text is kept stripped, when that leaves something that is short enough. -/
theorem requiredText_eq_ok {value fieldName text : String} {maximum : ℕ} :
    requiredText rt value fieldName maximum = .ok text ↔
      text = rt.strip value ∧ text ≠ "" ∧ text.length ≤ maximum := by
  simp only [requiredText, bind_eq_ok, raiseIf_eq_ok, not_lt, exists_and_left, exists_const]
  constructor
  · rintro ⟨hblank, hlength, h⟩
    obtain rfl := Except.ok.inj h
    exact ⟨rfl, hblank, hlength⟩
  · rintro ⟨rfl, hblank, hlength⟩
    exact ⟨hblank, hlength, rfl⟩

/-- Where evidence is: nowhere in the source, or at a range of lines of a blob. -/
def DiagnosisEvidence.Located (evidence : DiagnosisEvidence) : Prop :=
  (evidence.kind = .incident ∧ evidence.filePath = none ∧ evidence.blobSha = none ∧ evidence.startLine = none ∧
    evidence.endLine = none) ∨
  (evidence.kind = .sourceExcerpt ∧ ∃ filePath blobSha startLine endLine, evidence.filePath = some filePath ∧
    evidence.blobSha = some blobSha ∧ evidence.startLine = some startLine ∧ evidence.endLine = some endLine ∧
      1 ≤ startLine ∧ startLine ≤ endLine)

/-- What evidence that is accepted is kept as. -/
structure DiagnosisEvidence.Accepts (rt : Runtime K) (evidence kept : DiagnosisEvidence) : Prop where
  length : maxLength evidence.explanation 2000 = .ok ()
  explanation : requiredText rt evidence.explanation "explanation" 2000 = .ok kept.explanation
  filePath : (evidence.filePath.mapM fun value => repositoryPath value) = .ok kept.filePath
  blobSha : (evidence.blobSha.mapM fun value => gitObjectId rt value "blob_sha") = .ok kept.blobSha
  same : kept.kind = evidence.kind ∧ kept.startLine = evidence.startLine ∧ kept.endLine = evidence.endLine
  located : kept.Located

/-- **Evidence is accepted** exactly as `Accepts` says. -/
theorem DiagnosisEvidence.validate_eq_ok_iff {evidence kept : DiagnosisEvidence} :
    evidence.validate rt = .ok kept ↔ evidence.Accepts rt kept := by
  constructor
  · intro h
    obtain ⟨_, hlength, h⟩ := bind_eq_ok.1 h
    obtain ⟨explanation, hexplanation, h⟩ := bind_eq_ok.1 h
    obtain ⟨filePath, hpath, h⟩ := bind_eq_ok.1 h
    obtain ⟨blobSha, hsha, h⟩ := bind_eq_ok.1 h
    obtain ⟨_, hpositive, h⟩ := bind_eq_ok.1 h
    rw [raiseIf_eq_ok, not_or] at hpositive
    split at h
    · next hkind =>
        obtain ⟨_, hnone, h⟩ := bind_eq_ok.1 h
        obtain rfl := Except.ok.inj h
        simp only [raiseIf_eq_ok, not_or, Bool.not_eq_true, Option.isSome_eq_false_iff,
          Option.isNone_iff_eq_none] at hnone
        exact ⟨hlength, hexplanation, hpath, hsha, ⟨rfl, rfl, rfl⟩, .inl ⟨hkind, hnone⟩⟩
    · next hkind =>
        split at h
        · next p sha first last hfirst hlast _ _ =>
            obtain ⟨_, hrange, h⟩ := bind_eq_ok.1 h
            obtain rfl := Except.ok.inj h
            refine ⟨hlength, hexplanation, hpath, hsha, ⟨rfl, rfl, rfl⟩, .inr ⟨hkind, p, sha, first, last, rfl, rfl,
              hfirst, hlast, ?_, not_lt.1 (raiseIf_eq_ok.1 hrange)⟩⟩
            simpa [hfirst] using hpositive.1
        · cases h
  · rintro ⟨hlength, hexplanation, hpath, hsha, ⟨hkind, hstart, hend⟩, hlocated⟩
    obtain ⟨kind, explanation, filePath, blobSha, startLine, endLine⟩ := kept
    obtain rfl : kind = evidence.kind := hkind
    obtain rfl : startLine = evidence.startLine := hstart
    obtain rfl : endLine = evidence.endLine := hend
    refine bind_eq_ok.2 ⟨(), hlength, bind_eq_ok.2 ⟨explanation, hexplanation, bind_eq_ok.2 ⟨filePath, hpath,
      bind_eq_ok.2 ⟨blobSha, hsha, ?_⟩⟩⟩⟩
    rcases hlocated with ⟨hkind, hpath', hsha', hstart, hend⟩ | ⟨hkind, p, sha, first, last, hpath', hsha', hstart,
      hend,
      hone, hrange⟩
    · obtain ⟨rfl, rfl⟩ : filePath = none ∧ blobSha = none := ⟨hpath', hsha'⟩
      simp only at hkind hstart hend
      simp only [hkind, hstart, hend]
      rfl
    · obtain ⟨rfl, rfl⟩ : filePath = some p ∧ blobSha = some sha := ⟨hpath', hsha'⟩
      simp only at hkind hstart hend
      have hpositive : ¬ ((some first).any (· < 1) = true ∨ (some last).any (· < 1) = true) := by
        simp only [Option.any_some, decide_eq_true_eq]
        omega
      simp only [hkind, hstart, hend]
      exact bind_eq_ok.2 ⟨(), raiseIf_eq_ok.2 hpositive, bind_eq_ok.2 ⟨(), raiseIf_eq_ok.2 (not_lt.2 hrange), rfl⟩⟩

/-- What a hypothesis that is accepted is kept as. -/
structure RootCauseHypothesis.Accepts (rt : Runtime K) (hypothesis kept : RootCauseHypothesis) : Prop where
  lengths : hypothesis.summary.length ≤ 2000 ∧ hypothesis.reasoning.length ≤ 4000
  summary : requiredText rt hypothesis.summary "summary" 4000 = .ok kept.summary
  reasoning : requiredText rt hypothesis.reasoning "reasoning" 4000 = .ok kept.reasoning

/-- A hypothesis is accepted exactly as `Accepts` says. -/
theorem RootCauseHypothesis.validate_eq_ok_iff {hypothesis kept : RootCauseHypothesis} :
    hypothesis.validate rt = .ok kept ↔ hypothesis.Accepts rt kept := by
  simp only [RootCauseHypothesis.validate, bind_eq_ok, maxLength_eq_ok, exists_and_left, exists_const]
  constructor
  · rintro ⟨hsummary, summary, hs, hreasoning, reasoning, hr, h⟩
    obtain rfl := Except.ok.inj h
    exact ⟨⟨hsummary, hreasoning⟩, hs, hr⟩
  · rintro ⟨⟨hsummary, hreasoning⟩, hs, hr⟩
    exact ⟨hsummary, _, hs, hreasoning, _, hr, rfl⟩

/-- What a fix that is accepted is kept as. -/
structure ProposedFix.Accepts (rt : Runtime K) (fix kept : ProposedFix) : Prop where
  length : fix.summary.length ≤ 2000
  summary : requiredText rt fix.summary "summary" 2000 = .ok kept.summary
  count : 1 ≤ fix.steps.length ∧ fix.steps.length ≤ 10
  steps : (fix.steps.mapM fun value => requiredText rt value "fix step" 1000) = .ok kept.steps
  pathCount : fix.affectedPaths.length ≤ 20
  affectedPaths : (fix.affectedPaths.mapM fun value => repositoryPath value "affected_paths item") =
    .ok kept.affectedPaths
  human : fix.requiresHumanReview = true ∧ kept.requiresHumanReview = true
  manual : fix.automaticallyApplied = false ∧ kept.automaticallyApplied = false

/-- A fix is accepted exactly as `Accepts` says. -/
theorem ProposedFix.validate_eq_ok_iff {fix kept : ProposedFix} : fix.validate rt = .ok kept ↔ fix.Accepts rt kept := by
  simp only [ProposedFix.validate, bind_eq_ok, maxLength_eq_ok, minItems_eq_ok, maxItems_eq_ok, raiseIf_eq_ok,
    exists_and_left, exists_const, Bool.not_eq_false, Bool.not_eq_true]
  constructor
  · rintro ⟨hlength, summary, hsummary, hmin, hmax, steps, hsteps, hpaths, paths, hkept, hhuman, hmanual, h⟩
    obtain rfl := Except.ok.inj h
    exact ⟨hlength, hsummary, ⟨hmin, hmax⟩, hsteps, hpaths, hkept, ⟨hhuman, hhuman⟩, ⟨hmanual, hmanual⟩⟩
  · rintro ⟨hlength, hsummary, ⟨hmin, hmax⟩, hsteps, hpaths, hkept, ⟨hhuman, hhuman'⟩, ⟨hmanual, hmanual'⟩⟩
    refine ⟨hlength, _, hsummary, hmin, hmax, _, hsteps, hpaths, _, hkept, hhuman, hmanual, ?_⟩
    rw [hhuman, hmanual, ← hhuman', ← hmanual']
    rfl

/-- What a fallback that is accepted is kept as. -/
structure SafeFallback.Accepts (rt : Runtime K) (fallback kept : SafeFallback) : Prop where
  reason : kept.reason = fallback.reason
  length : fallback.message.length ≤ 2000
  message : requiredText rt fallback.message "message" 2000 = .ok kept.message
  count : 1 ≤ fallback.nextSteps.length ∧ fallback.nextSteps.length ≤ 8
  nextSteps : (fallback.nextSteps.mapM fun value => requiredText rt value "fallback next step" 1000) =
    .ok kept.nextSteps
  human : fallback.requiresHumanReview = true ∧ kept.requiresHumanReview = true

/-- A fallback is accepted exactly as `Accepts` says. -/
theorem SafeFallback.validate_eq_ok_iff {fallback kept : SafeFallback} :
    fallback.validate rt = .ok kept ↔ fallback.Accepts rt kept := by
  simp only [SafeFallback.validate, bind_eq_ok, maxLength_eq_ok, minItems_eq_ok, maxItems_eq_ok, raiseIf_eq_ok,
    exists_and_left, exists_const, Bool.not_eq_false]
  constructor
  · rintro ⟨hlength, message, hmessage, hmin, hmax, steps, hsteps, hhuman, h⟩
    obtain rfl := Except.ok.inj h
    exact ⟨rfl, hlength, hmessage, ⟨hmin, hmax⟩, hsteps, ⟨hhuman, hhuman⟩⟩
  · rintro ⟨hreason, hlength, hmessage, ⟨hmin, hmax⟩, hsteps, ⟨hhuman, hhuman'⟩⟩
    refine ⟨hlength, _, hmessage, hmin, hmax, _, hsteps, hhuman, ?_⟩
    rw [hhuman, ← hhuman', ← hreason]
    rfl

/-- What the shape of a result says. -/
theorem DiagnosisResult.validateShape_eq_ok_iff {result : DiagnosisResult} : result.validateShape = .ok () ↔
    (result.status = .diagnosed ∧ result.rootCauseHypothesis.isSome = true ∧ result.evidence ≠ [] ∧
      result.proposedFix.isSome = true ∧ result.fallback = none) ∨
    (result.status = .fallback ∧ result.rootCauseHypothesis = none ∧ result.proposedFix = none ∧
      result.evidence = [] ∧ result.fallback.isSome = true ∧ result.confidence = 0) := by
  unfold DiagnosisResult.validateShape
  cases hstatus : result.status with
  | diagnosed =>
      simp [bind_eq_ok, raiseIf_eq_ok, Option.isSome_iff_ne_none]
  | fallback =>
      simp [bind_eq_ok, raiseIf_eq_ok, Option.isSome_iff_ne_none, and_assoc]

/-- What a result that is accepted is kept as. -/
structure DiagnosisResult.Accepts (rt : Runtime K) (result kept : DiagnosisResult) : Prop where
  length : result.provider.length ≤ 64
  provider : providerLabel rt result.provider = .ok kept.provider
  rootCauseHypothesis : result.rootCauseHypothesis.mapM (RootCauseHypothesis.validate rt) = .ok kept.rootCauseHypothesis
  count : result.evidence.length ≤ 24
  evidence : result.evidence.mapM (DiagnosisEvidence.validate rt) = .ok kept.evidence
  proposedFix : result.proposedFix.mapM (ProposedFix.validate rt) = .ok kept.proposedFix
  bounds : 0 ≤ result.confidence ∧ result.confidence ≤ 1
  fallback : result.fallback.mapM (SafeFallback.validate rt) = .ok kept.fallback
  same : kept.status = result.status ∧ kept.confidence = result.confidence
  shape : kept.validateShape = .ok ()

/-- **A result is accepted** exactly as `Accepts` says. -/
theorem DiagnosisResult.validate_eq_ok_iff {result kept : DiagnosisResult} :
    result.validate rt = .ok kept ↔ result.Accepts rt kept := by
  simp only [DiagnosisResult.validate, maxItems_eq_ok, bind_eq_ok, maxLength_eq_ok, raiseIf_eq_ok, not_lt,
    exists_and_left, exists_const]
  constructor
  · rintro ⟨hlength, provider, hprovider, hypothesis, hhypothesis, hcount, evidence, hevidence, fix, hfix, hnonneg, hle,
      fallback, hfallback, _, hshape, h⟩
    obtain rfl := Except.ok.inj h
    exact ⟨hlength, hprovider, hhypothesis, hcount, hevidence, hfix, ⟨hnonneg, hle⟩, hfallback, ⟨rfl, rfl⟩, hshape⟩
  · rintro ⟨hlength, hprovider, hhypothesis, hcount, hevidence, hfix, ⟨hnonneg, hle⟩, hfallback, ⟨hstatus, hconfidence⟩,
      hshape⟩
    refine ⟨hlength, _, hprovider, _, hhypothesis, hcount, _, hevidence, _, hfix, hnonneg, hle, _, hfallback, (), ?_,
      ?_⟩
    · rw [← hstatus, ← hconfidence]
      exact hshape
    · rw [← hstatus, ← hconfidence]
      rfl

/-- Evidence of an accepted result is at a place or at none. -/
theorem DiagnosisResult.Accepts.located {result kept : DiagnosisResult} (h : result.Accepts rt kept) :
    ∀ evidence ∈ kept.evidence, evidence.Located := by
  intro evidence hmem
  obtain ⟨read, -, hread⟩ := mem_mapM_ok h.evidence hmem
  exact (DiagnosisEvidence.validate_eq_ok_iff.1 hread).located

/-! ## What re-validating leaves -/

/-- Re-validating a fix leaves its paths. -/
theorem affectedPaths_validate {fix validated : ProposedFix} (h : fix.validate rt = .ok validated) :
    validated.affectedPaths = fix.affectedPaths :=
  eq_of_mapM_ok (fun _ _ => eq_of_repositoryPath) (ProposedFix.validate_eq_ok_iff.1 h).affectedPaths

/-- **Re-validating a result** leaves its status, and the paths its fix names. -/
theorem DiagnosisResult.validate_eq_ok {result validated : DiagnosisResult}
    (h : result.validate rt = .ok validated) :
    validated.status = result.status ∧ validated.affectedPaths = result.affectedPaths := by
  have kept := DiagnosisResult.validate_eq_ok_iff.1 h
  refine ⟨kept.same.1, ?_⟩
  have hfix := kept.proposedFix
  unfold DiagnosisResult.affectedPaths
  cases hold : result.proposedFix with
  | none =>
      rw [hold] at hfix
      rw [← Except.ok.inj hfix]
  | some old =>
      rw [hold] at hfix
      obtain ⟨new, hnew, hfix⟩ := bind_eq_ok.1 hfix
      rw [← Except.ok.inj hfix]
      exact affectedPaths_validate hnew

end GitHub
end PulseGraph
