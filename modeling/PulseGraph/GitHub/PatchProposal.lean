/-
# Patch proposals

`propose_patch` of `src/github_integration/ollama_provider.py` with the checks around it, and
`bind_patch_to_snapshot` of `src/github_integration/workflow.py`.  What the local model answers is
any text at all, and so is what the JSON reader makes of it.

**Proved here.**  Every change of a patch that is proposed updates or deletes a source file that was
supplied and that the diagnosis names (`edits_of_proposePatch`); every change of a patch that is
bound, whoever proposed it, one of the snapshot's files that may be changed
(`bound_of_bindPatchToSnapshot`).
-/

import PulseGraph.GitHub.Diagnosis
import PulseGraph.GitHub.Workspace

namespace PulseGraph
namespace GitHub

open Library (Json Table raiseIf raiseIf_eq_ok bind_eq_ok foldlM_induct mapError_eq_ok mem_mapM_ok mem_mapM_some)

/-- `if p: raise OllamaLocalResponseError(detail)`. -/
def rejectIf (p : Prop) [Decidable p] (detail : String) : Except PatchError Unit := raiseIf p (.ollama detail)

/-- `except (ValidationError, ...): raise OllamaLocalResponseError(detail)`. -/
def orReject {α : Type} (x : Except String α) (detail : String) : Except PatchError α :=
  x.mapError fun _ => .ollama detail

/-- The bounds of `OllamaLocalLimits` on a patch. -/
structure OllamaLocalLimits where
  maxPatchSourceFiles : ℕ := 8
  maxPatchSourceFileBytes : ℕ := 32 * 1024
  maxPatchSourceBytes : ℕ := 96 * 1024
  maxPatchChanges : ℕ := 8
  positive : 0 < maxPatchSourceFiles ∧ 0 < maxPatchSourceFileBytes ∧ 0 < maxPatchSourceBytes ∧
    0 < maxPatchChanges := by decide
  fits : maxPatchSourceFileBytes ≤ maxPatchSourceBytes := by decide

/-- `PatchSourceFile`. -/
structure PatchSourceFile where
  path : String
  blobSha : String
  content : String

/-! ## Grounding -/

section Grounding

variable {K : Type} (rt : Runtime K)

/-- `_evidence_within_excerpt`. -/
def evidenceWithinExcerpt (evidence : DiagnosisEvidence) (excerpt : DiagnosisSourceExcerpt) : Bool :=
  match evidence.startLine, evidence.endLine with
  | some startLine, some endLine =>
      evidence.filePath == some excerpt.filePath && evidence.blobSha == some excerpt.blobSha &&
        decide (excerpt.startLine ≤ startLine ∧ startLine ≤ endLine ∧ endLine ≤ excerpt.endLine)
  | _, _ => false

/-- What a check of grounding raises: a `DiagnosisContractError`, or an `AssertionError`, which no
handler takes for one. -/
inductive GroundingError where
  | contract (detail : String)
  | assertion
  deriving DecidableEq, Repr

/-- `_validate_grounding`. -/
def validateGrounding (request : DiagnosisRequest) (result : DiagnosisResult) : Except GroundingError Unit := do
  raiseIf (result.status ≠ .diagnosed) (.contract "diagnosis must be in diagnosed state")
  let sourceEvidence := result.evidence.filter fun evidence => evidence.kind = .sourceExcerpt
  raiseIf (sourceEvidence.isEmpty = true) (.contract "diagnosis must cite a source excerpt")
  sourceEvidence.forM fun evidence =>
    raiseIf (¬ request.excerpts.any (evidenceWithinExcerpt evidence) = true)
      (.contract "diagnosis evidence is outside supplied source excerpts")
  raiseIf (result.proposedFix.isNone = true) .assertion
  raiseIf (∃ path ∈ result.affectedPaths, path ∉ request.excerpts.map (·.filePath))
    (.contract "diagnosis proposed fix is outside supplied source excerpts")

/-- `_validate_diagnosis_request`; what it returns is not used. -/
def validateDiagnosisRequest (request : DiagnosisRequest) : Except PatchError Unit := do
  let _ ← orReject (request.validate rt) "diagnosis request did not satisfy the bounded source contract"

/-- `_validate_diagnosis_result`. -/
def validateDiagnosisResult (request : DiagnosisRequest) (diagnosis : DiagnosisResult) :
    Except PatchError DiagnosisResult := do
  let detail := "patch proposals require a grounded diagnosis"
  let validated ← orReject (diagnosis.validate rt) detail
  rejectIf (validated.status ≠ .diagnosed) detail
  (validateGrounding request validated).mapError fun
    | .contract _ => .ollama detail
    | .assertion => .other
  return validated

end Grounding

/-! ## Checked answers -/

section Answers

variable {K : Type} (rt : Runtime K)

/-- `_OllamaPatchChange`. -/
structure OllamaPatchChange where
  action : ChangeAction
  path : String
  content : Option String
  explanation : String

/-- `_OllamaPatchPayload`. -/
structure OllamaPatchPayload where
  summary : String
  rationale : Option String
  changes : List OllamaPatchChange

/-- `extra="forbid"`. -/
def onlyKeys (fields : Fields) (keys : List String) : Option Unit :=
  if fields.all fun field => decide (field.1 ∈ keys) then some () else none

/-- A text that is neither blank nor holds a NUL, of at most so many characters. -/
def patchText (value : Json) (maximum : ℕ) : Option String :=
  match value with
  | .str s =>
      if s ≠ "" ∧ s.length ≤ maximum ∧ rt.strip s ≠ "" ∧ Char.ofNat 0 ∉ s.toList then some s else none
  | _ => none

/-- `Literal["update", "delete"]`. -/
def patchAction : Json → Option ChangeAction
  | .str "update" => some .update
  | .str "delete" => some .delete
  | _ => none

/-- `content: str | None` of at most 65536 characters. -/
def patchContent : Json → Option (Option String)
  | .null => some none
  | .str s => if s.length ≤ 64 * 1024 then some (some s) else none
  | _ => none

/-- `rationale: str | None` of at most 8000 characters. -/
def patchRationale (value : Json) : Option (Option String) :=
  match value with
  | .null => some none
  | value => (patchText rt value 8000).map some

/-- `_OllamaPatchChange._validate_action_shape`. -/
def actionShape (action : ChangeAction) (content : Option String) : Bool :=
  match action, content with
  | .update, some s => decide (Char.ofNat 0 ∉ s.toList)
  | .delete, none => true
  | _, _ => false

/-- `_OllamaPatchChange.model_validate`, strict. -/
def readPatchChange (value : Json) : Option OllamaPatchChange :=
  match value with
  | .obj fields => do
      onlyKeys fields ["action", "path", "content", "explanation"]
      let action ← patchAction (Fields.get fields "action")
      let path ← patchText rt (Fields.get fields "path") 1024
      let content ← patchContent (Fields.get fields "content")
      let explanation ← patchText rt (Fields.get fields "explanation") 4000
      if actionShape action content then some ⟨action, path, content, explanation⟩ else none
  | _ => none

/-- `_OllamaPatchPayload.model_validate`, strict. -/
def readPatchPayload (value : Json) : Option OllamaPatchPayload :=
  match value with
  | .obj fields => do
      onlyKeys fields ["summary", "rationale", "changes"]
      let summary ← patchText rt (Fields.get fields "summary") 2000
      let rationale ← patchRationale rt (Fields.get fields "rationale")
      match Fields.get fields "changes" with
      | .arr values =>
          if 1 ≤ values.length ∧ values.length ≤ 8 then
            (values.mapM (readPatchChange rt)).map fun changes => ⟨summary, rationale, changes⟩
          else none
      | _ => none
  | _ => none

end Answers

/-! ## Proposing -/

section Proposing

variable {K : Type} (rt : Runtime K) (limits : OllamaLocalLimits)

/-- `_validate_patch_id`: an ASCII letter or digit, then at most 127 of these, dots, dashes and
underscores. -/
def validatePatchId (value : String) : Except PatchError String := do
  rejectIf (¬ (value.length ≤ 128 ∧ value.toList.head?.any Char.isAlphanum = true ∧
      (value.toList.all fun c => c.isAlphanum || c = '.' || c = '_' || c = '-') = true))
    "patch_id must be a safe non-empty identifier"
  return value

/-- The variables of the loop of `_validate_patch_sources`. -/
structure SourceCheck where
  normalized : List PatchSourceFile := []
  totalBytes : ℕ := 0

/-- One iteration of the loop of `_validate_patch_sources`. -/
def checkPatchSource (allowedPaths : List String) (request : DiagnosisRequest) (s : SourceCheck)
    (sourceFile : PatchSourceFile) : Except PatchError SourceCheck := do
  rejectIf (sourceFile.path ∉ allowedPaths) "editable source path is not in the grounded proposed fix"
  rejectIf (¬ request.excerpts.any (fun excerpt => excerpt.filePath == sourceFile.path &&
      excerpt.blobSha == sourceFile.blobSha) = true)
    "editable source file is not tied to a supplied excerpt"
  rejectIf (sourceFile.path ∈ s.normalized.map (·.path)) "editable source paths must be unique"
  rejectIf (Char.ofNat 0 ∈ sourceFile.content.toList) "editable source must be NUL-free UTF-8 text"
  let size := sourceFile.content.utf8ByteSize
  rejectIf (limits.maxPatchSourceFileBytes < size) "editable source file exceeds the bounded file budget"
  rejectIf (limits.maxPatchSourceBytes < s.totalBytes + size) "editable source exceeds the bounded total budget"
  return { normalized := s.normalized ++ [sourceFile], totalBytes := s.totalBytes + size }

/-- `_validate_patch_sources`: the files, no two of one path. -/
def validatePatchSources (request : DiagnosisRequest) (diagnosis : DiagnosisResult)
    (sourceFiles : List PatchSourceFile) : Except PatchError (List PatchSourceFile) := do
  rejectIf (sourceFiles.isEmpty = true) "patch proposals require at least one editable source file"
  rejectIf (limits.maxPatchSourceFiles < sourceFiles.length) "patch source files exceed the bounded file limit"
  let s ← sourceFiles.foldlM (checkPatchSource limits diagnosis.affectedPaths request) {}
  return s.normalized

/-- The variables of the loop of `_build_workspace_changes`. -/
structure ChangeBuild where
  changes : List ProposedFileChange := []
  seenPaths : List String := []
  totalContentBytes : ℕ := 0

/-- `files_by_path.get(path)`. -/
def sourceFileAt (files : List PatchSourceFile) (path : String) : Option PatchSourceFile :=
  files.find? fun file => file.path = path

/-- The bounds on the content of an update. -/
def checkContentBytes (totalContentBytes : ℕ) : Option String → Except PatchError ℕ
  | none => return totalContentBytes
  | some content => do
      let size := content.utf8ByteSize
      rejectIf (limits.maxPatchSourceFileBytes < size) "local Ollama patch file exceeds the bounded file budget"
      rejectIf (limits.maxPatchSourceBytes < totalContentBytes + size)
        "local Ollama patch exceeds the bounded total budget"
      return totalContentBytes + size

/-- One iteration of the loop of `_build_workspace_changes`; the content of a deletion is `None`. -/
def buildWorkspaceChange (filesByPath : List PatchSourceFile) (s : ChangeBuild) (change : OllamaPatchChange) :
    Except PatchError ChangeBuild := do
  match sourceFileAt filesByPath change.path with
  | none => throw (.ollama "local Ollama patch references a non-editable source path")
  | some sourceFile =>
      rejectIf (change.path ∈ s.seenPaths) "local Ollama patch changes the same path more than once"
      let totalContentBytes ← checkContentBytes limits s.totalContentBytes change.content
      return { changes := s.changes ++ [{ path := .str change.path, action := .member change.action,
                                          content := Json.optStr change.content,
                                          expectedSha256 := .str (rt.sha256 sourceFile.content),
                                          explanation := .str change.explanation }],
               seenPaths := s.seenPaths ++ [change.path], totalContentBytes := totalContentBytes }

/-- `_build_workspace_changes`. -/
def buildWorkspaceChanges (parsed : OllamaPatchPayload) (filesByPath : List PatchSourceFile) :
    Except PatchError (List ProposedFileChange) := do
  let s ← parsed.changes.foldlM (buildWorkspaceChange rt limits filesByPath) {}
  return s.changes

/-- `propose_patch`; `response` is what `_chat` returns or raises, and `parseJson` the reader of
`model_validate_json`. -/
def proposePatch (parseJson : String → Option Json) (response : Except PatchError String)
    (request : DiagnosisRequest) (diagnosis : DiagnosisResult) (sourceFiles : List PatchSourceFile)
    (patchId : String) : Except PatchError ProposedPatch := do
  validateDiagnosisRequest rt request
  let validatedDiagnosis ← validateDiagnosisResult rt request diagnosis
  let normalizedPatchId ← validatePatchId patchId
  let filesByPath ← validatePatchSources limits request validatedDiagnosis sourceFiles
  let responseContent ← response
  match (parseJson responseContent).bind (readPatchPayload rt) with
  | none => throw (.ollama "local Ollama patch did not satisfy the bounded JSON contract")
  | some parsed =>
      rejectIf (limits.maxPatchChanges < parsed.changes.length) "local Ollama patch has too many changes"
      let changes ← buildWorkspaceChanges rt limits parsed filesByPath
      return { patchId := .str normalizedPatchId, summary := .str parsed.summary,
               rationale := Json.optStr parsed.rationale, changes := changes }

end Proposing

/-! ## Binding -/

section Binding

variable {K : Type} (rt : Runtime K)

/-- One iteration of the loop of `bind_patch_to_snapshot`.  A path that no set can look up, and a
digest that is no text, are errors of the language. -/
def bindChange (baseFiles : Files) (permittedPaths : List String) (change : ProposedFileChange) :
    Except PatchError ProposedFileChange := do
  let action ← (coerceAction change.action).mapError fun _ => .validation "patch change action is invalid"
  refuse (action = .create)
    "Phase 4 patch preview permits updates or deletions of supplied snapshot files only"
  match change.path with
  | .arr _ | .obj _ => throw .other
  | .str path =>
      match baseFiles.find? path with
      | none => throw (.validation "patch change must target a source file supplied from the pinned snapshot")
      | some text =>
          refuse (path ∉ permittedPaths)
            "patch change must target a source file supplied from the pinned snapshot"
          let sourceDigest := rt.sha256 text
          match change.expectedSha256 with
          | .null => return { change with action := .member action, expectedSha256 := .str sourceDigest }
          | .str expected => do
              refuse (rt.lower expected ≠ sourceDigest)
                "patch expected_sha256 does not match the pinned source snapshot"
              return { change with action := .member action, expectedSha256 := .str sourceDigest }
          | _ => throw .other
  | _ => throw (.validation "patch change must target a source file supplied from the pinned snapshot")

/-- `bind_patch_to_snapshot`. -/
def bindPatchToSnapshot (proposal : ProposedPatch) (baseFiles : Files) (allowedPaths : Option (List String)) :
    Except PatchError ProposedPatch := do
  let permittedPaths := allowedPaths.getD (baseFiles.rows.map Prod.fst)
  refuse (permittedPaths.isEmpty = true) "no pinned source files are available for patch preview"
  let changes ← proposal.changes.mapM (bindChange rt baseFiles permittedPaths)
  return { proposal with changes := changes }

end Binding

/-! ## What the stages let through -/

section Stages

variable {K : Type} {rt : Runtime K} {limits : OllamaLocalLimits}

theorem rejectIf_eq_ok {p : Prop} [Decidable p] {detail : String} {u : Unit} :
    rejectIf p detail = .ok u ↔ ¬ p := raiseIf_eq_ok

theorem orReject_eq_ok {α : Type} {x : Except String α} {detail : String} {a : α} :
    orReject x detail = .ok a ↔ x = .ok a := mapError_eq_ok

/-- The model can ask for an update or a deletion and for nothing else. -/
theorem action_ne_create {value : Json} {change : OllamaPatchChange} (h : readPatchChange rt value = some change) :
    change.action ≠ .create := by
  cases value with
  | obj fields =>
      simp only [readPatchChange, Option.bind_eq_bind, Option.bind_eq_some_iff] at h
      obtain ⟨_, -, action, haction, path, -, content, -, explanation, -, h⟩ := h
      split_ifs at h with hshape
      obtain rfl := Option.some.inj h
      unfold patchAction at haction
      split at haction
      · rw [← Option.some.inj haction]
        exact ChangeAction.noConfusion
      · rw [← Option.some.inj haction]
        exact ChangeAction.noConfusion
      · cases haction
  | _ => cases h

/-- So it is for every change of its answer. -/
theorem actions_ne_create {value : Json} {payload : OllamaPatchPayload}
    (h : readPatchPayload rt value = some payload) : ∀ change ∈ payload.changes, change.action ≠ .create := by
  cases value with
  | obj fields =>
      simp only [readPatchPayload, Option.bind_eq_bind, Option.bind_eq_some_iff] at h
      obtain ⟨_, -, summary, -, rationale, -, h⟩ := h
      split at h
      · next values _ =>
          split_ifs at h with hlength
          obtain ⟨changes, hchanges, rfl⟩ := Option.map_eq_some_iff.1 h
          intro change hchange
          obtain ⟨value, -, hvalue⟩ := mem_mapM_some hchanges hchange
          exact action_ne_create hvalue
      · cases h
  | _ => cases h

/-- A change of one of the files, under the hash of its text. -/
structure Edits (rt : Runtime K) (files : List PatchSourceFile) (change : ProposedFileChange) : Prop where
  file : ∃ file ∈ files, change.path = .str file.path ∧ change.expectedSha256 = .str (rt.sha256 file.content)
  action : change.action = .member .update ∨ change.action = .member .delete

/-- A diagnosis that is accepted names the paths that it named. -/
theorem affectedPaths_of_validateDiagnosisResult {request : DiagnosisRequest} {diagnosis validated : DiagnosisResult}
    (h : validateDiagnosisResult rt request diagnosis = .ok validated) :
    validated.affectedPaths = diagnosis.affectedPaths := by
  obtain ⟨result, hresult, hrest⟩ := bind_eq_ok.1 h
  obtain ⟨_, -, hrest⟩ := bind_eq_ok.1 hrest
  obtain ⟨_, -, hrest⟩ := bind_eq_ok.1 hrest
  rw [← Except.ok.inj hrest]
  exact (DiagnosisResult.validate_eq_ok (orReject_eq_ok.1 hresult)).2

/-- The files that are accepted are the files that were supplied, each of which the diagnosis names. -/
theorem validatePatchSources_eq_ok {request : DiagnosisRequest} {diagnosis : DiagnosisResult}
    {sourceFiles files : List PatchSourceFile}
    (h : validatePatchSources limits request diagnosis sourceFiles = .ok files) :
    ∀ file ∈ files, file ∈ sourceFiles ∧ file.path ∈ diagnosis.affectedPaths := by
  obtain ⟨_, -, h⟩ := bind_eq_ok.1 h
  obtain ⟨_, -, h⟩ := bind_eq_ok.1 h
  obtain ⟨s, hloop, h⟩ := bind_eq_ok.1 h
  obtain rfl := Except.ok.inj h
  refine @foldlM_induct _ _ _ _ (fun s : SourceCheck => ∀ file ∈ s.normalized, file ∈ sourceFiles ∧
    file.path ∈ diagnosis.affectedPaths) _ _ _ hloop (fun _ h => absurd h List.not_mem_nil) ?_
  intro s₁ file s₂ hfile ih hstep
  obtain ⟨_, hallowed, hstep⟩ := bind_eq_ok.1 hstep
  obtain ⟨_, -, hstep⟩ := bind_eq_ok.1 hstep
  obtain ⟨_, -, hstep⟩ := bind_eq_ok.1 hstep
  obtain ⟨_, -, hstep⟩ := bind_eq_ok.1 hstep
  obtain ⟨_, -, hstep⟩ := bind_eq_ok.1 hstep
  obtain ⟨_, -, hstep⟩ := bind_eq_ok.1 hstep
  obtain rfl := Except.ok.inj hstep
  intro file' hfile'
  rcases List.mem_append.1 hfile' with hold | hnew
  · exact ih file' hold
  · obtain rfl := List.mem_singleton.1 hnew
    exact ⟨hfile, not_not.1 (rejectIf_eq_ok.1 hallowed)⟩

/-- The changes that are built edit the files. -/
theorem buildWorkspaceChanges_eq_ok {parsed : OllamaPatchPayload} {files : List PatchSourceFile}
    {changes : List ProposedFileChange} (hparsed : ∀ change ∈ parsed.changes, change.action ≠ .create)
    (h : buildWorkspaceChanges rt limits parsed files = .ok changes) : ∀ change ∈ changes, Edits rt files change := by
  obtain ⟨s, hloop, h⟩ := bind_eq_ok.1 h
  obtain rfl := Except.ok.inj h
  refine @foldlM_induct _ _ _ _ (fun s : ChangeBuild => ∀ change ∈ s.changes, Edits rt files change) _ _ _ hloop
    (fun _ h => absurd h List.not_mem_nil) ?_
  intro s₁ change s₂ hchange ih hstep
  unfold buildWorkspaceChange at hstep
  split at hstep
  · cases hstep
  · next file hfile =>
      obtain ⟨_, -, hstep⟩ := bind_eq_ok.1 hstep
      obtain ⟨_, -, hstep⟩ := bind_eq_ok.1 hstep
      obtain rfl := Except.ok.inj hstep
      intro change' hchange'
      rcases List.mem_append.1 hchange' with hold | hnew
      · exact ih change' hold
      · obtain rfl := List.mem_singleton.1 hnew
        have hpath : file.path = change.path := by simpa using List.find?_some hfile
        refine ⟨⟨file, List.mem_of_find?_eq_some hfile, by rw [hpath], rfl⟩, ?_⟩
        cases haction : change.action with
        | create => exact absurd haction (hparsed change hchange)
        | update => exact .inl rfl
        | delete => exact .inr rfl

/-- **What the provider proposes**, whatever the model answers: every change updates or deletes a
source file that was supplied and that the diagnosis names, under the hash of its text. -/
theorem edits_of_proposePatch {parseJson : String → Option Json} {response : Except PatchError String}
    {request : DiagnosisRequest} {diagnosis : DiagnosisResult} {sourceFiles : List PatchSourceFile}
    {patchId : String} {proposal : ProposedPatch}
    (h : proposePatch rt limits parseJson response request diagnosis sourceFiles patchId = .ok proposal) :
    ∀ change ∈ proposal.changes,
      Edits rt (sourceFiles.filter fun file => decide (file.path ∈ diagnosis.affectedPaths)) change := by
  obtain ⟨_, -, h⟩ := bind_eq_ok.1 h
  obtain ⟨validated, hvalidated, h⟩ := bind_eq_ok.1 h
  obtain ⟨_, -, h⟩ := bind_eq_ok.1 h
  obtain ⟨files, hfiles, h⟩ := bind_eq_ok.1 h
  obtain ⟨content, -, h⟩ := bind_eq_ok.1 h
  split at h
  · cases h
  · next parsed hparsed =>
      obtain ⟨_, -, h⟩ := bind_eq_ok.1 h
      obtain ⟨changes, hchanges, h⟩ := bind_eq_ok.1 h
      obtain rfl := Except.ok.inj h
      have hnames := validatePatchSources_eq_ok hfiles
      rw [affectedPaths_of_validateDiagnosisResult hvalidated] at hnames
      obtain ⟨value, -, hvalue⟩ := Option.bind_eq_some_iff.1 hparsed
      intro change hchange
      obtain ⟨⟨file, hmem, hedit⟩, haction⟩ :=
        buildWorkspaceChanges_eq_ok (actions_ne_create hvalue) hchanges change hchange
      refine ⟨⟨file, List.mem_filter.2 ⟨(hnames file hmem).1, decide_eq_true (hnames file hmem).2⟩, hedit⟩, haction⟩

/-- A change of a file of the snapshot that may be changed, under the hash of its text. -/
structure BoundChange (rt : Runtime K) (baseFiles : Files) (permittedPaths : List String)
    (change : ProposedFileChange) : Prop where
  file : ∃ path text, change.path = .str path ∧ path ∈ permittedPaths ∧ baseFiles.find? path = some text ∧
    change.expectedSha256 = .str (rt.sha256 text)
  action : change.action = .member .update ∨ change.action = .member .delete

/-- One change that is bound. -/
theorem bindChange_eq_ok {baseFiles : Files} {permittedPaths : List String} {change bound : ProposedFileChange}
    (h : bindChange rt baseFiles permittedPaths change = .ok bound) : BoundChange rt baseFiles permittedPaths bound :=
      by
  unfold bindChange at h
  obtain ⟨action, -, h⟩ := bind_eq_ok.1 h
  obtain ⟨_, hcreate, h⟩ := bind_eq_ok.1 h
  have haction : RawAction.member action = .member .update ∨ RawAction.member action = .member .delete := by
    cases action with
    | create => exact absurd rfl (refuse_eq_ok.1 hcreate)
    | update => exact .inl rfl
    | delete => exact .inr rfl
  split at h
  · cases h
  · cases h
  · next path hpath =>
      split at h
      · cases h
      · next text htext =>
          obtain ⟨_, hpermitted, h⟩ := bind_eq_ok.1 h
          have hmem := not_not.1 (refuse_eq_ok.1 hpermitted)
          split at h
          · obtain rfl := Except.ok.inj h
            exact ⟨⟨path, text, hpath, hmem, htext, rfl⟩, haction⟩
          · obtain ⟨_, -, h⟩ := bind_eq_ok.1 h
            obtain rfl := Except.ok.inj h
            exact ⟨⟨path, text, hpath, hmem, htext, rfl⟩, haction⟩
          · cases h
  · cases h

/-- **What is bound**, whatever was proposed: every change updates or deletes a file of the snapshot
that may be changed, under the hash of its text. -/
theorem bound_of_bindPatchToSnapshot {proposal bound : ProposedPatch} {baseFiles : Files}
    {allowedPaths : List String} (h : bindPatchToSnapshot rt proposal baseFiles (some allowedPaths) = .ok bound) :
    ∀ change ∈ bound.changes, BoundChange rt baseFiles allowedPaths change := by
  obtain ⟨_, -, h⟩ := bind_eq_ok.1 h
  obtain ⟨changes, hchanges, h⟩ := bind_eq_ok.1 h
  obtain rfl := Except.ok.inj h
  intro change hchange
  obtain ⟨_, -, hbound⟩ := mem_mapM_ok hchanges hchange
  exact bindChange_eq_ok hbound

end Stages

end GitHub
end PulseGraph
