/-
# Patch previews

`create_github_patch_preview` of `src/github_integration/router.py`, from the stored diagnosis and
the pinned sources that were read for it: the local model proposes, the proposal is bound to the
snapshot, and a workspace of the snapshot's files applies it.  The tree that is returned is the
workspace's when its `with` block ends.

**Proved here.**  `createPatchPreview_confined`: whatever the model answers, a preview that fails
leaves the pinned files as they were, and one that succeeds updates and deletes nothing but files
that the diagnosis names, each under the hash of its pinned text.
-/

import PulseGraph.GitHub.PatchProposal
import PulseGraph.GitHub.WorkspaceApply

namespace PulseGraph
namespace GitHub

open Library (Json Table FileTree bind_eq_ok segments fileMap)

/-- The bounds of the two source policies that the route compares with. -/
structure PreviewPolicy where
  patchMaxFiles : ℕ := 8
  diagnosisMaxFiles : ℕ := 6
  diagnosisMaxTotalBytes : ℕ := 48 * 1024

/-- `source_by_path.get(path)`: of two excerpts of one path the last. -/
def sourceAt (sources : List SourceExcerpt) (path : String) : Option SourceExcerpt :=
  sources.reverse.find? fun source => source.path = path

/-- `target_paths`. -/
def targetPaths (diagnosis : DiagnosisResult) : List String := diagnosis.affectedPaths.eraseDups

/-- `source_paths`: the paths of the evidence, then the targets. -/
def sourcePaths (diagnosis : DiagnosisResult) : List String :=
  let evidencePaths := (diagnosis.evidence.filter fun evidence => evidence.kind = .sourceExcerpt).filterMap (·.filePath)
  (evidencePaths ++ targetPaths diagnosis).eraseDups

/-- The sources of some paths. -/
def sourcesOf (sources : List SourceExcerpt) (paths : List String) : List SourceExcerpt :=
  paths.filterMap (sourceAt sources)

/-- `base_files`. -/
def baseFilesOf (sources : List SourceExcerpt) : Files :=
  sources.foldl (fun files source => files.upsert source.path source.text fun _ => source.text) Table.empty

/-- What the exceptions of the pipeline become. -/
def previewFailure : PatchError → GitHubError
  | .ollama _ => .http 503 "local model could not produce a reviewable patch preview"
  | .validation _ | .conflict _ | .workspace _ =>
      .http 422 "local model patch did not satisfy the review constraints"
  | .other => .http 503 "patch preview could not be created safely"

section Preview

variable {K : Type} (rt : Runtime K) (policy : PreviewPolicy)

/-- The checks of the route before it asks the model; what they leave is the request. -/
def previewRequest (diagnosis : DiagnosisResult) (sources : List SourceExcerpt) :
    Except GitHubError DiagnosisRequest := do
  refuseIf (diagnosis.status ≠ .diagnosed ∨ diagnosis.proposedFix.isNone = true)
    (.http 409 "a grounded diagnosis is required before a patch preview can be created")
  refuseIf ((targetPaths diagnosis).isEmpty = true)
    (.http 409 "the grounded diagnosis did not identify editable source paths")
  refuseIf (policy.patchMaxFiles < (sourcePaths diagnosis).length)
    (.http 422 "the diagnosis exceeds the configured patch source-file limit")
  refuseIf (policy.diagnosisMaxFiles < (sourcePaths diagnosis).length)
    (.http 409 "the saved diagnosis exceeds its original bounded source-file limit")
  refuseIf (¬ ((∀ path ∈ sourcePaths diagnosis, path ∈ sources.map (·.path)) ∧
      ∀ source ∈ sources, source.path ∈ sourcePaths diagnosis))
    (.http 409 "one or more diagnosis evidence files cannot be safely read from the pinned snapshot")
  let request ← (buildDiagnosisRequest rt (sourcesOf sources (sourcePaths diagnosis))).mapError fun _ =>
    .http 409 "the saved diagnosis cannot be safely rehydrated from the pinned source"
  refuseIf (policy.diagnosisMaxTotalBytes < request.sourceBytes)
    (.http 409 "the saved diagnosis cannot be safely rehydrated from the pinned source")
  return request

variable (workspaceLimits : WorkspaceLimits) (limits : OllamaLocalLimits) (parseJson : String → Option Json)
  (unifiedDiff : UnifiedDiff)

/-- `bind_patch_to_snapshot(propose_patch(...))`. -/
def scopedProposal (response : Except PatchError String) (analysisId : String) (diagnosis : DiagnosisResult)
    (sources : List SourceExcerpt) (request : DiagnosisRequest) : Except PatchError ProposedPatch := do
  let pinned := sourcesOf sources (targetPaths diagnosis)
  let editableFiles := pinned.map fun source => ⟨source.path, source.blobSha, source.text⟩
  let proposal ← proposePatch rt limits parseJson response request diagnosis editableFiles
    ("analysis-" ++ analysisId)
  bindPatchToSnapshot rt proposal (baseFilesOf pinned) (some (targetPaths diagnosis))

/-- `with LocalPatchWorkspace(base_files) as workspace: workspace.apply(proposal)`: the review, and
the tree at the end of the block; a workspace that is refused is none. -/
def reviewIn (baseFiles : Files) (proposal : ProposedPatch) : Except PatchError PatchReview × Option Tree :=
  match (createWorkspace rt workspaceLimits baseFiles).runFrom FileTree.empty with
  | (.error e, _) => (.error e, none)
  | (.ok (), tree) =>
      let result := (apply rt workspaceLimits unifiedDiff proposal).runFrom tree
      (result.1, some result.2)

/-- `create_github_patch_preview`. -/
def createPatchPreview (response : Except PatchError String) (analysisId : String) (diagnosis : DiagnosisResult)
    (sources : List SourceExcerpt) : Except GitHubError PatchReview × Option Tree :=
  match previewRequest rt policy diagnosis sources with
  | .error e => (.error e, none)
  | .ok request =>
      match scopedProposal rt limits parseJson response analysisId diagnosis sources request with
      | .error e => (.error (previewFailure e), none)
      | .ok proposal =>
          let result := reviewIn rt workspaceLimits unifiedDiff
            (baseFilesOf (sourcesOf sources (targetPaths diagnosis))) proposal
          (result.1.mapError previewFailure, result.2)

end Preview

/-! ## Confinement -/

section Confinement

variable {K : Type} {rt : Runtime K} {sources : List SourceExcerpt}

theorem path_of_sourceAt {path : String} {source : SourceExcerpt} (h : sourceAt sources path = some source) :
    source.path = path := by
  simpa using List.find?_some h

/-- The files of some sources, put over others. -/
theorem find?_foldl_upsert {files : Files} {paths : List String} {path : String} :
    ((sourcesOf sources paths).foldl (fun files source => files.upsert source.path source.text
      fun _ => source.text) files).find? path =
    if path ∈ paths ∧ (sourceAt sources path).isSome = true then (sourceAt sources path).map (·.text)
    else files.find? path := by
  induction paths generalizing files with
  | nil => simp [sourcesOf]
  | cons p paths ih =>
      cases hp : sourceAt sources p with
      | none =>
          have hsame : sourcesOf sources (p :: paths) = sourcesOf sources paths := by
            unfold sourcesOf
            rw [List.filterMap_cons_none hp]
          rw [hsame, ih]
          refine if_congr ⟨fun h => ⟨List.mem_cons_of_mem _ h.1, h.2⟩, fun h => ⟨?_, h.2⟩⟩ rfl rfl
          refine (List.mem_cons.1 h.1).resolve_left ?_
          rintro rfl
          rw [hp] at h
          cases h.2
      | some source =>
          have hstep : sourcesOf sources (p :: paths) = source :: sourcesOf sources paths := by
            unfold sourcesOf
            rw [List.filterMap_cons_some hp]
          rw [hstep, List.foldl_cons, ih, Table.find?_upsert_const, path_of_sourceAt hp]
          by_cases hpath : path = p
          · subst hpath
            simp [hp]
          · simp [hpath]

/-- The files that the workspace starts with: the pinned texts of the targets. -/
theorem find?_baseFilesOf {paths : List String} {path text : String}
    (h : (baseFilesOf (sourcesOf sources paths)).find? path = some text) :
    ∃ source, sourceAt sources path = some source ∧ source.text = text := by
  unfold baseFilesOf at h
  rw [find?_foldl_upsert] at h
  split_ifs at h with hpath
  · exact Option.map_eq_some_iff.1 h
  · cases h

/-- A change of the review, of a file that the diagnosis names, under the hash of its pinned text. -/
structure EditsNamed (rt : Runtime K) (diagnosis : DiagnosisResult) (sources : List SourceExcerpt) (tree : Tree)
    (change : ReviewedFileChange) : Prop where
  named : change.path ∈ diagnosis.affectedPaths
  before : ∃ source, sourceAt sources change.path = some source ∧
    change.beforeSha256 = some (rt.sha256 source.text)
  after : (change.action = .update ∧ ∃ text, tree.files (segments change.path) = some text ∧
      change.afterSha256 = some (rt.sha256 text)) ∨
    change.action = .delete ∧ tree.files (segments change.path) = none ∧ change.afterSha256 = none

/-- What a preview may do: nothing if it fails; else it changes the files that its review lists, as
the review says, and the others of the workspace are the pinned ones, no more and no less. -/
def Confined {ε : Type} (rt : Runtime K) (diagnosis : DiagnosisResult) (sources : List SourceExcerpt)
    (outcome : Except ε PatchReview × Option Tree) : Prop :=
  let pinned := fileMap (baseFilesOf (sourcesOf sources (targetPaths diagnosis)))
  match outcome with
  | (.error _, tree) => ∀ t, tree = some t → t.files = pinned
  | (.ok review, tree) => ∃ t, tree = some t ∧
      (∀ change ∈ review.changedFiles, EditsNamed rt diagnosis sources t change) ∧
      ∀ parts, parts ∉ review.changedFiles.map (fun change => segments change.path) → t.files parts = pinned parts

variable {workspaceLimits : WorkspaceLimits} {unifiedDiff : UnifiedDiff} {diagnosis : DiagnosisResult}

/-- What the exceptions become does not matter. -/
theorem Confined.mapError {ε ε' : Type} {f : ε → ε'} {outcome : Except ε PatchReview × Option Tree}
    (h : Confined rt diagnosis sources outcome) :
    Confined rt diagnosis sources (outcome.1.mapError f, outcome.2) := by
  obtain ⟨result, tree⟩ := outcome
  cases result with
  | error e => exact h
  | ok review => exact h

/-- A change that was bound and planned edits a file that the diagnosis names. -/
theorem editsNamed_of_planned {current result : Files} {planned : List PlannedChange} {item : PlannedChange} {t : Tree}
    (hcurrent : ∀ path, current.find? path =
      (baseFilesOf (sourcesOf sources (targetPaths diagnosis))).find? path)
    (hplanned : Planned rt current result planned) (ht : TreeHolds t result) (hitem : item ∈ planned)
    (hbound : BoundChange rt (baseFilesOf (sourcesOf sources (targetPaths diagnosis))) (targetPaths diagnosis)
      item.change) : EditsNamed rt diagnosis sources t (reviewedChange rt item) := by
  have hsound := hplanned.sound item hitem
  obtain ⟨path, text, hpath, htarget, htext, -⟩ := hbound.file
  have hsame : path = item.path := by
    have h := hsound.path
    rw [hpath] at h
    exact Json.str.inj h
  subst hsame
  obtain ⟨source, hsource, rfl⟩ := find?_baseFilesOf htext
  have hbefore : item.before = some source.text := by rw [hsound.before, hcurrent, htext]
  have hafter : t.files (segments item.path) = item.after := by
    rw [ht.files, Library.fileMap_segments, hplanned.after item hitem]
  refine ⟨List.mem_eraseDups.1 htarget, ⟨source, hsource, ?_⟩, ?_⟩
  · show item.before.map rt.sha256 = _
    rw [hbefore, Option.map_some]
  · show (item.action = .update ∧ ∃ text, t.files (segments item.path) = some text ∧
        item.after.map rt.sha256 = some (rt.sha256 text)) ∨
      item.action = .delete ∧ t.files (segments item.path) = none ∧ item.after.map rt.sha256 = none
    rw [hafter]
    rcases hsound.shape with ⟨haction, -⟩ | ⟨haction, -, c, -, -, hc, -⟩ | ⟨haction, -, -, hnone⟩
    · -- no creation is bound
      have hmember := hsound.action
      rcases hbound.action with h | h
      · rw [h, haction] at hmember
        cases hmember
      · rw [h, haction] at hmember
        cases hmember
    · exact .inl ⟨haction, c, hc, by rw [hc, Option.map_some]⟩
    · exact .inr ⟨haction, hnone, by rw [hnone, Option.map_none]⟩

/-- **A proposal that is bound** is applied to the files that it names, and to no others. -/
theorem reviewIn_confined {proposal : ProposedPatch} (hbound : ∀ change ∈ proposal.changes,
      BoundChange rt (baseFilesOf (sourcesOf sources (targetPaths diagnosis))) (targetPaths diagnosis) change) :
    Confined rt diagnosis sources (reviewIn rt workspaceLimits unifiedDiff
      (baseFilesOf (sourcesOf sources (targetPaths diagnosis))) proposal) := by
  unfold reviewIn
  rcases createWorkspace_cases (baseFilesOf (sourcesOf sources (targetPaths diagnosis))) with
    ⟨e, hcreate⟩ | ⟨tree, hcreate, hheld, -⟩
  · rw [hcreate]
    exact fun t ht => by cases ht
  · rw [hcreate]
    rcases apply_cases hheld unifiedDiff proposal with
      ⟨e, -, happly⟩ | ⟨current, planned, result, review, t', happly, -, hcurrent, hplan, hresult, hreview⟩
    · dsimp only
      rw [happly]
      rintro t ht
      obtain rfl := Option.some.inj ht
      exact hheld.files
    · obtain ⟨hplanned, -, hchanges⟩ := planned_of_planChanges hplan
      dsimp only
      rw [happly]
      refine ⟨t', rfl, ?_, ?_⟩
      · intro change hchange
        rw [hreview.changes] at hchange
        obtain ⟨item, hitem, rfl⟩ := List.mem_map.1 hchange
        have hchange : item.change ∈ proposal.changes := by
          rw [← hchanges]
          exact List.mem_map_of_mem hitem
        exact editsNamed_of_planned hcurrent hplanned hresult hitem (hbound _ hchange)
      · intro parts hparts
        rw [hresult.files]
        unfold fileMap
        split_ifs with hsegments
        · rw [← hcurrent, hplanned.others]
          -- a planned path is one of the review's
          intro hmem
          obtain ⟨item, hitem, hpath⟩ := List.mem_map.1 hmem
          refine hparts (List.mem_map.2 ⟨reviewedChange rt item, ?_, ?_⟩)
          · rw [hreview.changes]
            exact List.mem_map_of_mem hitem
          · show segments item.path = parts
            rw [hpath, hsegments]
        · rfl

/-- **A preview is confined**, whatever the model answers. -/
theorem createPatchPreview_confined (policy : PreviewPolicy) (workspaceLimits : WorkspaceLimits)
    (limits : OllamaLocalLimits) (parseJson : String → Option Json) (unifiedDiff : UnifiedDiff)
    (response : Except PatchError String) (analysisId : String) (diagnosis : DiagnosisResult)
    (sources : List SourceExcerpt) :
    Confined rt diagnosis sources (createPatchPreview rt policy workspaceLimits limits parseJson unifiedDiff
      response analysisId diagnosis sources) := by
  unfold createPatchPreview
  split
  · exact fun t ht => by cases ht
  · split
    · exact fun t ht => by cases ht
    · next request _ proposal hproposal =>
        obtain ⟨_, -, hbind⟩ := bind_eq_ok.1 hproposal
        exact (reviewIn_confined (bound_of_bindPatchToSnapshot hbind)).mapError

end Confinement

/-! ## A preview -/

section Sample

/-- The reference runtime with digests of sixty-four digits. -/
def sampleRuntime : Runtime ℚ :=
  { Runtime.reference with sha256 := fun s => String.ofList (List.replicate 64 (Nat.digitChar (s.length % 16))) }

/-- The id of the sample's blobs. -/
def sampleBlob : String := String.ofList (List.replicate 40 '0')

/-- A diagnosis that proposes to change the file it cites. -/
def sampleDiagnosis : DiagnosisResult where
  status := .diagnosed
  provider := "ollama"
  rootCauseHypothesis := some ⟨"off by one", "reads past the end"⟩
  evidence := [⟨.sourceExcerpt, "limit", some "app.py", some sampleBlob, some 1, some 1⟩]
  proposedFix := some { summary := "lower it", steps := ["lower it"], affectedPaths := ["app.py"] }
  confidence := 1 / 2

/-- An answer that updates it. -/
def sampleAnswer : Json := .obj [("summary", .str "fix"), ("changes", .arr [.obj [("action", .str "update"),
  ("path", .str "app.py"), ("content", .str "n=10"), ("explanation", .str "one less")]])]

/-- The preview of that answer. -/
def samplePreview : Except GitHubError PatchReview × Option Tree :=
  createPatchPreview sampleRuntime {} .standard {} (fun _ => some sampleAnswer) (fun _ _ _ _ => []) (.ok "") "1"
    sampleDiagnosis [⟨"app.py", sampleBlob, "n=9"⟩]

example : (samplePreview.1.toOption.map fun review => review.changedFiles.map (·.path),
    samplePreview.2.map fun tree => tree.files ["app.py"]) = (some ["app.py"], some (some "n=10")) := by
  decide +kernel

end Sample

end GitHub
end PulseGraph
