/-
# Applying a patch

`LocalPatchWorkspace` of `src/github_integration/workspace.py` over the tree of its temporary
directory: reading the files back, writing the planned ones, and `apply`.  A write that failed half
way would leave its tree half written.  `unified_diff` of `difflib` is a parameter.

**Proved here.**  Over a tree that holds files which can stand in a workspace no write fails
(`does_writeResultFiles`).  So an apply that fails is refused and leaves the tree as it was, and one
that succeeds leaves the planned files and no others (`apply_cases`).
-/

import PulseGraph.GitHub.Workspace
import PulseGraph.Library.Effects

namespace PulseGraph
namespace GitHub

open Library (Json Table FileTree Effectful Does does_bind_iff does_lift_iff does_attempt does_forM attempt
  runFrom_bind runFrom_get runFrom_lift bind_eq_ok foldlM_once segments joinSegments ancestors startsWithDir fileMap
  Raises raises_pure raises_bind raises_foldlM)

/-- The tree under the workspace's root. -/
abbrev Tree := FileTree String String

/-- What a workspace's methods do to its tree. -/
abbrev Workspace := Effectful PatchError Tree

section Methods

variable {K : Type} (rt : Runtime K) (limits : WorkspaceLimits)

/-- One entry of `os.walk`: a file under its relative path. -/
def readEntry (files : Files) (entry : List String × Library.Entry String) : Except PatchError Files :=
  match entry.2 with
  | .dir => return files
  | .file content => do
      let safePath ← validatePath rt limits (.str (joinSegments entry.1))
      return files.upsert safePath content fun _ => content

/-- `_read_workspace_files`. -/
def readWorkspaceFiles (tree : Tree) : Except PatchError Files := do
  let files ← tree.entries.rows.foldlM (readEntry rt limits) Table.empty
  validateFileSet rt limits files "workspace files"
  return files

/-- `_existing_target`. -/
def existingTarget (path : String) : Workspace (List String) := do
  let safePath ← validatePath rt limits (.str path)
  if ((← get).files (segments safePath)).isNone then
    throw (.workspace "workspace file changed unexpectedly")
  return segments safePath

/-- `_existing_target(path).unlink()`. -/
def deleteFile (path : String) : Workspace Unit := do
  let target ← existingTarget rt limits path
  attempt (FileTree.unlink target) (.workspace ("unable to delete workspace file: " ++ path))

/-- The directories of `_materialize_target`, one beneath the other. -/
def makeParents (target : List String) : List String → Workspace Unit
  | [] => return
  | part :: parts => do
      attempt (FileTree.ensureDir (target ++ [part])) (.workspace "unsafe workspace directory path")
      makeParents (target ++ [part]) parts

/-- `_materialize_target`. -/
def materializeTarget (path : String) : Workspace (List String) := do
  let safePath ← validatePath rt limits (.str path)
  makeParents [] (segments safePath).dropLast
  if (← get).isDir (segments safePath) then
    throw (.workspace "unsafe workspace file target")
  return segments safePath

/-- `_atomic_write_text(_materialize_target(path), content)`: the temporary file beside the target
replaces it in one step. -/
def writeFile (path content : String) : Workspace Unit := do
  let target ← materializeTarget rt limits path
  attempt (FileTree.writeFile target content)
    (.workspace ("unable to write workspace file: " ++ target.getLastD ""))

/-- `_prune_empty_directories`. -/
def pruneEmptyDirectories : Workspace Unit := modify FileTree.prune

/-- `set(current_files).difference(resulting_files)`. -/
def obsoleteFiles (currentFiles resultingFiles : Files) : List String :=
  (currentFiles.rows.map Prod.fst).filter fun path => (resultingFiles.find? path).isNone

/-- `shape_blockers`: obsolete files where the result has a directory, or beneath its files. -/
def shapeBlockers (currentFiles resultingFiles : Files) : List String :=
  let requiredDirectories := resultingFiles.rows.flatMap fun row => ancestors row.1
  (obsoleteFiles currentFiles resultingFiles).filter fun path =>
    decide (path ∈ requiredDirectories) || resultingFiles.rows.any fun row => startsWithDir row.1 path

/-- `sorted(paths, key=lambda value: (value.count("/"), value), reverse=True)`. -/
def deepestFirst (paths : List String) : List String :=
  paths.insertionSort fun a b => b.toList.count '/' < a.toList.count '/' ∨
    b.toList.count '/' = a.toList.count '/' ∧ b ≤ a

/-- The paths whose text changes, in order. -/
def changedFiles (currentFiles resultingFiles : Files) : List String :=
  ((resultingFiles.rows.map Prod.fst).insertionSort (· ≤ ·)).filter fun path =>
    currentFiles.find? path != resultingFiles.find? path

/-- `sorted(obsolete_files.difference(shape_blockers), reverse=True)`. -/
def remainingFiles (currentFiles resultingFiles : Files) : List String :=
  ((obsoleteFiles currentFiles resultingFiles).filter fun path =>
    decide (path ∉ shapeBlockers currentFiles resultingFiles)).insertionSort fun a b => b ≤ a

/-- `_write_result_files`. -/
def writeResultFiles (currentFiles resultingFiles : Files) : Workspace Unit := do
  let blockers := shapeBlockers currentFiles resultingFiles
  (deepestFirst blockers).forM (deleteFile rt limits)
  if !blockers.isEmpty then pruneEmptyDirectories
  (changedFiles currentFiles resultingFiles).forM fun path =>
    writeFile rt limits path ((resultingFiles.find? path).getD "")
  (remainingFiles currentFiles resultingFiles).forM (deleteFile rt limits)
  pruneEmptyDirectories

/-- `LocalPatchWorkspace.__init__`, over its new directory. -/
def createWorkspace (baseFiles : Files) : Workspace Unit := do
  let normalizedBase ← normalizeBaseFiles rt limits baseFiles
  writeResultFiles rt limits Table.empty normalizedBase

/-- What ends a line for `str.splitlines`. -/
def isLineBreak (c : Char) : Bool :=
  decide (c.toNat ∈ [0x0A, 0x0B, 0x0C, 0x0D, 0x1C, 0x1D, 0x1E, 0x85, 0x2028, 0x2029])

/-- `str.splitlines`, with the characters of the line that is open in reverse. -/
def splitLines (line : List Char) : List Char → List String
  | [] => if line.isEmpty then [] else [String.ofList line.reverse]
  | '\r' :: '\n' :: cs => String.ofList line.reverse :: splitLines [] cs
  | c :: cs =>
      if isLineBreak c then String.ofList line.reverse :: splitLines [] cs else splitLines (c :: line) cs

/-- `text.splitlines()`, of no text if there is none. -/
def linesOf (text : Option String) : List String := (text.map fun s => splitLines [] s.toList).getD []

/-- `difflib.unified_diff(before_lines, after_lines, fromfile, tofile, lineterm="")`. -/
abbrev UnifiedDiff := List String → List String → String → String → List String

/-- `_build_unified_diff`. -/
def buildUnifiedDiff (unifiedDiff : UnifiedDiff) (plannedChanges : List PlannedChange) : String :=
  let fragments := plannedChanges.flatMap fun item =>
    unifiedDiff (linesOf item.before) (linesOf item.after)
      (if item.before.isSome then "a/" ++ item.path else "/dev/null")
      (if item.after.isSome then "b/" ++ item.path else "/dev/null")
  if fragments.isEmpty then "" else "\n".intercalate fragments ++ "\n"

/-- `_total_bytes`. -/
def totalBytes (files : Files) : ℕ := (files.rows.map fun row => row.2.utf8ByteSize).sum

/-- The entry of a planned change in the review. -/
def reviewedChange (item : PlannedChange) : ReviewedFileChange where
  path := item.path
  action := item.action
  beforeSha256 := item.before.map rt.sha256
  afterSha256 := item.after.map rt.sha256
  beforeBytes := (item.before.map String.utf8ByteSize).getD 0
  afterBytes := (item.after.map String.utf8ByteSize).getD 0
  explanation := item.change.explanation

/-- `apply`. -/
def apply (unifiedDiff : UnifiedDiff) (proposal : ProposedPatch) : Workspace PatchReview := do
  let currentFiles ← readWorkspaceFiles rt limits (← get)
  let (plannedChanges, resultingFiles) ← planChanges rt limits proposal currentFiles
  let diff := buildUnifiedDiff unifiedDiff plannedChanges
  refuse (limits.maxDiffBytes < diff.utf8ByteSize)
    ("generated unified diff exceeds max_diff_bytes (" ++ toString limits.maxDiffBytes ++ ")")
  writeResultFiles rt limits currentFiles resultingFiles
  let reviewedChanges := plannedChanges.map (reviewedChange rt)
  return { patchId := proposal.patchId, summary := proposal.summary, rationale := proposal.rationale,
           changedFiles := reviewedChanges, unifiedDiff := diff,
           metadata := { baseFileCount := currentFiles.rows.length, resultFileCount := resultingFiles.rows.length,
                         baseTotalBytes := totalBytes currentFiles, resultTotalBytes := totalBytes resultingFiles,
                         changedFileCount := reviewedChanges.length, diffBytes := diff.utf8ByteSize } }

end Methods

/-! ## Writing -/

section Writing

variable {K : Type} {rt : Runtime K} {limits : WorkspaceLimits} {t t' : Tree} {path content : String}

/-- A file whose path is accepted is deleted. -/
theorem does_deleteFile (hpath : validatePath rt limits (.str path) = .ok path)
    (h : t.unlink (segments path) = some t') : Does (deleteFile rt limits path) t () t' := by
  have hfile : (t.files (segments path)).isNone = false := by
    unfold FileTree.unlink at h
    split at h
    · next c hc => rw [FileTree.files_eq_some_iff.2 hc, Option.isNone_some]
    · cases h
  refine does_bind_iff.2 ⟨segments path, t, ?_, does_attempt h⟩
  refine does_bind_iff.2 ⟨path, t, does_lift_iff.2 ⟨hpath, rfl⟩, ?_⟩
  refine does_bind_iff.2 ⟨t, t, rfl, ?_⟩
  rw [hfile]
  rfl

/-- The directories above a target are made. -/
theorem does_makeParents {parts target : List String} (h : FileTree.makeDirs target parts t = some t') :
    Does (makeParents target parts) t () t' := by
  induction parts generalizing t target with
  | nil =>
      obtain rfl := Option.some.inj h
      rfl
  | cons part parts ih =>
      obtain ⟨t₁, hmake, hrest⟩ := Option.bind_eq_some_iff.1 h
      exact does_bind_iff.2 ⟨(), t₁, does_attempt hmake, ih hrest⟩

/-- A file whose path is accepted is written. -/
theorem does_writeFile (hpath : validatePath rt limits (.str path) = .ok path)
    (h : t.place (segments path) content = some t') : Does (writeFile rt limits path content) t () t' := by
  obtain ⟨t₁, hmake, hwrite⟩ := Option.bind_eq_some_iff.1 h
  have hfree : t₁.isDir (segments path) = false := by
    unfold FileTree.writeFile at hwrite
    split_ifs at hwrite with hcond
    exact hcond.2.2
  refine does_bind_iff.2 ⟨segments path, t₁, ?_, does_attempt hwrite⟩
  refine does_bind_iff.2 ⟨path, t, does_lift_iff.2 ⟨hpath, rfl⟩, ?_⟩
  refine does_bind_iff.2 ⟨(), t₁, does_makeParents hmake, ?_⟩
  refine does_bind_iff.2 ⟨t₁, t₁, rfl, ?_⟩
  rw [hfree]
  rfl

/-- Files whose paths are accepted are deleted one after the other. -/
theorem does_deleteFiles {paths : List String}
    (hpaths : ∀ path ∈ paths, validatePath rt limits (.str path) = .ok path)
    (h : (paths.map segments).foldlM (fun t p => t.unlink p) t = some t') :
    Does (paths.forM (deleteFile rt limits)) t () t' := by
  rw [List.foldlM_map] at h
  exact does_forM (fun path hpath _ _ => does_deleteFile (hpaths path hpath)) h

theorem mem_obsoleteFiles {current result : Files} :
    path ∈ obsoleteFiles current result ↔ (current.find? path).isSome = true ∧ result.find? path = none := by
  unfold obsoleteFiles
  rw [List.mem_filter, Table.mem_keys_iff, Option.isSome_iff_exists, Option.isNone_iff_eq_none]

theorem nodup_obsoleteFiles (current result : Files) : (obsoleteFiles current result).Nodup := by
  unfold obsoleteFiles
  exact current.nodup.filter _

/-- The obsolete files that are in the way of the result. -/
theorem mem_shapeBlockers {current result : Files} : path ∈ shapeBlockers current result ↔
    path ∈ obsoleteFiles current result ∧ ∃ q, (result.find? q).isSome = true ∧
      (path ∈ ancestors q ∨ startsWithDir q path = true) := by
  unfold shapeBlockers
  rw [List.mem_filter, Bool.or_eq_true, decide_eq_true_eq, List.any_eq_true, List.mem_flatMap]
  refine and_congr_right fun _ => ?_
  constructor
  · rintro (⟨row, hrow, h⟩ | ⟨row, hrow, h⟩)
    · exact ⟨row.1, Option.isSome_iff_exists.2 ⟨row.2, Table.find?_eq_some_iff.2 hrow⟩, .inl h⟩
    · exact ⟨row.1, Option.isSome_iff_exists.2 ⟨row.2, Table.find?_eq_some_iff.2 hrow⟩, .inr h⟩
  · rintro ⟨q, hq, h⟩
    obtain ⟨row, hrow, rfl⟩ := exists_row hq
    exact h.imp (fun h => ⟨row, hrow, h⟩) fun h => ⟨row, hrow, h⟩

theorem mem_changedFiles {current result : Files} : path ∈ changedFiles current result ↔
    (result.find? path).isSome = true ∧ current.find? path ≠ result.find? path := by
  unfold changedFiles
  rw [List.mem_filter, List.mem_insertionSort, Table.mem_keys_iff, Option.isSome_iff_exists, bne_iff_ne]

theorem segments_injective : Function.Injective segments := fun _ _ => Library.segments_injective

/-- They block in the tree as they do in the table. -/
theorem blocks_iff {current result : Files} (hfiles : t.files = fileMap current) (parts : List String) :
    t.Blocks (fileMap result) parts ↔ ∃ path ∈ shapeBlockers current result, segments path = parts := by
  unfold FileTree.Blocks
  rw [hfiles]
  constructor
  · rintro ⟨hold, hgone, q, hq, hway⟩
    obtain ⟨path, rfl, hpath⟩ := Library.exists_of_fileMap hold
    obtain ⟨r, rfl, hr⟩ := Library.exists_of_fileMap hq
    rw [Library.fileMap_segments] at hgone
    refine ⟨path, ?_, rfl⟩
    rw [mem_shapeBlockers, mem_obsoleteFiles]
    refine ⟨⟨hpath, hgone⟩, r, hr, ?_⟩
    rw [Library.mem_ancestors_iff_above, Library.startsWithDir_iff_above]
    exact hway
  · rintro ⟨path, hmem, rfl⟩
    obtain ⟨hobsolete, q, hq, hway⟩ := mem_shapeBlockers.1 hmem
    obtain ⟨hold, hgone⟩ := mem_obsoleteFiles.1 hobsolete
    refine ⟨by simpa using hold, by simpa using hgone, segments q, by simpa using hq, ?_⟩
    exact hway.imp Library.mem_ancestors_iff_above.1 Library.startsWithDir_iff_above.1

theorem nodup_blockers (current result : Files) :
    ((deepestFirst (shapeBlockers current result)).map segments).Nodup := by
  refine List.Nodup.map segments_injective ?_
  unfold deepestFirst shapeBlockers
  rw [(List.perm_insertionSort _ _).nodup_iff]
  exact (nodup_obsoleteFiles current result).filter _

theorem nodup_remainingFiles (current result : Files) : ((remainingFiles current result).map segments).Nodup := by
  refine List.Nodup.map segments_injective ?_
  unfold remainingFiles
  rw [(List.perm_insertionSort _ _).nodup_iff]
  exact (nodup_obsoleteFiles current result).filter _

theorem mem_deepestFirst {paths : List String} : path ∈ deepestFirst paths ↔ path ∈ paths := by
  unfold deepestFirst
  rw [List.mem_insertionSort]

theorem mem_remainingFiles {current result : Files} : path ∈ remainingFiles current result ↔
    path ∈ obsoleteFiles current result ∧ path ∉ shapeBlockers current result := by
  unfold remainingFiles
  rw [List.mem_insertionSort, List.mem_filter, decide_eq_true_eq]

/-- The files that are written are those whose text in the tree is another. -/
theorem written_iff {current result : Files} (hfiles : t.files = fileMap current) (parts : List String) :
    parts ∈ (changedFiles current result).map segments ↔
      (fileMap result parts).isSome = true ∧ t.files parts ≠ fileMap result parts := by
  rw [List.mem_map, hfiles]
  constructor
  · rintro ⟨path, hpath, rfl⟩
    rw [Library.fileMap_segments, Library.fileMap_segments]
    exact mem_changedFiles.1 hpath
  · rintro ⟨hsome, hne⟩
    obtain ⟨path, rfl, hpath⟩ := Library.exists_of_fileMap hsome
    rw [Library.fileMap_segments, Library.fileMap_segments] at hne
    exact ⟨path, mem_changedFiles.2 ⟨hpath, hne⟩, rfl⟩

/-- The files that are deleted last are those of the tree that are gone, but for the blockers. -/
theorem remaining_iff {current result : Files} (hfiles : t.files = fileMap current) (parts : List String) :
    parts ∈ (remainingFiles current result).map segments ↔ (t.files parts).isSome = true ∧
      fileMap result parts = none ∧ parts ∉ (deepestFirst (shapeBlockers current result)).map segments := by
  rw [hfiles]
  constructor
  · intro hparts
    obtain ⟨path, hpath, rfl⟩ := List.mem_map.1 hparts
    obtain ⟨hobsolete, hnot⟩ := mem_remainingFiles.1 hpath
    rw [Library.fileMap_segments, Library.fileMap_segments, List.mem_map_of_injective segments_injective,
      mem_deepestFirst]
    exact ⟨(mem_obsoleteFiles.1 hobsolete).1, (mem_obsoleteFiles.1 hobsolete).2, hnot⟩
  · rintro ⟨hold, hgone, hnot⟩
    obtain ⟨path, rfl, hpath⟩ := Library.exists_of_fileMap hold
    rw [Library.fileMap_segments] at hgone
    rw [List.mem_map_of_injective segments_injective, mem_deepestFirst] at hnot
    exact List.mem_map_of_mem (mem_remainingFiles.2 ⟨mem_obsoleteFiles.2 ⟨hpath, hgone⟩, hnot⟩)

/-- **Writing a result** over the files a tree holds never fails, and leaves the result. -/
theorem does_writeResultFiles {current result : Files} (ht : t.Tight) (hfiles : t.files = fileMap current)
    (hcurrent : ∀ p, (current.find? p).isSome = true → validatePath rt limits (.str p) = .ok p)
    (hresult : FileSet rt limits result) :
    ∃ t', Does (writeResultFiles rt limits current result) t () t' ∧ t'.files = fileMap result ∧ t'.Tight := by
  have hblockers : ∀ parts, parts ∈ (deepestFirst (shapeBlockers current result)).map segments ↔
      t.Blocks (fileMap result) parts := by
    intro parts
    rw [blocks_iff hfiles, List.mem_map]
    simp only [mem_deepestFirst]
  have hcontent : ∀ parts ∈ (changedFiles current result).map segments,
      fileMap result parts = some ((result.find? (joinSegments parts)).getD "") := by
    intro parts hparts
    obtain ⟨path, hpath, rfl⟩ := List.mem_map.1 hparts
    obtain ⟨c, hc⟩ := Option.isSome_iff_exists.1 (mem_changedFiles.1 hpath).1
    rw [Library.fileMap_segments, Library.joinSegments_segments, hc, Option.getD_some]
  obtain ⟨t₁, t₂, t₃, h₁, h₂, h₃, hend, htight⟩ := FileTree.exists_replace ht
    (Library.collisionFree_fileMap hresult.apart) ⟨nodup_blockers current result, hblockers⟩
    (written_iff hfiles) hcontent ⟨nodup_remainingFiles current result, remaining_iff hfiles⟩
  have hobsolete : ∀ path ∈ obsoleteFiles current result, validatePath rt limits (.str path) = .ok path :=
    fun path hpath => hcurrent path (mem_obsoleteFiles.1 hpath).1
  have hdeleted : ∀ path ∈ deepestFirst (shapeBlockers current result),
      validatePath rt limits (.str path) = .ok path :=
    fun path hpath => hobsolete path (mem_shapeBlockers.1 (mem_deepestFirst.1 hpath)).1
  have hremaining : ∀ path ∈ remainingFiles current result, validatePath rt limits (.str path) = .ok path :=
    fun path hpath => hobsolete path (mem_remainingFiles.1 hpath).1
  obtain ⟨s, hs⟩ : ∃ s, (if (deepestFirst (shapeBlockers current result)).map segments = [] then t₁
    else t₁.prune) = s := ⟨_, rfl⟩
  rw [hs, List.foldlM_map] at h₂
  have hwritten : Does ((changedFiles current result).forM fun path =>
      writeFile rt limits path ((result.find? path).getD "")) s () t₂ := by
    refine does_forM (fun path hpath s s' hplace => does_writeFile ?_ ?_) h₂
    · exact hresult.paths path (mem_changedFiles.1 hpath).1
    · rw [Library.joinSegments_segments] at hplace
      exact hplace
  have hend' : Does (do
      (changedFiles current result).forM fun path => writeFile rt limits path ((result.find? path).getD "")
      (remainingFiles current result).forM (deleteFile rt limits)
      pruneEmptyDirectories) s () t₃.prune :=
    does_bind_iff.2 ⟨(), t₂, hwritten, does_bind_iff.2 ⟨(), t₃, does_deleteFiles hremaining h₃, rfl⟩⟩
  refine ⟨t₃.prune, does_bind_iff.2 ⟨(), t₁, does_deleteFiles hdeleted h₁, ?_⟩, hend, htight⟩
  have hnil : (deepestFirst (shapeBlockers current result)).map segments = [] ↔ shapeBlockers current result = [] := by
    rw [List.map_eq_nil_iff, ← List.length_eq_zero_iff, ← List.length_eq_zero_iff]
    unfold deepestFirst
    rw [List.length_insertionSort]
  cases hempty : (shapeBlockers current result).isEmpty with
  | true =>
      rw [if_pos (hnil.2 (List.isEmpty_iff.1 hempty))] at hs
      rw [hs]
      exact hend'
  | false =>
      -- the directories that the blockers leave empty go before the result is written
      rw [if_neg fun h => by rw [hnil.1 h] at hempty; cases hempty] at hs
      refine does_bind_iff.2 ⟨(), t₁.prune, rfl, ?_⟩
      rw [hs]
      exact hend'

end Writing

/-! ## Applying -/

section Applying

variable {K : Type} {rt : Runtime K} {limits : WorkspaceLimits} {t : Tree} {base files : Files}

/-- The tree holds the files, and no empty directory. -/
structure TreeHolds (t : Tree) (files : Files) : Prop where
  files : t.files = fileMap files
  tight : t.Tight

/-- The entry of `os.walk` under which a file is found. -/
def EntryOf (entry : List String × Library.Entry String) (path : String) : Prop :=
  ∃ content, entry = (segments path, .file content)

/-- Reading an entry finds its file, and leaves the others. -/
theorem readEntry_eq_ok (ht : t.files = fileMap base) {entry : List String × Library.Entry String}
    (hentry : entry ∈ t.entries.rows) {read read' : Files} (h : readEntry rt limits read entry = .ok read')
    (path : String) : (EntryOf entry path → read'.find? path = base.find? path) ∧
      (¬ EntryOf entry path → read'.find? path = read.find? path) := by
  obtain ⟨parts, e⟩ := entry
  cases e with
  | dir =>
      obtain rfl := Except.ok.inj h
      refine ⟨?_, fun _ => rfl⟩
      rintro ⟨content, heq⟩
      cases heq
  | file content =>
      have hfile : t.files parts = some content := FileTree.files_eq_some_iff.2 (Table.find?_eq_some_iff.2 hentry)
      rw [ht] at hfile
      obtain ⟨p, rfl, hp⟩ := Library.fileMap_eq_some_iff.1 hfile
      obtain ⟨safePath, hsafe, h⟩ := bind_eq_ok.1 h
      rw [Library.joinSegments_segments] at hsafe
      obtain rfl := Json.str.inj (eq_of_validatePath hsafe)
      obtain rfl := Except.ok.inj h
      rw [Table.find?_upsert_const]
      constructor
      · rintro ⟨content', heq⟩
        have hsame := Library.segments_injective (Prod.mk.inj heq).1
        rw [if_pos hsame.symm, ← hsame, hp]
      · intro hnot
        rw [if_neg]
        rintro rfl
        exact hnot ⟨content, rfl⟩

/-- **What is read** are the files that the tree holds. -/
theorem readWorkspaceFiles_eq_ok (ht : t.files = fileMap base) (h : readWorkspaceFiles rt limits t = .ok files) :
    FileSet rt limits files ∧ ∀ path, files.find? path = base.find? path := by
  obtain ⟨read, hread, h⟩ := bind_eq_ok.1 h
  obtain ⟨_, hset, h⟩ := bind_eq_ok.1 h
  obtain rfl := Except.ok.inj h
  refine ⟨fileSet_of_validate hset, fun path => ?_⟩
  have hdisjoint : t.entries.rows.Pairwise fun a b => ∀ path, EntryOf a path → ¬ EntryOf b path := by
    refine (List.pairwise_map.1 t.entries.nodup).imp fun {a b} hne path ha hb => hne ?_
    obtain ⟨c, rfl⟩ := ha
    obtain ⟨c', rfl⟩ := hb
    rfl
  obtain ⟨hfound, hmissed⟩ := @foldlM_once _ _ _ String (Option String) _ (fun files path => files.find? path) EntryOf
    (fun path _ new => new = base.find? path) _ _ _ hread
    (fun s entry s' hentry hstep path => readEntry_eq_ok ht hentry hstep path) hdisjoint path
  by_cases hentry : ∃ entry ∈ t.entries.rows, EntryOf entry path
  · exact hfound hentry
  · rw [hmissed fun entry hmem hof => hentry ⟨entry, hmem, hof⟩]
    -- a file without an entry is none
    refine ((Option.eq_none_iff_forall_ne_some).2 fun content hcontent => hentry ?_).symm
    have hfile : t.files (segments path) = some content := by
      rw [ht, Library.fileMap_segments]
      exact hcontent
    exact ⟨_, Table.find?_eq_some_iff.1 (FileTree.files_eq_some_iff.1 hfile), content, rfl⟩

/-- Files that cannot be read back are refused. -/
theorem raises_readWorkspaceFiles : Raises Refusal (readWorkspaceFiles rt limits t) := by
  unfold readWorkspaceFiles
  refine raises_bind (raises_foldlM fun _ entry => ?_) fun _ => raises_bind raises_validateFileSet fun _ => raises_pure
  unfold readEntry
  split
  · exact raises_pure
  · exact raises_bind raises_validatePath fun _ => raises_pure

/-- What a review says about the plan it is the review of. -/
structure ReviewOf (rt : Runtime K) (unifiedDiff : UnifiedDiff) (planned : List PlannedChange)
    (review : PatchReview) : Prop where
  changes : review.changedFiles = planned.map (reviewedChange rt)
  diff : review.unifiedDiff = buildUnifiedDiff unifiedDiff planned

/-- **An apply** is refused and leaves the tree as it was, or leaves the files that were planned. -/
theorem apply_cases (ht : TreeHolds t base) (unifiedDiff : UnifiedDiff) (proposal : ProposedPatch) :
    (∃ e, Refusal e ∧ (apply rt limits unifiedDiff proposal).runFrom t = (.error e, t)) ∨
      ∃ current planned result review t', (apply rt limits unifiedDiff proposal).runFrom t = (.ok review, t') ∧
        readWorkspaceFiles rt limits t = .ok current ∧ (∀ path, current.find? path = base.find? path) ∧
        planChanges rt limits proposal current = .ok (planned, result) ∧ TreeHolds t' result ∧
        ReviewOf rt unifiedDiff planned review := by
  unfold apply
  rw [runFrom_bind, runFrom_get]
  dsimp only
  rw [runFrom_bind, runFrom_lift]
  cases hread : readWorkspaceFiles rt limits t with
  | error e => exact .inl ⟨e, raises_readWorkspaceFiles e hread, rfl⟩
  | ok current =>
      obtain ⟨hset, hcurrent⟩ := readWorkspaceFiles_eq_ok ht.files hread
      dsimp only
      rw [runFrom_bind, runFrom_lift]
      cases hplan : planChanges rt limits proposal current with
      | error e => exact .inl ⟨e, raises_planChanges e hplan, rfl⟩
      | ok plan =>
          obtain ⟨planned, result⟩ := plan
          obtain ⟨-, hresult, -⟩ := planned_of_planChanges hplan
          dsimp only
          rw [runFrom_bind, runFrom_lift]
          cases hdiff : refuse (limits.maxDiffBytes < (buildUnifiedDiff unifiedDiff planned).utf8ByteSize)
              ("generated unified diff exceeds max_diff_bytes (" ++ toString limits.maxDiffBytes ++ ")") with
          | error e => exact .inl ⟨e, raises_refuse e hdiff, rfl⟩
          | ok u =>
              have hheld : t.files = fileMap current := by
                rw [ht.files]
                exact (Library.fileMap_congr hcurrent).symm
              obtain ⟨t', hwrite, hfiles, htight⟩ :=
                does_writeResultFiles ht.tight hheld hset.paths hresult
              dsimp only
              rw [runFrom_bind, show (writeResultFiles rt limits current result).runFrom t = (.ok (), t') from hwrite]
              exact .inr ⟨current, planned, result, _, t', rfl, rfl, hcurrent, hplan, ⟨hfiles, htight⟩, rfl, rfl⟩

/-- A new workspace is refused, or holds the base files. -/
theorem createWorkspace_cases (baseFiles : Files) :
    (∃ e, (createWorkspace rt limits baseFiles).runFrom FileTree.empty = (.error e, FileTree.empty)) ∨
      ∃ t, (createWorkspace rt limits baseFiles).runFrom FileTree.empty = (.ok (), t) ∧ TreeHolds t baseFiles ∧
        FileSet rt limits baseFiles := by
  unfold createWorkspace
  rw [runFrom_bind, runFrom_lift]
  cases hbase : normalizeBaseFiles rt limits baseFiles with
  | error e => exact .inl ⟨e, rfl⟩
  | ok normalized =>
      obtain ⟨_, -, h⟩ := bind_eq_ok.1 hbase
      obtain ⟨_, hset, h⟩ := bind_eq_ok.1 h
      obtain rfl := Except.ok.inj h
      have hempty : (FileTree.empty : Tree).files = fileMap Table.empty := by
        funext parts
        unfold fileMap
        split_ifs <;> rfl
      have htight : (FileTree.empty : Tree).Tight := fun d hd => by cases hd
      obtain ⟨t, hwrite, hfiles, htight⟩ := does_writeResultFiles htight hempty
        (fun p hp => by cases hp) (fileSet_of_validate hset)
      exact .inr ⟨t, hwrite, ⟨hfiles, htight⟩, fileSet_of_validate hset⟩

end Applying

end GitHub
end PulseGraph
