/-
# Planning a patch

The checks and `_plan_changes` of `src/github_integration/workspace.py`.  The fields of a proposal
are what a caller put there, so that every `isinstance` of the source has its branch.

**Proved here.**  `planned_of_planChanges`: what a plan that is accepted says about the files before
and after it; `fileSet_of_validate`: what a file set that is accepted is.
-/

import PulseGraph.GitHub.Payload
import PulseGraph.Library.PathText

namespace PulseGraph
namespace GitHub

open Library (Json Table raiseIf raiseIf_eq_ok bind_eq_ok foldlM_ok_of_mem forM_ok_of_mem segments ancestors
  startsWithDir Raises raises_pure raises_throw raises_raiseIf raises_bind raises_foldlM raises_forM)

/-- What the patch pipeline raises. -/
inductive PatchError where
  /-- `OllamaLocalError(detail)`. -/
  | ollama (detail : String)
  /-- `PatchValidationError(detail)`. -/
  | validation (detail : String)
  /-- `PatchConflictError(detail)`. -/
  | conflict (detail : String)
  /-- `PatchWorkspaceError(detail)` itself. -/
  | workspace (detail : String)
  /-- An exception of the language, such as `TypeError`. -/
  | other
  deriving DecidableEq, Repr

/-- `if p: raise PatchValidationError(detail)`. -/
def refuse (p : Prop) [Decidable p] (detail : String) : Except PatchError Unit := raiseIf p (.validation detail)

/-- `ChangeAction`. -/
inductive ChangeAction where
  | create
  | update
  | delete
  deriving DecidableEq, Repr

/-- `ChangeAction.value`. -/
def ChangeAction.value : ChangeAction → String
  | .create => "create"
  | .update => "update"
  | .delete => "delete"

/-- `change.action`: a member of the enumeration, or the value that a proposal carries. -/
inductive RawAction where
  | member (action : ChangeAction)
  | raw (value : Json)

/-- The action inside a message. -/
def RawAction.text : RawAction → String
  | .member .create => "ChangeAction.CREATE"
  | .member .update => "ChangeAction.UPDATE"
  | .member .delete => "ChangeAction.DELETE"
  | .raw (.str s) => s
  | .raw _ => ""

/-- `WorkspaceLimits`, positive integers. -/
structure WorkspaceLimits where
  maxFileCount : ℕ := 500
  maxChanges : ℕ := 100
  maxFileBytes : ℕ := 512 * 1024
  maxTotalBytes : ℕ := 5 * 1024 * 1024
  maxPatchBytes : ℕ := 1 * 1024 * 1024
  maxDiffBytes : ℕ := 2 * 1024 * 1024
  maxPathLength : ℕ := 240
  positive : 0 < maxFileCount ∧ 0 < maxChanges ∧ 0 < maxFileBytes ∧ 0 < maxTotalBytes ∧
    0 < maxPatchBytes ∧ 0 < maxDiffBytes ∧ 0 < maxPathLength := by decide

/-- `WorkspaceLimits()`, what a workspace has where none are given. -/
def WorkspaceLimits.standard : WorkspaceLimits := {}

/-- `ProposedFileChange`. -/
structure ProposedFileChange where
  path : Json
  action : RawAction
  content : Json := .null
  expectedSha256 : Json := .null
  explanation : Json := .null

/-- `ProposedPatch`. -/
structure ProposedPatch where
  patchId : Json
  summary : Json
  changes : List ProposedFileChange
  rationale : Json := .null

/-- `_PlannedChange`. -/
structure PlannedChange where
  change : ProposedFileChange
  action : ChangeAction
  path : String
  before : Option String
  after : Option String

/-- `ReviewedFileChange`. -/
structure ReviewedFileChange where
  path : String
  action : ChangeAction
  beforeSha256 : Option String
  afterSha256 : Option String
  beforeBytes : ℕ
  afterBytes : ℕ
  explanation : Json

/-- The counts in `PatchReview.metadata`. -/
structure ReviewMetadata where
  baseFileCount : ℕ
  resultFileCount : ℕ
  baseTotalBytes : ℕ
  resultTotalBytes : ℕ
  changedFileCount : ℕ
  diffBytes : ℕ

/-- `PatchReview`. -/
structure PatchReview where
  patchId : Json
  summary : Json
  rationale : Json
  changedFiles : List ReviewedFileChange
  unifiedDiff : String
  metadata : ReviewMetadata

/-- Texts under their paths. -/
abbrev Files := Table String String

/-! ## Checks -/

section Checks

variable {K : Type} (rt : Runtime K) (limits : WorkspaceLimits)

/-- `_validate_metadata_text`. -/
def validateMetadataText (value : Json) (name : String) (maximum : ℕ) : Except PatchError Unit :=
  match value with
  | .str s => do
      refuse (rt.strip s = "" ∨ maximum < s.length)
        (name ++ " must be non-empty text no longer than " ++ toString maximum ++ " characters")
      refuse ((s.toList.any fun c => c.toNat < 32 ∧ c ≠ '\n' ∧ c ≠ '\r' ∧ c ≠ '\t') = true)
        (name ++ " contains an unsafe control character")
  | _ => throw (.validation
      (name ++ " must be non-empty text no longer than " ++ toString maximum ++ " characters"))

/-- `if value is not None: _validate_metadata_text(value, name, maximum=maximum)`. -/
def validateOptionalText (value : Json) (name : String) (maximum : ℕ) : Except PatchError Unit :=
  match value with
  | .null => return
  | value => validateMetadataText rt value name maximum

/-- The digits of a number to the base sixteen. -/
def isBase16Digit (c : Char) : Bool := c.isDigit || ('a' ≤ c && c ≤ 'f') || ('A' ≤ c && c ≤ 'F')

/-- What `int(value, 16)` reads: blanks, a sign and `0x` around digits, single underscores
between them. -/
def isBase16 (value : String) : Bool :=
  let cs := (rt.strip value).toList
  let cs := if cs.head? = some '-' || cs.head? = some '+' then cs.tail else cs
  let cs := match cs with
    | '0' :: x :: '_' :: d :: rest => if x = 'x' || x = 'X' then d :: rest else cs
    | '0' :: x :: rest => if x = 'x' || x = 'X' then rest else cs
    | cs => cs
  let digits := dropUnderscores cs
  digits != [] && digits.all isBase16Digit

/-- `_normalize_sha256`. -/
def normalizeSha256 (value : Json) : Except PatchError (Option String) :=
  match value with
  | .null => return none
  | .str s => do
      refuse (s.length ≠ 64) "expected_sha256 must be a 64-character hexadecimal SHA-256 digest"
      refuse (isBase16 rt s = false) "expected_sha256 must be a 64-character hexadecimal SHA-256 digest"
      return some (rt.lower s)
  | _ => throw (.validation "expected_sha256 must be a 64-character hexadecimal SHA-256 digest")

/-- `_is_windows_reserved_name`. -/
def isWindowsReservedName (pathPart : String) : Bool :=
  let stripped := (pathPart.toList.reverse.dropWhile fun c => c = '.' || c = ' ').reverse
  let normalized := (rt.upper (String.ofList (stripped.takeWhile (· ≠ '.')))).toList
  decide (String.ofList normalized ∈ ["CON", "PRN", "AUX", "NUL", "CLOCK$"]) ||
    (normalized.length == 4 && decide (String.ofList (normalized.take 3) ∈ ["COM", "LPT"]) &&
      normalized[3]?.any fun c => '1' ≤ c && c ≤ '9')

/-- `PureWindowsPath(raw_path).is_absolute()` of a path that does not begin with a slash. -/
def isWindowsAbsolute (rawPath : String) : Bool :=
  rawPath.toList[1]? = some ':' && rawPath.toList[2]? = some '/'

/-- `_validate_path`. -/
def validatePath (rawPath : Json) : Except PatchError String :=
  match rawPath with
  | .str path => do
      refuse (path = "" ∨ limits.maxPathLength < path.length) "file path is empty or exceeds max_path_length"
      refuse (limits.maxPathLength < path.utf8ByteSize) "file path UTF-8 length exceeds max_path_length"
      refuse (Char.ofNat 0 ∈ path.toList ∨ '\\' ∈ path.toList)
        "file path must be a NUL-free, POSIX-style relative path"
      refuse ((path.toList.any fun c => c.toNat < 32) = true) "file path cannot contain control characters"
      refuse (path.toList.head? = some '/' ∨ isWindowsAbsolute path = true)
        "absolute file paths are not allowed"
      refuse (∃ part ∈ segments path, part = "" ∨ part = "." ∨ part = "..")
        "file path cannot contain empty, dot, or parent segments"
      refuse (∃ part ∈ segments path, part.toList.getLast? = some '.' ∨ part.toList.getLast? = some ' ')
        "file path segments cannot end with a dot or space"
      refuse (∃ part ∈ segments path, ':' ∈ part.toList) "file path cannot contain a colon"
      refuse (∃ part ∈ segments path, isWindowsReservedName rt part = true)
        "file path uses a Windows-reserved filename"
      return path
  | _ => throw (.validation "file path must be a string")

/-- `_coerce_action`. -/
def coerceAction (rawAction : RawAction) : Except PatchError ChangeAction :=
  match rawAction with
  | .member action => return action
  | .raw (.str "create") => return .create
  | .raw (.str "update") => return .update
  | .raw (.str "delete") => return .delete
  | .raw _ => throw (.validation "change action must be one of: create, update, delete")

/-- `_require_change_content`. -/
def requireChangeContent (change : ProposedFileChange) (path : String) : Except PatchError String :=
  match change.content with
  | .str content => do
      refuse (limits.maxFileBytes < content.utf8ByteSize) ("proposal file " ++ path ++
        " exceeds max_file_bytes (" ++ toString limits.maxFileBytes ++ ")")
      return content
  | _ => throw (.validation (change.action.text ++ " change requires string content: " ++ path))

/-- `_verify_expected_sha256`. -/
def verifyExpectedSha256 (path before : String) (expectedSha256 : Option String) : Except PatchError Unit :=
  raiseIf (expectedSha256.any (· ≠ rt.sha256 before) = true)
    (.conflict ("source hash no longer matches expected_sha256 for " ++ path))

/-- `_ensure_no_file_directory_collision`. -/
def ensureNoFileDirectoryCollision (path : String) (files : Files) : Except PatchError Unit := do
  raiseIf (∃ ancestor ∈ ancestors path, (files.find? ancestor).isSome = true)
    (.conflict ("cannot create " ++ path ++ "; an ancestor is already a file"))
  raiseIf (∃ row ∈ files.rows, startsWithDir path row.1 = true)
    (.conflict ("cannot create " ++ path ++ "; it is already a directory"))

/-- `_validate_no_file_directory_collisions`. -/
def validateNoFileDirectoryCollisions (files : Files) : Except PatchError Unit :=
  files.rows.forM fun row =>
    refuse (∃ ancestor ∈ ancestors row.1, (files.find? ancestor).isSome = true)
      ("a file and directory share the same path prefix: " ++ row.1)

/-- One file of `_validate_file_set`, after those before it. -/
def addFileSize (context : String) (totalBytes : ℕ) (row : String × String) : Except PatchError ℕ := do
  let _ ← validatePath rt limits (.str row.1)
  let size := row.2.utf8ByteSize
  refuse (limits.maxFileBytes < size) (context ++ " file " ++ row.1 ++
    " exceeds max_file_bytes (" ++ toString limits.maxFileBytes ++ ")")
  refuse (limits.maxTotalBytes < totalBytes + size) (context ++
    " exceed max_total_bytes (" ++ toString limits.maxTotalBytes ++ ")")
  return totalBytes + size

/-- `_validate_file_set`. -/
def validateFileSet (files : Files) (context : String) : Except PatchError Unit := do
  refuse (limits.maxFileCount < files.rows.length) (context ++
    " exceed max_file_count (" ++ toString limits.maxFileCount ++ ")")
  let _ ← files.rows.foldlM (addFileSize rt limits context) 0
  validateNoFileDirectoryCollisions files

/-- `_normalize_base_files`, of texts: no two keys of a table are one path. -/
def normalizeBaseFiles (baseFiles : Files) : Except PatchError Files := do
  baseFiles.rows.forM fun row => do
    let _ ← validatePath rt limits (.str row.1)
  validateFileSet rt limits baseFiles "base files"
  return baseFiles

end Checks

/-! ## Planning -/

section Planning

variable {K : Type} (rt : Runtime K) (limits : WorkspaceLimits)

/-- The variables of the loop of `_plan_changes`. -/
structure Planning where
  result : Files
  planned : List PlannedChange := []
  seenPaths : List String := []
  patchContentBytes : ℕ := 0

/-- `result[path] = after`, or `del result[path]`. -/
def putAfter (path : String) (after : Option String) (result : Files) : Files :=
  match after with
  | some content => result.upsert path content fun _ => content
  | none => result.delete fun k _ => k = path

/-- The branches of the three actions: what stands under the path afterwards. -/
def afterChange (change : ProposedFileChange) (action : ChangeAction) (path : String)
    (expectedSha256 : Option String) (result : Files) : Except PatchError (Option String) :=
  match action, result.find? path with
  | .create, some _ => throw (.conflict ("cannot create existing file: " ++ path))
  | .create, none => do
      refuse (expectedSha256.isSome = true) "create changes cannot set expected_sha256"
      ensureNoFileDirectoryCollision path result
      return some (← requireChangeContent limits change path)
  | .update, none => throw (.conflict ("cannot update missing file: " ++ path))
  | .update, some before => do
      verifyExpectedSha256 rt path before expectedSha256
      let after ← requireChangeContent limits change path
      refuse (after = before) ("update does not change file contents: " ++ path)
      return some after
  | .delete, none => throw (.conflict ("cannot delete missing file: " ++ path))
  | .delete, some before => do
      verifyExpectedSha256 rt path before expectedSha256
      match change.content with
      | .null => return none
      | _ => throw (.validation "delete changes must not include content")

/-- One iteration of the loop of `_plan_changes`. -/
def planChange (s : Planning) (change : ProposedFileChange) : Except PatchError Planning := do
  let path ← validatePath rt limits change.path
  refuse (path ∈ s.seenPaths) ("proposal changes the same path more than once: " ++ path)
  let action ← coerceAction change.action
  let before := s.result.find? path
  let expectedSha256 ← normalizeSha256 rt change.expectedSha256
  validateOptionalText rt change.explanation ("explanation for " ++ path) 4000
  let after ← afterChange rt limits change action path expectedSha256 s.result
  let patchContentBytes := s.patchContentBytes + (after.map String.utf8ByteSize).getD 0
  refuse (limits.maxPatchBytes < patchContentBytes)
    ("proposal content exceeds max_patch_bytes (" ++ toString limits.maxPatchBytes ++ ")")
  return { result := putAfter path after s.result, planned := s.planned ++ [⟨change, action, path, before, after⟩],
           seenPaths := s.seenPaths ++ [path], patchContentBytes := patchContentBytes }

/-- `_plan_changes`. -/
def planChanges (proposal : ProposedPatch) (currentFiles : Files) :
    Except PatchError (List PlannedChange × Files) := do
  validateMetadataText rt proposal.patchId "patch_id" 128
  validateMetadataText rt proposal.summary "summary" 2000
  validateOptionalText rt proposal.rationale "rationale" 8000
  refuse (proposal.changes.isEmpty = true) "proposal must contain at least one change"
  refuse (limits.maxChanges < proposal.changes.length)
    ("proposal has more than max_changes (" ++ toString limits.maxChanges ++ ")")
  let s ← proposal.changes.foldlM (planChange rt limits) { result := currentFiles }
  validateFileSet rt limits s.result "resulting files"
  return (s.planned, s.result)

end Planning

/-! ## What is accepted -/

section Accepted

variable {K : Type} {rt : Runtime K} {limits : WorkspaceLimits}

theorem refuse_eq_ok {p : Prop} [Decidable p] {detail : String} {u : Unit} :
    refuse p detail = .ok u ↔ ¬ p := raiseIf_eq_ok

/-- A path that is accepted is a text, and is kept. -/
theorem eq_of_validatePath {raw : Json} {path : String} (h : validatePath rt limits raw = .ok path) :
    raw = .str path := by
  cases raw with
  | str s =>
      obtain ⟨_, -, h⟩ := bind_eq_ok.1 h
      obtain ⟨_, -, h⟩ := bind_eq_ok.1 h
      obtain ⟨_, -, h⟩ := bind_eq_ok.1 h
      obtain ⟨_, -, h⟩ := bind_eq_ok.1 h
      obtain ⟨_, -, h⟩ := bind_eq_ok.1 h
      obtain ⟨_, -, h⟩ := bind_eq_ok.1 h
      obtain ⟨_, -, h⟩ := bind_eq_ok.1 h
      obtain ⟨_, -, h⟩ := bind_eq_ok.1 h
      obtain ⟨_, -, h⟩ := bind_eq_ok.1 h
      rw [Except.ok.inj h]
  | _ => cases h

/-- The checks of `_validate_path`, one after the other. -/
theorem validatePath_eq_ok_iff {path : String} : validatePath rt limits (.str path) = .ok path ↔
    (path ≠ "" ∧ path.length ≤ limits.maxPathLength) ∧ path.utf8ByteSize ≤ limits.maxPathLength ∧
      (Char.ofNat 0 ∉ path.toList ∧ '\\' ∉ path.toList) ∧ (∀ c ∈ path.toList, 32 ≤ c.toNat) ∧
      (path.toList.head? ≠ some '/' ∧ isWindowsAbsolute path = false) ∧
      (∀ part ∈ segments path, part ≠ "" ∧ part ≠ "." ∧ part ≠ "..") ∧
      (∀ part ∈ segments path, part.toList.getLast? ≠ some '.' ∧ part.toList.getLast? ≠ some ' ') ∧
      (∀ part ∈ segments path, ':' ∉ part.toList) ∧
      ∀ part ∈ segments path, isWindowsReservedName rt part = false := by
  simp only [validatePath, bind_eq_ok, refuse_eq_ok, exists_and_left, exists_const, not_or, not_lt, not_exists,
    not_and, Bool.not_eq_true, List.any_eq_false, decide_eq_true_eq, and_true,
    show (pure path : Except PatchError String) = .ok path from rfl]

/-- A set of files that can stand in a workspace: each path is accepted, and none lies beneath another. -/
structure FileSet (rt : Runtime K) (limits : WorkspaceLimits) (files : Files) : Prop where
  paths : ∀ p, (files.find? p).isSome = true → validatePath rt limits (.str p) = .ok p
  apart : ∀ p q, (files.find? p).isSome = true → (files.find? q).isSome = true → p ∉ ancestors q

/-- Every file of a table is looked at by a loop over its rows. -/
theorem exists_row {files : Files} {p : String} (h : (files.find? p).isSome = true) :
    ∃ row ∈ files.rows, row.1 = p := by
  obtain ⟨c, hc⟩ := Option.isSome_iff_exists.1 h
  exact ⟨(p, c), Table.find?_eq_some_iff.1 hc, rfl⟩

/-- **A file set that is accepted** can stand in a workspace. -/
theorem fileSet_of_validate {files : Files} {context : String}
    (h : validateFileSet rt limits files context = .ok ()) : FileSet rt limits files := by
  obtain ⟨_, -, h⟩ := bind_eq_ok.1 h
  obtain ⟨total, hsizes, hapart⟩ := bind_eq_ok.1 h
  constructor
  · intro p hp
    obtain ⟨row, hrow, rfl⟩ := exists_row hp
    obtain ⟨before, after, hadd⟩ := foldlM_ok_of_mem hsizes hrow
    obtain ⟨path, hpath, -⟩ := bind_eq_ok.1 hadd
    have hsame := Library.Json.str.inj (eq_of_validatePath hpath)
    rw [← hsame] at hpath
    exact hpath
  · intro p q hp hq hmem
    obtain ⟨row, hrow, rfl⟩ := exists_row hq
    unfold validateNoFileDirectoryCollisions at hapart
    have hcheck := @forM_ok_of_mem _ _ _ files.rows row hapart hrow
    exact refuse_eq_ok.1 hcheck ⟨p, hmem, hp⟩

theorem find?_putAfter {path p : String} {after : Option String} {files : Files} :
    (putAfter path after files).find? p = if p = path then after else files.find? p := by
  cases after with
  | some content => exact Table.find?_upsert_const
  | none =>
      unfold putAfter
      rw [Table.find?_delete]
      split_ifs with h
      · subst h
        cases files.find? p <;> simp
      · cases files.find? p <;> simp [h]

/-- What was checked of a change before it was planned. -/
structure SoundChange (rt : Runtime K) (base : Files) (item : PlannedChange) : Prop where
  path : item.change.path = .str item.path
  action : coerceAction item.change.action = .ok item.action
  before : item.before = base.find? item.path
  expected : ∀ sha text, normalizeSha256 rt item.change.expectedSha256 = .ok (some sha) →
    item.before = some text → rt.sha256 text = sha
  shape : (item.action = .create ∧ item.before = none ∧
      ∃ c, item.change.content = .str c ∧ item.after = some c) ∨
    (item.action = .update ∧ ∃ b c, item.before = some b ∧ item.change.content = .str c ∧
      item.after = some c ∧ c ≠ b) ∨
    item.action = .delete ∧ (∃ b, item.before = some b) ∧ item.change.content = .null ∧ item.after = none

/-- What a plan says about the files before and after it. -/
structure Planned (rt : Runtime K) (base result : Files) (planned : List PlannedChange) : Prop where
  distinct : (planned.map (·.path)).Nodup
  sound : ∀ item ∈ planned, SoundChange rt base item
  after : ∀ item ∈ planned, result.find? item.path = item.after
  others : ∀ p, p ∉ planned.map (·.path) → result.find? p = base.find? p

theorem eq_of_requireChangeContent {change : ProposedFileChange} {path content : String}
    (h : requireChangeContent limits change path = .ok content) : change.content = .str content := by
  unfold requireChangeContent at h
  split at h
  · next c hc =>
      obtain ⟨_, -, h⟩ := bind_eq_ok.1 h
      rw [hc, Except.ok.inj h]
  · cases h

theorem verifyExpectedSha256_eq_ok {path before : String} {expected : Option String} {u : Unit} :
    verifyExpectedSha256 rt path before expected = .ok u ↔ ∀ sha, expected = some sha → rt.sha256 before = sha := by
  unfold verifyExpectedSha256
  rw [raiseIf_eq_ok]
  cases expected with
  | none => simp
  | some sha =>
      simp only [Option.any_some, decide_eq_true_eq, not_not, Option.some.injEq]
      constructor
      · rintro rfl _ rfl
        rfl
      · intro h
        exact (h sha rfl).symm

/-- The three branches, one case for each. -/
theorem afterChange_cases {change : ProposedFileChange} {action : ChangeAction} {path : String}
    {expected after : Option String} {files : Files}
    (h : afterChange rt limits change action path expected files = .ok after) :
    (∀ sha text, expected = some sha → files.find? path = some text → rt.sha256 text = sha) ∧
    ((action = .create ∧ files.find? path = none ∧ ∃ c, change.content = .str c ∧ after = some c) ∨
      (action = .update ∧ ∃ b c, files.find? path = some b ∧ change.content = .str c ∧ after = some c ∧ c ≠ b) ∨
      action = .delete ∧ (∃ b, files.find? path = some b) ∧ change.content = .null ∧ after = none) := by
  cases hfind : files.find? path with
  | none =>
      cases action with
      | create =>
          simp only [afterChange, hfind] at h
          obtain ⟨_, -, h⟩ := bind_eq_ok.1 h
          obtain ⟨_, -, h⟩ := bind_eq_ok.1 h
          obtain ⟨c, hc, h⟩ := bind_eq_ok.1 h
          refine ⟨fun _ _ _ htext => absurd htext (by simp), .inl ⟨rfl, rfl, c, ?_, (Except.ok.inj h).symm⟩⟩
          exact eq_of_requireChangeContent hc
      | update =>
          simp only [afterChange, hfind] at h
          cases h
      | delete =>
          simp only [afterChange, hfind] at h
          cases h
  | some b =>
      cases action with
      | create =>
          simp only [afterChange, hfind] at h
          cases h
      | update =>
          simp only [afterChange, hfind] at h
          obtain ⟨_, hsha, h⟩ := bind_eq_ok.1 h
          obtain ⟨c, hc, h⟩ := bind_eq_ok.1 h
          obtain ⟨_, hne, h⟩ := bind_eq_ok.1 h
          constructor
          · rintro sha text hexpected ⟨⟩
            exact verifyExpectedSha256_eq_ok.1 hsha sha hexpected
          · exact .inr (.inl ⟨rfl, b, c, rfl, eq_of_requireChangeContent hc, (Except.ok.inj h).symm,
              refuse_eq_ok.1 hne⟩)
      | delete =>
          simp only [afterChange, hfind] at h
          obtain ⟨_, hsha, h⟩ := bind_eq_ok.1 h
          constructor
          · rintro sha text hexpected ⟨⟩
            exact verifyExpectedSha256_eq_ok.1 hsha sha hexpected
          · split at h
            · next hcontent => exact .inr (.inr ⟨rfl, ⟨b, rfl⟩, hcontent, (Except.ok.inj h).symm⟩)
            · cases h

/-- **One change more.**  An iteration plans a change of a path that was not planned before. -/
theorem Planned.planChange {base : Files} {s s' : Planning} {change : ProposedFileChange}
    (hp : Planned rt base s.result s.planned) (hseen : s.seenPaths = s.planned.map (·.path))
    (h : planChange rt limits s change = .ok s') :
    Planned rt base s'.result s'.planned ∧ s'.seenPaths = s'.planned.map (·.path) ∧
      ∃ item, s'.planned = s.planned ++ [item] ∧ item.change = change := by
  unfold GitHub.planChange at h
  obtain ⟨path, hpath, h⟩ := bind_eq_ok.1 h
  obtain ⟨_, hnew, h⟩ := bind_eq_ok.1 h
  obtain ⟨action, haction, h⟩ := bind_eq_ok.1 h
  obtain ⟨expected, hexpected, h⟩ := bind_eq_ok.1 h
  obtain ⟨_, -, h⟩ := bind_eq_ok.1 h
  obtain ⟨after, hafter, h⟩ := bind_eq_ok.1 h
  obtain ⟨_, -, h⟩ := bind_eq_ok.1 h
  obtain rfl := Except.ok.inj h
  rw [refuse_eq_ok, hseen] at hnew
  have hbefore : s.result.find? path = base.find? path := hp.others path hnew
  obtain ⟨hsha, hshape⟩ := afterChange_cases hafter
  refine ⟨⟨?_, ?_, ?_, ?_⟩, ?_, _, rfl, rfl⟩
  · rw [List.map_append, List.nodup_append]
    refine ⟨hp.distinct, List.nodup_singleton _, ?_⟩
    rintro p hmem q hq rfl
    rw [List.map_singleton, List.mem_singleton] at hq
    subst hq
    exact hnew hmem
  · intro item hitem
    rcases List.mem_append.1 hitem with hold | hitem
    · exact hp.sound item hold
    · obtain rfl := List.mem_singleton.1 hitem
      refine ⟨eq_of_validatePath hpath, haction, hbefore, fun sha text hsome htext => ?_, hshape⟩
      rw [hexpected] at hsome
      exact hsha sha text (Except.ok.inj hsome) htext
  · intro item hitem
    rw [find?_putAfter]
    rcases List.mem_append.1 hitem with hold | hitem
    · rw [if_neg]
      · exact hp.after item hold
      · rintro rfl
        exact hnew (List.mem_map_of_mem hold)
    · obtain rfl := List.mem_singleton.1 hitem
      exact if_pos rfl
  · intro p hp'
    rw [List.map_append, List.mem_append, not_or, List.map_singleton, List.mem_singleton] at hp'
    rw [find?_putAfter, if_neg hp'.2]
    exact hp.others p hp'.1
  · rw [hseen, List.map_append]
    rfl

/-- The changes are planned in order. -/
theorem Planned.foldlM_planChange {base : Files} {changes : List ProposedFileChange} {s s' : Planning}
    (hp : Planned rt base s.result s.planned) (hseen : s.seenPaths = s.planned.map (·.path))
    (h : changes.foldlM (GitHub.planChange rt limits) s = .ok s') :
    Planned rt base s'.result s'.planned ∧ s'.planned.map (·.change) = s.planned.map (·.change) ++ changes := by
  induction changes generalizing s with
  | nil =>
      obtain rfl := Except.ok.inj h
      exact ⟨hp, (List.append_nil _).symm⟩
  | cons change changes ih =>
      rw [List.foldlM_cons] at h
      obtain ⟨next, hstep, hrest⟩ := bind_eq_ok.1 h
      obtain ⟨hp', hseen', item, hplanned, rfl⟩ := hp.planChange hseen hstep
      obtain ⟨hend, hchanges⟩ := ih hp' hseen' hrest
      refine ⟨hend, ?_⟩
      rw [hchanges, hplanned, List.map_append, List.append_assoc]
      rfl

/-- **A plan that is accepted**: what it says, that its files can stand in a workspace, and that it is of the
changes that were proposed. -/
theorem planned_of_planChanges {proposal : ProposedPatch} {base result : Files} {planned : List PlannedChange}
    (h : planChanges rt limits proposal base = .ok (planned, result)) :
    Planned rt base result planned ∧ FileSet rt limits result ∧ planned.map (·.change) = proposal.changes := by
  unfold planChanges at h
  obtain ⟨_, -, h⟩ := bind_eq_ok.1 h
  obtain ⟨_, -, h⟩ := bind_eq_ok.1 h
  obtain ⟨_, -, h⟩ := bind_eq_ok.1 h
  obtain ⟨_, -, h⟩ := bind_eq_ok.1 h
  obtain ⟨_, -, h⟩ := bind_eq_ok.1 h
  obtain ⟨s, hloop, h⟩ := bind_eq_ok.1 h
  obtain ⟨_, hset, h⟩ := bind_eq_ok.1 h
  obtain ⟨rfl, rfl⟩ := Prod.mk.inj (Except.ok.inj h)
  have hstart : Planned rt base base [] :=
    ⟨List.nodup_nil, fun _ h => absurd h List.not_mem_nil, fun _ h => absurd h List.not_mem_nil, fun _ _ => rfl⟩
  obtain ⟨hplanned, hchanges⟩ := hstart.foldlM_planChange rfl hloop
  exact ⟨hplanned, fileSet_of_validate hset, hchanges⟩

end Accepted

/-! ## What is raised -/

section Raised

variable {K : Type} {rt : Runtime K} {limits : WorkspaceLimits}

/-- The errors by which a proposal is refused. -/
inductive Refusal : PatchError → Prop
  | validation (detail : String) : Refusal (.validation detail)
  | conflict (detail : String) : Refusal (.conflict detail)

theorem raises_refuse {p : Prop} [Decidable p] {detail : String} : Raises Refusal (refuse p detail) :=
  raises_raiseIf (.validation detail)

theorem raises_validateMetadataText {value : Json} {name : String} {maximum : ℕ} :
    Raises Refusal (validateMetadataText rt value name maximum) := by
  unfold validateMetadataText
  split
  · exact raises_bind raises_refuse fun _ => raises_refuse
  · exact raises_throw (.validation _)

theorem raises_validateOptionalText {value : Json} {name : String} {maximum : ℕ} :
    Raises Refusal (validateOptionalText rt value name maximum) := by
  unfold validateOptionalText
  split
  · exact raises_pure
  · exact raises_validateMetadataText

theorem raises_normalizeSha256 {value : Json} : Raises Refusal (normalizeSha256 rt value) := by
  unfold normalizeSha256
  split
  · exact raises_pure
  · exact raises_bind raises_refuse fun _ => raises_bind raises_refuse fun _ => raises_pure
  · exact raises_throw (.validation _)

theorem raises_validatePath {rawPath : Json} : Raises Refusal (validatePath rt limits rawPath) := by
  unfold validatePath
  split
  · refine raises_bind raises_refuse fun _ => raises_bind raises_refuse fun _ => raises_bind raises_refuse fun _ => ?_
    refine raises_bind raises_refuse fun _ => raises_bind raises_refuse fun _ => raises_bind raises_refuse fun _ => ?_
    refine raises_bind raises_refuse fun _ => raises_bind raises_refuse fun _ => raises_bind raises_refuse fun _ => ?_
    exact raises_pure
  · exact raises_throw (.validation _)

theorem raises_coerceAction {rawAction : RawAction} : Raises Refusal (coerceAction rawAction) := by
  unfold coerceAction
  split
  · exact raises_pure
  · exact raises_pure
  · exact raises_pure
  · exact raises_pure
  · exact raises_throw (.validation _)

theorem raises_requireChangeContent {change : ProposedFileChange} {path : String} :
    Raises Refusal (requireChangeContent limits change path) := by
  unfold requireChangeContent
  split
  · exact raises_bind raises_refuse fun _ => raises_pure
  · exact raises_throw (.validation _)

theorem raises_verifyExpectedSha256 {path before : String} {expectedSha256 : Option String} :
    Raises Refusal (verifyExpectedSha256 rt path before expectedSha256) :=
  raises_raiseIf (.conflict _)

theorem raises_afterChange {change : ProposedFileChange} {action : ChangeAction} {path : String}
    {expectedSha256 : Option String} {result : Files} :
    Raises Refusal (afterChange rt limits change action path expectedSha256 result) := by
  unfold afterChange
  split
  · exact raises_throw (.conflict _)
  · refine raises_bind raises_refuse fun _ => raises_bind ?_ fun _ => ?_
    · exact raises_bind (raises_raiseIf (.conflict _)) fun _ => raises_raiseIf (.conflict _)
    · exact raises_bind raises_requireChangeContent fun _ => raises_pure
  · exact raises_throw (.conflict _)
  · refine raises_bind raises_verifyExpectedSha256 fun _ => raises_bind raises_requireChangeContent fun _ => ?_
    exact raises_bind raises_refuse fun _ => raises_pure
  · exact raises_throw (.conflict _)
  · refine raises_bind raises_verifyExpectedSha256 fun _ => ?_
    split
    · exact raises_pure
    · exact raises_throw (.validation _)

theorem raises_planChange {s : Planning} {change : ProposedFileChange} :
    Raises Refusal (planChange rt limits s change) := by
  unfold planChange
  refine raises_bind raises_validatePath fun _ => raises_bind raises_refuse fun _ => ?_
  refine raises_bind raises_coerceAction fun _ => raises_bind raises_normalizeSha256 fun _ => ?_
  refine raises_bind raises_validateOptionalText fun _ => raises_bind raises_afterChange fun _ => ?_
  exact raises_bind raises_refuse fun _ => raises_pure

theorem raises_validateFileSet {files : Files} {context : String} :
    Raises Refusal (validateFileSet rt limits files context) := by
  unfold validateFileSet
  refine raises_bind raises_refuse fun _ => raises_bind (raises_foldlM fun _ _ => ?_) fun _ => ?_
  · refine raises_bind raises_validatePath fun _ => raises_bind raises_refuse fun _ => ?_
    exact raises_bind raises_refuse fun _ => raises_pure
  · exact raises_forM fun _ => raises_refuse

/-- **A plan that is not accepted** is refused. -/
theorem raises_planChanges {proposal : ProposedPatch} {currentFiles : Files} :
    Raises Refusal (planChanges rt limits proposal currentFiles) := by
  unfold planChanges
  refine raises_bind raises_validateMetadataText fun _ => raises_bind raises_validateMetadataText fun _ => ?_
  refine raises_bind raises_validateOptionalText fun _ => raises_bind raises_refuse fun _ => ?_
  refine raises_bind raises_refuse fun _ => raises_bind (raises_foldlM fun _ _ => raises_planChange) fun _ => ?_
  exact raises_bind raises_validateFileSet fun _ => raises_pure

end Raised

end GitHub
end PulseGraph
