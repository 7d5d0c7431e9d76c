/-
# An apply is atomic and exact

`_coerce_proposal` with `from_mapping` of the two proposal models, and the workspaces that
`LocalPatchWorkspace` of `src/github_integration/workspace.py` can be in: newly created over base
files, or after any proposals were applied to one.

**Proved here.**  A proposal is refused, by a validation or a conflict error, and leaves the tree as it
was; or the tree holds exactly the files that were planned, within every limit.  Nothing outside the
root is written or removed (`applyProposal_laws`).
-/

import PulseGraph.GitHub.WorkspaceApply

namespace PulseGraph
namespace GitHub

open Library (Json Table FileTree Above raiseIf_eq_ok bind_eq_ok foldlM_ok_of_mem segments joinSegments fileMap Raises
  raises_pure raises_throw raises_bind raises_mapM runFrom_bind runFrom_lift)

/-! ## Proposals -/

/-- What a caller passes to `apply`. -/
inductive RawProposal where
  | patch (proposal : ProposedPatch)
  | payload (value : Json)

/-- `_require_mapping`. -/
def requireMapping (payload : Json) (name : String) : Except PatchError Fields :=
  match payload with
  | .obj fields => return fields
  | _ => throw (.validation (name ++ " must be an object"))

/-- `_reject_unknown_keys`. -/
def rejectUnknownKeys (payload : Fields) (allowedKeys : List String) (name : String) : Except PatchError Unit :=
  let unknownKeys := ((payload.map Prod.fst).filter fun key => key ∉ allowedKeys).insertionSort (· ≤ ·)
  refuse (unknownKeys ≠ []) (name ++ " contains unsupported field(s): " ++ ", ".intercalate unknownKeys)

/-- `ProposedFileChange.from_mapping`. -/
def ProposedFileChange.fromMapping (payload : Json) : Except PatchError ProposedFileChange := do
  let fields ← requireMapping payload "change"
  rejectUnknownKeys fields ["path", "action", "content", "expected_sha256", "explanation"] "change"
  refuse ((fields.lookup "path").isNone = true ∨ (fields.lookup "action").isNone = true)
    "each change requires path and action"
  return { path := fields.get "path", action := .raw (fields.get "action"), content := fields.get "content",
           expectedSha256 := fields.get "expected_sha256", explanation := fields.get "explanation" }

/-- `ProposedPatch.from_mapping`. -/
def ProposedPatch.fromMapping (payload : Json) : Except PatchError ProposedPatch := do
  let fields ← requireMapping payload "proposal"
  rejectUnknownKeys fields ["patch_id", "summary", "rationale", "changes"] "proposal"
  let missing := ["changes", "patch_id", "summary"].filter fun key => (fields.lookup key).isNone
  refuse (missing ≠ []) ("proposal is missing required field(s): " ++ ", ".intercalate missing)
  match fields.get "changes" with
  | .arr rawChanges => do
      let changes ← rawChanges.mapM ProposedFileChange.fromMapping
      return { patchId := fields.get "patch_id", summary := fields.get "summary", rationale := fields.get "rationale",
               changes := changes }
  | _ => throw (.validation "proposal changes must be a list")

/-- `_coerce_proposal`. -/
def coerceProposal : RawProposal → Except PatchError ProposedPatch
  | .patch proposal => return proposal
  | .payload (.obj fields) => ProposedPatch.fromMapping (.obj fields)
  | .payload _ => throw (.validation "proposal must be a ProposedPatch or JSON-compatible mapping")

section Applying

variable {K : Type} (rt : Runtime K) (limits : WorkspaceLimits) (unifiedDiff : UnifiedDiff)

/-- `apply` of anything a caller passes. -/
def applyProposal (proposal : RawProposal) : Workspace PatchReview := do
  let normalizedProposal ← coerceProposal proposal
  apply rt limits unifiedDiff normalizedProposal

/-- The trees of a workspace: as it is created, and after any proposal, accepted or not. -/
inductive Reached (baseFiles : Files) : Tree → Prop
  | created {t : Tree} (h : (createWorkspace rt limits baseFiles).runFrom FileTree.empty = (.ok (), t)) :
      Reached baseFiles t
  | applied {t : Tree} (h : Reached baseFiles t) (proposal : RawProposal) :
      Reached baseFiles ((applyProposal rt limits unifiedDiff proposal).runFrom t).2

end Applying

/-! ## Limits -/

section Limits

variable {K : Type} {rt : Runtime K} {limits : WorkspaceLimits}

/-- Files within the limits of a workspace. -/
structure WithinLimits (limits : WorkspaceLimits) (files : List (List String × String)) : Prop where
  count : files.length ≤ limits.maxFileCount
  each : ∀ file ∈ files, file.2.utf8ByteSize ≤ limits.maxFileBytes
  total : (files.map fun file => file.2.utf8ByteSize).sum ≤ limits.maxTotalBytes

/-- The sizes that are added up, each of them and their sum within its limit. -/
theorem foldlM_addFileSize {context : String} {rows : List (String × String)} {before after : ℕ}
    (h : rows.foldlM (addFileSize rt limits context) before = .ok after) (hbefore : before ≤ limits.maxTotalBytes) :
    (∀ row ∈ rows, row.2.utf8ByteSize ≤ limits.maxFileBytes) ∧
      before + (rows.map fun row => row.2.utf8ByteSize).sum ≤ limits.maxTotalBytes := by
  induction rows generalizing before with
  | nil => exact ⟨fun row hrow => absurd hrow List.not_mem_nil, by simpa using hbefore⟩
  | cons row rows ih =>
      rw [List.foldlM_cons] at h
      obtain ⟨next, hadd, hrest⟩ := bind_eq_ok.1 h
      obtain ⟨_, -, hadd⟩ := bind_eq_ok.1 hadd
      obtain ⟨_, hsize, hadd⟩ := bind_eq_ok.1 hadd
      obtain ⟨_, htotal, hadd⟩ := bind_eq_ok.1 hadd
      obtain rfl := Except.ok.inj hadd
      rw [refuse_eq_ok, not_lt] at hsize htotal
      obtain ⟨heach, hsum⟩ := ih hrest htotal
      refine ⟨List.forall_mem_cons.2 ⟨hsize, heach⟩, ?_⟩
      rw [List.map_cons, List.sum_cons]
      omega

/-- The entry of a table of files at its place in the tree. -/
def placedFile (row : String × String) : List String × String := (segments row.1, row.2)

/-- **A file set that is accepted** is within the limits. -/
theorem withinLimits_of_validateFileSet {files : Files} {context : String}
    (h : validateFileSet rt limits files context = .ok ()) : WithinLimits limits (files.rows.map placedFile) := by
  obtain ⟨_, hcount, h⟩ := bind_eq_ok.1 h
  obtain ⟨total, hsizes, -⟩ := bind_eq_ok.1 h
  obtain ⟨heach, hsum⟩ := foldlM_addFileSize hsizes (Nat.zero_le _)
  rw [refuse_eq_ok, not_lt] at hcount
  refine ⟨(List.length_map _).trans_le hcount, List.forall_mem_map.2 heach, ?_⟩
  rw [List.map_map]
  rw [Nat.zero_add] at hsum
  exact hsum

/-- The files of the result of a plan are within the limits. -/
theorem withinLimits_of_planChanges {proposal : ProposedPatch} {current result : Files} {planned : List PlannedChange}
    (h : planChanges rt limits proposal current = .ok (planned, result)) :
    WithinLimits limits (result.rows.map placedFile) := by
  unfold planChanges at h
  obtain ⟨_, -, h⟩ := bind_eq_ok.1 h
  obtain ⟨_, -, h⟩ := bind_eq_ok.1 h
  obtain ⟨_, -, h⟩ := bind_eq_ok.1 h
  obtain ⟨_, -, h⟩ := bind_eq_ok.1 h
  obtain ⟨_, -, h⟩ := bind_eq_ok.1 h
  obtain ⟨s, -, h⟩ := bind_eq_ok.1 h
  obtain ⟨_, hset, h⟩ := bind_eq_ok.1 h
  obtain ⟨-, rfl⟩ := Prod.mk.inj (Except.ok.inj h)
  exact withinLimits_of_validateFileSet hset

end Limits

/-! ## The files of a tree -/

section Trees

variable {K : Type} {rt : Runtime K} {limits : WorkspaceLimits} {t : Tree} {files : Files}

/-- The files that a walk over a tree finds. -/
def treeFiles (t : Tree) : List (List String × String) :=
  t.entries.rows.filterMap fun entry => match entry.2 with
    | .file content => some (entry.1, content)
    | .dir => none

theorem mem_treeFiles {parts : List String} {content : String} :
    (parts, content) ∈ treeFiles t ↔ t.files parts = some content := by
  unfold treeFiles
  rw [FileTree.files_eq_some_iff, List.mem_filterMap]
  constructor
  · rintro ⟨⟨p, e⟩, hmem, heq⟩
    cases e with
    | dir => cases heq
    | file c =>
        obtain ⟨rfl, rfl⟩ := Prod.mk.inj (Option.some.inj heq)
        exact Table.find?_eq_some_iff.2 hmem
  · intro h
    exact ⟨(parts, .file content), Table.find?_eq_some_iff.1 h, rfl⟩

theorem nodup_treeFiles : (treeFiles t).Nodup := by
  unfold treeFiles
  refine (List.Nodup.of_map Prod.fst t.entries.nodup).filterMap ?_
  rintro ⟨p, e⟩ ⟨q, e'⟩ ⟨parts, content⟩ hp hq
  cases e with
  | dir => cases hp
  | file c =>
      cases e' with
      | dir => cases hq
      | file c' =>
          obtain ⟨rfl, rfl⟩ := Prod.mk.inj (Option.some.inj hp)
          obtain ⟨rfl, rfl⟩ := Prod.mk.inj (Option.some.inj hq)
          rfl

/-- **The files of a tree** are those of the table that it holds, each at its place. -/
theorem treeFiles_perm (h : t.files = fileMap files) : (treeFiles t).Perm (files.rows.map placedFile) := by
  have hinjective : Function.Injective placedFile := by
    rintro ⟨p, c⟩ ⟨q, c'⟩ heq
    obtain ⟨hpath, hcontent⟩ := Prod.mk.inj heq
    exact Prod.ext (Library.segments_injective hpath) hcontent
  refine (List.perm_ext_iff_of_nodup nodup_treeFiles ((List.Nodup.of_map Prod.fst files.nodup).map hinjective)).2 ?_
  rintro ⟨parts, content⟩
  rw [mem_treeFiles, h, Library.fileMap_eq_some_iff, List.mem_map]
  constructor
  · rintro ⟨p, rfl, hp⟩
    exact ⟨(p, content), Table.find?_eq_some_iff.1 hp, rfl⟩
  · rintro ⟨⟨p, c⟩, hmem, heq⟩
    obtain ⟨rfl, rfl⟩ := Prod.mk.inj heq
    exact ⟨p, rfl, Table.find?_eq_some_iff.2 hmem⟩

/-- Where a path leads from a directory. -/
def resolve (root : List String) (path : String) : List String :=
  (segments path).foldl (fun dir name =>
    if name = "" ∨ name = "." then dir else if name = ".." then dir.dropLast else dir ++ [name]) root

/-- Names of their own lead beneath the directory. -/
theorem resolve_of_names (root : List String) {path : String}
    (h : ∀ name ∈ segments path, name ≠ "" ∧ name ≠ "." ∧ name ≠ "..") : resolve root path = root ++ segments path := by
  unfold resolve
  generalize segments path = names at h ⊢
  induction names generalizing root with
  | nil => simp
  | cons name names ih =>
      obtain ⟨hname, hnames⟩ := List.forall_mem_cons.1 h
      rw [List.foldl_cons, if_neg (not_or.2 ⟨hname.1, hname.2.1⟩), if_neg hname.2.2, ih _ hnames, List.append_assoc]
      rfl

/-- **Every entry lies beneath the root.** -/
theorem resolve_of_entry (hheld : TreeHolds t files) (hset : FileSet rt limits files) {parts : List String}
    {e : Library.Entry String} (h : t.find? parts = some e) (root : List String) :
    resolve root (joinSegments parts) = root ++ parts := by
  obtain ⟨path, hfile, hstart⟩ : ∃ path, (files.find? path).isSome = true ∧ parts <+: segments path := by
    cases e with
    | file content =>
        have hcontent := FileTree.files_eq_some_iff.2 h
        rw [hheld.files] at hcontent
        obtain ⟨path, rfl, hpath⟩ := Library.fileMap_eq_some_iff.1 hcontent
        exact ⟨path, Option.isSome_iff_exists.2 ⟨content, hpath⟩, List.prefix_refl _⟩
    | dir =>
        -- a directory is above one of the files
        obtain ⟨below, content, habove, hcontent⟩ := hheld.tight parts h
        rw [hheld.files] at hcontent
        obtain ⟨path, rfl, hpath⟩ := Library.fileMap_eq_some_iff.1 hcontent
        exact ⟨path, Option.isSome_iff_exists.2 ⟨content, hpath⟩, habove.1⟩
  have hsegments := Library.segments_joinSegments_of_sublist (FileTree.ne_nil_of_find? h) hstart.sublist
  obtain ⟨-, -, -, -, -, hnames, -⟩ := validatePath_eq_ok_iff.1 (hset.paths path hfile)
  rw [resolve_of_names, hsegments]
  rw [hsegments]
  exact fun name hname => hnames name (hstart.subset hname)

end Trees

/-! ## Atomic and exact -/

section Exact

variable {K : Type} {rt : Runtime K} {limits : WorkspaceLimits} {unifiedDiff : UnifiedDiff}

theorem raises_requireMapping {payload : Json} {name : String} : Raises Refusal (requireMapping payload name) := by
  unfold requireMapping
  split
  · exact raises_pure
  · exact raises_throw (.validation _)

theorem raises_coerceProposal {proposal : RawProposal} : Raises Refusal (coerceProposal proposal) := by
  unfold coerceProposal
  split
  · exact raises_pure
  · unfold ProposedPatch.fromMapping
    refine raises_bind raises_requireMapping fun _ => raises_bind raises_refuse fun _ => ?_
    refine raises_bind raises_refuse fun _ => ?_
    split
    · refine raises_bind (raises_mapM fun change => ?_) fun _ => raises_pure
      unfold ProposedFileChange.fromMapping
      refine raises_bind raises_requireMapping fun _ => raises_bind raises_refuse fun _ => ?_
      exact raises_bind raises_refuse fun _ => raises_pure
    · exact raises_throw (.validation _)
  · exact raises_throw (.validation _)

/-- One apply: what it does to a tree that holds files. -/
theorem applyProposal_cases {t : Tree} {base : Files} (ht : TreeHolds t base) (proposal : RawProposal) :
    (∃ e, Refusal e ∧ (applyProposal rt limits unifiedDiff proposal).runFrom t = (.error e, t)) ∨
      ∃ normalizedProposal current planned result review t',
        (applyProposal rt limits unifiedDiff proposal).runFrom t = (.ok review, t') ∧
        coerceProposal proposal = .ok normalizedProposal ∧ (∀ path, current.find? path = base.find? path) ∧
        planChanges rt limits normalizedProposal current = .ok (planned, result) ∧ TreeHolds t' result ∧
        ReviewOf rt unifiedDiff planned review := by
  unfold applyProposal
  rw [runFrom_bind, runFrom_lift]
  cases hcoerce : coerceProposal proposal with
  | error e => exact .inl ⟨e, raises_coerceProposal e hcoerce, rfl⟩
  | ok normalizedProposal =>
      dsimp only
      exact (apply_cases ht unifiedDiff normalizedProposal).imp_right
        fun ⟨current, planned, result, review, t', hrun, _, hcurrent, hplan, hheld, hreview⟩ =>
          ⟨normalizedProposal, current, planned, result, review, t', hrun, rfl, hcurrent, hplan, hheld, hreview⟩

/-- **Every tree of a workspace** holds files that can stand in it. -/
theorem holds_of_reached {baseFiles : Files} {t : Tree} (h : Reached rt limits unifiedDiff baseFiles t) :
    ∃ files, TreeHolds t files ∧ FileSet rt limits files := by
  induction h with
  | created hcreate =>
      rcases @createWorkspace_cases _ rt limits baseFiles with ⟨e, hrun⟩ | ⟨t', hrun, hheld, hset⟩
      · rw [hcreate] at hrun
        cases (Prod.mk.inj hrun).1
      · rw [hcreate] at hrun
        obtain rfl := (Prod.mk.inj hrun).2
        exact ⟨baseFiles, hheld, hset⟩
  | applied h proposal ih =>
      obtain ⟨files, hheld, hset⟩ := ih
      rcases @applyProposal_cases _ rt limits unifiedDiff _ _ hheld proposal with ⟨e, -, hrun⟩ |
        ⟨normalizedProposal, current, planned, result, review, t', hrun, -, -, hplan, hresult, -⟩
      · rw [hrun]
        exact ⟨files, hheld, hset⟩
      · rw [hrun]
        exact ⟨result, hresult, (planned_of_planChanges hplan).2.1⟩

/-- What an apply that was not refused has done. -/
structure AppliesExactly (rt : Runtime K) (limits : WorkspaceLimits) (proposal : RawProposal) (t t' : Tree)
    (current result : Files) (planned : List PlannedChange) : Prop where
  plan : ∃ normalizedProposal, coerceProposal proposal = .ok normalizedProposal ∧
    planChanges rt limits normalizedProposal current = .ok (planned, result)
  before : (treeFiles t).Perm (current.rows.map placedFile)
  after : (treeFiles t').Perm (result.rows.map placedFile)
  changes : Planned rt current result planned
  tight : t'.Tight
  limits : WithinLimits limits (treeFiles t')

theorem WithinLimits.perm {files files' : List (List String × String)} (h : WithinLimits limits files)
    (hperm : files'.Perm files) : WithinLimits limits files' where
  count := hperm.length_eq ▸ h.count
  each file hfile := h.each file (hperm.mem_iff.1 hfile)
  total := by
    rw [(hperm.map fun file => file.2.utf8ByteSize).sum_eq]
    exact h.total

/-- **An apply is atomic and exact**, in every workspace and for whatever is proposed: it is refused, and
the tree is as it was; or the files of the tree are the planned ones, and no directory is left empty.
Wherever the trees differ is beneath the root. -/
theorem applyProposal_laws {baseFiles : Files} {t : Tree} (hreached : Reached rt limits unifiedDiff baseFiles t)
    (proposal : RawProposal) :
    ((∃ e, Refusal e ∧ (applyProposal rt limits unifiedDiff proposal).runFrom t = (.error e, t)) ∨
      ∃ review t' current result planned, (applyProposal rt limits unifiedDiff proposal).runFrom t = (.ok review, t') ∧
        AppliesExactly rt limits proposal t t' current result planned) ∧
    ∀ parts, t.find? parts ≠ ((applyProposal rt limits unifiedDiff proposal).runFrom t).2.find? parts →
      ∀ root, resolve root (joinSegments parts) = root ++ parts := by
  obtain ⟨files, hheld, hset⟩ := holds_of_reached hreached
  constructor
  · refine (applyProposal_cases hheld proposal).imp_right ?_
    rintro ⟨normalizedProposal, current, planned, result, review, t', hrun, hcoerce, hcurrent, hplan, hresult, -⟩
    have hbefore : t.files = fileMap current := hheld.files.trans (Library.fileMap_congr hcurrent).symm
    have hafter := treeFiles_perm hresult.files
    exact ⟨review, t', current, result, planned, hrun, ⟨normalizedProposal, hcoerce, hplan⟩,
      treeFiles_perm hbefore, hafter,
      (planned_of_planChanges hplan).1, hresult.tight, (withinLimits_of_planChanges hplan).perm hafter⟩
  · intro parts hdiffer root
    obtain ⟨files', hheld', hset'⟩ := holds_of_reached (hreached.applied proposal)
    cases hold : t.find? parts with
    | some e => exact resolve_of_entry hheld hset hold root
    | none =>
        -- what was not there before is there now
        obtain ⟨e, hnew⟩ := Option.ne_none_iff_exists'.1 fun hnone => hdiffer (hold.trans hnone.symm)
        exact resolve_of_entry hheld' hset' hnew root

/-- A file where a directory is to be. -/
def swapBase : Files := Table.empty.insert "app" "x = 1"

/-- The file goes, and a file beneath its name comes. -/
def swapProposal : RawProposal :=
  .payload (.obj [("patch_id", .str "swap"), ("summary", .str "make it a package"), ("changes", .arr [
    .obj [("action", .str "delete"), ("path", .str "app")],
    .obj [("action", .str "create"), ("path", .str "app/main.py"), ("content", .str "x = 1")]])])

/-- The tree of a workspace over that file. -/
def swapTree : Tree := ((createWorkspace Runtime.reference .standard swapBase).runFrom FileTree.empty).2

example : treeFiles ((applyProposal Runtime.reference {} (fun _ _ _ _ => []) swapProposal).runFrom swapTree).2 =
    [(["app", "main.py"], "x = 1")] := by decide +kernel

/-- A file that is replaced by a directory of its name. -/
theorem applyProposal_laws_swap : ∃ review t' current result planned,
    (applyProposal Runtime.reference {} (fun _ _ _ _ => []) swapProposal).runFrom swapTree = (.ok review, t') ∧
      AppliesExactly Runtime.reference {} swapProposal swapTree t' current result planned := by
  have hcreate : ((createWorkspace Runtime.reference {} swapBase).runFrom FileTree.empty).1 = .ok () := by
    decide +kernel
  have hok : ((applyProposal Runtime.reference {} (fun _ _ _ _ => []) swapProposal).runFrom
      swapTree).1.toOption.isSome = true := by decide +kernel
  have hreached : Reached Runtime.reference {} (fun _ _ _ _ => []) swapBase swapTree := .created (Prod.ext hcreate rfl)
  rcases (applyProposal_laws hreached swapProposal).1 with ⟨e, -, hrun⟩ | happlied
  · rw [hrun] at hok
    cases hok
  · exact happlied

end Exact

end GitHub
end PulseGraph
