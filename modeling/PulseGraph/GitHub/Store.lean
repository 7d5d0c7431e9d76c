/-
# The GitHub store

The tables of the GitHub integration and the functions of
`src/github_integration/store.py` that write them: installations with the version of
the last event taken, repositories with the installation they are bound to, webhook
deliveries, and snapshots.  A function that raises leaves nothing behind: its
transaction is rolled back, so it returns an error and no database.

**Proved here.**  One lemma for each statement on what it leaves of the three tables
that decide access: `observeInstallationEvent_eq`, `applyInstallationEvent_cases`,
`upsertRepository_eq_ok`, `deselect_find?`.
-/

import PulseGraph.GitHub.Payload
import PulseGraph.Library.Table
import Mathlib.Data.List.Induction

namespace PulseGraph
namespace GitHub

open Library (Json Table bind_eq_ok)

/-! ## Tables -/

/-- A row of `github_installations`. -/
structure Installation where
  accountLogin : String
  accountType : String
  repositorySelection : String
  status : InstallationStatus
  suspendedAt : Option String
  permissionsJson : String
  deriving DecidableEq, Repr

/-- A row of `github_installation_state_versions`. -/
structure StateVersion where
  providerUpdatedAtUs : ℤ
  providerEventPriority : ℕ
  revision : ℕ
  deriving DecidableEq, Repr

/-- The version an installation is at: the timestamp, then the priority, of the last event taken. -/
def StateVersion.version (v : StateVersion) : ℤ ×ₗ ℕ :=
  toLex (v.providerUpdatedAtUs, v.providerEventPriority)

/-- A row of `github_repositories`. -/
structure Repository where
  installationId : ℕ
  owner : String
  name : String
  fullName : String
  defaultBranch : String
  isSelected : Bool
  lastSeenCommitSha : Option String
  deriving DecidableEq, Repr

/-- A row of `github_snapshots`. -/
structure Snapshot where
  repositoryId : ℕ
  ref : String
  commitSha : String
  treeSha : String
  fileCount : ℕ
  treeTruncated : Bool
  deriving DecidableEq, Repr

/-- A row of `github_snapshot_files`, a blob. -/
structure SnapshotFile where
  blobSha : String
  mode : String
  sizeBytes : Option ℤ
  deriving DecidableEq, Repr

/-- The tables of the integration, each under its primary key. -/
structure GitHubDb where
  installations : Table ℕ Installation
  versions : Table ℕ StateVersion
  repositories : Table ℕ Repository
  /-- `processing_status` of a delivery. -/
  deliveries : Table String String
  snapshots : Table String Snapshot
  snapshotFiles : Table (String × String) SnapshotFile

/-- No installation was ever connected. -/
def GitHubDb.empty : GitHubDb := ⟨.empty, .empty, .empty, .empty, .empty, .empty⟩

/-- The stored status of an installation. -/
def GitHubDb.status (db : GitHubDb) (installationId : ℕ) : Option InstallationStatus :=
  (db.installations.find? installationId).map (·.status)

/-- The version an installation is at. -/
def GitHubDb.version (db : GitHubDb) (installationId : ℕ) : Option (ℤ ×ₗ ℕ) :=
  (db.versions.find? installationId).map (·.version)

/-- `state_revision`. -/
def GitHubDb.revision (db : GitHubDb) (installationId : ℕ) : ℕ :=
  ((db.versions.find? installationId).map (·.revision)).getD 0

/-- The repository is bound to the installation and selected. -/
def GitHubDb.Selected (db : GitHubDb) (repositoryId installationId : ℕ) : Prop :=
  ∃ row, db.repositories.find? repositoryId = some row ∧ row.installationId = installationId ∧
    row.isSelected = true

/-! ## Installations -/

/-- `_observe_installation_event`: whether the event is taken, and the revision then. -/
def observeInstallationEvent (db : GitHubDb) (installationId : ℕ) (providerUpdatedAtUs : ℤ)
    (eventPriority : ℕ) : GitHubDb × Bool × ℕ :=
  match db.versions.find? installationId with
  | none =>
      ({ db with versions :=
          db.versions.insert installationId ⟨providerUpdatedAtUs, eventPriority, 1⟩ }, true, 1)
  | some existing =>
      if existing.providerUpdatedAtUs < providerUpdatedAtUs ∨
          (providerUpdatedAtUs = existing.providerUpdatedAtUs ∧
            existing.providerEventPriority < eventPriority) then
        ({ db with versions := db.versions.modify installationId fun _ =>
            ⟨providerUpdatedAtUs, eventPriority, existing.revision + 1⟩ }, true,
          existing.revision + 1)
      else (db, false, existing.revision)

/-- `INSERT INTO github_installations … ON CONFLICT(installation_id) DO UPDATE`. -/
def storeInstallation (db : GitHubDb) (e : InstallationEvent) : GitHubDb :=
  let row : Installation :=
    { accountLogin := e.accountLogin
      accountType := e.accountType
      repositorySelection := e.repositorySelection
      status := e.status
      suspendedAt := e.suspendedAt
      permissionsJson := Json.dumps true (.obj e.permissions) }
  { db with installations := db.installations.upsert e.installationId row fun _ => row }

/-- `SET is_selected = 0 … WHERE installation_id = ?`, of one row. -/
def Repository.deselect (installationId : ℕ) (r : Repository) : Repository :=
  if r.installationId = installationId then { r with isSelected := false } else r

theorem Repository.deselect_deselect (installationId : ℕ) (r : Repository) :
    (r.deselect installationId).deselect installationId = r.deselect installationId := by
  unfold Repository.deselect
  split_ifs <;> rfl

theorem Repository.installationId_deselect (installationId : ℕ) (r : Repository) :
    (r.deselect installationId).installationId = r.installationId := by
  unfold Repository.deselect
  split_ifs <;> rfl

/-- A row that is still selected was not the installation's. -/
theorem Repository.deselect_eq_of_selected {installationId : ℕ} {r : Repository}
    (h : (r.deselect installationId).isSelected = true) :
    r.deselect installationId = r ∧ r.installationId ≠ installationId := by
  unfold Repository.deselect at h ⊢
  split_ifs at h ⊢ with hi
  exact ⟨rfl, hi⟩

/-- `UPDATE github_repositories SET is_selected = 0 WHERE installation_id = ?`. -/
def deselectInstallation (db : GitHubDb) (installationId : ℕ) : GitHubDb :=
  { db with repositories := db.repositories.update fun _ r => r.deselect installationId }

/-- `UPDATE github_repositories SET is_selected = 0 WHERE repository_id = ? AND installation_id = ?`. -/
def deselectRepository (db : GitHubDb) (repositoryId installationId : ℕ) : GitHubDb :=
  { db with repositories := db.repositories.modify repositoryId (Repository.deselect installationId) }

/-- `if status != "active"`: an event that closes an installation deselects its repositories. -/
def closeSelection (db : GitHubDb) (e : InstallationEvent) : GitHubDb :=
  if e.status ≠ .active then deselectInstallation db e.installationId else db

/-- What `upsert_installation_from_webhook` does with a payload it accepts: the
database, and whether the event was applied. -/
def applyInstallationEvent (db : GitHubDb) (e : InstallationEvent) : GitHubDb × Bool :=
  match db.installations.find? e.installationId with
  | some existing =>
      if existing.status = .deleted ∧ e.action ≠ "deleted" then (db, false)
      else if existing.status = .suspended ∧ e.action ∉ ["suspend", "unsuspend", "deleted"] then
        (db, false)
      else
        let (db, applied, _) :=
          observeInstallationEvent db e.installationId e.providerUpdatedAtUs e.priority
        if applied then (closeSelection (storeInstallation db e) e, true) else (db, false)
  | none =>
      let (db, _, _) := observeInstallationEvent (storeInstallation db e) e.installationId
        e.providerUpdatedAtUs e.priority
      (closeSelection db e, true)

/-- The event is taken: its installation is new, or its status lets the action through
and its version is greater than the one recorded. -/
def Takes (db : GitHubDb) (e : InstallationEvent) : Prop :=
  ∀ row, db.installations.find? e.installationId = some row →
    (row.status = .deleted → e.action = "deleted") ∧
      (row.status = .suspended → e.action ∈ ["suspend", "unsuspend", "deleted"]) ∧
      ∀ v, db.versions.find? e.installationId = some v → v.version < e.version

/-- The database after an event is taken. -/
def takeInstallationEvent (db : GitHubDb) (e : InstallationEvent) : GitHubDb :=
  { db with
    installations := (storeInstallation db e).installations
    versions := (observeInstallationEvent db e.installationId e.providerUpdatedAtUs
      e.priority).1.versions
    repositories := (closeSelection db e).repositories }

/-- An event is recorded exactly when its version is greater than the recorded one. -/
theorem observeInstallationEvent_taken (db : GitHubDb) (e : InstallationEvent) :
    (observeInstallationEvent db e.installationId e.providerUpdatedAtUs e.priority).2.1 = true ↔
      ∀ v, db.versions.find? e.installationId = some v → v.version < e.version := by
  unfold observeInstallationEvent StateVersion.version InstallationEvent.version
  cases hv : db.versions.find? e.installationId with
  | none => simp
  | some v =>
      simp only [Option.some.injEq, forall_eq', Prod.Lex.toLex_lt_toLex]
      split_ifs with h
      · rcases h with h | h <;> simp [h]
      · rw [not_or] at h
        simp only [false_iff, not_or]
        exact ⟨h.1, fun h' => h.2 ⟨h'.1.symm, h'.2⟩⟩

/-- An event that is not recorded leaves the versions alone. -/
theorem observeInstallationEvent_of_not (db : GitHubDb) (e : InstallationEvent)
    (h : (observeInstallationEvent db e.installationId e.providerUpdatedAtUs e.priority).2.1 = false) :
    (observeInstallationEvent db e.installationId e.providerUpdatedAtUs e.priority).1 = db := by
  revert h
  unfold observeInstallationEvent
  split
  · simp
  · split_ifs <;> simp

/-- Recording an event changes the versions alone, and reads nothing else. -/
theorem observeInstallationEvent_eq (db db' : GitHubDb) (e : InstallationEvent)
    (h : db'.versions = db.versions) :
    (observeInstallationEvent db' e.installationId e.providerUpdatedAtUs e.priority).1 =
      { db' with versions := (observeInstallationEvent db e.installationId e.providerUpdatedAtUs
          e.priority).1.versions } := by
  unfold observeInstallationEvent
  rw [h]
  split
  · rfl
  · split_ifs
    · rfl
    · rw [← h]

/-- Closing a selection changes the repositories alone, and reads nothing else. -/
theorem closeSelection_eq (db db' : GitHubDb) (e : InstallationEvent)
    (h : db'.repositories = db.repositories) :
    closeSelection db' e = { db' with repositories := (closeSelection db e).repositories } := by
  unfold closeSelection deselectInstallation
  split_ifs
  · rw [h]
  · rw [← h]

/-- An event is not taken when a check of the status turns it away. -/
theorem not_takes {db : GitHubDb} {e : InstallationEvent} {row : Installation}
    (hrow : db.installations.find? e.installationId = some row)
    (h : row.status = .deleted ∧ e.action ≠ "deleted" ∨
      row.status = .suspended ∧ e.action ∉ ["suspend", "unsuspend", "deleted"]) : ¬ Takes db e := by
  intro htakes
  obtain ⟨hdeleted, hsuspended, -⟩ := htakes row hrow
  rcases h with ⟨h, h'⟩ | ⟨h, h'⟩
  · exact h' (hdeleted h)
  · exact h' (hsuspended h)

/-- The status an event leaves, when it is taken. -/
theorem status_takeInstallationEvent (db : GitHubDb) (e : InstallationEvent) (i : ℕ) :
    (takeInstallationEvent db e).status i =
      if i = e.installationId then some e.status else db.status i := by
  unfold GitHubDb.status takeInstallationEvent storeInstallation
  rw [Table.find?_upsert_const]
  split_ifs <;> rfl

/-- The version an event leaves, when it is newer than the one recorded. -/
theorem versions_takeInstallationEvent {db : GitHubDb} {e : InstallationEvent}
    (h : ∀ v, db.versions.find? e.installationId = some v → v.version < e.version) :
    (takeInstallationEvent db e).versions.find? e.installationId =
      some ⟨e.providerUpdatedAtUs, e.priority, db.revision e.installationId + 1⟩ := by
  have htaken := (observeInstallationEvent_taken db e).2 h
  unfold takeInstallationEvent GitHubDb.revision
  revert htaken
  unfold observeInstallationEvent
  cases hv : db.versions.find? e.installationId with
  | none =>
      intro _
      rw [Table.find?_insert, if_pos rfl, hv]
      rfl
  | some v =>
      dsimp only
      split_ifs
      · intro _
        rw [Table.find?_modify, if_pos rfl, hv]
        rfl
      · intro htaken
        cases htaken

/-- An event leaves the versions of the other installations alone. -/
theorem versions_takeInstallationEvent_of_ne {db : GitHubDb} {e : InstallationEvent} {i : ℕ}
    (hi : i ≠ e.installationId) :
    (takeInstallationEvent db e).versions.find? i = db.versions.find? i := by
  unfold takeInstallationEvent observeInstallationEvent
  dsimp only
  split
  · rw [Table.find?_insert, if_neg hi]
  · split_ifs
    · rw [Table.find?_modify, if_neg hi]
    · rfl

/-- What an event leaves of a repository, when it is taken. -/
theorem repositories_takeInstallationEvent (db : GitHubDb) (e : InstallationEvent) (x : ℕ) :
    (takeInstallationEvent db e).repositories.find? x =
      if e.status = .active then db.repositories.find? x
      else (db.repositories.find? x).map (Repository.deselect e.installationId) := by
  unfold takeInstallationEvent closeSelection
  dsimp only
  by_cases h : e.status = .active
  · rw [if_neg (not_not.2 h), if_pos h]
  · rw [if_pos h, if_neg h]
    exact Table.find?_update _

/-- **What one installation webhook does:** a taken event writes the installation's
status and version, and deselects its repositories unless it is active; any other event
changes nothing. -/
theorem applyInstallationEvent_eq (db : GitHubDb) (e : InstallationEvent) [Decidable (Takes db e)] :
    applyInstallationEvent db e =
      if Takes db e then (takeInstallationEvent db e, true) else (db, false) := by
  unfold applyInstallationEvent
  cases hrow : db.installations.find? e.installationId with
  | none =>
      have htakes : Takes db e := fun row h => absurd (hrow.symm.trans h) (by simp)
      rw [if_pos htakes]
      refine Prod.ext ?_ rfl
      dsimp only
      rw [observeInstallationEvent_eq db (storeInstallation db e) e rfl]
      exact closeSelection_eq db _ e rfl
  | some row =>
      dsimp only
      by_cases hdeleted : row.status = .deleted ∧ e.action ≠ "deleted"
      · rw [if_pos hdeleted, if_neg (not_takes hrow (.inl hdeleted))]
      by_cases hsuspended : row.status = .suspended ∧ e.action ∉ ["suspend", "unsuspend", "deleted"]
      · rw [if_neg hdeleted, if_pos hsuspended, if_neg (not_takes hrow (.inr hsuspended))]
      rw [if_neg hdeleted, if_neg hsuspended]
      obtain ⟨db₁, applied, n, hobs⟩ : ∃ db₁ applied n, observeInstallationEvent db
          e.installationId e.providerUpdatedAtUs e.priority = (db₁, applied, n) := ⟨_, _, _, rfl⟩
      have htaken := observeInstallationEvent_taken db e
      have heq := observeInstallationEvent_eq db db e rfl
      rw [hobs] at htaken heq ⊢
      cases applied with
      | false =>
          have hnot : ¬ Takes db e := fun h => by simpa using htaken.2 (h row hrow).2.2
          rw [if_neg hnot]
          have hsame := observeInstallationEvent_of_not db e (by rw [hobs])
          rw [hobs] at hsame
          exact Prod.ext hsame rfl
      | true =>
          have htakes : Takes db e := by
            intro row' hrow'
            obtain rfl : row = row' := Option.some.inj (hrow.symm.trans hrow')
            exact ⟨fun h => by_contra fun h' => hdeleted ⟨h, h'⟩,
              fun h => by_contra fun h' => hsuspended ⟨h, h'⟩, htaken.1 rfl⟩
          rw [if_pos htakes]
          refine Prod.ext ?_ rfl
          obtain ⟨versions, rfl⟩ : ∃ versions, db₁ = { db with versions := versions } := ⟨_, heq⟩
          refine (closeSelection_eq db (storeInstallation { db with versions := versions } e) e
            rfl).trans ?_
          unfold takeInstallationEvent
          rw [hobs]
          rfl

variable {K : Type} (rt : Runtime K)

/-- `upsert_installation_from_webhook`. -/
def upsertInstallationFromWebhook (db : GitHubDb) (payload : Fields) (action : String) :
    Except GitHubError (GitHubDb × ℕ × Bool) := do
  let e ← readInstallationEvent rt payload action
  let (db, applied) := applyInstallationEvent db e
  return (db, e.installationId, applied)

/-- `get_installation`: the row and its `state_revision`. -/
def getInstallation (db : GitHubDb) (installationId : ℕ) : Except GitHubError (Installation × ℕ) :=
  match db.installations.find? installationId with
  | none => .error (.store "GitHub installation was not found")
  | some row => .ok (row, db.revision installationId)

/-- `get_repository`: the row and the status of its installation. -/
def getRepository (db : GitHubDb) (repositoryId : ℕ) :
    Except GitHubError (Repository × InstallationStatus) :=
  match (db.repositories.find? repositoryId).bind fun row =>
      (db.installations.find? row.installationId).map fun i => (row, i.status) with
  | none => .error (.store "repository binding was not found")
  | some found => .ok found

/-! ## Repositories -/

/-- The row `upsert_repository` leaves where there was `existing`. -/
def boundRepository (installationId : ℕ) (fields : RepositoryFields) (isSelected : Bool)
    (existing : Option Repository) : Repository :=
  { installationId := installationId
    owner := fields.owner
    name := fields.name
    fullName := fields.fullName
    defaultBranch :=
      if fields.defaultBranch ≠ "" then fields.defaultBranch
      else (existing.map (·.defaultBranch)).getD fields.defaultBranch
    isSelected := isSelected
    lastSeenCommitSha := existing.bind (·.lastSeenCommitSha) }

/-- `upsert_repository`.  `full_name` is unique and `installation_id` a foreign key. -/
def upsertRepository (db : GitHubDb) (installationId : ℕ) (repository : Fields)
    (isSelected : Bool := true) : Except GitHubError (GitHubDb × ℕ) := do
  let fields ← repositoryFields rt repository
  refuseIf (db.repositories.rows.any fun r => r.1 ≠ fields.repositoryId && r.2.fullName = fields.fullName)
    (.integrity "github_repositories.full_name")
  refuseIf ((db.installations.find? installationId).isNone)
    (.integrity "github_repositories.installation_id")
  let bound := boundRepository installationId fields isSelected
  let repositories :=
    db.repositories.upsert fields.repositoryId (bound none) fun r => bound (some r)
  return ({ db with repositories := repositories }, fields.repositoryId)

/-- A loop of `upsert_repository` over what a payload lists: the identifiers in order. -/
def upsertEach {α : Type} (read : α → Except GitHubError Fields) (db : GitHubDb) (installationId : ℕ)
    (repositories : List α) : Except GitHubError (GitHubDb × List ℕ) :=
  repositories.foldlM (fun acc repository => do
    let (db, repositoryId) ← upsertRepository rt acc.1 installationId (← read repository)
    return (db, acc.2 ++ [repositoryId])) (db, [])

/-- A loop of deselections over what a payload lists: the identifiers in order. -/
def deselectEach (read : Json → Except GitHubError Fields) (db : GitHubDb) (installationId : ℕ)
    (repositories : List Json) : Except GitHubError (GitHubDb × List ℕ) :=
  repositories.foldlM (fun acc repository => do
    let fields ← repositoryFields rt (← read repository)
    return (deselectRepository acc.1 fields.repositoryId installationId,
      acc.2 ++ [fields.repositoryId])) (db, [])

/-- `require_active_installation`. -/
def requireActiveInstallation (db : GitHubDb) (installationId : ℕ) :
    Except GitHubError (Installation × ℕ) := do
  let installation ← getInstallation db installationId
  refuseIf (installation.1.status ≠ .active)
    (.connectionState "GitHub installation is no longer an active selected-repository read-only installation")
  return installation

/-- `require_active_selected_repository`. -/
def requireActiveSelectedRepository (db : GitHubDb) (repositoryId : ℕ) :
    Except GitHubError Repository := do
  let (repository, installationStatus) ← getRepository db repositoryId
  refuseIf (!repository.isSelected ∨ installationStatus ≠ .active)
    (.connectionState "repository is no longer selected in an active read-only installation")
  return repository

/-- `sync_installation_repositories_from_webhook`: the installation, its status, and
whether the event was applied. -/
def syncInstallationRepositoriesFromWebhook (db : GitHubDb) (payload : Fields) :
    Except GitHubError (GitHubDb × ℕ × InstallationStatus × Bool) := do
  let installation ← mapping (payload.get "installation") "installation"
  let action ← text rt (payload.get "action") "action"
  refuseIf (action ≠ "added" ∧ action ≠ "removed")
    (.store "installation_repositories action must be 'added' or 'removed'")
  let repositorySelection ← text rt (payload.get "repository_selection") "repository_selection"
  let nestedSelection ←
    text rt (installation.get "repository_selection") "installation.repository_selection"
  refuseIf (repositorySelection ≠ nestedSelection)
    (.store "repository_selection does not match installation.repository_selection")
  let added ← sequence (payload.getOr "repositories_added" (.arr [])) "repositories_added"
  let removed ← sequence (payload.getOr "repositories_removed" (.arr [])) "repositories_removed"
  let (db, installationId, applied) ← upsertInstallationFromWebhook rt db payload action
  let (current, _) ← getInstallation db installationId
  if current.status ≠ .active then return (db, installationId, current.status, applied)
  -- a stale add or remove is acknowledged and left to an explicit sync
  else if applied = false then return (db, installationId, .active, false)
  else do
    let (db, _) ← upsertEach rt (mapping · "repositories_added entry") db installationId added
    let (db, _) ← deselectEach rt (mapping · "repositories_removed entry") db installationId removed
    return (db, installationId, .active, true)

/-- `replace_installation_repositories`. -/
def replaceInstallationRepositories (db : GitHubDb) (installationId expectedStateRevision : ℕ)
    (repositories : List Fields) : Except GitHubError (GitHubDb × List ℕ) := do
  let (_, stateRevision) ← requireActiveInstallation db installationId
  refuseIf (stateRevision ≠ expectedStateRevision)
    (.connectionState "GitHub installation selection changed while the remote inventory was loading")
  upsertEach rt .ok (deselectInstallation db installationId) installationId repositories

/-! ## Snapshots -/

/-- An entry of a tree listing. -/
structure TreeEntry where
  path : String
  mode : String
  type : String
  sha : String
  size : Option ℤ
  deriving DecidableEq, Repr

/-- `INSERT OR IGNORE INTO github_snapshots` with its files; one snapshot for each commit. -/
def insertSnapshot (db : GitHubDb) (freshId : String) (row : Snapshot)
    (files : List (String × SnapshotFile)) : Except GitHubError (GitHubDb × String × Snapshot) :=
  let existing := db.snapshots.rows.find? fun s =>
    s.2.repositoryId = row.repositoryId ∧ s.2.commitSha = row.commitSha
  match existing with
  | some found => .ok (db, found)
  | none => do
      let snapshotFiles ← files.foldlM (fun table file => do
        refuseIf (table.find? (freshId, file.1)).isSome (.integrity "github_snapshot_files.path")
        return table.insert (freshId, file.1) file.2) db.snapshotFiles
      let snapshots := db.snapshots.insert freshId row
      return ({ db with snapshots := snapshots, snapshotFiles := snapshotFiles }, freshId, row)

/-- `UPDATE github_repositories SET last_seen_commit_sha = ? WHERE repository_id = ?`. -/
def seeCommit (db : GitHubDb) (repositoryId : ℕ) (commitSha : String) : GitHubDb :=
  { db with repositories := db.repositories.modify repositoryId fun r =>
      { r with lastSeenCommitSha := some commitSha } }

/-- `create_snapshot`, with the identifier `uuid4` drew: the snapshot it returns. -/
def createSnapshot (db : GitHubDb) (freshId : String) (repositoryId : ℕ)
    (ref commitSha treeSha : String) (treeEntries : List TreeEntry) (treeTruncated : Bool) :
    Except GitHubError (GitHubDb × String × Snapshot) := do
  let _ ← requireActiveSelectedRepository db repositoryId
  refuseIf (commitSha = "" ∨ treeSha = "") (.store "commit_sha and tree_sha are required")
  let files ← (treeEntries.filter fun entry => entry.type = "blob").mapM fun entry => do
    let path ← text rt (.str entry.path) "tree entry path"
    let blobSha ← text rt (.str entry.sha) "tree entry sha"
    let mode ← text rt (.str entry.mode) "tree entry mode"
    return (path, ({ blobSha := blobSha, mode := mode, sizeBytes := entry.size } : SnapshotFile))
  let ref ← text rt (.str ref) "ref"
  let row : Snapshot :=
    { repositoryId := repositoryId, ref := ref, commitSha := commitSha, treeSha := treeSha,
      fileCount := files.length, treeTruncated := treeTruncated }
  let (db, snapshotId, snapshot) ← insertSnapshot db freshId row files
  return (seeCommit db repositoryId commitSha, snapshotId, snapshot)

/-! ## What a loop leaves -/

variable {rt} {db db' : GitHubDb} {installationId : ℕ}

/-- **What an accepted payload does:** its event is taken, or nothing changes. -/
theorem upsertInstallationFromWebhook_cases {payload : Fields} {action : String} {applied : Bool}
    (h : upsertInstallationFromWebhook rt db payload action = .ok (db', installationId, applied)) :
    ∃ e, readInstallationEvent rt payload action = .ok e ∧ installationId = e.installationId ∧
      (applied = true ∧ Takes db e ∧ db' = takeInstallationEvent db e ∨
        applied = false ∧ ¬ Takes db e ∧ db' = db) := by
  classical
  unfold upsertInstallationFromWebhook at h
  obtain ⟨e, hread, h⟩ := bind_eq_ok.1 h
  obtain ⟨hdb, h⟩ : (applyInstallationEvent db e).1 = db' ∧
      (e.installationId, (applyInstallationEvent db e).2) = (installationId, applied) :=
    Prod.mk.inj (Except.ok.inj h)
  obtain ⟨rfl, happlied⟩ := Prod.mk.inj h
  refine ⟨e, hread, rfl, ?_⟩
  rw [applyInstallationEvent_eq] at hdb happlied
  by_cases htakes : Takes db e
  · rw [if_pos htakes] at hdb happlied
    exact .inl ⟨happlied.symm, htakes, hdb.symm⟩
  · rw [if_neg htakes] at hdb happlied
    exact .inr ⟨happlied.symm, htakes, hdb.symm⟩

/-- The repositories of a list are bound to the installation and selected; nothing else moved. -/
structure Bound (db db' : GitHubDb) (installationId : ℕ) (ids : List ℕ) : Prop where
  installations : db'.installations = db.installations
  versions : db'.versions = db.versions
  files : db'.snapshotFiles = db.snapshotFiles
  bound : ∀ x ∈ ids, ∃ row, db'.repositories.find? x = some row ∧
    row.installationId = installationId ∧ row.isSelected = true
  other : ∀ x ∉ ids, db'.repositories.find? x = db.repositories.find? x

/-- The repositories of a list that the installation has are deselected; nothing else moved. -/
structure Deselected (db db' : GitHubDb) (installationId : ℕ) (ids : List ℕ) : Prop where
  installations : db'.installations = db.installations
  versions : db'.versions = db.versions
  files : db'.snapshotFiles = db.snapshotFiles
  listed : ∀ x ∈ ids, db'.repositories.find? x =
    (db.repositories.find? x).map (Repository.deselect installationId)
  other : ∀ x ∉ ids, db'.repositories.find? x = db.repositories.find? x

/-- The repository an entry names. -/
def NamedBy {α : Type} (rt : Runtime K) (read : α → Except GitHubError Fields) (a : α) (x : ℕ) : Prop :=
  ∃ fields f, read a = .ok fields ∧ repositoryFields rt fields = .ok f ∧ f.repositoryId = x

theorem upsertRepository_bound {repository : Fields} {x : ℕ}
    (h : upsertRepository rt db installationId repository = .ok (db', x)) :
    Bound db db' installationId [x] ∧ ∃ f, repositoryFields rt repository = .ok f ∧
      f.repositoryId = x := by
  unfold upsertRepository at h
  obtain ⟨fields, hfields, h⟩ := bind_eq_ok.1 h
  obtain ⟨_, -, h⟩ := bind_eq_ok.1 h
  obtain ⟨_, -, h⟩ := bind_eq_ok.1 h
  obtain ⟨rfl, rfl⟩ := Prod.mk.inj (Except.ok.inj h)
  refine ⟨⟨rfl, rfl, rfl, fun y hy => ?_, fun y hy => ?_⟩, fields, hfields, rfl⟩
  · obtain rfl := List.mem_singleton.1 hy
    refine ⟨_, by rw [Table.find?_upsert, if_pos rfl], ?_⟩
    cases db.repositories.find? fields.repositoryId <;> exact ⟨rfl, rfl⟩
  · rw [Table.find?_upsert, if_neg fun hyx => hy (List.mem_singleton.2 hyx)]

theorem Bound.nil (db : GitHubDb) (installationId : ℕ) : Bound db db installationId [] :=
  ⟨rfl, rfl, rfl, fun _ h => absurd h List.not_mem_nil, fun _ _ => rfl⟩

theorem Deselected.nil (db : GitHubDb) (installationId : ℕ) : Deselected db db installationId [] :=
  ⟨rfl, rfl, rfl, fun _ h => absurd h List.not_mem_nil, fun _ _ => rfl⟩

theorem Bound.concat {db₁ : GitHubDb} {ids : List ℕ} {x : ℕ} (h : Bound db db₁ installationId ids)
    (h' : Bound db₁ db' installationId [x]) : Bound db db' installationId (ids ++ [x]) where
  installations := h'.installations.trans h.installations
  versions := h'.versions.trans h.versions
  files := h'.files.trans h.files
  bound y hy := by
    by_cases hyx : y ∈ [x]
    · exact h'.bound y hyx
    · rw [h'.other y hyx]
      exact h.bound y ((List.mem_append.1 hy).resolve_right hyx)
  other y hy := by
    rw [List.mem_append, not_or] at hy
    exact (h'.other y hy.2).trans (h.other y hy.1)

/-- The repositories named by a list of entries and one more. -/
theorem mem_concat_namedBy {α : Type} {read : α → Except GitHubError Fields} {repositories : List α}
    {a : α} {fields : Fields} {f : RepositoryFields} {x : ℕ} (hread : read a = .ok fields)
    (hf : repositoryFields rt fields = .ok f) :
    ((∃ b ∈ repositories, NamedBy rt read b x) ∨ x = f.repositoryId) ↔
      ∃ b ∈ repositories ++ [a], NamedBy rt read b x := by
  constructor
  · rintro (⟨b, hb, hx⟩ | rfl)
    · exact ⟨b, List.mem_append_left _ hb, hx⟩
    · exact ⟨a, by simp, fields, f, hread, hf, rfl⟩
  · rintro ⟨b, hb, hx⟩
    rcases List.mem_append.1 hb with hb | hb
    · exact .inl ⟨b, hb, hx⟩
    · obtain rfl := List.mem_singleton.1 hb
      obtain ⟨fields', f', hread', hf', rfl⟩ := hx
      obtain rfl : fields = fields' := Except.ok.inj (hread.symm.trans hread')
      obtain rfl : f = f' := Except.ok.inj (hf.symm.trans hf')
      exact .inr rfl

/-- **A loop of upserts** binds exactly the repositories its entries name. -/
theorem upsertEach_bound {α : Type} {read : α → Except GitHubError Fields} {repositories : List α}
    {ids : List ℕ} (h : upsertEach rt read db installationId repositories = .ok (db', ids)) :
    Bound db db' installationId ids ∧ (∀ x, x ∈ ids ↔ ∃ a ∈ repositories, NamedBy rt read a x) := by
  unfold upsertEach at h
  induction repositories using List.reverseRecOn generalizing db' ids with
  | nil =>
      obtain ⟨rfl, rfl⟩ := Prod.mk.inj (Except.ok.inj h)
      exact ⟨.nil db installationId, by simp⟩
  | append_singleton repositories a ih =>
      rw [List.foldlM_append] at h
      obtain ⟨⟨db₁, ids₁⟩, h₁, h⟩ := bind_eq_ok.1 h
      obtain ⟨hbound, hids⟩ := ih h₁
      rw [List.foldlM_cons] at h
      obtain ⟨acc, h₂, h⟩ := bind_eq_ok.1 h
      obtain rfl : acc = (db', ids) := Except.ok.inj h
      obtain ⟨fields, hread, h₂⟩ := bind_eq_ok.1 h₂
      obtain ⟨⟨db₂, y⟩, hup, h₃⟩ := bind_eq_ok.1 h₂
      obtain ⟨rfl, rfl⟩ := Prod.mk.inj (Except.ok.inj h₃)
      obtain ⟨hone, f, hf, rfl⟩ := upsertRepository_bound hup
      refine ⟨hbound.concat hone, fun x => ?_⟩
      rw [List.mem_append, hids, List.mem_singleton]
      exact mem_concat_namedBy hread hf

/-- **A loop of deselections** deselects exactly the repositories its entries name. -/
theorem deselectEach_deselected {read : Json → Except GitHubError Fields} {repositories : List Json}
    {ids : List ℕ} (h : deselectEach rt read db installationId repositories = .ok (db', ids)) :
    Deselected db db' installationId ids ∧
      (∀ x, x ∈ ids ↔ ∃ a ∈ repositories, NamedBy rt read a x) := by
  unfold deselectEach at h
  induction repositories using List.reverseRecOn generalizing db' ids with
  | nil =>
      obtain ⟨rfl, rfl⟩ := Prod.mk.inj (Except.ok.inj h)
      exact ⟨.nil db installationId, by simp⟩
  | append_singleton repositories a ih =>
      rw [List.foldlM_append] at h
      obtain ⟨⟨db₁, ids₁⟩, h₁, h⟩ := bind_eq_ok.1 h
      obtain ⟨hd, hids⟩ := ih h₁
      rw [List.foldlM_cons] at h
      obtain ⟨acc, h₂, h⟩ := bind_eq_ok.1 h
      obtain rfl : acc = (db', ids) := Except.ok.inj h
      obtain ⟨fields, hread, h₂⟩ := bind_eq_ok.1 h₂
      obtain ⟨f, hf, h₃⟩ := bind_eq_ok.1 h₂
      obtain ⟨rfl, rfl⟩ := Prod.mk.inj (Except.ok.inj h₃)
      have hfind : ∀ y, (deselectRepository db₁ f.repositoryId installationId).repositories.find? y =
          if y = f.repositoryId then (db₁.repositories.find? f.repositoryId).map
            (Repository.deselect installationId) else db₁.repositories.find? y :=
        fun y => Table.find?_modify _
      refine ⟨⟨hd.installations, hd.versions, hd.files, fun y hy => ?_, fun y hy => ?_⟩, fun x => ?_⟩
      · rw [hfind]
        split_ifs with hyf
        · subst hyf
          by_cases hmem : f.repositoryId ∈ ids₁
          · rw [hd.listed _ hmem, Option.map_map]
            exact congrArg (Option.map · _) (funext (Repository.deselect_deselect _))
          · rw [hd.other _ hmem]
        · exact hd.listed y ((List.mem_append.1 hy).resolve_right fun h => hyf (by simpa using h))
      · rw [List.mem_append, List.mem_singleton, not_or] at hy
        rw [hfind, if_neg hy.2, hd.other y hy.1]
      · rw [List.mem_append, hids, List.mem_singleton]
        exact mem_concat_namedBy hread hf

/-! ## What the checks establish -/

theorem getInstallation_eq_ok {row : Installation} {n : ℕ}
    (h : getInstallation db installationId = .ok (row, n)) :
    db.installations.find? installationId = some row ∧ n = db.revision installationId := by
  unfold getInstallation at h
  split at h
  · cases h
  · rename_i row' hrow
    obtain ⟨rfl, rfl⟩ := Prod.mk.inj (Except.ok.inj h)
    exact ⟨hrow, rfl⟩

theorem requireActiveInstallation_eq_ok {row : Installation} {n : ℕ}
    (h : requireActiveInstallation db installationId = .ok (row, n)) :
    db.status installationId = some .active ∧ n = db.revision installationId := by
  unfold requireActiveInstallation at h
  obtain ⟨⟨row', n'⟩, hget, h⟩ := bind_eq_ok.1 h
  obtain ⟨_, hactive, h⟩ := bind_eq_ok.1 h
  obtain ⟨rfl, rfl⟩ := Prod.mk.inj (Except.ok.inj h)
  obtain ⟨hrow, hn⟩ := getInstallation_eq_ok hget
  unfold GitHubDb.status
  rw [hrow, Option.map_some, not_not.1 (refuseIf_eq_ok.1 hactive)]
  exact ⟨rfl, hn⟩

theorem requireActiveSelectedRepository_eq_ok {x : ℕ} {row : Repository}
    (h : requireActiveSelectedRepository db x = .ok row) :
    db.repositories.find? x = some row ∧ row.isSelected = true ∧
      db.status row.installationId = some .active := by
  unfold requireActiveSelectedRepository at h
  obtain ⟨⟨row', status⟩, hget, h⟩ := bind_eq_ok.1 h
  obtain ⟨_, hchecks, h⟩ := bind_eq_ok.1 h
  obtain rfl := Except.ok.inj h
  unfold getRepository at hget
  split at hget
  · cases hget
  · rename_i found hfound
    obtain rfl := Except.ok.inj hget
    obtain ⟨r, hr, hfound⟩ := Option.bind_eq_some_iff.1 hfound
    obtain ⟨row, hrow, hfound⟩ := Option.map_eq_some_iff.1 hfound
    obtain ⟨rfl, rfl⟩ := Prod.mk.inj hfound
    have hnot := refuseIf_eq_ok.1 hchecks
    rw [not_or, Bool.not_eq_true', Bool.not_eq_false, not_not] at hnot
    refine ⟨hr, hnot.1, ?_⟩
    unfold GitHubDb.status
    rw [hrow, Option.map_some, hnot.2]

/-- **What a sync leaves:** the installation is active and at the revision it was read at,
and its selection is the list. -/
theorem replaceInstallationRepositories_eq_ok {expected : ℕ} {repositories : List Fields}
    {ids : List ℕ}
    (h : replaceInstallationRepositories rt db installationId expected repositories =
      .ok (db', ids)) :
    db.status installationId = some .active ∧ db.revision installationId = expected ∧
      Bound (deselectInstallation db installationId) db' installationId ids ∧
      ∀ x, x ∈ ids ↔ ∃ a ∈ repositories, NamedBy rt .ok a x := by
  unfold replaceInstallationRepositories at h
  obtain ⟨⟨row, n⟩, hrequire, h⟩ := bind_eq_ok.1 h
  obtain ⟨_, hrevision, h⟩ := bind_eq_ok.1 h
  obtain ⟨hactive, hn⟩ := requireActiveInstallation_eq_ok hrequire
  have hexpected : n = expected := not_not.1 (refuseIf_eq_ok.1 hrevision)
  exact ⟨hactive, hn.symm.trans hexpected, upsertEach_bound h⟩

theorem insertSnapshot_eq_ok {freshId snapshotId : String} {row snapshot : Snapshot}
    {files : List (String × SnapshotFile)}
    (h : insertSnapshot db freshId row files = .ok (db', snapshotId, snapshot)) :
    db'.installations = db.installations ∧ db'.versions = db.versions ∧
      db'.repositories = db.repositories := by
  unfold insertSnapshot at h
  dsimp only at h
  split at h
  · obtain ⟨rfl, -⟩ := Prod.mk.inj (Except.ok.inj h)
    exact ⟨rfl, rfl, rfl⟩
  · obtain ⟨_, -, h⟩ := bind_eq_ok.1 h
    obtain ⟨rfl, -⟩ := Prod.mk.inj (Except.ok.inj h)
    exact ⟨rfl, rfl, rfl⟩

/-- **What a snapshot leaves:** its repository is selected and its installation active, and
only the commit last seen is new. -/
theorem createSnapshot_eq_ok {freshId ref commitSha treeSha snapshotId : String} {x : ℕ}
    {entries : List TreeEntry} {truncated : Bool} {snapshot : Snapshot}
    (h : createSnapshot rt db freshId x ref commitSha treeSha entries truncated =
      .ok (db', snapshotId, snapshot)) :
    (∃ row, db.repositories.find? x = some row ∧ row.isSelected = true ∧
      db.status row.installationId = some .active) ∧
      db'.installations = db.installations ∧ db'.versions = db.versions ∧
      db'.repositories = (seeCommit db x commitSha).repositories := by
  unfold createSnapshot at h
  obtain ⟨row, hrequire, h⟩ := bind_eq_ok.1 h
  obtain ⟨_, -, h⟩ := bind_eq_ok.1 h
  obtain ⟨files, -, h⟩ := bind_eq_ok.1 h
  obtain ⟨ref', -, h⟩ := bind_eq_ok.1 h
  obtain ⟨⟨db₁, s⟩, hinsert, h⟩ := bind_eq_ok.1 h
  obtain ⟨rfl, -⟩ := Prod.mk.inj (Except.ok.inj h)
  obtain ⟨hinstallations, hversions, hrepositories⟩ := insertSnapshot_eq_ok hinsert
  refine ⟨⟨row, requireActiveSelectedRepository_eq_ok hrequire⟩, hinstallations, hversions, ?_⟩
  unfold seeCommit
  dsimp only
  rw [hrepositories]

end GitHub
end PulseGraph
