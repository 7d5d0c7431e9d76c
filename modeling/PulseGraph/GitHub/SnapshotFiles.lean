/-
# What the inventory of a snapshot holds

`create_snapshot` takes the blanks off the sha of every blob before it stores it, nothing else
writes `github_snapshot_files`, and its primary key has one row for each path of a snapshot.
So what a diagnosis reads of a snapshot is an inventory of the kind its source context is
proved about.

**Proved here.**  `inventory_of_run`: `list_snapshot_source_inventory` returns an `Inventory`, in
every reachable state and for every snapshot and limit it accepts.
-/

import PulseGraph.GitHub.PinnedSources
import PulseGraph.GitHub.Selection
import PulseGraph.GitHub.Texts

namespace PulseGraph
namespace GitHub

open Library (Run Table Transition bind_eq_ok foldlM_induct mem_mapM_ok)

/-- `list_snapshot_source_inventory`. -/
def listSnapshotSourceInventory {K : Type} (rt : Runtime K) (db : GitHubDb) (snapshotId : String) (limit : ℤ) :
    Except GitHubError (List InventoryRow) := do
  let snapshotId ← text rt (.str snapshotId) "snapshot_id"
  refuseIf (limit < 1 ∨ 20000 < limit)
    (.store "snapshot source inventory limit must be an integer from 1 through 20000")
  let rows := db.snapshotFiles.select fun k _ => k.1 = snapshotId
  return (sqlLimit limit (rows.insertionSort fun a b => a.1.2 ≤ b.1.2)).map fun r =>
    ⟨r.1.2, r.2.blobSha, some "blob", r.2.sizeBytes⟩

/-- Every stored sha is without blanks around it. -/
def FilesStripped {K : Type} (rt : Runtime K) (db : GitHubDb) : Prop :=
  ∀ k file, db.snapshotFiles.find? k = some file → rt.strip file.blobSha = file.blobSha

section Store

variable {K : Type} {rt : Runtime K} {db db' : GitHubDb}

/-- What is read as a text is stripped. -/
theorem strip_of_text (laws : TextLaws rt) {value : Library.Json} {context s : String}
    (h : text rt value context = .ok s) : rt.strip s = s := by
  unfold text at h
  split at h
  · split_ifs at h
    obtain rfl := Except.ok.inj h
    exact laws.strip_strip _
  · cases h

/-- The files of a new snapshot are stored beside the others. -/
theorem FilesStripped.insertSnapshot {freshId snapshotId : String} {row snapshot : Snapshot}
    {files : List (String × SnapshotFile)} (hs : FilesStripped rt db)
    (hfiles : ∀ file ∈ files, rt.strip file.2.blobSha = file.2.blobSha)
    (h : insertSnapshot db freshId row files = .ok (db', snapshotId, snapshot)) : FilesStripped rt db' := by
  unfold GitHub.insertSnapshot at h
  dsimp only at h
  split at h
  · obtain ⟨rfl, -⟩ := Prod.mk.inj (Except.ok.inj h)
    exact hs
  · obtain ⟨table, hfold, h⟩ := bind_eq_ok.1 h
    obtain ⟨rfl, -⟩ := Prod.mk.inj (Except.ok.inj h)
    refine foldlM_induct (P := fun table : Table (String × String) SnapshotFile =>
      ∀ k file, table.find? k = some file → rt.strip file.blobSha = file.blobSha) hfold hs ?_
    intro table file table' hfile ih hstep k found hfound
    obtain ⟨_, -, hstep⟩ := bind_eq_ok.1 hstep
    obtain rfl := Except.ok.inj hstep
    rw [Table.find?_insert] at hfound
    split_ifs at hfound with hk
    · cases htable : table.find? (freshId, file.1) with
      | some old =>
          rw [htable] at hfound
          obtain rfl := Option.some.inj hfound
          exact ih _ _ htable
      | none =>
          rw [htable] at hfound
          obtain rfl := Option.some.inj hfound
          exact hfiles file hfile
    · exact ih k found hfound

/-- **`create_snapshot`** stores each sha without the blanks around it. -/
theorem FilesStripped.createSnapshot (laws : TextLaws rt) {freshId ref commitSha treeSha snapshotId : String}
    {x : ℕ} {entries : List TreeEntry} {truncated : Bool} {snapshot : Snapshot} (hs : FilesStripped rt db)
    (h : createSnapshot rt db freshId x ref commitSha treeSha entries truncated =
      .ok (db', snapshotId, snapshot)) : FilesStripped rt db' := by
  unfold GitHub.createSnapshot at h
  obtain ⟨_, -, h⟩ := bind_eq_ok.1 h
  obtain ⟨_, -, h⟩ := bind_eq_ok.1 h
  obtain ⟨files, hfiles, h⟩ := bind_eq_ok.1 h
  obtain ⟨_, -, h⟩ := bind_eq_ok.1 h
  obtain ⟨⟨db₁, _⟩, hinsert, h⟩ := bind_eq_ok.1 h
  obtain ⟨rfl, -⟩ := Prod.mk.inj (Except.ok.inj h)
  show FilesStripped rt db₁
  refine hs.insertSnapshot (fun file hfile => ?_) hinsert
  obtain ⟨entry, -, hentry⟩ := mem_mapM_ok hfiles hfile
  obtain ⟨path, -, hentry⟩ := bind_eq_ok.1 hentry
  obtain ⟨blobSha, hsha, hentry⟩ := bind_eq_ok.1 hentry
  obtain ⟨mode, -, hentry⟩ := bind_eq_ok.1 hentry
  obtain rfl := Except.ok.inj hentry
  exact strip_of_text laws hsha

/-- A snapshot that persists keeps it so. -/
theorem FilesStripped.persistSnapshot (laws : TextLaws rt) {freshId : String} {x i : ℕ}
    {remote : RemoteSnapshot} (hs : FilesStripped rt db) (h : persistSnapshot rt db freshId x i remote = .ok db') :
    FilesStripped rt db' := by
  unfold GitHub.persistSnapshot at h
  obtain ⟨_, -, h⟩ := bind_eq_ok.1 h
  obtain ⟨_, -, h⟩ := bind_eq_ok.1 h
  obtain ⟨⟨db₁, _⟩, hupsert, h⟩ := bind_eq_ok.1 h
  obtain ⟨⟨db₂, _⟩, hcreate, h⟩ := bind_eq_ok.1 h
  obtain rfl : db₂ = db' := Except.ok.inj h
  have hbound := (upsertRepository_bound hupsert).1
  have hs₁ : FilesStripped rt db₁ := by
    unfold FilesStripped
    rw [hbound.files]
    exact hs
  exact hs₁.createSnapshot laws hcreate

/-- **Every turn** keeps it so: webhooks and syncs write no file. -/
theorem Turned.filesStripped (laws : TextLaws rt) {s s' : GitHubState} {l : GitHubTurn} (h : Turned rt s s' l)
    (hs : FilesStripped rt s.db) : FilesStripped rt s'.db := by
  have hsame : s'.db.snapshotFiles = s.db.snapshotFiles → FilesStripped rt s'.db := by
    intro heq
    unfold FilesStripped
    rw [heq]
    exact hs
  cases h with
  | same haccess => exact hsame haccess.files
  | webhook htaken =>
      obtain ⟨db₁, db₂, h₁, hbound, hdeselected⟩ := htaken.effect
      exact hsame (hdeselected.files.trans (hbound.files.trans h₁.files))
  | sync _ hreplace =>
      obtain ⟨-, -, hbound, -⟩ := replaceInstallationRepositories_eq_ok hreplace
      exact hsame hbound.files
  | snapshot _ hpersist => exact hs.persistSnapshot laws hpersist

end Store

/-! ## The inventory -/

section Inventory

variable {K : Type} {rt : Runtime K} {maximum : ℕ} {h : List (Transition GitHubState GitHubTurn)} {s : GitHubState}

/-- In every reachable state the stored shas are stripped. -/
theorem filesStripped_of_run (laws : TextLaws rt) (r : GitHubRun rt maximum h s) : FilesStripped rt s.db := by
  refine r.induct (I := fun _ s => FilesStripped rt s.db) (fun s hs => ?_)
    fun h s l s' _ hs hstep => (turned_of_next hstep).filesStripped laws hs
  subst hs
  intro k file hfile
  cases hfile

/-- **What is read of a snapshot is an inventory**, in every reachable state. -/
theorem inventory_of_run (laws : TextLaws rt) (r : GitHubRun rt maximum h s) {snapshotId : String} {limit : ℤ}
    {rows : List InventoryRow} (hrows : listSnapshotSourceInventory rt s.db snapshotId limit = .ok rows) :
    ∃ inventory : Inventory rt, inventory.rows = rows := by
  unfold listSnapshotSourceInventory at hrows
  obtain ⟨snapshotId, -, hrows⟩ := bind_eq_ok.1 hrows
  obtain ⟨_, -, hrows⟩ := bind_eq_ok.1 hrows
  obtain rfl := Except.ok.inj hrows
  obtain ⟨stored, hstored⟩ : ∃ stored, stored = sqlLimit limit
      ((s.db.snapshotFiles.select fun k _ => k.1 = snapshotId).insertionSort fun a b => a.1.2 ≤ b.1.2) :=
    ⟨_, rfl⟩
  have hsub : ∀ r ∈ stored, s.db.snapshotFiles.find? r.1 = some r.2 ∧ r.1.1 = snapshotId := by
    intro r hr
    rw [hstored] at hr
    have hsel := Table.mem_select.1 ((List.mem_insertionSort _).1 ((sqlLimit_sublist _ _).subset hr))
    exact ⟨hsel.1, by simpa using hsel.2⟩
  -- the rows of one snapshot have different paths
  have hkeys : (stored.map Prod.fst).Nodup := by
    rw [hstored]
    refine ((sqlLimit_sublist _ _).map _).nodup ?_
    exact ((List.perm_insertionSort _ _).map _).nodup_iff.2 (Table.nodup_select _ _)
  rw [← hstored]
  refine ⟨⟨stored.map fun r => ⟨r.1.2, r.2.blobSha, some "blob", r.2.sizeBytes⟩, ?_, ?_⟩, rfl⟩
  · rw [List.map_map]
    refine List.Nodup.map_on (fun a ha b hb hpath => ?_) hkeys.of_map
    have hkey : a.1 = b.1 := Prod.ext ((hsub a ha).2.trans (hsub b hb).2.symm) hpath
    exact List.inj_on_of_nodup_map hkeys ha hb hkey
  · rintro row hrow
    obtain ⟨r', hr', rfl⟩ := List.mem_map.1 hrow
    exact filesStripped_of_run laws r r'.1 r'.2 (hsub r' hr').1

/-- Repository 7 with a tree whose one blob has blanks around its sha. -/
def remoteWithBlanks : RemoteSnapshot :=
  { remoteOfSeven with
    entries := [⟨"src", "040000", "tree", "t1", none⟩, ⟨"src/app.py", "100644", "blob", " b1\n", some 2⟩] }

/-- The blob is read under its sha alone. -/
theorem inventory_of_run_blanks : ∃ h s, GitHubRun strippingRuntime 100 h s ∧
    ∃ rows, listSnapshotSourceInventory strippingRuntime s.db "s1" 500 = .ok rows ∧
      rows.map (·.blobSha) = ["b1"] ∧ ∃ inventory : Inventory strippingRuntime, inventory.rows = rows := by
  have hreplay : (Library.replay (gitHubNext strippingRuntime 100)
      [.webhook (selectionWebhook "d1" "added" 1 1 [listedRepository 7 "api"] []), .snapshotBegin 7,
        .snapshotPersist 1 "s1" remoteWithBlanks] ([], GitHubState.initial)).map (fun r =>
        (listSnapshotSourceInventory strippingRuntime r.2.db "s1" 500).toOption.map fun rows =>
          rows.map (·.blobSha)) = some (some ["b1"]) := by
    decide +kernel
  obtain ⟨h, s, r, heq⟩ :=
    @Run.exists_of_replay _ _ (· = GitHubState.initial) _ _ _ _ _ _ rfl hreplay
  obtain ⟨rows, hrows, hshas⟩ := Option.map_eq_some_iff.1 heq
  have hok := Library.toOption_eq_some.1 hrows
  exact ⟨h, s, r, rows, hok, hshas, inventory_of_run textLaws_strippingRuntime r hok⟩

end Inventory

end GitHub
end PulseGraph
