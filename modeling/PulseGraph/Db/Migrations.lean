/-
# Opening a database

`src/db/connection.py`: when the service starts it runs `schema.sql`, adds the columns that came after a
table was first created, and then creates the indexes that need these columns.  Every statement commits
by itself, so a start that ends early leaves what it has done so far, and the next start begins again.

**Proved here.**  It does not matter where a start ended: the next one comes to the same database, or
fails alike, and nothing is ever taken away (`starts_converge`).  A database can be opened exactly when
every index that it lacks finds its columns in its table, or among those that are added first.
-/

import PulseGraph.Library.Ddl
import PulseGraph.Library.Run

namespace PulseGraph

open Library (runAll runAll_nil runAll_cons runAll_append Restarts Run Transition)
open Library.Ddl

/-! ## The statements -/

/-- `schema.sql`: the columns of its tables and of its indexes. -/
def schemaSql : List Statement :=
  [.table "raw_events" ["event_id", "seq", "fingerprint", "stable_fingerprint", "scope_key", "source",
      "service", "alertname", "severity_raw", "status", "labels_json", "message", "fired_at", "ingested_at",
      "raw_payload", "prev_hash", "row_hash", "incident_id", "is_duplicate", "bypassed", "bypass_reason",
      "decision_payload_json"],
    .index "idx_raw_events_seq" "raw_events" ["seq"],
    .index "idx_raw_events_fingerprint" "raw_events" ["fingerprint"],
    .index "idx_raw_events_service" "raw_events" ["service"],
    .index "idx_raw_events_fired_at" "raw_events" ["fired_at"],
    .index "idx_raw_events_incident" "raw_events" ["incident_id"],
    .index "idx_raw_events_scope_stable" "raw_events" ["scope_key", "stable_fingerprint"],
    .table "incidents" ["incident_id", "scope_key", "stable_fingerprint", "title", "summary", "severity",
      "status", "alert_count", "first_alert_at", "last_alert_at", "first_ingested_at", "last_ingested_at",
      "ewma_rate", "quiet_at_ms", "ewma_mean_gap", "ewma_variance", "gap_history_json", "route_decision",
      "root_cause_hint", "correlation_group_id", "reopen_count", "flapping_since", "last_flap_notified_at",
      "acknowledged_at", "acknowledged_by", "acknowledged_via", "resolved_at", "resolved_via",
      "resolution_source", "resolution_detail", "created_at", "updated_at"],
    .index "idx_incidents_status" "incidents" ["status"],
    .index "idx_incidents_severity" "incidents" ["severity"],
    .index "idx_incidents_updated" "incidents" ["updated_at"],
    .index "idx_incidents_scope_stable" "incidents" ["scope_key", "stable_fingerprint"],
    .index "idx_incidents_quiet_deadline" "incidents" ["status", "quiet_at_ms"],
    .table "edges" ["src_incident_id", "dst_incident_id", "weight", "last_seen_at"],
    .index "idx_edges_dst" "edges" ["dst_incident_id"],
    .index "idx_edges_seen" "edges" ["last_seen_at"],
    .table "source_clock_skew" ["source", "scope_key", "last_skew_ms", "max_abs_skew_ms", "samples",
      "updated_at"],
    .table "graph_node_stats" ["incident_id", "scope_key", "observations", "last_observed_at"],
    .index "idx_graph_node_stats_scope" "graph_node_stats" ["scope_key"],
    .table "graph_scope_stats" ["scope_key", "rounds", "last_observed_at", "observed_revision",
      "ranked_revision", "ranked_at"],
    .table "outbox" ["outbox_id", "incident_id", "channel", "action", "payload_json", "status", "attempts",
      "next_attempt_at", "last_error", "external_ref", "priority", "locked_by", "locked_until", "superseded_by",
      "failover_of", "origin_channel", "created_at", "sent_at"],
    .index "idx_outbox_incident" "outbox" ["incident_id"],
    .table "incident_groups" ["group_id", "scope_key", "anchor_incident_id", "root_incident_id", "title",
      "severity", "member_count", "status", "created_at", "updated_at"],
    .index "idx_incident_groups_scope" "incident_groups" ["scope_key", "status"],
    .index "idx_incident_groups_anchor" "incident_groups" ["anchor_incident_id"],
    .table "inbound_events" ["inbound_id", "provider", "kind", "incident_id", "actor", "status", "detail",
      "payload_sha256", "received_at"],
    .index "idx_inbound_events_incident" "inbound_events" ["incident_id", "received_at"],
    .table "channel_health" ["channel", "state", "consecutive_failures", "probe_backoff_step", "opened_at",
      "next_probe_at", "last_success_at", "last_failure_at", "last_error", "outage_count", "updated_at"],
    .table "channel_outages" ["outage_id", "channel", "detected_at", "recovered_at", "probe_attempts",
      "queued_at_peak", "failed_over", "last_error"],
    .index "idx_channel_outages_channel" "channel_outages" ["channel", "detected_at"],
    .table "delivery_intents" ["delivery_intent_id", "incident_id", "event_id", "channel", "action",
      "idempotency_key", "payload_json", "status", "created_at"],
    .index "idx_delivery_intents_incident" "delivery_intents" ["incident_id"],
    .index "idx_delivery_intents_pending" "delivery_intents" ["status", "created_at"],
    .table "github_installations" ["installation_id", "account_login", "account_type", "repository_selection",
      "status", "suspended_at", "permissions_json", "installed_at", "updated_at"],
    .table "github_installation_state_versions" ["installation_id", "provider_updated_at_us",
      "provider_event_priority", "revision", "updated_at"],
    .table "github_repositories" ["repository_id", "installation_id", "owner", "name", "full_name",
      "default_branch", "html_url", "is_private", "is_archived", "is_selected", "last_seen_commit_sha",
      "created_at", "updated_at"],
    .index "idx_github_repositories_installation" "github_repositories" ["installation_id", "is_selected"],
    .table "github_service_mappings" ["service", "repository_id", "created_at", "updated_at"],
    .index "idx_github_service_mappings_repository" "github_service_mappings" ["repository_id"],
    .table "github_snapshots" ["snapshot_id", "repository_id", "ref", "commit_sha", "tree_sha", "file_count",
      "tree_truncated", "created_at"],
    .index "idx_github_snapshots_repository_created" "github_snapshots" ["repository_id", "created_at"],
    .table "github_snapshot_files" ["snapshot_id", "path", "blob_sha", "mode", "object_type", "size_bytes"],
    .index "idx_github_snapshot_files_blob" "github_snapshot_files" ["blob_sha"],
    .table "github_webhook_deliveries" ["delivery_id", "event_type", "action", "installation_id",
      "payload_sha256", "processing_status", "received_at", "processed_at"],
    .index "idx_github_webhook_deliveries_installation" "github_webhook_deliveries" ["installation_id",
      "received_at"],
    .table "github_incident_analyses" ["analysis_id", "incident_id", "service", "repository_id", "snapshot_id",
      "status", "provider", "confidence", "root_cause_summary", "root_cause_reasoning", "evidence_json",
      "proposed_fix_summary", "proposed_fix_steps_json", "proposed_fix_paths_json", "fallback_reason",
      "fallback_message", "fallback_next_steps_json", "source_context_digest", "source_excerpt_count",
      "source_bytes", "created_at"],
    .index "idx_github_incident_analyses_incident_created" "github_incident_analyses" ["incident_id",
      "created_at"],
    .index "idx_github_incident_analyses_snapshot" "github_incident_analyses" ["snapshot_id", "created_at"]]

/-- `_COLUMN_MIGRATIONS`. -/
def columnMigrations : List (String × List String) :=
  [("outbox", ["priority", "locked_by", "locked_until", "superseded_by", "failover_of", "origin_channel"]),
    ("incidents", ["first_ingested_at", "last_ingested_at", "correlation_group_id", "reopen_count", "flapping_since",
      "last_flap_notified_at", "acknowledged_at", "acknowledged_by", "acknowledged_via", "resolved_at", "resolved_via",
      "resolution_source", "resolution_detail"]),
    ("graph_scope_stats", ["observed_revision", "ranked_revision", "ranked_at"])]

/-- `_MIGRATED_COLUMN_INDEXES`, with the columns of their conditions. -/
def migratedColumnIndexes : List Statement :=
  [.index "idx_incidents_last_ingested" "incidents" ["status", "last_ingested_at"],
    .index "idx_incidents_group" "incidents" ["correlation_group_id"],
    .index "idx_outbox_pending" "outbox" ["status", "next_attempt_at", "priority", "outbox_id"],
    .index "idx_outbox_lease" "outbox" ["locked_until", "status"]]

/-! ## A start -/

/-- What a start has still to do. -/
inductive Task where
  | execute (s : Statement)
  /-- Read the columns of a table, and add those that are missing. -/
  | compare (table : String) (columns : List String)
  /-- `ALTER TABLE table ADD COLUMN name`. -/
  | add (table name : String)

/-- `_table_columns`. -/
def tableColumns (table : String) (c : Catalog) : List String := (c.columns table).getD []

/-- The columns of a migration that a table lacks. -/
def missingColumns (table : String) (columns : List String) (c : Catalog) : List String :=
  columns.filter fun x => x ∉ tableColumns table c

/-- `_ensure_schema`. -/
def ensureSchemaTasks : List Task :=
  schemaSql.map .execute ++ columnMigrations.map (fun m => .compare m.1 m.2) ++ migratedColumnIndexes.map .execute

/-- A task to its end; `none` where it raises. -/
def runTask : Task → Catalog → Option Catalog
  | .execute s, c => exec s c
  | .compare table columns, c => (missingColumns table columns c).foldlM (fun c x => addColumn table x c) c
  | .add table name, c => addColumn table name c

/-- A start to its end. -/
def ensureSchema (c : Catalog) : Option Catalog := runAll runTask ensureSchemaTasks c

/-- A start under way: its tasks and the catalog. -/
structure Starting where
  tasks : List Task
  catalog : Catalog

/-- The next statement of a start, or a start from the beginning after the last one ended anywhere. -/
inductive StartTurn where
  | proceed | restart
  deriving DecidableEq

/-- One turn; `none` where the start is over, or its next statement raises. -/
def startNext (s : Starting) : StartTurn → Option Starting
  | .restart => some { s with tasks := ensureSchemaTasks }
  | .proceed => match s.tasks with
    | [] => none
    | .compare table columns :: rest =>
        some { s with tasks := (missingColumns table columns s.catalog).map (.add table) ++ rest }
    | task :: rest => (runTask task s.catalog).map fun c => ⟨rest, c⟩

/-- **The starts of a service** on a database, each ended anywhere. -/
def StartRun (c : Catalog) : List (Transition Starting StartTurn) → Starting → Prop :=
  Run (· = ⟨ensureSchemaTasks, c⟩) fun s turn s' => startNext s turn = some s'

/-! ## What a start amounts to -/

/-- What a task adds. -/
def Task.statements : Task → List Statement
  | .execute s => [s]
  | .compare table columns => columns.map (.column table)
  | .add table name => [.column table name]

/-- The statements of a start, each adding what is not there. -/
def startStatements : List Statement := ensureSchemaTasks.flatMap Task.statements

theorem inOrder_startStatements : inOrder [] startStatements = true := by decide +kernel

/-- A column that came after its table was first created. -/
def Migrated (table name : String) : Prop := ∃ m ∈ columnMigrations, m.1 = table ∧ name ∈ m.2

/-- **A database that can be opened**: every index that it lacks finds its columns in its table, if there
is one, or among those that came later. -/
def Openable (c : Catalog) : Prop :=
  ∀ name table columns, .index name table columns ∈ schemaSql ++ migratedColumnIndexes → c.indexed name = true ∨
    ∀ present, c.columns table = some present → ∀ x ∈ columns, x ∈ present ∨ Migrated table x

section Tasks

variable {c c' : Catalog} {table name : String} {columns : List String}

theorem mem_tableColumns : name ∈ tableColumns table c ↔ c.HasColumn table name := by
  unfold tableColumns Catalog.HasColumn
  cases c.columns table with
  | none => simp
  | some there => simp

/-- A column that is missing is added, or both statements raise. -/
theorem exec_column_of_missing (h : ¬ c.HasColumn table name) :
    exec (.column table name) c = addColumn table name c := by
  rw [exec]
  cases hthere : c.columns table with
  | none => rw [addColumn, hthere]; rfl
  | some there => rw [Option.bind_some, if_neg fun hname => h ⟨there, hthere, hname⟩]

/-- `ALTER TABLE` adds a column that was missing. -/
theorem exec_column_of_add (h : addColumn table name c = some c') : exec (.column table name) c = some c' := by
  refine (exec_column_of_missing ?_).trans h
  rintro ⟨there, hthere, hname⟩
  rw [addColumn, hthere, Option.bind_some, if_pos hname] at h
  cases h

/-- Adding the columns that were missing when the table was read is adding each that is missing. -/
theorem foldlM_addColumn {existing : List String} (hnodup : columns.Nodup)
    (hexisting : ∀ x ∈ columns, x ∈ existing ↔ c.HasColumn table x) :
    (columns.filter fun x => x ∉ existing).foldlM (fun c x => addColumn table x c) c =
      runAll exec (columns.map (.column table)) c := by
  induction columns generalizing c with
  | nil => rfl
  | cons x columns ih =>
      obtain ⟨hx, hnodup⟩ := List.nodup_cons.1 hnodup
      rw [List.map_cons, runAll_cons]
      by_cases hin : x ∈ existing
      · have hdone : exec (.column table x) c = some c := exec_of_done ((hexisting x List.mem_cons_self).1 hin)
        rw [List.filter_cons_of_neg (by simpa using hin), hdone, Option.bind_some]
        exact ih hnodup fun y hy => hexisting y (List.mem_cons_of_mem x hy)
      · rw [List.filter_cons_of_pos (by simpa using hin), List.foldlM_cons,
          exec_column_of_missing fun hthere => hin ((hexisting x List.mem_cons_self).2 hthere)]
        refine Option.bind_congr fun c₁ h₁ => ih hnodup fun y hy => ?_
        -- the other columns of the migration are where they were
        have hexec := exec_column_of_add h₁
        rw [hexisting y (List.mem_cons_of_mem x hy)]
        refine ⟨fun hthere => (exec_spec hexec).2.done (s := .column table y) hthere, fun hthere => ?_⟩
        rcases (exec_adds hexec).column table y hthere with hold | hadded | ⟨-, _, hadded, -⟩
        · exact hold
        · injection List.mem_singleton.1 hadded with _ heq
          exact absurd (heq ▸ hy) hx
        · cases List.mem_singleton.1 hadded

/-- The columns of a migration are distinct. -/
def Task.distinct : Task → Prop
  | .compare _ columns => columns.Nodup
  | .execute _ => True
  | .add _ _ => False

theorem runTask_eq {task : Task} (h : task.distinct) (c : Catalog) :
    runTask task c = runAll exec task.statements c := by
  cases task with
  | execute s => exact (Option.bind_fun_some (exec s c)).symm
  | compare table columns => exact foldlM_addColumn h fun _ _ => mem_tableColumns
  | add _ _ => exact h.elim

theorem runTasks_eq {tasks : List Task} (h : ∀ task ∈ tasks, task.distinct) (c : Catalog) :
    runAll runTask tasks c = runAll exec (tasks.flatMap Task.statements) c := by
  induction tasks generalizing c with
  | nil => rfl
  | cons task tasks ih =>
      rw [List.flatMap_cons, runAll_append, runAll_cons, runTask_eq (h task List.mem_cons_self)]
      exact Option.bind_congr fun c₁ _ => ih (fun t ht => h t (List.mem_cons_of_mem task ht)) c₁

theorem distinct_ensureSchemaTasks : ∀ task ∈ ensureSchemaTasks, task.distinct := by
  unfold ensureSchemaTasks
  simp only [List.forall_mem_append, List.forall_mem_map]
  exact ⟨⟨fun _ _ => trivial, by unfold Task.distinct; decide⟩, fun _ _ => trivial⟩

/-- **A start is its statements**, each adding what is not there. -/
theorem ensureSchema_eq (c : Catalog) : ensureSchema c = runAll exec startStatements c :=
  runTasks_eq distinct_ensureSchemaTasks c

/-- What is executed, and what is added by comparison. -/
theorem mem_startStatements {s : Statement} : s ∈ startStatements ↔ s ∈ schemaSql ++ migratedColumnIndexes ∨
    ∃ m ∈ columnMigrations, s ∈ m.2.map (Statement.column m.1) := by
  have hexecute : ∀ statements : List Statement, (statements.map Task.execute).flatMap Task.statements = statements :=
    fun statements => by rw [List.flatMap_map]; exact List.flatMap_singleton' statements
  unfold startStatements ensureSchemaTasks
  rw [List.flatMap_append, List.flatMap_append, hexecute, hexecute, List.flatMap_map, List.mem_append, List.mem_append,
    List.mem_append, List.mem_flatMap, or_right_comm]
  exact Iff.rfl

theorem column_mem_startStatements : .column table name ∈ startStatements ↔ Migrated table name := by
  have hexecuted : ∀ s ∈ schemaSql ++ migratedColumnIndexes, s ≠ .column table name := by
    unfold schemaSql migratedColumnIndexes
    simp
  rw [mem_startStatements, or_iff_right fun hmem => hexecuted _ hmem rfl]
  simp [Migrated]

theorem index_mem_startStatements :
    .index name table columns ∈ startStatements ↔ .index name table columns ∈ schemaSql ++ migratedColumnIndexes := by
  rw [mem_startStatements, or_iff_left]
  simp

/-- **What a database needs** for a start to succeed. -/
theorem ensureSchema_isSome_iff (c : Catalog) : (ensureSchema c).isSome = true ↔ Openable c := by
  rw [ensureSchema_eq, runAll_isSome_iff_of_inOrder inOrder_startStatements]
  simp only [index_mem_startStatements, column_mem_startStatements]
  exact Iff.rfl

end Tasks

/-! ## Starts that end early -/

/-- The first statements are left of the second: those that are not are done. -/
inductive Remaining (c : Catalog) : List Statement → List Statement → Prop
  | nil : Remaining c [] []
  | done {s todo post} : Done c s → Remaining c todo post → Remaining c todo (s :: post)
  | cons {s todo post} : Remaining c todo post → Remaining c (s :: todo) (s :: post)

namespace Remaining

variable {c c' : Catalog} {todo post : List Statement}

theorem refl (c : Catalog) : ∀ statements, Remaining c statements statements
  | [] => .nil
  | _ :: statements => .cons (refl c statements)

theorem later (h : Remaining c todo post) (he : Extends c c') : Remaining c' todo post := by
  induction h with
  | nil => exact .nil
  | done hs _ ih => exact .done (he.done hs) ih
  | cons _ ih => exact .cons ih

/-- Statements that are done come before. -/
theorem skip {skipped : List Statement} (h : Remaining c todo post) (hs : ∀ t ∈ skipped, Done c t) :
    Remaining c todo (skipped ++ post) := by
  induction skipped with
  | nil => exact h
  | cons t skipped ih =>
      obtain ⟨ht, hs⟩ := List.forall_mem_cons.1 hs
      exact .done ht (ih hs)

/-- The next statement comes after statements that are done. -/
theorem next {s : Statement} (h : Remaining c (s :: todo) post) :
    ∃ skipped rest, post = skipped ++ s :: rest ∧ (∀ t ∈ skipped, Done c t) ∧ Remaining c todo rest := by
  generalize htodo : s :: todo = all at h
  induction h with
  | nil => cases htodo
  | @done t _ post ht _ ih =>
      obtain ⟨skipped, rest, rfl, hskipped, hrest⟩ := ih htodo
      exact ⟨t :: skipped, rest, rfl, List.forall_mem_cons.2 ⟨ht, hskipped⟩, hrest⟩
  | @cons _ _ post h _ =>
      injection htodo with hs htodo
      subst hs htodo
      exact ⟨[], post, rfl, List.forall_mem_nil _, h⟩

/-- Statements that are done need not be left. -/
theorem filter {first : List Statement} {p : Statement → Bool} (h : Remaining c (first ++ todo) post)
    (hp : ∀ s ∈ first, p s = false → Done c s) : Remaining c (first.filter p ++ todo) post := by
  induction first generalizing post with
  | nil => exact h
  | cons s first ih =>
      obtain ⟨skipped, rest, rfl, hskipped, hrest⟩ := h.next
      have hfirst := ih hrest fun t ht => hp t (List.mem_cons_of_mem s ht)
      by_cases hs : p s = true
      · rw [List.filter_cons_of_pos hs]
        exact skip (.cons hfirst) hskipped
      · rw [List.filter_cons_of_neg hs]
        exact skip (.done (hp s List.mem_cons_self (Bool.eq_false_iff.2 hs)) hfirst) hskipped

end Remaining

/-- **A start under way**: what is left comes to the end of the first start, and what was executed since the
last start began is a beginning of its statements. -/
structure Underway (c : Catalog) (s : Starting) : Prop where
  finish : runAll runTask s.tasks s.catalog = ensureSchema c
  begun : ∃ c' pre post, Restarts exec startStatements c c' ∧ startStatements = pre ++ post ∧
    runAll exec pre c' = some s.catalog ∧ Remaining s.catalog (s.tasks.flatMap Task.statements) post

/-- The next statement is executed. -/
theorem Underway.executed {c c₁ : Catalog} {s : Starting} {task : Task} {rest : List Task} {statement : Statement}
    (h : Underway c s) (htasks : s.tasks = task :: rest) (hstatement : task.statements = [statement])
    (hrun : runTask task s.catalog = some c₁) (hexec : exec statement s.catalog = some c₁) :
    Underway c ⟨rest, c₁⟩ := by
  obtain ⟨hfinish, c', pre, post, hrestarts, hsplit, hpre, hpending⟩ := h
  rw [htasks, runAll_cons, hrun, Option.bind_some] at hfinish
  rw [htasks, List.flatMap_cons, hstatement] at hpending
  obtain ⟨skipped, left, rfl, hskipped, hleft⟩ := hpending.next
  refine ⟨hfinish, c', pre ++ skipped ++ [statement], left, hrestarts, by simp [hsplit], ?_, ?_⟩
  · have hskip : runAll exec skipped s.catalog = some s.catalog :=
      Library.Resumable.runAll_of_settled fun t ht => exec_of_done (hskipped t ht)
    rw [runAll_append, runAll_append, hpre, Option.bind_some, hskip, Option.bind_some, runAll_cons, hexec]
    rfl
  · exact hleft.later (exec_spec hexec).2

/-- The columns of a table are read. -/
theorem Underway.compared {c : Catalog} {s : Starting} {table : String} {columns : List String} {rest : List Task}
    (h : Underway c s) (htasks : s.tasks = .compare table columns :: rest) :
    Underway c ⟨(missingColumns table columns s.catalog).map (.add table) ++ rest, s.catalog⟩ := by
  obtain ⟨hfinish, c', pre, post, hrestarts, hsplit, hpre, hpending⟩ := h
  refine ⟨?_, c', pre, post, hrestarts, hsplit, hpre, ?_⟩
  · rw [← hfinish, htasks, runAll_cons, runAll_append]
    refine congrArg (Option.bind · _) ?_
    rw [runTask, runAll, List.foldlM_map]
    rfl
  · rw [htasks, List.flatMap_cons, Task.statements] at hpending
    have hmissing : ((missingColumns table columns s.catalog).map (Task.add table)).flatMap Task.statements =
        (columns.map (Statement.column table)).filter fun t =>
          if let .column _ x := t then x ∉ tableColumns table s.catalog else true := by
      rw [missingColumns, List.filter_map, List.flatMap_map, List.map_eq_flatMap]
      exact congrArg (List.flatMap _) (List.filter_congr fun _ _ => rfl)
    rw [List.flatMap_append, hmissing]
    refine hpending.filter fun t ht hno => ?_
    obtain ⟨x, -, rfl⟩ := List.mem_map.1 ht
    exact mem_tableColumns.1 (by simpa using hno)

/-- A turn of a start. -/
theorem startNext_underway {c : Catalog} {s s' : Starting} {turn : StartTurn} (h : Underway c s)
    (hnext : startNext s turn = some s') : Underway c s' := by
  cases turn with
  | restart =>
      obtain rfl := Option.some.inj hnext
      obtain ⟨-, c', pre, post, hrestarts, hsplit, hpre, -⟩ := h
      have hagain := Restarts.again hrestarts hsplit hpre
      refine ⟨?_, s.catalog, [], startStatements, hagain, rfl, rfl, Remaining.refl _ _⟩
      exact (ensureSchema_eq _).trans ((hagain.runAll resumable_exec).trans (ensureSchema_eq c).symm)
  | proceed =>
      rw [startNext] at hnext
      cases htasks : s.tasks with
      | nil =>
          rw [htasks] at hnext
          cases hnext
      | cons task rest =>
          rw [htasks] at hnext
          cases task with
          | execute statement =>
              obtain ⟨c₁, hrun, rfl⟩ := Option.map_eq_some_iff.1 hnext
              exact h.executed htasks rfl hrun hrun
          | compare table columns =>
              obtain rfl := Option.some.inj hnext
              exact h.compared htasks
          | add table name =>
              obtain ⟨c₁, hrun, rfl⟩ := Option.map_eq_some_iff.1 hnext
              exact h.executed htasks rfl hrun (exec_column_of_add hrun)

/-- What the starts before have left. -/
theorem underway_of_run {c : Catalog} {h : List (Transition Starting StartTurn)} {s : Starting}
    (r : StartRun c h s) : Underway c s := by
  induction r with
  | start hs =>
      obtain rfl := hs
      exact ⟨rfl, c, [], startStatements, .start c, rfl, rfl, Remaining.refl _ _⟩
  | next _ hnext ih => exact startNext_underway ih hnext

/-- **The starts of a service come to the same database**, wherever they ended: what is left of the last one,
and any later one, ends as the first would have ended or raises as it would have.  Nothing is taken away;
what can be opened is read off the database; and a start that succeeds has added everything, so that a later
one adds nothing. -/
theorem starts_converge {c : Catalog} {h : List (Transition Starting StartTurn)} {s : Starting} (r : StartRun c h s) :
    runAll runTask s.tasks s.catalog = ensureSchema c ∧ ensureSchema s.catalog = ensureSchema c ∧
      Extends c s.catalog ∧ ((ensureSchema c).isSome = true ↔ Openable c) ∧
      ∀ c', ensureSchema c = some c' →
        (∀ statement ∈ startStatements, Done c' statement) ∧ ensureSchema c' = some c' := by
  obtain ⟨hfinish, c₁, pre, post, hrestarts, hsplit, hpre, -⟩ := underway_of_run r
  have hagain : Restarts exec startStatements c s.catalog := .again hrestarts hsplit hpre
  refine ⟨hfinish, ?_, ?_, ensureSchema_isSome_iff c, fun c' hc' => ?_⟩
  · rw [ensureSchema_eq, ensureSchema_eq]
    exact hagain.runAll resumable_exec
  · exact extends_of_restarts hagain
  · rw [ensureSchema_eq] at hc' ⊢
    exact ⟨fun _ => done_runAll hc', resumable_exec.runAll_runAll hc'⟩

/-- A database from before deliveries were resilient, with the index of a column that came later. -/
def olderCatalog : Catalog where
  columns := Function.update (fun _ => none) "outbox" (some ["outbox_id", "incident_id", "channel", "action",
    "payload_json", "status", "attempts", "next_attempt_at", "last_error", "external_ref", "created_at", "sent_at"])
  indexed := fun name => name = "idx_outbox_incident"

/-- Two columns are added, the start ends, and the next one has got to the two that follow. -/
theorem starts_converge_interrupted : ∃ h s, StartRun olderCatalog h s ∧
    (s.catalog.columns "outbox").map (·.drop 12) = some ["priority", "locked_by", "locked_until", "superseded_by"] ∧
    (ensureSchema s.catalog).isSome = true ∧ ensureSchema s.catalog = ensureSchema olderCatalog := by
  have hreplay : (Library.replay startNext (List.replicate 51 .proceed ++ [.restart] ++ List.replicate 51 .proceed)
      ([], ⟨ensureSchemaTasks, olderCatalog⟩)).map (fun s => ((s.2.catalog.columns "outbox").map (·.drop 12),
        (ensureSchema s.2.catalog).isSome)) =
      some (some ["priority", "locked_by", "locked_until", "superseded_by"], true) := by decide +kernel
  obtain ⟨h, s, r, heq⟩ := @Run.exists_of_replay _ _ (· = ⟨ensureSchemaTasks, olderCatalog⟩) _ _ _ _ _ _ rfl hreplay
  obtain ⟨hcolumns, hsome⟩ := Prod.mk.inj heq
  exact ⟨h, s, r, hcolumns, hsome, (starts_converge r).2.1⟩

end PulseGraph
