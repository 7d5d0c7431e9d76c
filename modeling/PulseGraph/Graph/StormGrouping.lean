/-
# Storms

`src/graph/storm_grouping.py`: strong edges become membership of a correlation
group.  `assign_group` places an incident into a storm, `refresh_group_for_member`
recomputes the derived facts of one, `redirect_member_deliveries` retargets the
queued notifications of a member at the anchor, and `group_snapshot` reads one
storm card.
-/

import PulseGraph.Config
import PulseGraph.Db.Schema
import Mathlib.Algebra.Order.Field.Basic

namespace PulseGraph

open Library (Table)

variable {K : Type} [Field K] [LinearOrder K]

/-- `GROUP_EDGE_THRESHOLD`. -/
def groupEdgeThreshold : K := 1.5

/-- `MAX_NEIGHBOURS`. -/
def maxNeighbours : ℤ := 25

/-- `_SEVERITY_RANK`. -/
def severityRank : Severity → ℕ
  | .critical => 0
  | .high => 1
  | .medium => 2
  | .low => 3

/-- `GroupAssignment`. -/
structure GroupAssignment where
  groupId : String
  anchorIncidentId : String
  memberCount : ℕ
  created : Bool
  deriving DecidableEq

/-- `is_multi_member`. -/
def GroupAssignment.isMultiMember (a : GroupAssignment) : Bool := decide (1 < a.memberCount)

/-- `_strong_neighbours`: active incidents tied to this one by an edge worth grouping on,
in either direction, the strongest first. -/
def strongNeighbours (incidentId scopeKey : String) (db : Database K) : List String :=
  let outgoing := (db.edges.select fun k e => k.1 = incidentId && groupEdgeThreshold ≤ e.weight).map
    fun r => (r.1.2, r.2.weight)
  let incoming := (db.edges.select fun k e => k.2 = incidentId && groupEdgeThreshold ≤ e.weight).map
    fun r => (r.1.1, r.2.weight)
  let rows := (outgoing ++ incoming).filter fun r =>
    (db.incidents.find? r.1).any (fun i => i.scopeKey = scopeKey && i.status.active) &&
      r.1 ≠ incidentId
  -- every weight is at least the threshold, so the maximum of a group is too
  let grouped := (rows.map Prod.fst).dedup.map fun other =>
    (other, ((rows.filter (·.1 = other)).map Prod.snd).foldr max groupEdgeThreshold)
  (sqlLimit maxNeighbours (grouped.insertionSort fun a b => b.2 ≤ a.2)).map Prod.fst

/-- `_groups_of`. -/
def groupsOf (incidentIds : List String) (db : Database K) : List String :=
  ((db.incidents.select fun k _ => incidentIds.contains k).filterMap
    fun r => r.2.correlationGroupId).dedup

/-- `_oldest_group`: the survivor when two groups turn out to be one storm. -/
def oldestGroup (groupIds : List String) (db : Database K) : Option String :=
  let rows := db.incidentGroups.select fun k _ => groupIds.contains k
  match firstBy (fun a b => decide (a.2.createdAt < b.2.createdAt ∨
      a.2.createdAt = b.2.createdAt ∧ a.1 < b.1)) rows with
  | some row => some row.1
  | none => groupIds.head?

/-- `_merge_groups`. -/
def mergeGroups (survivor : String) (absorbed : List String) (db : Database K) : Database K :=
  { db with
    incidents := db.incidents.update fun _ i =>
      if i.correlationGroupId.any absorbed.contains then
        { i with correlationGroupId := some survivor } else i
    incidentGroups := db.incidentGroups.delete fun k _ => absorbed.contains k }

/-- The rows `_refresh_group` and `group_snapshot` read: the members of a group,
`ORDER BY first_alert_at ASC, incident_id ASC`. -/
def groupMembers (groupId : String) (db : Database K) : List (String × Incident) :=
  (db.incidents.select fun _ i => i.correlationGroupId = some groupId).insertionSort fun a b =>
    a.2.firstAlertAt < b.2.firstAlertAt ∨ a.2.firstAlertAt = b.2.firstAlertAt ∧ a.1 ≤ b.1

/-- `_rank_group_root`: the member with the greatest outbound weight inside the group. -/
def rankGroupRoot (memberIds : List String) (db : Database K) : Option String :=
  let inside := db.edges.select fun k _ => memberIds.contains k.1 && memberIds.contains k.2
  let outbound := (inside.map fun r => r.1.1).dedup.map fun source =>
    (source, ((inside.filter fun r => r.1.1 = source).map fun r => r.2.weight).sum)
  match firstBy (fun a b => decide (b.2 < a.2 ∨ a.2 = b.2 ∧ a.1 < b.1)) outbound with
  | some row => some row.1
  | none => memberIds.head?

/-- The most urgent of a list of severities: `min(…, key=_SEVERITY_RANK.get)`. -/
def mostUrgent (first : Severity) (rest : List Severity) : Severity :=
  rest.foldl (fun s x => if severityRank x < severityRank s then x else s) first

/-- `_refresh_group`: recompute the group's derived facts from its current membership.
Returns the member count. -/
def refreshGroup (now : ℤ) (groupId : String) (db : Database K) : ℕ × Database K :=
  match groupMembers groupId db with
  | [] => (0, { db with incidentGroups := db.incidentGroups.delete fun k _ => k = groupId })
  | first :: rest =>
      let members := first :: rest
      let rootId := rankGroupRoot (members.map Prod.fst) db
      let lead := (members.find? fun m => some m.1 = rootId).getD first
      (members.length,
        { db with
          incidentGroups := db.incidentGroups.modify groupId fun group =>
            { group with
              rootIncidentId := rootId
              title := lead.2.title ++ " (+" ++ toString (members.length - 1) ++ " correlated)"
              severity := mostUrgent first.2.severity (rest.map fun m => m.2.severity)
              memberCount := members.length
              status := if members.any fun m => m.2.status.active then .OPEN else .RESOLVED
              updatedAt := now } })

/-- The group `assign_group` puts an incident and its neighbours into: the oldest
of the groups they are in, which absorbs the others, or a new one. -/
def chooseGroup (freshId : String) (now : ℤ) (members : List String) (scopeKey : String)
    (db : Database K) : String × Bool × Database K :=
  match oldestGroup (groupsOf members db) db with
  | some groupId =>
      (groupId, false, mergeGroups groupId ((groupsOf members db).filter (· ≠ groupId)) db)
  | none =>
      let rows := db.incidents.select fun k _ => members.contains k
      let anchor := match firstBy (fun a b => decide (a.2.firstAlertAt < b.2.firstAlertAt ∨
          a.2.firstAlertAt = b.2.firstAlertAt ∧ a.1 < b.1)) rows with
        | some row => row.1
        | none => members.headD ""
      (freshId, true, { db with
        incidentGroups := db.incidentGroups.insert freshId
          { scopeKey := scopeKey, anchorIncidentId := anchor, createdAt := now, updatedAt := now } })

/-- `UPDATE incidents SET correlation_group_id = ? WHERE incident_id IN (…)`. -/
def joinGroup (groupId : String) (members : List String) (db : Database K) : Database K :=
  { db with
    incidents := db.incidents.update fun k i =>
      if members.contains k then { i with correlationGroupId := some groupId } else i }

/-- The assignment read back after a refresh. -/
def readAssignment (groupId : String) (memberCount : ℕ) (created : Bool) (db : Database K) :
    Option GroupAssignment :=
  (db.incidentGroups.find? groupId).map fun group =>
    ⟨groupId, group.anchorIncidentId, memberCount, created⟩

/-- `assign_group`: place one incident into a storm, creating or merging groups as
needed; `freshId` is the new group's `uuid4`. -/
def assignGroup (freshId : String) (now : ℤ) (incidentId scopeKey : String) (db : Database K) :
    Option GroupAssignment × Database K :=
  match strongNeighbours incidentId scopeKey db with
  | [] => (none, db)
  | neighbour :: neighbours =>
      let members := incidentId :: neighbour :: neighbours
      let (groupId, created, db) := chooseGroup freshId now members scopeKey db
      let (memberCount, db) := refreshGroup now groupId (joinGroup groupId members db)
      (readAssignment groupId memberCount created db, db)

/-- `refresh_group_for_member`: recompute the storm this incident belongs to. -/
def refreshGroupForMember (now : ℤ) (incidentId : String) (db : Database K) :
    Option GroupAssignment × Database K :=
  match (db.incidents.find? incidentId).bind (·.correlationGroupId) with
  | none => (none, db)
  | some groupId =>
      if groupId = "" then (none, db)
      else
        let (memberCount, db) := refreshGroup now groupId db
        if memberCount = 0 then (none, db)
        else (readAssignment groupId memberCount false db, db)

/-- The final edit of a card a member already posted: `merged_into`. -/
def mergedNotice (now : ℤ) (memberIncidentId anchorIncidentId : String) : OutboxRow where
  incidentId := memberIncidentId
  channel := .slack
  action := .update
  payload := { incidentId := some memberIncidentId, mergedInto := some anchorIncidentId }
  nextAttemptAt := now
  priority := 2
  originChannel := .slack
  createdAt := now

/-- `redirect_member_deliveries`: point a member's queued notifications at the storm card. -/
def redirectMemberDeliveries (now : ℤ) (memberIncidentId anchorIncidentId : String)
    (db : Database K) : Database K :=
  let alreadyPosted := db.outbox.rows.any fun r => r.2.incidentId = memberIncidentId &&
    r.2.channel = .slack && r.2.status = .sent && r.2.externalRef.isSome
  let outbox := db.outbox.update fun _ r =>
    if r.incidentId = memberIncidentId ∧ r.status = .pending then
      { r with incidentId := anchorIncidentId, action := .update } else r
  { db with
    outbox := if alreadyPosted then outbox.push (mergedNotice now memberIncidentId anchorIncidentId)
      else outbox }

/-- What both call sites do with an assignment: a member that is not the anchor of
its storm has its deliveries redirected. -/
def redirectFor (now : ℤ) (incidentId : String) (assignment : Option GroupAssignment)
    (db : Database K) : Database K :=
  match assignment with
  | none => db
  | some a =>
      if a.isMultiMember ∧ a.anchorIncidentId ≠ incidentId then
        redirectMemberDeliveries now incidentId a.anchorIncidentId db
      else db

/-- `group_snapshot`: everything needed to render one storm card. -/
def groupSnapshot (groupId : String) (db : Database K) : Option GroupSnapshot :=
  (db.incidentGroups.find? groupId).map fun group =>
    let members := (groupMembers groupId db).map fun (incidentId, i) =>
      { incidentId := incidentId
        title := i.title
        -- `ORDER BY r.seq ASC LIMIT 1`: the ledger is kept newest row first
        service := (db.rawEvents.reverse.find? fun r => r.incidentId = incidentId).map (·.service)
        severity := i.severity
        status := i.status
        alertCount := i.alertCount
        firstAlertAt := i.firstAlertAt : GroupMember }
    { groupId := groupId
      anchorIncidentId := group.anchorIncidentId
      rootIncidentId := group.rootIncidentId
      title := group.title
      severity := group.severity
      status := group.status
      memberCount := group.memberCount
      totalAlertCount := (members.map (·.alertCount)).sum
      members := members
      startedAt := group.createdAt }

/-- `group_for_anchor`. -/
def groupForAnchor (incidentId : String) (db : Database K) : Option String :=
  (db.incidentGroups.rows.find? fun r => r.2.anchorIncidentId = incidentId).map Prod.fst

/-! ## Which tables are written -/

section Frame

variable {db : Database K} {now : ℤ}

/-- A refresh writes the groups alone. -/
theorem refreshGroup_frame (groupId : String) : (refreshGroup now groupId db).2 =
    { db with incidentGroups := (refreshGroup now groupId db).2.incidentGroups } := by
  unfold refreshGroup
  split <;> rfl

theorem refreshGroupForMember_frame (incidentId : String) :
    (refreshGroupForMember now incidentId db).2 =
      { db with incidentGroups := (refreshGroupForMember now incidentId db).2.incidentGroups } := by
  unfold refreshGroupForMember
  split
  · rfl
  · dsimp only
    split_ifs
    · rfl
    · exact refreshGroup_frame _
    · exact refreshGroup_frame _

/-- An assignment writes the incidents' membership and the groups. -/
theorem assignGroup_frame (freshId incidentId scopeKey : String) :
    (assignGroup freshId now incidentId scopeKey db).2 =
      { db with
        incidents := (assignGroup freshId now incidentId scopeKey db).2.incidents
        incidentGroups := (assignGroup freshId now incidentId scopeKey db).2.incidentGroups } := by
  have hchoose : ∀ members, (chooseGroup freshId now members scopeKey db).2.2 =
      { db with
        incidents := (chooseGroup freshId now members scopeKey db).2.2.incidents
        incidentGroups := (chooseGroup freshId now members scopeKey db).2.2.incidentGroups } := by
    intro members
    unfold chooseGroup
    split <;> rfl
  unfold assignGroup
  split
  · rfl
  · dsimp only
    rw [refreshGroup_frame, joinGroup, hchoose]

omit [Field K] [LinearOrder K] in
/-- A redirection writes the outbox alone. -/
theorem redirectFor_frame (incidentId : String) (a : Option GroupAssignment) :
    redirectFor now incidentId a db =
      { db with outbox := (redirectFor now incidentId a db).outbox } := by
  unfold redirectFor redirectMemberDeliveries
  split
  · rfl
  · split_ifs <;> rfl

end Frame

end PulseGraph
