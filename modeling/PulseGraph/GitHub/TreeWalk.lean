/-
# Walking a repository's tree

`get_complete_tree` of `src/github_integration/client.py` with the readers of a tree's response.
The server is any function from the tree that is asked for to what the request gives: its listings
may be cyclic, shared, truncated, or no listings at all.

**Proved here.**  `getCompleteTree_laws`: a walk asks for no more trees than it may, and where the
recursive listing is truncated and the walk succeeds, its result is the whole tree in depth-first
order, within the limits, none of whose listings is truncated or lies on a cycle.
-/

import PulseGraph.GitHub.Payload
import PulseGraph.Library.Effects
import PulseGraph.Library.PathText
import PulseGraph.Library.Unfolding

namespace PulseGraph
namespace GitHub

open Library (Json raiseIf raiseIf_eq_ok bind_eq_ok Effectful Does Ensures Listings joinSegments joinSegments_singleton
  joinSegments_cons does_pure_iff does_bind_iff does_lift_iff does_modify_iff does_get_iff does_finallyDo_iff
  ensures_bind ensures_lift ensures_pure ensures_modify ensures_get ensures_forM ensures_finallyDo ensures_outcome)

/-- What the client raises. -/
inductive ClientError where
  /-- `GitHubConfigurationError(detail)`. -/
  | configuration (detail : String)
  /-- `GitHubPayloadError(detail)`. -/
  | payload (detail : String)
  /-- `GitHubTreeLimitExceeded(detail)`. -/
  | treeLimit (detail : String)
  /-- An error of the transport or of the API. -/
  | request (detail : String)
  deriving DecidableEq, Repr

/-- `GitTreeEntry`. -/
structure GitTreeEntry where
  path : String
  mode : String
  type : String
  sha : String
  size : Option ℤ := none
  url : Option String := none

/-- `GitTree`. -/
structure GitTree where
  sha : String
  entries : List GitTreeEntry
  truncated : Bool

/-- The limits of a walk, positive integers. -/
structure TreeLimits where
  maxEntries : ℕ := 100000
  maxTreeRequests : ℕ := 2000
  maxTreeDepth : ℕ := 64
  positive : 0 < maxEntries ∧ 0 < maxTreeRequests ∧ 0 < maxTreeDepth := by decide

/-- Whose tree is asked for. -/
structure TreeSource where
  owner : String
  repository : String
  installationToken : String

/-- `_request_json` of a tree: the object that the server answers with, by whether the request is
recursive and by the tree that it names. -/
abbrev GitHubServer := Bool → String → Except ClientError Fields

/-- `if p: raise e`. -/
def stopIf (p : Prop) [Decidable p] (e : ClientError) : Except ClientError Unit := raiseIf p e

theorem stopIf_eq_ok {p : Prop} [Decidable p] {e : ClientError} {u : Unit} : stopIf p e = .ok u ↔ ¬ p := raiseIf_eq_ok

/-! ## Responses -/

section Responses

variable {K : Type} (rt : Runtime K)

/-- `_require_text`: a text that is not blank, as it stands. -/
def requireText (payload : Fields) (fieldName : String) : Except ClientError String :=
  match Fields.get payload fieldName with
  | .str s => do
      stopIf (rt.strip s = "") (.payload ("GitHub response field '" ++ fieldName ++ "' must be a non-empty string"))
      return s
  | _ => throw (.payload ("GitHub response field '" ++ fieldName ++ "' must be a non-empty string"))

/-- `_optional_text`. -/
def optionalText (value : Json) : Except ClientError (Option String) :=
  match value with
  | .null => return none
  | .str s => return some s
  | _ => throw (.payload "GitHub response optional text field must be a string")

/-- The check on an entry's size. -/
def entrySize (value : Json) : Except ClientError (Option ℤ) :=
  match value with
  | .null => return none
  | .num number =>
      match signed false natOf number.toList with
      | some size => return some size
      | none => throw (.payload "GitHub tree entry field 'size' must be an integer or null")
  | _ => throw (.payload "GitHub tree entry field 'size' must be an integer or null")

/-- `_tree_entry_from_payload`. -/
def treeEntryFromPayload (payload : Json) : Except ClientError GitTreeEntry :=
  match payload with
  | .obj data => do
      let size ← entrySize (Fields.get data "size")
      let path ← requireText rt data "path"
      let mode ← requireText rt data "mode"
      let type ← requireText rt data "type"
      let sha ← requireText rt data "sha"
      let url ← optionalText (Fields.get data "url")
      return ⟨path, mode, type, sha, size, url⟩
  | _ => throw (.payload "GitHub response field 'tree entry' must be an object")

/-- `payload.get("truncated", False)`, a truth value. -/
def truncatedField (payload : Fields) : Except ClientError Bool :=
  match Fields.getOr payload "truncated" (.bool false) with
  | .bool truncated => return truncated
  | _ => throw (.payload "GitHub response field 'truncated' must be a boolean")

/-- The second half of `_get_tree`: the tree in a response. -/
def treeFromPayload (treeSha : String) (payload : Fields) : Except ClientError GitTree :=
  match Fields.get payload "tree" with
  | .arr items => do
      let entries ← items.mapM (treeEntryFromPayload rt)
      let truncated ← truncatedField payload
      let responseSha ← requireText rt payload "sha"
      stopIf (responseSha ≠ treeSha) (.payload "GitHub tree SHA did not match the requested object")
      return ⟨responseSha, entries, truncated⟩
  | _ => throw (.payload "GitHub response field 'tree' must be a list")

/-- `_validate_nonempty_text`. -/
def validateNonemptyText (value fieldName : String) : Except ClientError Unit := do
  stopIf (rt.strip value = "") (.configuration (fieldName ++ " must be a non-empty string"))
  stopIf (value ≠ rt.strip value) (.configuration (fieldName ++ " must not contain surrounding whitespace"))

/-- `_installation_auth_headers`. -/
def installationAuthHeaders (installationToken : String) : Except ClientError Unit :=
  stopIf (rt.strip installationToken = "") (.configuration "installation token must be a non-empty string")

/-- The first half of `_get_tree`: the path and the headers of the request. -/
def treeRequest (source : TreeSource) (treeSha : String) : Except ClientError Unit := do
  validateNonemptyText rt source.owner "owner"
  validateNonemptyText rt source.repository "repository"
  validateNonemptyText rt treeSha "tree_sha"
  installationAuthHeaders rt source.installationToken

end Responses

/-! ## The walk -/

section Walk

/-- The variables of `get_complete_tree`, and the requests that were sent. -/
structure TreeWalk where
  collected : List GitTreeEntry := []
  activeTreeShas : List String := []
  treeRequestCount : ℕ := 0
  requests : List (Bool × String) := []

/-- What the client does on a walk. -/
abbrev Walking := Effectful ClientError TreeWalk

variable {K : Type} (rt : Runtime K) (server : GitHubServer) (source : TreeSource) (limits : TreeLimits)

/-- `_get_tree`. -/
def getTree (treeSha : String) (recursive : Bool) : Walking GitTree := do
  treeRequest rt source treeSha
  modify fun s => { s with requests := s.requests ++ [(recursive, treeSha)] }
  let payload ← server recursive treeSha
  treeFromPayload rt treeSha payload

/-- `f"{prefix}/{entry.path}" if prefix else entry.path`. -/
def fullPath (pre : String) (entry : GitTreeEntry) : String :=
  if pre ≠ "" then pre ++ "/" ++ entry.path else entry.path

/-- The body of the loop of `walk`. -/
def walkEntry (descend : String → String → Walking Unit) (pre : String) (entry : GitTreeEntry) : Walking Unit := do
  modify fun s => { s with collected := s.collected ++ [{ entry with path := fullPath pre entry }] }
  let s ← get
  stopIf (limits.maxEntries < s.collected.length)
    (.treeLimit ("GitHub tree walk exceeded the configured " ++ toString limits.maxEntries ++ " entries"))
  if entry.type = "tree" then descend entry.sha (fullPath pre entry)

/-- The `try` block of `walk`. -/
def walkListing (descend : String → String → Walking Unit) (currentTreeSha pre : String) : Walking Unit := do
  modify fun s => { s with treeRequestCount := s.treeRequestCount + 1 }
  let s ← get
  stopIf (limits.maxTreeRequests < s.treeRequestCount)
    (.treeLimit "GitHub tree walk exceeded the configured tree-object request limit")
  let tree ← getTree rt server source currentTreeSha false
  stopIf (tree.truncated = true)
    (.treeLimit "GitHub truncated a non-recursive tree during the complete tree walk")
  tree.entries.forM (walkEntry limits descend pre)

/-- `walk`, at a depth that leaves so many levels. -/
def walk : ℕ → String → String → Walking Unit
  | 0, _, _ => throw (.treeLimit
      ("GitHub tree walk exceeded the configured depth of " ++ toString limits.maxTreeDepth))
  | levels + 1, currentTreeSha, pre => do
      let s ← get
      stopIf (currentTreeSha ∈ s.activeTreeShas) (.payload "GitHub tree walk contained a cyclic tree reference")
      modify fun s => { s with activeTreeShas := currentTreeSha :: s.activeTreeShas }
      (walkListing rt server source limits (walk levels) currentTreeSha pre).finallyDo fun s =>
        { s with activeTreeShas := s.activeTreeShas.erase currentTreeSha }

/-- `get_complete_tree`. -/
def getCompleteTree (treeSha : String) : Walking GitTree := do
  let recursiveTree ← getTree rt server source treeSha true
  if recursiveTree.truncated = false then
    stopIf (limits.maxEntries < recursiveTree.entries.length)
      (.treeLimit ("GitHub tree contains more than the configured " ++ toString limits.maxEntries ++ " entries"))
    return recursiveTree
  installationAuthHeaders rt source.installationToken
  walk rt server source limits (limits.maxTreeDepth + 1) treeSha ""
  let s ← get
  return ⟨treeSha, s.collected, false⟩

/-- The tree that a request gives. -/
def readTree (treeSha : String) (recursive : Bool) : Except ClientError GitTree := do
  treeRequest rt source treeSha
  let payload ← server recursive treeSha
  treeFromPayload rt treeSha payload

/-- The listings that are no truncated ones: the entries, with the trees beneath them. -/
def listings : Listings String GitTreeEntry := fun treeSha =>
  match readTree rt server source treeSha false with
  | .error _ => none
  | .ok tree =>
      if tree.truncated = true then none
      else some (tree.entries.map fun entry => (entry, if entry.type = "tree" then some entry.sha else none))

end Walk

/-! ## Requests -/

section Requests

variable {K : Type} {rt : Runtime K} {server : GitHubServer} {source : TreeSource} {limits : TreeLimits}

/-- The requests that were sent: the recursive one, and no more than were counted and than may be sent. -/
def Requested (limits : TreeLimits) (s : TreeWalk) : Prop :=
  s.requests.length ≤ s.treeRequestCount + 1 ∧ s.requests.length ≤ limits.maxTreeRequests + 1

/-- One request more may be sent. -/
def HasQuota (limits : TreeLimits) (s : TreeWalk) : Prop :=
  s.requests.length ≤ s.treeRequestCount ∧ s.requests.length ≤ limits.maxTreeRequests

theorem requested_of_hasQuota {s : TreeWalk} (h : HasQuota limits s) : Requested limits s :=
  ⟨Nat.le_succ_of_le h.1, Nat.le_succ_of_le h.2⟩

/-- A request uses up what there is. -/
theorem ensures_getTree (treeSha : String) (recursive : Bool) :
    Ensures (HasQuota limits) (getTree rt server source treeSha recursive) (fun _ => Requested limits)
      (Requested limits) := by
  refine ensures_bind (ensures_lift (fun _ _ _ => id) fun _ => requested_of_hasQuota) fun _ => ?_
  refine ensures_bind (@ensures_modify _ _ _ _ _ (fun _ => Requested limits) fun s hs => ?_) fun _ => ?_
  · obtain ⟨hcount, hlimit⟩ := hs
    exact ⟨by simpa using hcount, by simpa using hlimit⟩
  · refine ensures_bind (ensures_lift (fun _ _ _ => id) fun _ => id) fun payload => ?_
    exact ensures_lift (fun _ _ _ => id) fun _ => id

/-- Entries are walked without a request, but for what lies beneath them. -/
theorem ensures_walkEntry {descend : String → String → Walking Unit} {pre : String} {entry : GitTreeEntry}
    (hdescend : ∀ sha pre,
      Ensures (Requested limits) (descend sha pre) (fun _ => Requested limits) (Requested limits)) :
    Ensures (Requested limits) (walkEntry limits descend pre entry) (fun _ => Requested limits) (Requested limits) := by
  refine ensures_bind (@ensures_modify _ _ _ _ _ (fun _ => Requested limits) fun _ => id) fun _ => ?_
  refine ensures_bind (@ensures_get _ _ _ _ (fun _ => Requested limits) fun _ => id) fun s => ?_
  refine ensures_bind (ensures_lift (fun _ _ _ => id) fun _ => id) fun _ => ?_
  split_ifs
  · exact hdescend _ _
  · exact ensures_pure fun _ => id

/-- A request is counted before it is sent. -/
theorem ensures_walkListing {descend : String → String → Walking Unit} {treeSha pre : String}
    (hdescend : ∀ sha pre,
      Ensures (Requested limits) (descend sha pre) (fun _ => Requested limits) (Requested limits)) :
    Ensures (Requested limits) (walkListing rt server source limits descend treeSha pre) (fun _ => Requested limits)
      (Requested limits) := by
  let Counted (s : TreeWalk) : Prop :=
    s.requests.length ≤ s.treeRequestCount ∧ s.requests.length ≤ limits.maxTreeRequests + 1
  have hcounted : ∀ s, Counted s → Requested limits s := fun s h => ⟨Nat.le_succ_of_le h.1, h.2⟩
  refine ensures_bind (@ensures_modify _ _ _ _ _ (fun _ => Counted) fun s hs => hs) fun _ => ?_
  refine ensures_bind (@ensures_get _ _ _ _ (fun s s' => s = s' ∧ Counted s') fun s hs => ⟨rfl, hs⟩) fun s => ?_
  refine ensures_bind (@ensures_lift _ _ _ _ (fun _ => HasQuota limits) _ _ ?_ fun s' hs' => hcounted s' hs'.2)
    fun _ => ?_
  · rintro _ hcheck s' ⟨rfl, hs⟩
    exact ⟨hs.1, hs.1.trans (not_lt.1 (stopIf_eq_ok.1 hcheck))⟩
  refine ensures_bind (ensures_getTree treeSha false) fun tree => ?_
  refine ensures_bind (ensures_lift (fun _ _ _ => id) fun _ => id) fun _ => ?_
  exact ensures_forM fun entry _ => ensures_walkEntry hdescend

/-- **A walk** sends no more requests than it may, whatever becomes of it. -/
theorem ensures_walk (levels : ℕ) (treeSha pre : String) :
    Ensures (Requested limits) (walk rt server source limits levels treeSha pre) (fun _ => Requested limits)
      (Requested limits) := by
  induction levels generalizing treeSha pre with
  | zero => exact @ensures_lift _ _ _ _ _ _ (.error _) (fun _ h => by cases h) fun _ => id
  | succ levels ih =>
      refine ensures_bind (@ensures_get _ _ _ _ (fun _ => Requested limits) fun _ => id) fun s => ?_
      refine ensures_bind (ensures_lift (fun _ _ _ => id) fun _ => id) fun _ => ?_
      refine ensures_bind (@ensures_modify _ _ _ _ _ (fun _ => Requested limits) fun _ => id) fun _ => ?_
      exact ensures_finallyDo (ensures_walkListing ih)

/-- So does `get_complete_tree`, the recursive request apart. -/
theorem requests_getCompleteTree (treeSha : String) :
    ((getCompleteTree rt server source limits treeSha).runFrom {}).2.requests.length ≤ limits.maxTreeRequests + 1 := by
  have hall : Ensures (HasQuota limits) (getCompleteTree rt server source limits treeSha) (fun _ => Requested limits)
      (Requested limits) := by
    refine ensures_bind (ensures_getTree treeSha true) fun recursiveTree => ?_
    split_ifs
    · refine ensures_bind (ensures_lift (fun _ _ _ => id) fun _ => id) fun _ => ?_
      exact ensures_pure fun _ => id
    · refine ensures_bind (ensures_lift (fun _ _ _ => id) fun _ => id) fun _ => ?_
      refine ensures_bind (ensures_walk _ _ _) fun _ => ?_
      refine ensures_bind (@ensures_get _ _ _ _ (fun _ => Requested limits) fun _ => id) fun s => ?_
      exact ensures_pure fun _ => id
  exact (ensures_outcome hall ⟨Nat.zero_le _, Nat.zero_le _⟩).2

end Requests

/-! ## What a walk that succeeds has collected -/

section Collected

variable {K : Type} {rt : Runtime K} {server : GitHubServer} {source : TreeSource} {limits : TreeLimits}

/-- An entry under its prefixed path. -/
def placed (pre : String) (found : List GitTreeEntry × GitTreeEntry) : GitTreeEntry :=
  { found.2 with path := fullPath (found.1.foldl fullPath pre) found.2 }

/-- What was collected on a walk that succeeded. -/
structure Collects (limits : TreeLimits) (pre : String) (found : List (List GitTreeEntry × GitTreeEntry))
    (s s' : TreeWalk) : Prop where
  entries : s'.collected = s.collected ++ found.map (placed pre)
  bound : s.collected.length ≤ limits.maxEntries → s'.collected.length ≤ limits.maxEntries

/-- What a function of trees collects, as the unfolding says. -/
def Unfolds (limits : TreeLimits) (unfold : String → Option (List (List GitTreeEntry × GitTreeEntry)))
    (descend : String → String → Walking Unit) : Prop :=
  ∀ sha pre s s', Does (descend sha pre) s () s' → ∃ found, unfold sha = some found ∧ Collects limits pre found s s'

theorem does_getTree {treeSha : String} {recursive : Bool} {tree : GitTree} {s s' : TreeWalk}
    (h : Does (getTree rt server source treeSha recursive) s tree s') :
    readTree rt server source treeSha recursive = .ok tree ∧ s'.collected = s.collected := by
  obtain ⟨_, s₁, hdone, h₁⟩ := does_bind_iff.1 h
  obtain ⟨hrequest, rfl⟩ := does_lift_iff.1 hdone
  obtain ⟨_, s₂, hlog, h₂⟩ := does_bind_iff.1 h₁
  obtain rfl := does_modify_iff.1 hlog
  obtain ⟨payload, s₃, hanswer, h₃⟩ := does_bind_iff.1 h₂
  obtain ⟨hpayload, rfl⟩ := does_lift_iff.1 hanswer
  obtain ⟨htree, rfl⟩ := does_lift_iff.1 h₃
  exact ⟨bind_eq_ok.2 ⟨_, hrequest, bind_eq_ok.2 ⟨payload, hpayload, htree⟩⟩, rfl⟩

/-- The node beneath an entry. -/
def beneath (entry : GitTreeEntry) : GitTreeEntry × Option String :=
  (entry, if entry.type = "tree" then some entry.sha else none)

/-- An entry is collected, and what lies beneath it. -/
theorem does_walkEntry {unfold : String → Option (List (List GitTreeEntry × GitTreeEntry))}
    {descend : String → String → Walking Unit} {pre : String} {entry : GitTreeEntry} {s s' : TreeWalk}
    (hdescend : Unfolds limits unfold descend) (h : Does (walkEntry limits descend pre entry) s () s') :
    ∃ part, Listings.unfoldEntry unfold (beneath entry) = some part ∧ Collects limits pre part s s' := by
  obtain ⟨_, s₁, hcollect, h₁⟩ := does_bind_iff.1 h
  have hs₁ := does_modify_iff.1 hcollect
  obtain ⟨s₂, s₃, hget, h₂⟩ := does_bind_iff.1 h₁
  obtain ⟨rfl, rfl⟩ := does_get_iff.1 hget
  obtain ⟨_, s₄, hcheck, h₃⟩ := does_bind_iff.1 h₂
  obtain ⟨hlimit, rfl⟩ := does_lift_iff.1 hcheck
  have hbound : s₄.collected.length ≤ limits.maxEntries := not_lt.1 (stopIf_eq_ok.1 hlimit)
  have hplaced : s₄.collected = s.collected ++ [placed pre ([], entry)] := by rw [hs₁]; rfl
  unfold Listings.unfoldEntry beneath
  split_ifs at h₃ with htree
  · obtain ⟨found, hfound, hcollects⟩ := hdescend _ _ _ _ h₃
    refine ⟨([], entry) :: found.map fun e => (entry :: e.1, e.2), ?_, ?_, fun _ => hcollects.bound hbound⟩
    · simp only [if_pos htree, hfound, Option.map_some]
    · rw [hcollects.entries, hplaced, List.append_assoc, List.singleton_append, List.map_cons, List.map_map]
      rfl
  · obtain ⟨-, rfl⟩ := does_pure_iff.1 h₃
    refine ⟨[([], entry)], ?_, hplaced, fun _ => hbound⟩
    simp only [if_neg htree]

/-- The entries of a listing are collected one after the other. -/
theorem does_walkEntries {unfold : String → Option (List (List GitTreeEntry × GitTreeEntry))}
    {descend : String → String → Walking Unit} {pre : String} {entries : List GitTreeEntry} {s s' : TreeWalk}
    (hdescend : Unfolds limits unfold descend) (h : Does (entries.forM (walkEntry limits descend pre)) s () s') :
    ∃ parts, (entries.map beneath).mapM (Listings.unfoldEntry unfold) = some parts ∧
      Collects limits pre parts.flatten s s' := by
  induction entries generalizing s with
  | nil =>
      obtain ⟨-, rfl⟩ := does_pure_iff.1 h
      exact ⟨[], rfl, by simp, id⟩
  | cons entry entries ih =>
      obtain ⟨_, s₁, hentry, hrest⟩ := does_bind_iff.1 h
      obtain ⟨part, hpart, hfirst⟩ := does_walkEntry hdescend hentry
      obtain ⟨parts, hparts, hlater⟩ := ih hrest
      refine ⟨part :: parts, ?_, ?_, fun hs => hlater.bound (hfirst.bound hs)⟩
      · rw [List.map_cons, List.mapM_cons, hpart, hparts]
        rfl
      · rw [hlater.entries, hfirst.entries, List.flatten_cons, List.map_append, List.append_assoc]

/-- What a listing gives that is no truncated one. -/
theorem listings_eq_some {sha : String} {entries : List (GitTreeEntry × Option String)} :
    listings rt server source sha = some entries ↔
      ∃ tree, readTree rt server source sha false = .ok tree ∧ tree.truncated = false ∧
        entries = tree.entries.map beneath := by
  unfold listings
  constructor
  · intro h
    split at h
    · cases h
    · next tree htree =>
        split_ifs at h with htruncated
        exact ⟨tree, htree, by simpa using htruncated, (Option.some.inj h).symm⟩
  · rintro ⟨tree, htree, htruncated, rfl⟩
    simp only [htree, htruncated, Bool.false_eq_true, if_false]
    rfl

/-- A listing is collected whole. -/
theorem does_walkListing {unfold : String → Option (List (List GitTreeEntry × GitTreeEntry))}
    {descend : String → String → Walking Unit} {sha pre : String} {s s' : TreeWalk}
    (hdescend : Unfolds limits unfold descend)
    (h : Does (walkListing rt server source limits descend sha pre) s () s') :
    ∃ entries parts, listings rt server source sha = some entries ∧
      entries.mapM (Listings.unfoldEntry unfold) = some parts ∧ Collects limits pre parts.flatten s s' := by
  obtain ⟨_, s₁, hcount, h₁⟩ := does_bind_iff.1 h
  have hs₁ := does_modify_iff.1 hcount
  obtain ⟨s₂, s₃, hget, h₂⟩ := does_bind_iff.1 h₁
  obtain ⟨rfl, rfl⟩ := does_get_iff.1 hget
  obtain ⟨_, s₄, hquota, h₃⟩ := does_bind_iff.1 h₂
  obtain ⟨-, rfl⟩ := does_lift_iff.1 hquota
  obtain ⟨tree, s₅, htree, h₄⟩ := does_bind_iff.1 h₃
  obtain ⟨hread, hsame⟩ := does_getTree htree
  obtain ⟨_, s₆, hcheck, h₅⟩ := does_bind_iff.1 h₄
  obtain ⟨hwhole, rfl⟩ := does_lift_iff.1 hcheck
  rw [stopIf_eq_ok, Bool.not_eq_true] at hwhole
  obtain ⟨parts, hparts, hcollects⟩ := does_walkEntries hdescend h₅
  -- the counter is no entry
  have hbefore : s₆.collected = s.collected := by rw [hsame, hs₁]
  refine ⟨_, parts, listings_eq_some.2 ⟨tree, hread, hwhole, rfl⟩, hparts, ?_, ?_⟩
  · rw [hcollects.entries, hbefore]
  · rw [← hbefore]
    exact hcollects.bound

/-- **A walk that succeeds** has collected the unfolding of its tree. -/
theorem unfolds_walk (levels : ℕ) : Unfolds limits (Listings.depthFirst (listings rt server source) levels)
    (walk rt server source limits levels) := by
  induction levels with
  | zero =>
      intro sha pre s s' h
      cases h
  | succ levels ih =>
      intro sha pre s s' h
      obtain ⟨s₀, s₁, hget, h₁⟩ := does_bind_iff.1 h
      obtain ⟨rfl, rfl⟩ := does_get_iff.1 hget
      obtain ⟨_, s₂, hcycle, h₂⟩ := does_bind_iff.1 h₁
      obtain ⟨-, rfl⟩ := does_lift_iff.1 hcycle
      obtain ⟨_, s₃, hactive, h₃⟩ := does_bind_iff.1 h₂
      have hs₃ := does_modify_iff.1 hactive
      obtain ⟨s₄, hlisting, hs'⟩ := does_finallyDo_iff.1 h₃
      obtain ⟨entries, parts, hentries, hparts, hcollects⟩ := does_walkListing ih hlisting
      -- the active trees are no entries
      have hbefore : s₃.collected = s₂.collected := by rw [hs₃]
      have hafter : s'.collected = s₄.collected := by rw [hs']
      refine ⟨parts.flatten, Option.bind_eq_some_iff.2 ⟨entries, hentries,
        Option.map_eq_some_iff.2 ⟨parts, hparts, rfl⟩⟩, ?_, ?_⟩
      · rw [hafter, hcollects.entries, hbefore]
      · rw [hafter, ← hbefore]
        exact hcollects.bound

/-- The path beneath a prefix. -/
theorem fullPath_foldl {pre : String} (hpre : pre ≠ "") (found : List GitTreeEntry × GitTreeEntry) :
    fullPath (found.1.foldl fullPath pre) found.2 =
      pre ++ "/" ++ joinSegments ((found.1 ++ [found.2]).map (·.path)) := by
  obtain ⟨above, entry⟩ := found
  induction above generalizing pre with
  | nil => simp [fullPath, hpre, joinSegments_singleton]
  | cons e above ih =>
      have hnext : fullPath pre e = pre ++ "/" ++ e.path := if_pos hpre
      have hne : fullPath pre e ≠ "" := by
        rw [hnext]
        simp [hpre]
      rw [List.foldl_cons, ih hne, hnext, List.cons_append, List.map_cons, joinSegments_cons _ (by simp)]
      simp only [String.append_assoc]

/-- The path of an entry: its names, with a slash between them. -/
theorem path_placed {found : List GitTreeEntry × GitTreeEntry} (h : ∀ entry ∈ found.1, entry.path ≠ "") :
    (placed "" found).path = joinSegments ((found.1 ++ [found.2]).map (·.path)) := by
  obtain ⟨above, entry⟩ := found
  cases above with
  | nil => simp [placed, fullPath, joinSegments_singleton]
  | cons e above =>
      have hfirst : fullPath "" e = e.path := by simp [fullPath]
      show fullPath (above.foldl fullPath (fullPath "" e)) entry = _
      rw [hfirst, fullPath_foldl (h e List.mem_cons_self) (above, entry), List.cons_append, List.map_cons,
        joinSegments_cons _ (by simp)]

/-- A result is the whole of a tree, in depth-first order and within the limits. -/
structure WholeTree (rt : Runtime K) (server : GitHubServer) (source : TreeSource) (limits : TreeLimits)
    (treeSha : String) (tree : GitTree) : Prop where
  sha : tree.sha = treeSha ∧ tree.truncated = false
  size : tree.entries.length ≤ limits.maxEntries
  depthFirst : ∃ found, (∀ levels, limits.maxTreeDepth < levels →
    Listings.depthFirst (listings rt server source) levels treeSha = some found) ∧
      tree.entries = found.map (placed "")
  exact : ∀ entry, entry ∈ tree.entries ↔
    ∃ found, Listings.EntryAt (listings rt server source) treeSha found ∧ entry = placed "" found
  depth : ∀ found, Listings.EntryAt (listings rt server source) treeSha found → found.1.length ≤ limits.maxTreeDepth
  paths : ∀ found, Listings.EntryAt (listings rt server source) treeSha found →
    (∀ entry ∈ found.1, entry.path ≠ "") →
      (placed "" found).path = joinSegments ((found.1 ++ [found.2]).map (·.path))
  reached : ∀ sha, Relation.ReflTransGen (Listings.Lists (listings rt server source)) treeSha sha →
    (∃ listing, readTree rt server source sha false = .ok listing ∧ listing.truncated = false) ∧
      ¬ Listings.OnCycle (listings rt server source) sha

/-- An unfolding within the limits is the whole tree. -/
theorem wholeTree_of_unfolding {treeSha : String} {found : List (List GitTreeEntry × GitTreeEntry)}
    (h : Listings.depthFirst (listings rt server source) (limits.maxTreeDepth + 1) treeSha = some found)
    (hsize : (found.map (placed "")).length ≤ limits.maxEntries) :
    WholeTree rt server source limits treeSha ⟨treeSha, found.map (placed ""), false⟩ where
  sha := ⟨rfl, rfl⟩
  size := hsize
  depthFirst := ⟨found, fun levels hlevels => Listings.depthFirst_mono hlevels h, rfl⟩
  exact := by
    intro entry
    rw [List.mem_map]
    constructor
    · rintro ⟨e, he, rfl⟩
      exact ⟨e, (Listings.mem_depthFirst_iff h).1 he, rfl⟩
    · rintro ⟨e, he, rfl⟩
      exact ⟨e, (Listings.mem_depthFirst_iff h).2 he, rfl⟩
  depth := fun e he => Nat.le_of_lt_succ (Listings.length_lt_of_entry h he)
  paths := fun _ _ hnames => path_placed hnames
  reached := by
    intro sha hreach
    obtain ⟨entries, hentries⟩ := Listings.listed_of_reach h hreach
    obtain ⟨listing, hread, hwhole, -⟩ := listings_eq_some.1 hentries
    exact ⟨⟨listing, hread, hwhole⟩, Listings.not_onCycle_of_reach h hreach⟩

/-- **A complete tree is complete.**  Whatever the server answers, no more trees are asked for than
may be, beyond the first; and where the recursive listing is truncated, a result is the whole tree. -/
theorem getCompleteTree_laws (rt : Runtime K) (server : GitHubServer) (source : TreeSource) (limits : TreeLimits)
    (treeSha : String) :
    ((getCompleteTree rt server source limits treeSha).runFrom {}).2.requests.length ≤ limits.maxTreeRequests + 1 ∧
    ∀ recursiveTree tree, readTree rt server source treeSha true = .ok recursiveTree → recursiveTree.truncated = true →
      ((getCompleteTree rt server source limits treeSha).runFrom {}).1 = .ok tree →
        WholeTree rt server source limits treeSha tree := by
  refine ⟨requests_getCompleteTree treeSha, fun recursiveTree tree hrecursive htruncated hresult => ?_⟩
  have hdoes : Does (getCompleteTree rt server source limits treeSha) {} tree
      ((getCompleteTree rt server source limits treeSha).runFrom {}).2 := Prod.ext hresult rfl
  obtain ⟨first, s₁, hfirst, h₁⟩ := does_bind_iff.1 hdoes
  obtain ⟨hread, hsame⟩ := does_getTree hfirst
  obtain rfl := Except.ok.inj (hread.symm.trans hrecursive)
  rw [if_neg (by rw [htruncated]; decide)] at h₁
  obtain ⟨_, s₂, hauth, h₂⟩ := does_bind_iff.1 h₁
  obtain ⟨-, rfl⟩ := does_lift_iff.1 hauth
  obtain ⟨_, s₃, hwalk, h₃⟩ := does_bind_iff.1 h₂
  obtain ⟨s₄, s₅, hget, h₄⟩ := does_bind_iff.1 h₃
  obtain ⟨hs₄, -⟩ := does_get_iff.1 hget
  obtain ⟨htree, -⟩ := does_pure_iff.1 h₄
  obtain ⟨found, hfound, hcollects⟩ := unfolds_walk _ _ _ _ _ hwalk
  have hcollected : s₃.collected = found.map (placed "") := by
    rw [hcollects.entries, hsame]
    rfl
  rw [htree, hs₄, hcollected]
  refine wholeTree_of_unfolding hfound ?_
  rw [← hcollected]
  refine hcollects.bound ?_
  rw [hsame]
  exact Nat.zero_le _

end Collected

/-! ## A shared subtree -/

section Sample

/-- An entry of a response. -/
def sampleEntry (path type sha : String) : Json :=
  .obj [("path", .str path), ("mode", .str "100644"), ("type", .str type), ("sha", .str sha)]

/-- A repository two directories of which are one tree, and whose recursive listing is truncated. -/
def sharedServer : GitHubServer := fun recursive sha =>
  if recursive then .ok [("sha", .str sha), ("truncated", .bool true), ("tree", .arr [])]
  else if sha = "root" then
    .ok [("sha", .str sha), ("tree", .arr [sampleEntry "README.md" "blob" "r", sampleEntry "src" "tree" "s",
      sampleEntry "lib" "tree" "s"])]
  else if sha = "s" then .ok [("sha", .str sha), ("tree", .arr [sampleEntry "app.py" "blob" "a"])]
  else .error (.request "404")

/-- The shared directory is walked twice, under both its paths. -/
theorem getCompleteTree_laws_shared : ∃ tree,
    ((getCompleteTree Runtime.reference sharedServer ⟨"o", "r", "t"⟩ {} "root").runFrom {}).1 = .ok tree ∧
      tree.entries.map (·.path) = ["README.md", "src", "src/app.py", "lib", "lib/app.py"] ∧
      WholeTree Runtime.reference sharedServer ⟨"o", "r", "t"⟩ {} "root" tree := by
  have hrun : ((getCompleteTree Runtime.reference sharedServer ⟨"o", "r", "t"⟩ {} "root").runFrom {}).1.toOption.map
      (fun tree => tree.entries.map (·.path)) = some ["README.md", "src", "src/app.py", "lib", "lib/app.py"] := by
    decide +kernel
  obtain ⟨tree, htree, hpaths⟩ := Option.map_eq_some_iff.1 hrun
  have hfirst : (readTree Runtime.reference sharedServer ⟨"o", "r", "t"⟩ "root" true).toOption.map (·.truncated) =
      some true := by decide +kernel
  obtain ⟨recursiveTree, hrecursive, htruncated⟩ := Option.map_eq_some_iff.1 hfirst
  have hok := Library.toOption_eq_some.1 htree
  exact ⟨tree, hok, hpaths, (getCompleteTree_laws Runtime.reference sharedServer ⟨"o", "r", "t"⟩ {} "root").2
    recursiveTree tree (Library.toOption_eq_some.1 hrecursive) htruncated hok⟩

end Sample

end GitHub
end PulseGraph
