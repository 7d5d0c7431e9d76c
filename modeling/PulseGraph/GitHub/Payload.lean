/-
# Webhook payloads

The readers of `src/github_integration/store.py`: a JSON object is taken apart
field by field, each field checked under the path its error names.
`readInstallationEvent` is the first half of `upsert_installation_from_webhook`, up to
its first statement; `repositoryFields` is `_repository_fields`.

**Proved here.**  What a payload that is accepted can hold: an identifier is
positive (`integer_pos`), an installation is active only with exactly the two
read-only permissions on selected repositories (`installationStatus_eq_active_iff`), and
it is deleted exactly by a deletion (`installationStatus_eq_deleted_iff`).
-/

import PulseGraph.Config
import PulseGraph.Db.IsoText
import PulseGraph.Library.Checked
import Mathlib.Data.List.TakeWhile
import Mathlib.Data.Prod.Lex

namespace PulseGraph
namespace GitHub

open Library (Json)

/-- What the GitHub store raises. -/
inductive GitHubError where
  /-- `GitHubStoreError(detail)`. -/
  | store (detail : String)
  /-- `GitHubConnectionStateError(detail)`. -/
  | connectionState (detail : String)
  /-- `HTTPException(status_code, detail)`. -/
  | http (statusCode : ℕ) (detail : String)
  /-- `sqlite3.IntegrityError`: a second row under a unique column. -/
  | integrity (column : String)
  /-- `OverflowError`, of `int(float("inf"))`. -/
  | overflow
  deriving DecidableEq, Repr

/-- A JSON object as `json.loads` returns it. -/
abbrev Fields := List (String × Json)

/-- `mapping.get(key)`. -/
def Fields.get (fields : Fields) (key : String) : Json := (fields.lookup key).getD .null

/-- `mapping.get(key, default)`. -/
def Fields.getOr (fields : Fields) (key : String) (default : Json) : Json :=
  (fields.lookup key).getD default

/-! ## Checked reads -/

/-- `if p: raise e`. -/
def refuseIf (p : Prop) [Decidable p] (e : GitHubError) : Except GitHubError Unit :=
  if p then .error e else .ok ()

theorem refuseIf_eq_ok {p : Prop} [Decidable p] {e : GitHubError} {u : Unit} :
    refuseIf p e = .ok u ↔ ¬ p := by
  unfold refuseIf
  split_ifs with h <;> simp [h]

variable {K : Type} (rt : Runtime K)

/-- `_mapping`. -/
def mapping (value : Json) (context : String) : Except GitHubError Fields :=
  match value with
  | .obj fields => .ok fields
  | _ => .error (.store (context ++ " must be an object"))

/-- `_text`. -/
def text (value : Json) (context : String) (allowEmpty : Bool := false) :
    Except GitHubError String :=
  match value with
  | .str s =>
      if allowEmpty || rt.strip s != "" then .ok (rt.strip s)
      else .error (.store (context ++ " must be a non-empty string"))
  | _ => .error (.store (context ++ " must be a non-empty string"))

/-- A sequence: a JSON array, and neither a text nor an object. -/
def sequence (value : Json) (context : String) : Except GitHubError (List Json) :=
  match value with
  | .arr xs => .ok xs
  | _ => .error (.store (context ++ " must be a list"))

/-- A string as it stands, or `null`. -/
def nullableString (value : Json) (context : String) : Except GitHubError (Option String) :=
  match value with
  | .null => .ok none
  | .str s => .ok (some s)
  | _ => .error (.store (context ++ " must be a string or null"))

/-- The digits of an unsigned number. -/
def natOf (cs : List Char) : Option ℕ :=
  if Library.Json.isDigits cs then some (Nat.ofDigitChars 10 cs 0) else none

/-- An optional sign before what a reader takes. -/
def signed (plus : Bool) (read : List Char → Option ℕ) : List Char → Option ℤ
  | [] => none
  | c :: cs =>
      if c = '-' then (read cs).map fun n => -(n : ℤ)
      else if plus && c = '+' then (read cs).map (↑)
      else (read (c :: cs)).map (↑)

/-- The digits of an `int` literal, single underscores between them dropped. -/
def dropUnderscores : List Char → List Char
  | c :: '_' :: d :: cs => if c = '_' || d = '_' then c :: '_' :: d :: cs else c :: dropUnderscores (d :: cs)
  | c :: cs => c :: dropUnderscores cs
  | [] => []

/-- The whole part of a number with a fraction or an exponent, taken at its exact
decimal value. -/
def truncated (cs : List Char) : Option ℕ := do
  let whole := cs.takeWhile Char.isDigit
  let rest := cs.dropWhile Char.isDigit
  let (fraction, rest) := match rest with
    | '.' :: rest => (rest.takeWhile Char.isDigit, rest.dropWhile Char.isDigit)
    | rest => ([], rest)
  let digits ← natOf (whole ++ fraction)
  let exponent ← match rest with
    | [] => some (0 : ℤ)
    | _ :: rest => signed true natOf rest
  let shift := exponent - fraction.length
  some (if 0 ≤ shift then digits * 10 ^ shift.toNat else digits / 10 ^ (-shift).toNat)

/-- `int(value)` of a value that is not a `bool`. -/
def int? (value : Json) : Option ℤ :=
  match value with
  | .num number => signed false truncated number.toList
  | .str s => signed true (fun cs => natOf (dropUnderscores cs)) (rt.strip s).toList
  | _ => none

/-- `_integer`. -/
def integer (value : Json) (context : String) : Except GitHubError ℕ :=
  match value with
  | .num "Infinity" => .error .overflow
  | .num "-Infinity" => .error .overflow
  | value =>
      match int? rt value with
      | none => .error (.store (context ++ " must be an integer"))
      | some n =>
          if n ≤ 0 then .error (.store (context ++ " must be positive")) else .ok n.toNat

/-- `_provider_timestamp_microseconds`. -/
def providerTimestampMicroseconds (value : Json) (context : String) : Except GitHubError ℤ :=
  let parse : Except GitHubError ℤ := do
    let text ← text rt value context
    if Library.Json.isDigits text.toList then
      pure ((Nat.ofDigitChars 10 text.toList 0 : ℤ) * 1000000)
    else
      match fromIsoFormat (offsetSuffix text) with
      | none => .error (.store (context ++ " must be an ISO-8601 timestamp"))
      | some parsed => do
          refuseIf parsed.utcOffset.isNone (.store (context ++ " must include a timezone"))
          return parsed.utcUs
  match value with
  | .num number =>
      match signed false natOf number.toList with
      | some n =>
          if n < 0 then .error (.store (context ++ " must not be negative")) else .ok (n * 1000000)
      | none => parse
  | _ => parse

/-- The digits of a number read back. -/
theorem natOf_toDigits (n : ℕ) : natOf (Nat.toDigits 10 n) = some n := by
  have hdigits : Library.Json.isDigits (Nat.toDigits 10 n) = true := by
    unfold Library.Json.isDigits
    rw [Bool.and_eq_true, List.all_eq_true]
    refine ⟨?_, fun c hc => Nat.isDigit_of_mem_toDigits (by decide) le_rfl hc⟩
    simp
  rw [natOf, if_pos hdigits, Nat.ofDigitChars_ten_toDigits]

/-- An integer reads back from its text. -/
theorem signed_int (n : ℤ) : signed false natOf (toString n).toList = some n := by
  rw [Library.Json.toList_int]
  have hnot : ∀ c ∈ Nat.toDigits 10 n.natAbs, c ≠ '-' := by
    rintro c hc rfl
    exact absurd (Nat.isDigit_of_mem_toDigits (by decide) le_rfl hc) (by decide)
  split_ifs with hn
  · rw [List.singleton_append, signed, if_pos rfl, natOf_toDigits]
    show some (-(n.natAbs : ℤ)) = some n
    exact congrArg some (by omega)
  · obtain ⟨d, ds, hds⟩ := List.exists_cons_of_ne_nil (@Nat.toDigits_ne_nil n.natAbs 10)
    have hread := natOf_toDigits n.natAbs
    rw [hds] at hread hnot ⊢
    rw [List.nil_append, signed, if_neg (hnot d List.mem_cons_self)]
    simp only [Bool.false_and, Bool.false_eq_true, if_false, hread, Option.map_some]
    exact congrArg some (by omega)

theorem truncated_toDigits (n : ℕ) : truncated (Nat.toDigits 10 n) = some n := by
  have hall : ∀ c ∈ Nat.toDigits 10 n, c.isDigit = true :=
    fun c hc => Nat.isDigit_of_mem_toDigits (by decide) le_rfl hc
  have htake : (Nat.toDigits 10 n).takeWhile Char.isDigit = Nat.toDigits 10 n :=
    List.takeWhile_eq_self_iff.2 hall
  have hdrop : (Nat.toDigits 10 n).dropWhile Char.isDigit = [] :=
    List.dropWhile_eq_nil_iff.2 hall
  unfold truncated
  simp [htake, hdrop, natOf_toDigits]

theorem toList_toString (n : ℕ) : (toString (n : ℤ)).toList = Nat.toDigits 10 n := by
  rw [show toString (n : ℤ) = Nat.repr n from rfl, Nat.toList_repr]

theorem isDigit_of_mem_toString {n : ℕ} {c : Char} (hc : c ∈ (toString (n : ℤ)).toList) :
    c.isDigit = true :=
  Nat.isDigit_of_mem_toDigits (by decide) le_rfl (toList_toString n ▸ hc)

theorem int?_int (n : ℕ) : int? rt (Json.int n) = some (n : ℤ) := by
  unfold int? Json.int
  dsimp only
  unfold signed
  split
  · rename_i hnil
    exact absurd (toList_toString n ▸ hnil) (by simp)
  · rename_i c cs hcs
    have hc : c.isDigit = true := isDigit_of_mem_toString (hcs ▸ List.mem_cons_self)
    rw [if_neg (by rintro rfl; revert hc; decide), ← hcs, toList_toString, truncated_toDigits]
    rfl

/-- **An identifier the code writes reads back.** -/
theorem eq_of_integer_int {n m : ℕ} {context : String}
    (h : integer rt (Json.int n) context = .ok m) : m = n := by
  unfold integer at h
  split at h
  · cases h
  · cases h
  · rw [int?_int] at h
    dsimp only at h
    split_ifs at h
    exact (Except.ok.inj h).symm.trans (Int.toNat_natCast n)

/-! ## Installations -/

/-- `github_installations.status`. -/
inductive InstallationStatus where
  | active | suspended | deleted | repositorySelectionRequired | permissionMisconfigured
  deriving DecidableEq, Repr

/-- The text of a status. -/
def InstallationStatus.text : InstallationStatus → String
  | .active => "active"
  | .suspended => "suspended"
  | .deleted => "deleted"
  | .repositorySelectionRequired => "repository_selection_required"
  | .permissionMisconfigured => "permission_misconfigured"

/-- `_event_priority`. -/
def eventPriority (action : String) (repositorySelection : String) : ℕ :=
  if action = "deleted" then 100
  else if action = "suspend" then 90
  else if repositorySelection = "all" then 80
  else if action = "removed" then 70
  else 10

/-- `dict(permissions) == \x7b"metadata": "read", "contents": "read"\x7d`: an object has each
key once, so two fields are these two. -/
def allowedPermissions (permissions : Fields) : Bool :=
  permissions.length = 2 &&
    ["metadata", "contents"].all fun key => match permissions.lookup key with
      | some (.str access) => access = "read"
      | _ => false

/-- `_installation_status`. -/
def installationStatus (action repositorySelection : String) (suspendedAt : Option String)
    (permissions : Fields) : InstallationStatus :=
  if action = "deleted" then .deleted
  else if suspendedAt.any (· ≠ "") then .suspended
  else if repositorySelection ≠ "selected" then .repositorySelectionRequired
  else if !allowedPermissions permissions then .permissionMisconfigured
  else .active

/-- **Fail closed:** only a live installation of selected repositories with exactly the
two read-only permissions is active. -/
theorem installationStatus_eq_active_iff {action repositorySelection : String}
    {suspendedAt : Option String} {permissions : Fields} :
    installationStatus action repositorySelection suspendedAt permissions = .active ↔
      action ≠ "deleted" ∧ suspendedAt.any (· ≠ "") = false ∧ repositorySelection = "selected" ∧
        allowedPermissions permissions = true := by
  unfold installationStatus
  split_ifs <;> simp_all

/-- A deletion, and nothing else, makes an installation deleted. -/
theorem installationStatus_eq_deleted_iff {action repositorySelection : String}
    {suspendedAt : Option String} {permissions : Fields} :
    installationStatus action repositorySelection suspendedAt permissions = .deleted ↔
      action = "deleted" := by
  unfold installationStatus
  split_ifs <;> simp_all

/-- What `upsert_installation_from_webhook` reads of an accepted payload. -/
structure InstallationEvent where
  action : String
  installationId : ℕ
  providerUpdatedAtUs : ℤ
  accountLogin : String
  accountType : String
  repositorySelection : String
  suspendedAt : Option String
  permissions : Fields

namespace InstallationEvent

/-- The status the event's own payload yields. -/
def status (e : InstallationEvent) : InstallationStatus :=
  installationStatus e.action e.repositorySelection e.suspendedAt e.permissions

/-- The priority of the event among those of its timestamp. -/
def priority (e : InstallationEvent) : ℕ := eventPriority e.action e.repositorySelection

/-- The version of the event: its timestamp, then its priority. -/
def version (e : InstallationEvent) : ℤ ×ₗ ℕ := toLex (e.providerUpdatedAtUs, e.priority)

end InstallationEvent

/-- The checks of `upsert_installation_from_webhook` on its payload. -/
def readInstallationEvent (payload : Fields) (action : String) :
    Except GitHubError InstallationEvent := do
  let installation ← mapping (payload.get "installation") "installation"
  let account ← mapping (installation.get "account") "installation.account"
  let installationId ← integer rt (installation.get "id") "installation.id"
  let providerUpdatedAtUs ←
    providerTimestampMicroseconds rt (installation.get "updated_at") "installation.updated_at"
  let accountLogin ← text rt (account.get "login") "installation.account.login"
  let accountType ← text rt (account.get "type") "installation.account.type"
  let repositorySelection ←
    text rt (installation.getOr "repository_selection" (.str "selected"))
      "installation.repository_selection"
  refuseIf (repositorySelection ≠ "selected" ∧ repositorySelection ≠ "all")
    (.store "installation.repository_selection must be 'selected' or 'all'")
  let suspendedAt ← nullableString (installation.get "suspended_at") "installation.suspended_at"
  let permissions ← mapping (installation.getOr "permissions" (.obj [])) "installation.permissions"
  return {
    action := action
    installationId := installationId
    providerUpdatedAtUs := providerUpdatedAtUs
    accountLogin := accountLogin
    accountType := accountType
    repositorySelection := repositorySelection
    suspendedAt := suspendedAt
    permissions := permissions }

/-! ## Repositories -/

/-- The fields of `_repository_fields` that a later read uses. -/
structure RepositoryFields where
  repositoryId : ℕ
  owner : String
  name : String
  fullName : String
  defaultBranch : String
  deriving DecidableEq, Repr

/-- `full_name.partition("/")`: the owner and the name around the first slash. -/
def partitionSlash (fullName : String) : Option (String × String) :=
  let cs := fullName.toList
  if '/' ∈ cs then
    some (String.ofList (cs.takeWhile (· ≠ '/')), String.ofList (cs.dropWhile (· ≠ '/')).tail)
  else none

/-- The owner of a repository: a field of its own, or the part of the full name before
the slash, which GitHub's compact webhook objects leave it to. -/
def repositoryOwner (repository : Fields) (name fullName : String) : Except GitHubError String :=
  match repository.get "owner" with
  | .obj owner => do
      let ownerLogin ← text rt (Fields.get owner "login") "repository.owner.login"
      refuseIf (fullName ≠ ownerLogin ++ "/" ++ name)
        (.store "repository.full_name does not match owner and name")
      return ownerLogin
  | _ => match partitionSlash fullName with
    | some (ownerLogin, parsedName) => do
        refuseIf (ownerLogin = "" ∨ parsedName ≠ name)
          (.store "repository.full_name does not match owner and name")
        return ownerLogin
    | none => .error (.store "repository.full_name does not match owner and name")

/-- `_repository_fields`. -/
def repositoryFields (repository : Fields) : Except GitHubError RepositoryFields := do
  let name ← text rt (repository.get "name") "repository.name"
  let fullName ← text rt (repository.get "full_name") "repository.full_name"
  let owner ← repositoryOwner rt repository name fullName
  let repositoryId ← integer rt (repository.get "id") "repository.id"
  let defaultBranch ←
    text rt (repository.getOr "default_branch" (.str "")) "repository.default_branch" true
  return {
    repositoryId := repositoryId
    owner := owner
    name := name
    fullName := fullName
    defaultBranch := defaultBranch }

end GitHub
end PulseGraph
