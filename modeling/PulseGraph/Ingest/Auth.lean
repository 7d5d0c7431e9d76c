/-
# Who may write what

`src/ingest/auth.py` binds a credential to the scopes it may write, and the ingest handlers of
`src/main.py` authorise every event of a batch before they write any of them.
-/

import PulseGraph.Engine.System

namespace PulseGraph

/-- `IngestCredential`. -/
structure IngestCredential where
  name : String
  token : String
  scope : String := "*"
  deriving DecidableEq

/-- `may_write`: the scope is a prefix, with or without a star at its end, or the star alone. -/
def IngestCredential.mayWrite (c : IngestCredential) (scopeKey : String) : Bool :=
  if c.scope = "*" then true
  else
    let scope := c.scope.toList
    let start := if scope.getLast? = some '*' then scope.dropLast else scope
    decide (start <+: scopeKey.toList)

/-- The errors an ingest handler answers with before it writes anything. -/
inductive IngestError where
  /-- 503: `ingest authentication is enabled but INGEST_TOKENS is empty` -/
  | notConfigured
  /-- 401: `invalid ingest credential` -/
  | invalidCredential
  /-- 403: `scope not permitted` -/
  | scopeNotPermitted
  /-- 500: `compare_digest` compares ASCII texts only -/
  | typeError
  deriving DecidableEq

section Authenticate

variable {K : Type} (rt : Runtime K)

/-- `_presented_token`: the token of either header. -/
def presentedToken (authorization headerToken : Option String) : String :=
  let chars := (authorization.getD "").toList
  let scheme := String.ofList (chars.takeWhile (· ≠ ' '))
  let value := rt.strip (String.ofList ((chars.dropWhile (· ≠ ' ')).drop 1))
  if authorization.any (· ≠ "") ∧ rt.lower scheme = "bearer" ∧ value ≠ "" then value
  else rt.strip (headerToken.getD "")

/-- Whether a text is ASCII. -/
def isAscii (s : String) : Bool := s.toList.all fun c => c.toNat < 128

/-- `authenticate`: the last of the configured credentials with the token that is presented. -/
def authenticate (credentials : List IngestCredential) (authorization headerToken : Option String) :
    Except IngestError IngestCredential :=
  let presented := presentedToken rt authorization headerToken
  if credentials = [] then .error .notConfigured
  else if presented = "" then .error .invalidCredential
  else if !(isAscii presented && credentials.all fun c => isAscii c.token) then .error .typeError
  else match (credentials.filter fun c => c.token = presented).getLast? with
    | none => .error .invalidCredential
    | some credential => .ok credential

/-- **A caller is who the token says**: one of the configured sources, which presented its token. -/
theorem authenticate_eq_ok {credentials : List IngestCredential}
    {authorization headerToken : Option String} {credential : IngestCredential}
    (h : authenticate rt credentials authorization headerToken = .ok credential) :
    credential ∈ credentials ∧ credential.token = presentedToken rt authorization headerToken ∧
      credential.token ≠ "" := by
  unfold authenticate at h
  dsimp only at h
  split_ifs at h with hempty hmissing hascii
  split at h
  · cases h
  · next c hlast =>
      obtain rfl := Except.ok.inj h
      obtain ⟨hmem, htoken⟩ := List.mem_filter.1 (List.mem_of_getLast? hlast)
      rw [decide_eq_true_eq] at htoken
      exact ⟨hmem, htoken, htoken ▸ hmissing⟩

end Authenticate

/-- `_authorize_event`: without a credential, authentication is off. -/
def authorizeEvent (credential : Option IngestCredential) (event : NormalizedEvent) :
    Except IngestError Unit :=
  match credential with
  | none => .ok ()
  | some credential =>
      if credential.mayWrite (scopeKeyFor event) then .ok () else .error .scopeNotPermitted

/-- An event of a batch, with the clock and the values of `uuid4` its transaction reads. -/
structure Arrival where
  freshId : String
  freshGroupId : String
  now : ℤ
  event : NormalizedEvent

/-- The transaction of an event. -/
def Arrival.request (a : Arrival) : Request := .ingest a.freshId a.freshGroupId a.now a.event

/-- `ingest_prometheus` and `_ingest_normalized_events` once the events are there: the events the
handler writes, one transaction each, or the error it answers with. -/
def ingestBatch (credential : Option IngestCredential) (batch : List Arrival) :
    Except IngestError (List Arrival) := do
  batch.forM fun a => authorizeEvent credential a.event
  .ok batch

/-- Authorising a batch authorises each of its events. -/
theorem forM_authorizeEvent {credential : IngestCredential} {batch : List Arrival} :
    batch.forM (fun a => authorizeEvent (some credential) a.event) =
      if ∀ a ∈ batch, credential.mayWrite (scopeKeyFor a.event) = true then .ok ()
      else .error .scopeNotPermitted := by
  induction batch with
  | nil => rfl
  | cons a batch ih =>
      change (authorizeEvent (some credential) a.event >>= fun _ =>
        batch.forM fun a => authorizeEvent (some credential) a.event) = _
      rw [ih, authorizeEvent]
      by_cases ha : credential.mayWrite (scopeKeyFor a.event) = true
      · rw [if_pos ha]
        exact if_congr (by simp [ha]) rfl rfl
      · rw [if_neg ha]
        exact (if_neg fun h => ha (h a List.mem_cons_self)).symm

/-- **A batch is written whole or not at all**: every event of it may be written, or it is refused. -/
theorem ingestBatch_eq {credential : IngestCredential} {batch : List Arrival} :
    ingestBatch (some credential) batch =
      if ∀ a ∈ batch, credential.mayWrite (scopeKeyFor a.event) = true then .ok batch
      else .error .scopeNotPermitted := by
  unfold ingestBatch
  rw [forM_authorizeEvent]
  split_ifs <;> rfl

/-- The events of a batch that are written: those of a batch that is not refused. -/
def written (credential : Option IngestCredential) (batch : List Arrival) : List Arrival :=
  match ingestBatch credential batch with
  | .ok writes => writes
  | .error _ => []

theorem written_eq {credential : IngestCredential} {batch : List Arrival} :
    written (some credential) batch =
      if ∀ a ∈ batch, credential.mayWrite (scopeKeyFor a.event) = true then batch else [] := by
  unfold written
  rw [ingestBatch_eq]
  split_ifs <;> rfl

end PulseGraph
