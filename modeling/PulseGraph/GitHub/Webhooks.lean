/-
# The GitHub routes

The routes of `src/github_integration/router.py` that write the store: the webhook
endpoint, the installation sync and the snapshot.  A webhook is one transaction.  The
other two read the database, then GitHub, and then write: between the two database
steps anything may happen, so each is two turns of `gitHubNext`, and what GitHub answered
in between comes with the second.

A webhook is modelled from the point where its signature is verified and its body is
JSON.  A turn that raises is rolled back and changes no table.

**Proved here.**  What a delivery can do to the three tables that decide access: its event
is taken, with the lists that follow it, or they do not change (`receiveGithubWebhook_effect`).
-/

import PulseGraph.GitHub.Store
import PulseGraph.Library.Run

namespace PulseGraph
namespace GitHub

open Library (Json Table bind_eq_ok)

variable {K : Type} (rt : Runtime K)

/-! ## The webhook endpoint -/

/-- A signed delivery: its headers and its JSON body. -/
structure WebhookRequest where
  deliveryId : String
  eventType : String
  payload : Json

/-- `_ALLOWED_INSTALLATION_ACTIONS`. -/
def allowedInstallationActions : List String :=
  ["created", "deleted", "suspend", "unsuspend", "new_permissions_accepted"]

/-- `character.isspace()` of an ASCII character. -/
def isSpace (c : Char) : Bool := (9 ≤ c.toNat && c.toNat ≤ 13) || (28 ≤ c.toNat && c.toNat ≤ 32)

/-- The header checks of `receive_github_webhook`. -/
def validDelivery (w : WebhookRequest) : Except GitHubError Unit := do
  refuseIf (w.eventType = "" ∨ w.deliveryId = "")
    (.http 422 "GitHub delivery and event headers are required")
  refuseIf (128 < w.deliveryId.length ∨ w.deliveryId.toList.any fun c => 128 ≤ c.toNat || isSpace c)
    (.http 422 "GitHub delivery ID is invalid")

/-- `_validate_webhook_repository_bounds`. -/
def validateWebhookRepositoryBounds (maximum : ℕ) (payload : Fields) (eventType : String) :
    Except GitHubError Unit :=
  let fields :=
    if eventType = "installation" then ["repositories"]
    else ["repositories_added", "repositories_removed"]
  fields.forM fun field =>
    match payload.getOr field (.arr []) with
    | .arr value =>
        refuseIf (maximum < value.length)
          (.http 413 ("GitHub webhook field " ++ field ++ " exceeds the configured repository limit"))
    | _ => .error (.http 422 ("GitHub webhook field " ++ field ++ " must be an array"))

/-- `_installation_id`. -/
def installationId (payload : Fields) : Except GitHubError (Option ℕ) :=
  match payload.get "installation" with
  | .obj installation => match Fields.get installation "id" with
    | .num "Infinity" => .error .overflow
    | .num "-Infinity" => .error .overflow
    | value => .ok (((int? rt value).filter (0 < ·)).map Int.toNat)
  | _ => .ok none

/-- `record_webhook_delivery`: whether the delivery is new. -/
def recordWebhookDelivery (db : GitHubDb) (deliveryId : String) : GitHubDb × Bool :=
  ({ db with deliveries := db.deliveries.insert deliveryId "accepted" },
    (db.deliveries.find? deliveryId).isNone)

/-- `set_webhook_delivery_status`. -/
def setWebhookDeliveryStatus (db : GitHubDb) (deliveryId status : String) : GitHubDb :=
  { db with deliveries := db.deliveries.modify deliveryId fun _ => status }

/-- The elements of a sequence, and none of anything else. -/
def items (value : Json) : List Json :=
  match value with
  | .arr xs => xs
  | _ => []

/-- `isinstance(repository, Mapping)`. -/
def installationRepository (repository : Json) : Except GitHubError Fields :=
  match repository with
  | .obj fields => .ok fields
  | _ => .error (.store "installation repository entry must be an object")

/-- An `installation` event inside the transaction of `receive_github_webhook`. -/
def processInstallation (db : GitHubDb) (payload : Fields) (action : Option String) :
    Except GitHubError (GitHubDb × String) :=
  match action.filter (· ∈ allowedInstallationActions) with
  | none => .ok (db, "ignored")
  | some action => do
      let (db, installationId, applied) ← upsertInstallationFromWebhook rt db payload action
      if applied = false then return (db, "ignored")
      else do
        let (installation, _) ← getInstallation db installationId
        let repositories :=
          if installation.status = .active then items (payload.getOr "repositories" (.arr [])) else []
        let (db, _) ← upsertEach rt installationRepository db installationId repositories
        return (db, "processed")

/-- An `installation_repositories` event inside that transaction. -/
def processInstallationRepositories (db : GitHubDb) (payload : Fields) :
    Except GitHubError (GitHubDb × String) := do
  let installationId ← installationId rt payload
  refuseIf (installationId.isNone)
    (.store "installation_repositories webhook is missing installation.id")
  let (db, _, installationStatus, applied) ← syncInstallationRepositoriesFromWebhook rt db payload
  return (db, if installationStatus ≠ .active ∨ applied = false then "ignored" else "processed")

/-- `process` of `receive_github_webhook`. -/
def processWebhook (db : GitHubDb) (w : WebhookRequest) (payload : Fields) (action : Option String) :
    Except GitHubError (GitHubDb × String) := do
  let _ ← installationId rt payload
  let (db, isNew) := recordWebhookDelivery db w.deliveryId
  if isNew = false then return (db, "duplicate")
  else do
    let (db, outcome) ←
      if w.eventType = "installation" then processInstallation rt db payload action
      else processInstallationRepositories rt db payload
    return (setWebhookDeliveryStatus db w.deliveryId outcome, outcome)

/-- `receive_github_webhook`, from its headers on. -/
def receiveGithubWebhook (maximum : ℕ) (db : GitHubDb) (w : WebhookRequest) :
    Except GitHubError (GitHubDb × String) := do
  validDelivery w
  if w.eventType ≠ "installation" ∧ w.eventType ≠ "installation_repositories" then
    return (db, "ignored")
  else match w.payload with
    | .obj payload => do
        validateWebhookRepositoryBounds maximum payload w.eventType
        match Fields.get payload "action" with
        | .null => processWebhook rt db w payload none
        | .str action => processWebhook rt db w payload (some action)
        | _ => .error (.http 422 "GitHub webhook action must be a string")
    | _ => .error (.http 422 "GitHub webhook JSON must be an object")

/-! ## What a webhook can do -/

section Effect

variable {rt} {db db' : GitHubDb} {w : WebhookRequest} {payload : Fields}

/-- The tables that decide access are the same, and so are the files of the snapshots. -/
structure SameAccess (db db' : GitHubDb) : Prop where
  installations : db'.installations = db.installations
  versions : db'.versions = db.versions
  repositories : db'.repositories = db.repositories
  files : db'.snapshotFiles = db.snapshotFiles

/-- A field of the payload lists the repository. -/
def Listed (rt : Runtime K) (payload : Fields) (field : String) (x : ℕ) : Prop :=
  ∃ entries fields f, payload.getOr field (.arr []) = .arr entries ∧ .obj fields ∈ entries ∧
    repositoryFields rt fields = .ok f ∧ f.repositoryId = x

/-- A webhook whose event is taken: the event is, then the repositories `added` are bound
to its installation and those `removed` are deselected, if it leaves the installation
active. -/
structure WebhookTaken (rt : Runtime K) (w : WebhookRequest) (payload : Fields) (db db' : GitHubDb)
    (e : InstallationEvent) (added removed : List ℕ) : Prop where
  payload_eq : w.payload = .obj payload
  read : readInstallationEvent rt payload e.action = .ok e
  takes : Takes db e
  effect : ∃ db₁ db₂, SameAccess (takeInstallationEvent db e) db₁ ∧
    Bound db₁ db₂ e.installationId added ∧ Deselected db₂ db' e.installationId removed
  closed : e.status ≠ .active → added = [] ∧ removed = []
  installation : w.eventType = "installation" →
    removed = [] ∧ ∀ x ∈ added, Listed rt payload "repositories" x
  repositories : w.eventType ≠ "installation" → e.status = .active →
    (∀ x, x ∈ added ↔ Listed rt payload "repositories_added" x) ∧
      ∀ x, x ∈ removed ↔ Listed rt payload "repositories_removed" x

theorem SameAccess.refl (db : GitHubDb) : SameAccess db db := ⟨rfl, rfl, rfl, rfl⟩

theorem readInstallationEvent_action {action : String} {e : InstallationEvent}
    (h : readInstallationEvent rt payload action = .ok e) : e.action = action := by
  unfold readInstallationEvent at h
  obtain ⟨_, -, h⟩ := bind_eq_ok.1 h
  obtain ⟨_, -, h⟩ := bind_eq_ok.1 h
  obtain ⟨_, -, h⟩ := bind_eq_ok.1 h
  obtain ⟨_, -, h⟩ := bind_eq_ok.1 h
  obtain ⟨_, -, h⟩ := bind_eq_ok.1 h
  obtain ⟨_, -, h⟩ := bind_eq_ok.1 h
  obtain ⟨_, -, h⟩ := bind_eq_ok.1 h
  obtain ⟨_, -, h⟩ := bind_eq_ok.1 h
  obtain ⟨_, -, h⟩ := bind_eq_ok.1 h
  obtain ⟨_, -, h⟩ := bind_eq_ok.1 h
  obtain rfl := Except.ok.inj h
  rfl

theorem getInstallation_take {e : InstallationEvent} {row : Installation} {n : ℕ}
    (h : getInstallation (takeInstallationEvent db e) e.installationId = .ok (row, n)) :
    row.status = e.status := by
  have hstatus := (status_takeInstallationEvent db e e.installationId).trans (if_pos rfl)
  unfold GitHubDb.status at hstatus
  unfold getInstallation at h
  split at h
  · cases h
  · rename_i row' hrow
    rw [hrow] at hstatus
    obtain ⟨rfl, -⟩ := Prod.mk.inj (Except.ok.inj h)
    exact Option.some.inj hstatus

theorem namedBy_mapping_iff {context : String} {a : Json} {x : ℕ} :
    NamedBy rt (mapping · context) a x ↔ ∃ fields f, a = .obj fields ∧
      repositoryFields rt fields = .ok f ∧ f.repositoryId = x := by
  unfold NamedBy mapping
  cases a <;> simp

/-- The repositories a list of a payload names. -/
theorem exists_namedBy_iff {field context context' : String} {entries : List Json} {x : ℕ}
    (h : sequence (payload.getOr field (.arr [])) context = .ok entries) :
    (∃ a ∈ entries, NamedBy rt (mapping · context') a x) ↔ Listed rt payload field x := by
  have hentries : payload.getOr field (.arr []) = .arr entries := by
    unfold sequence at h
    split at h
    · rename_i xs hxs
      rw [hxs, Except.ok.inj h]
    · cases h
  constructor
  · rintro ⟨a, ha, hnamed⟩
    obtain ⟨fields, f, rfl, hf, hx⟩ := namedBy_mapping_iff.1 hnamed
    exact ⟨entries, fields, f, hentries, ha, hf, hx⟩
  · rintro ⟨entries', fields, f, hentries', ha, hf, hx⟩
    obtain rfl : entries = entries' := by simpa using hentries.symm.trans hentries'
    exact ⟨_, ha, namedBy_mapping_iff.2 ⟨fields, f, rfl, hf, hx⟩⟩

theorem namedBy_installationRepository_iff {a : Json} {x : ℕ} :
    NamedBy rt installationRepository a x ↔ ∃ fields f, a = .obj fields ∧
      repositoryFields rt fields = .ok f ∧ f.repositoryId = x := by
  unfold NamedBy installationRepository
  cases a <;> simp

theorem listed_of_mem_items {field : String} {fields : Fields} {f : RepositoryFields} {x : ℕ}
    (h : .obj fields ∈ items (payload.getOr field (.arr []))) (hf : repositoryFields rt fields = .ok f)
    (hx : f.repositoryId = x) : Listed rt payload field x := by
  unfold items at h
  split at h
  · rename_i xs hxs
    exact ⟨xs, fields, f, hxs, h, hf, hx⟩
  · exact absurd h List.not_mem_nil

/-- A taken event that no list follows. -/
theorem WebhookTaken.of_nil {e : InstallationEvent} (hw : w.payload = .obj payload)
    (hread : readInstallationEvent rt payload e.action = .ok e) (htakes : Takes db e)
    (h : w.eventType ≠ "installation" → e.status ≠ .active) :
    WebhookTaken rt w payload db (takeInstallationEvent db e) e [] [] where
  payload_eq := hw
  read := hread
  takes := htakes
  effect := ⟨_, _, .refl _, .nil _ _, .nil _ _⟩
  closed _ := ⟨rfl, rfl⟩
  installation _ := ⟨rfl, fun _ hx => absurd hx List.not_mem_nil⟩
  repositories ht hactive := absurd hactive (h ht)

/-- An `installation` event is taken, or changes nothing. -/
theorem processInstallation_effect {action : Option String} {outcome : String}
    (hw : w.payload = .obj payload) (ht : w.eventType = "installation")
    (h : processInstallation rt db payload action = .ok (db', outcome)) :
    SameAccess db db' ∨ ∃ e added removed, WebhookTaken rt w payload db db' e added removed := by
  unfold processInstallation at h
  split at h
  · obtain ⟨rfl, -⟩ := Prod.mk.inj (Except.ok.inj h)
    exact .inl (.refl db)
  · obtain ⟨⟨db₁, i, applied⟩, hup, hrest⟩ := bind_eq_ok.1 h
    clear h
    obtain ⟨e, hread, rfl, ⟨rfl, htakes, rfl⟩ | ⟨rfl, -, rfl⟩⟩ :=
      upsertInstallationFromWebhook_cases hup
    · right
      obtain rfl := readInstallationEvent_action hread
      obtain ⟨⟨row, n⟩, hrow, hlists⟩ := bind_eq_ok.1 hrest
      have hstatus := getInstallation_take hrow
      obtain ⟨⟨db₂, ids⟩, hids, hend⟩ := bind_eq_ok.1 hlists
      obtain ⟨rfl, -⟩ := Prod.mk.inj (Except.ok.inj hend)
      obtain ⟨hbound, hmem⟩ := upsertEach_bound hids
      refine ⟨e, ids, [], hw, hread, htakes, ⟨_, _, .refl _, hbound, .nil _ _⟩,
        fun hclosed => ⟨?_, rfl⟩, fun _ => ⟨rfl, fun x hx => ?_⟩, fun h' => absurd ht h'⟩
      · refine List.eq_nil_iff_forall_not_mem.2 fun x hx => ?_
        obtain ⟨a, ha, -⟩ := (hmem x).1 hx
        rw [if_neg (hstatus ▸ hclosed)] at ha
        exact absurd ha List.not_mem_nil
      · obtain ⟨a, ha, hnamed⟩ := (hmem x).1 hx
        obtain ⟨fields, f, rfl, hf, hx⟩ := namedBy_installationRepository_iff.1 hnamed
        split_ifs at ha with hactive
        · exact listed_of_mem_items ha hf hx
        · exact absurd ha List.not_mem_nil
    · obtain ⟨rfl, -⟩ := Prod.mk.inj (Except.ok.inj hrest)
      exact .inl (.refl _)

/-- The event `e` of an `installation_repositories` payload is taken, with the lists that
follow it, or the tables that decide access do not change. -/
structure SelectionEvent (rt : Runtime K) (w : WebhookRequest) (payload : Fields)
    (db db' : GitHubDb) (e : InstallationEvent) : Prop where
  action : text rt (payload.get "action") "action" = .ok e.action
  added_or_removed : e.action = "added" ∨ e.action = "removed"
  read : readInstallationEvent rt payload e.action = .ok e
  effect : ¬ Takes db e ∧ SameAccess db db' ∨
    ∃ added removed, WebhookTaken rt w payload db db' e added removed

/-- What `sync_installation_repositories_from_webhook` returns with, once its payload is read. -/
theorem syncInstallationRepositories_effect {i : ℕ} {status : InstallationStatus} {applied : Bool}
    (hw : w.payload = .obj payload) (ht : w.eventType ≠ "installation")
    (h : syncInstallationRepositoriesFromWebhook rt db payload = .ok (db', i, status, applied)) :
    ∃ e, SelectionEvent rt w payload db db' e := by
  unfold syncInstallationRepositoriesFromWebhook at h
  obtain ⟨_, -, h⟩ := bind_eq_ok.1 h
  obtain ⟨action, haction, h⟩ := bind_eq_ok.1 h
  obtain ⟨_, hknown, h⟩ := bind_eq_ok.1 h
  have hor : action = "added" ∨ action = "removed" := by
    by_contra hnot
    exact refuseIf_eq_ok.1 hknown (not_or.1 hnot)
  obtain ⟨_, -, h⟩ := bind_eq_ok.1 h
  obtain ⟨_, -, h⟩ := bind_eq_ok.1 h
  obtain ⟨_, -, h⟩ := bind_eq_ok.1 h
  obtain ⟨added, hadded, h⟩ := bind_eq_ok.1 h
  obtain ⟨removed, hremoved, h⟩ := bind_eq_ok.1 h
  obtain ⟨⟨db₁, i', applied'⟩, hup, h⟩ := bind_eq_ok.1 h
  obtain ⟨⟨row, n⟩, hrow, hrest⟩ := bind_eq_ok.1 h
  dsimp only at hup hrow hrest
  obtain ⟨e, hread, rfl, htaken⟩ := upsertInstallationFromWebhook_cases hup
  obtain rfl := readInstallationEvent_action hread
  refine ⟨e, haction, hor, hread, ?_⟩
  rcases htaken with ⟨rfl, htakes, rfl⟩ | ⟨rfl, htakes, rfl⟩
  · right
    have hstatus := getInstallation_take hrow
    rw [if_neg (show ¬ true = false by decide)] at hrest
    split_ifs at hrest with hclosed
    · obtain ⟨rfl, -⟩ := Prod.mk.inj (Except.ok.inj hrest)
      exact ⟨[], [], .of_nil hw hread htakes fun _ => hstatus ▸ hclosed⟩
    · obtain ⟨⟨db₂, ids⟩, hids, hrest⟩ := bind_eq_ok.1 hrest
      obtain ⟨⟨db₃, ids'⟩, hids', hend⟩ := bind_eq_ok.1 hrest
      obtain ⟨rfl, -⟩ := Prod.mk.inj (Except.ok.inj hend)
      obtain ⟨hbound, hmem⟩ := upsertEach_bound hids
      obtain ⟨hdeselected, hmem'⟩ := deselectEach_deselected hids'
      refine ⟨ids, ids', hw, hread, htakes, ⟨_, _, .refl _, hbound, hdeselected⟩,
        fun hclosed' => absurd (hstatus ▸ not_not.1 hclosed) hclosed', fun h' => absurd h' ht,
        fun _ _ => ⟨fun x => ?_, fun x => ?_⟩⟩
      · rw [hmem]
        exact exists_namedBy_iff hadded
      · rw [hmem']
        exact exists_namedBy_iff hremoved
  · left
    rw [if_pos rfl] at hrest
    split_ifs at hrest
    · obtain ⟨rfl, -⟩ := Prod.mk.inj (Except.ok.inj hrest)
      exact ⟨htakes, .refl _⟩
    · obtain ⟨rfl, -⟩ := Prod.mk.inj (Except.ok.inj hrest)
      exact ⟨htakes, .refl _⟩

theorem processInstallationRepositories_effect {outcome : String}
    (hw : w.payload = .obj payload) (ht : w.eventType ≠ "installation")
    (h : processInstallationRepositories rt db payload = .ok (db', outcome)) :
    ∃ e, SelectionEvent rt w payload db db' e := by
  unfold processInstallationRepositories at h
  obtain ⟨_, -, h⟩ := bind_eq_ok.1 h
  obtain ⟨_, -, h⟩ := bind_eq_ok.1 h
  obtain ⟨⟨db₂, i, status, applied⟩, hsync, h⟩ := bind_eq_ok.1 h
  obtain ⟨rfl, -⟩ := Prod.mk.inj (Except.ok.inj h)
  exact syncInstallationRepositories_effect hw ht hsync

theorem SameAccess.trans {db₁ db₂ : GitHubDb} (h : SameAccess db db₁) (h' : SameAccess db₁ db₂) :
    SameAccess db db₂ :=
  ⟨h'.installations.trans h.installations, h'.versions.trans h.versions,
    h'.repositories.trans h.repositories, h'.files.trans h.files⟩

/-- Taking an event reads and writes the tables that decide access alone. -/
theorem SameAccess.take {db₁ : GitHubDb} (h : SameAccess db db₁) (e : InstallationEvent) :
    SameAccess (takeInstallationEvent db e) (takeInstallationEvent db₁ e) where
  installations := by
    unfold takeInstallationEvent storeInstallation
    dsimp only
    rw [h.installations]
  versions := by
    have hobserve := observeInstallationEvent_eq db db₁ e h.versions
    unfold takeInstallationEvent
    dsimp only
    rw [hobserve]
  repositories := by
    have hclose := closeSelection_eq db db₁ e h.repositories
    unfold takeInstallationEvent
    dsimp only
    rw [hclose]
  files := h.files

/-- The effect of a webhook is one on the tables that decide access. -/
theorem WebhookTaken.of_sameAccess {db₀ db₃ : GitHubDb} {e : InstallationEvent} {added removed : List ℕ}
    (h : WebhookTaken rt w payload db₀ db₃ e added removed) (h₀ : SameAccess db db₀)
    (h₃ : SameAccess db₃ db') : WebhookTaken rt w payload db db' e added removed := by
  obtain ⟨hw, hread, htakes, ⟨db₁, db₂, h₁, hbound, hdeselected⟩, hclosed, hinst, hrepos⟩ := h
  refine ⟨hw, hread, ?_, ⟨db₁, db₂, (h₀.take e).trans h₁, hbound, ?_⟩, hclosed, hinst, hrepos⟩
  · unfold Takes at htakes ⊢
    rwa [h₀.installations, h₀.versions] at htakes
  · refine ⟨h₃.installations.trans hdeselected.installations,
      h₃.versions.trans hdeselected.versions, h₃.files.trans hdeselected.files,
      fun x hx => ?_, fun x hx => ?_⟩
    · rw [h₃.repositories, hdeselected.listed x hx]
    · rw [h₃.repositories, hdeselected.other x hx]

/-- The transaction of one delivery. -/
theorem processWebhook_effect {action : Option String} {outcome : String}
    (hw : w.payload = .obj payload) (h : processWebhook rt db w payload action = .ok (db', outcome)) :
    SameAccess db db' ∨ ∃ e added removed, WebhookTaken rt w payload db db' e added removed := by
  have hrecord : SameAccess db (recordWebhookDelivery db w.deliveryId).1 := ⟨rfl, rfl, rfl, rfl⟩
  unfold processWebhook at h
  obtain ⟨_, -, h⟩ := bind_eq_ok.1 h
  dsimp only at h
  split_ifs at h with hnew ht
  · obtain ⟨rfl, -⟩ := Prod.mk.inj (Except.ok.inj h)
    exact .inl hrecord
  · obtain ⟨⟨db₁, outcome₁⟩, hprocess, hend⟩ := bind_eq_ok.1 h
    obtain ⟨rfl, -⟩ := Prod.mk.inj (Except.ok.inj hend)
    rcases processInstallation_effect hw ht hprocess with hsame | ⟨e, added, removed, htaken⟩
    · exact .inl (hrecord.trans (hsame.trans ⟨rfl, rfl, rfl, rfl⟩))
    · exact .inr ⟨e, added, removed, htaken.of_sameAccess hrecord ⟨rfl, rfl, rfl, rfl⟩⟩
  · obtain ⟨⟨db₁, outcome₁⟩, hprocess, hend⟩ := bind_eq_ok.1 h
    obtain ⟨rfl, -⟩ := Prod.mk.inj (Except.ok.inj hend)
    obtain ⟨e, hevent⟩ := processInstallationRepositories_effect hw ht hprocess
    rcases hevent.effect with ⟨-, hsame⟩ | ⟨added, removed, htaken⟩
    · exact .inl (hrecord.trans (hsame.trans ⟨rfl, rfl, rfl, rfl⟩))
    · exact .inr ⟨e, added, removed, htaken.of_sameAccess hrecord ⟨rfl, rfl, rfl, rfl⟩⟩

/-- **What one delivery can do:** its event is taken, with the lists that follow it, or the
tables that decide access do not change. -/
theorem receiveGithubWebhook_effect {maximum : ℕ} {outcome : String}
    (h : receiveGithubWebhook rt maximum db w = .ok (db', outcome)) :
    SameAccess db db' ∨
      ∃ payload e added removed, WebhookTaken rt w payload db db' e added removed := by
  unfold receiveGithubWebhook at h
  obtain ⟨_, -, h⟩ := bind_eq_ok.1 h
  split_ifs at h with hevent
  · obtain ⟨rfl, -⟩ := Prod.mk.inj (Except.ok.inj h)
    exact .inl (.refl db)
  · split at h
    · rename_i payload hw
      obtain ⟨_, -, h⟩ := bind_eq_ok.1 h
      have hprocess : ∃ action, processWebhook rt db w payload action = .ok (db', outcome) := by
        split at h
        · exact ⟨_, h⟩
        · exact ⟨_, h⟩
        · cases h
      obtain ⟨action, hprocess⟩ := hprocess
      exact (processWebhook_effect hw hprocess).imp_right fun h => ⟨payload, h⟩
    · cases h

/-- Whether an event is taken is decided on the tables that decide access. -/
theorem SameAccess.takes_iff {e : InstallationEvent} (h : SameAccess db db') :
    Takes db' e ↔ Takes db e := by
  unfold Takes
  rw [h.installations, h.versions]

/-- **An `installation_repositories` delivery:** a duplicate changes nothing, and any other
has an event that is read from its payload. -/
theorem receiveInstallationRepositories_effect {maximum : ℕ} {outcome : String}
    (ht : w.eventType = "installation_repositories")
    (h : receiveGithubWebhook rt maximum db w = .ok (db', outcome)) :
    outcome = "duplicate" ∧ SameAccess db db' ∨
      ∃ payload e, w.payload = .obj payload ∧ SelectionEvent rt w payload db db' e := by
  have hne : w.eventType ≠ "installation" := by rw [ht]; decide
  unfold receiveGithubWebhook at h
  obtain ⟨_, -, h⟩ := bind_eq_ok.1 h
  rw [if_neg fun hnot => hnot.2 ht] at h
  split at h
  · rename_i payload hw
    obtain ⟨_, -, h⟩ := bind_eq_ok.1 h
    have hprocess : ∃ action, processWebhook rt db w payload action = .ok (db', outcome) := by
      split at h
      · exact ⟨_, h⟩
      · exact ⟨_, h⟩
      · cases h
    obtain ⟨action, hprocess⟩ := hprocess
    have hrecord : SameAccess db (recordWebhookDelivery db w.deliveryId).1 := ⟨rfl, rfl, rfl, rfl⟩
    unfold processWebhook at hprocess
    obtain ⟨_, -, hprocess⟩ := bind_eq_ok.1 hprocess
    dsimp only at hprocess
    split_ifs at hprocess with hnew
    · obtain ⟨rfl, rfl⟩ := Prod.mk.inj (Except.ok.inj hprocess)
      exact .inl ⟨rfl, hrecord⟩
    · obtain ⟨⟨db₁, outcome₁⟩, hrepositories, hend⟩ := bind_eq_ok.1 hprocess
      obtain ⟨rfl, -⟩ := Prod.mk.inj (Except.ok.inj hend)
      obtain ⟨e, haction, hor, hread, heffect⟩ :=
        processInstallationRepositories_effect hw hne hrepositories
      refine .inr ⟨payload, e, hw, haction, hor, hread, ?_⟩
      rcases heffect with ⟨htakes, hsame⟩ | ⟨added, removed, htaken⟩
      · exact .inl ⟨fun h => htakes (hrecord.takes_iff.2 h),
          hrecord.trans (hsame.trans ⟨rfl, rfl, rfl, rfl⟩)⟩
      · exact .inr ⟨added, removed, htaken.of_sameAccess hrecord ⟨rfl, rfl, rfl, rfl⟩⟩
  · cases h

end Effect

/-! ## Sync and snapshot -/

/-- `RepositoryMetadata`, what the client reads of a repository. -/
structure RepositoryMetadata where
  id : ℕ
  name : String
  fullName : String
  owner : String
  defaultBranch : String
  deriving DecidableEq, Repr

/-- `_metadata_payload`, the fields the store reads. -/
def metadataPayload (metadata : RepositoryMetadata) : Fields :=
  [("id", Json.int metadata.id),
    ("name", .str metadata.name),
    ("full_name", .str metadata.fullName),
    ("owner", .obj [("login", .str metadata.owner)]),
    ("default_branch", .str metadata.defaultBranch)]

/-- The metadata of a repository is stored under its identifier. -/
theorem repositoryId_of_metadataPayload {metadata : RepositoryMetadata} {f : RepositoryFields}
    (h : repositoryFields rt (metadataPayload metadata) = .ok f) : f.repositoryId = metadata.id := by
  unfold repositoryFields at h
  obtain ⟨_, -, h⟩ := bind_eq_ok.1 h
  obtain ⟨_, -, h⟩ := bind_eq_ok.1 h
  obtain ⟨_, -, h⟩ := bind_eq_ok.1 h
  obtain ⟨n, hn, h⟩ := bind_eq_ok.1 h
  obtain ⟨_, -, h⟩ := bind_eq_ok.1 h
  obtain rfl := Except.ok.inj h
  exact eq_of_integer_int rt hn

/-- What a route keeps of its first read while it asks GitHub. -/
inductive RemoteRead where
  /-- `sync_github_installation`: the installation and its `state_revision`. -/
  | sync (installationId stateRevision : ℕ)
  /-- `create_github_snapshot`: the repository and the installation it was bound to. -/
  | snapshot (repositoryId installationId : ℕ)
  deriving DecidableEq, Repr

/-- A request between its two database steps, or after both. -/
structure RemoteRequest where
  read : RemoteRead
  finished : Bool
  deriving DecidableEq, Repr

/-- The first step of `sync_github_installation`. -/
def beginSync (db : GitHubDb) (installationId : ℕ) : Except GitHubError RemoteRead := do
  refuseIf (installationId = 0) (.http 422 "invalid installation ID")
  let (installation, stateRevision) ← getInstallation db installationId
  refuseIf (installation.status ≠ .active)
    (.http 409 "GitHub installation is not a selected-repository read-only installation")
  return .sync installationId stateRevision

/-- The first step of `create_github_snapshot`. -/
def beginSnapshot (db : GitHubDb) (repositoryId : ℕ) : Except GitHubError RemoteRead := do
  refuseIf (repositoryId = 0) (.http 422 "invalid repository ID")
  let (repository, installationStatus) ← getRepository db repositoryId
  refuseIf (!repository.isSelected ∨ installationStatus ≠ .active)
    (.http 409 "repository is not selected in an active read-only installation")
  return .snapshot repositoryId repository.installationId

/-- What GitHub answered to a snapshot: the metadata, the branch and the tree. -/
structure RemoteSnapshot where
  metadata : RepositoryMetadata
  ref : String
  commitSha : String
  treeSha : String
  entries : List TreeEntry
  truncated : Bool

/-- `persist` of `create_github_snapshot`, for a repository that was bound to
`installationId` when the request began. -/
def persistSnapshot (db : GitHubDb) (freshId : String) (repositoryId installationId : ℕ)
    (remote : RemoteSnapshot) : Except GitHubError GitHubDb := do
  refuseIf (remote.metadata.id ≠ repositoryId)
    (.http 409 "GitHub repository identity changed; refusing to snapshot")
  let _ ← requireActiveSelectedRepository db repositoryId
  let (db, _) ← upsertRepository rt db installationId (metadataPayload remote.metadata)
  let (db, _) ← createSnapshot rt db freshId repositoryId remote.ref remote.commitSha
    remote.treeSha remote.entries remote.truncated
  return db

/-! ## Turns -/

/-- The store and the requests that have begun, by number. -/
structure GitHubState where
  db : GitHubDb
  requests : Table ℕ RemoteRequest

/-- Nothing connected and nothing asked. -/
def GitHubState.initial : GitHubState := ⟨.empty, .empty⟩

/-- One turn of the integration. -/
inductive GitHubTurn where
  | webhook (request : WebhookRequest)
  | syncBegin (installationId : ℕ)
  | syncPersist (ticket : ℕ) (repositories : List RepositoryMetadata)
  | snapshotBegin (repositoryId : ℕ)
  | snapshotPersist (ticket : ℕ) (freshId : String) (remote : RemoteSnapshot)

/-- A request begins, or is refused. -/
def GitHubState.begin (s : GitHubState) (read : Except GitHubError RemoteRead) : GitHubState :=
  match read with
  | .ok read => { s with requests := s.requests.push ⟨read, false⟩ }
  | .error _ => s

/-- A request ends; what it wrote is kept unless it raised. -/
def GitHubState.finish (s : GitHubState) (ticket : ℕ) (written : Except GitHubError GitHubDb) :
    GitHubState where
  db := written.toOption.getD s.db
  requests := s.requests.modify ticket fun r => { r with finished := true }

/-- The step function; `maximum` is `GITHUB_WEBHOOK_MAX_REPOSITORIES`. -/
def gitHubNext (maximum : ℕ) (s : GitHubState) : GitHubTurn → Option GitHubState
  | .webhook request =>
      some { s with db := ((receiveGithubWebhook rt maximum s.db request).toOption.map
        Prod.fst).getD s.db }
  | .syncBegin installationId => some (s.begin (beginSync s.db installationId))
  | .snapshotBegin repositoryId => some (s.begin (beginSnapshot s.db repositoryId))
  | .syncPersist ticket repositories =>
      match s.requests.find? ticket with
      | some ⟨.sync installationId stateRevision, false⟩ =>
          some (s.finish ticket ((replaceInstallationRepositories rt s.db installationId stateRevision
            (repositories.map metadataPayload)).map Prod.fst))
      | _ => none
  | .snapshotPersist ticket freshId remote =>
      match s.requests.find? ticket with
      | some ⟨.snapshot repositoryId installationId, false⟩ =>
          some (s.finish ticket (persistSnapshot rt s.db freshId repositoryId installationId remote))
      | _ => none

/-- The runs of the integration. -/
abbrev GitHubRun (maximum : ℕ) (h : List (Library.Transition GitHubState GitHubTurn)) (s : GitHubState) :
    Prop :=
  Library.Run (· = GitHubState.initial) (fun s l s' => gitHubNext rt maximum s l = some s') h s

end GitHub
end PulseGraph
