/-
# Selected repositories and stale reads

A sync and a snapshot read GitHub between two database steps and then write what they
read.  The sync compares the installation's revision with the one it began with; the
snapshot checks that its repository is selected and its installation active, but writes
the installation it read at the start without comparing it with the one the repository is
bound to now.

**Proved here.**  A selected repository's installation is active in every reachable state
(`selectedActive_of_run`), and no sync and no snapshot selects again what a webhook that was
applied after its first read deselected, as long as every snapshot finds its repository
still bound to the installation it read (`selection_of_run`).  `exists_undoes` is a run in
which a repository moves to another installation in between and the snapshot moves it back
to the one that had revoked it.
-/

import PulseGraph.GitHub.Webhooks

namespace PulseGraph
namespace GitHub

open Library (Json Run Table Transition bind_eq_ok replay)

variable {K : Type} {rt : Runtime K} {maximum : ℕ}

/-! ## What a taken webhook leaves -/

section Webhook

variable {w : WebhookRequest} {payload : Fields} {db db' : GitHubDb} {e : InstallationEvent}
  {added removed : List ℕ} {i x : ℕ}

theorem WebhookTaken.status_eq (h : WebhookTaken rt w payload db db' e added removed) (i : ℕ) :
    db'.status i = if i = e.installationId then some e.status else db.status i := by
  obtain ⟨db₁, db₂, h₁, hbound, hdeselected⟩ := h.effect
  rw [← status_takeInstallationEvent]
  unfold GitHubDb.status
  rw [hdeselected.installations, hbound.installations, h₁.installations]

theorem WebhookTaken.versions_eq (h : WebhookTaken rt w payload db db' e added removed) :
    db'.versions = (takeInstallationEvent db e).versions := by
  obtain ⟨db₁, db₂, h₁, hbound, hdeselected⟩ := h.effect
  rw [hdeselected.versions, hbound.versions, h₁.versions]

/-- A webhook leaves the revisions of the other installations alone. -/
theorem WebhookTaken.revision_of_ne (h : WebhookTaken rt w payload db db' e added removed)
    (hi : i ≠ e.installationId) : db'.revision i = db.revision i := by
  unfold GitHubDb.revision
  rw [h.versions_eq, versions_takeInstallationEvent_of_ne hi]

/-- A webhook of a known installation raises its revision. -/
theorem WebhookTaken.revision_eq (h : WebhookTaken rt w payload db db' e added removed)
    (hrow : db.status e.installationId ≠ none) :
    db'.revision e.installationId = db.revision e.installationId + 1 := by
  obtain ⟨row, hrow, -⟩ := Option.map_eq_some_iff.1 (Option.ne_none_iff_exists'.1 hrow).choose_spec
  have hversions := versions_takeInstallationEvent (h.takes row hrow).2.2
  conv_lhs => unfold GitHubDb.revision
  rw [h.versions_eq, hversions]
  rfl

/-- What a taken webhook can leave selected: what it lists as added, and what was selected
before; nothing of its own installation unless that is active. -/
theorem WebhookTaken.selected (h : WebhookTaken rt w payload db db' e added removed)
    (hx : db'.Selected x i) :
    (i = e.installationId → e.status = .active ∧ x ∉ removed) ∧
      (x ∈ added ∧ i = e.installationId ∨ x ∉ added ∧ db.Selected x i) := by
  obtain ⟨db₁, db₂, h₁, hbound, hdeselected⟩ := h.effect
  obtain ⟨row, hrow, rfl, hselected⟩ := hx
  -- the deselections of the list left this row alone
  have hlist : db₂.repositories.find? x = some row ∧
      (row.installationId = e.installationId → x ∉ removed) := by
    by_cases hmem : x ∈ removed
    · rw [hdeselected.listed x hmem] at hrow
      obtain ⟨r, hr, rfl⟩ := Option.map_eq_some_iff.1 hrow
      obtain ⟨heq, hne⟩ := Repository.deselect_eq_of_selected hselected
      rw [heq]
      exact ⟨hr, fun h => absurd h hne⟩
    · exact ⟨(hdeselected.other x hmem).symm.trans hrow, fun _ => hmem⟩
  by_cases hadded : x ∈ added
  · obtain ⟨row', hrow', hi, -⟩ := hbound.bound x hadded
    obtain rfl : row = row' := Option.some.inj (hlist.1.symm.trans hrow')
    refine ⟨fun h' => ⟨?_, hlist.2 h'⟩, .inl ⟨hadded, hi⟩⟩
    by_contra hclosed
    rw [(h.closed hclosed).1] at hadded
    exact absurd hadded List.not_mem_nil
  · have hfind := (hbound.other x hadded).symm.trans hlist.1
    rw [h₁.repositories, repositories_takeInstallationEvent] at hfind
    split_ifs at hfind with hactive
    · exact ⟨fun h' => ⟨hactive, hlist.2 h'⟩, .inr ⟨hadded, row, hfind, rfl, hselected⟩⟩
    · obtain ⟨r, hr, rfl⟩ := Option.map_eq_some_iff.1 hfind
      obtain ⟨heq, hne⟩ := Repository.deselect_eq_of_selected hselected
      rw [heq] at hselected ⊢
      exact ⟨fun h' => absurd h' hne, .inr ⟨hadded, r, hr, rfl, hselected⟩⟩

/-- A webhook deselects only repositories of its own installation. -/
theorem WebhookTaken.eq_of_deselected (h : WebhookTaken rt w payload db db' e added removed)
    (hx : db.Selected x i) {row : Repository} (hrow : db'.repositories.find? x = some row)
    (hi : row.installationId = i) (hoff : row.isSelected = false) : i = e.installationId := by
  by_contra hne
  obtain ⟨db₁, db₂, h₁, hbound, hdeselected⟩ := h.effect
  obtain ⟨row₀, hrow₀, hi₀, hon⟩ := hx
  have hkeep : row₀.deselect e.installationId = row₀ := if_neg (hi₀ ▸ hne)
  have hfind₁ : db₁.repositories.find? x = some row₀ := by
    rw [h₁.repositories, repositories_takeInstallationEvent, hrow₀, Option.map_some, hkeep]
    split_ifs <;> rfl
  -- the list of the webhook may bind the repository to its own installation, or leave it
  have hfind₂ : ∃ row₂, db₂.repositories.find? x = some row₂ ∧
      (row₂.installationId = e.installationId ∨ row₂ = row₀) := by
    by_cases hadded : x ∈ added
    · obtain ⟨row₂, hrow₂, hi₂, -⟩ := hbound.bound x hadded
      exact ⟨row₂, hrow₂, .inl hi₂⟩
    · exact ⟨row₀, (hbound.other x hadded).trans hfind₁, .inr rfl⟩
  obtain ⟨row₂, hrow₂, hcases⟩ := hfind₂
  have hrow' : row = row₂ ∨ row = row₂.deselect e.installationId := by
    by_cases hremoved : x ∈ removed
    · rw [hdeselected.listed x hremoved, hrow₂, Option.map_some] at hrow
      exact .inr (Option.some.inj hrow).symm
    · rw [hdeselected.other x hremoved, hrow₂] at hrow
      exact .inl (Option.some.inj hrow).symm
  have hi' : row.installationId = row₂.installationId := by
    rcases hrow' with rfl | rfl
    · rfl
    · exact Repository.installationId_deselect _ _
  rcases hcases with hi₂ | rfl
  · exact hne (hi ▸ hi'.trans hi₂)
  · rcases hrow' with rfl | rfl
    · exact absurd (hon.symm.trans hoff) (by decide)
    · rw [hkeep] at hoff
      exact absurd (hon.symm.trans hoff) (by decide)

end Webhook

/-! ## What a sync and a snapshot leave -/

section Persist

variable {db db' : GitHubDb} {i x : ℕ}

/-- What a sync can leave selected: what its list names, and the repositories of other
installations. -/
theorem selected_of_replace {expected j : ℕ} {repositories : List RepositoryMetadata} {ids : List ℕ}
    (h : replaceInstallationRepositories rt db i expected (repositories.map metadataPayload) =
      .ok (db', ids)) (hx : db'.Selected x j) :
    j = i ∧ (∃ m ∈ repositories, m.id = x) ∨ j ≠ i ∧ db.Selected x j := by
  obtain ⟨-, -, hbound, hids⟩ := replaceInstallationRepositories_eq_ok h
  obtain ⟨row, hrow, rfl, hselected⟩ := hx
  by_cases hmem : x ∈ ids
  · left
    obtain ⟨row', hrow', hi, -⟩ := hbound.bound x hmem
    obtain rfl : row = row' := Option.some.inj (hrow.symm.trans hrow')
    obtain ⟨a, ha, fields, f, hread, hf, rfl⟩ := (hids x).1 hmem
    obtain ⟨m, hm, rfl⟩ := List.mem_map.1 ha
    obtain rfl : metadataPayload m = fields := Except.ok.inj hread
    exact ⟨hi, m, hm, (repositoryId_of_metadataPayload rt hf).symm⟩
  · right
    rw [hbound.other x hmem] at hrow
    obtain ⟨r, hr, rfl⟩ := Option.map_eq_some_iff.1 ((Table.find?_update _).symm.trans hrow)
    obtain ⟨heq, hne⟩ := Repository.deselect_eq_of_selected hselected
    rw [heq] at hselected ⊢
    exact ⟨hne, r, hr, rfl, hselected⟩

/-- A snapshot changes no installation. -/
theorem persistSnapshot_eq_ok {freshId : String} {remote : RemoteSnapshot} {y : ℕ}
    (h : persistSnapshot rt db freshId y i remote = .ok db') :
    db'.installations = db.installations ∧ db'.versions = db.versions ∧
      db.status i = some .active ∧
      (∃ row, db.repositories.find? y = some row ∧ row.isSelected = true) ∧
      ∀ x j, db'.Selected x j → x = y ∧ j = i ∨ x ≠ y ∧ db.Selected x j := by
  unfold persistSnapshot at h
  obtain ⟨_, hid, h⟩ := bind_eq_ok.1 h
  obtain ⟨row, hrequire, h⟩ := bind_eq_ok.1 h
  obtain ⟨⟨db₁, y'⟩, hupsert, h⟩ := bind_eq_ok.1 h
  obtain ⟨⟨db₂, s⟩, hcreate, h⟩ := bind_eq_ok.1 h
  obtain rfl : db₂ = db' := Except.ok.inj h
  obtain ⟨hbound, f, hf, rfl⟩ := upsertRepository_bound hupsert
  obtain rfl : f.repositoryId = y :=
    (repositoryId_of_metadataPayload rt hf).trans (not_not.1 (refuseIf_eq_ok.1 hid))
  obtain ⟨hrow, hselected, -⟩ := requireActiveSelectedRepository_eq_ok hrequire
  obtain ⟨⟨row₁, hrow₁, -, hactive⟩, hinstallations, hversions, hrepositories⟩ :=
    createSnapshot_eq_ok hcreate
  obtain ⟨row₂, hrow₂, hi, -⟩ := hbound.bound _ (List.mem_singleton.2 rfl)
  obtain rfl : row₁ = row₂ := Option.some.inj (hrow₁.symm.trans hrow₂)
  refine ⟨hinstallations.trans hbound.installations, hversions.trans hbound.versions, ?_,
    ⟨row, hrow, hselected⟩, fun x j hx => ?_⟩
  · rw [← hactive, hi]
    unfold GitHubDb.status
    rw [hbound.installations]
  · obtain ⟨r, hr, rfl, hon⟩ := hx
    rw [hrepositories] at hr
    unfold seeCommit at hr
    rw [Table.find?_modify] at hr
    split_ifs at hr with hxy
    · rw [hrow₁] at hr
      obtain rfl := Option.some.inj hr
      exact .inl ⟨hxy, hi⟩
    · rw [hbound.other x fun h => hxy (List.mem_singleton.1 h)] at hr
      exact .inr ⟨hxy, r, hr, rfl, hon⟩

end Persist

/-! ## What a turn can do -/

section Turn

variable {s s' : GitHubState} {l : GitHubTurn} {i x : ℕ}

/-- What a turn does to the tables that decide access. -/
inductive Turned (rt : Runtime K) (s s' : GitHubState) : GitHubTurn → Prop
  | same {l : GitHubTurn} : SameAccess s.db s'.db → Turned rt s s' l
  | webhook {w : WebhookRequest} {payload : Fields} {e : InstallationEvent} {added removed : List ℕ} :
      WebhookTaken rt w payload s.db s'.db e added removed → Turned rt s s' (.webhook w)
  | sync {ticket i revision : ℕ} {repositories : List RepositoryMetadata} {ids : List ℕ} :
      s.requests.find? ticket = some ⟨.sync i revision, false⟩ →
      replaceInstallationRepositories rt s.db i revision (repositories.map metadataPayload) =
        .ok (s'.db, ids) →
      Turned rt s s' (.syncPersist ticket repositories)
  | snapshot {ticket x i : ℕ} {freshId : String} {remote : RemoteSnapshot} :
      s.requests.find? ticket = some ⟨.snapshot x i, false⟩ →
      persistSnapshot rt s.db freshId x i remote = .ok s'.db →
      Turned rt s s' (.snapshotPersist ticket freshId remote)

/-- Every turn is one of these. -/
theorem turned_of_next (h : gitHubNext rt maximum s l = some s') : Turned rt s s' l := by
  cases l with
  | webhook w =>
      obtain rfl := Option.some.inj h
      cases hw : receiveGithubWebhook rt maximum s.db w with
      | error e => exact .same (.refl _)
      | ok r =>
          obtain ⟨db', outcome⟩ := r
          rcases receiveGithubWebhook_effect hw with hsame | ⟨payload, e, added, removed, htaken⟩
          · exact .same hsame
          · exact .webhook htaken
  | syncBegin installationId =>
      obtain rfl := Option.some.inj h
      unfold GitHubState.begin
      split <;> exact .same (.refl _)
  | snapshotBegin repositoryId =>
      obtain rfl := Option.some.inj h
      unfold GitHubState.begin
      split <;> exact .same (.refl _)
  | syncPersist ticket repositories =>
      simp only [gitHubNext] at h
      split at h
      · rename_i i revision hticket
        obtain rfl := Option.some.inj h
        cases hr : replaceInstallationRepositories rt s.db i revision
            (repositories.map metadataPayload) with
        | error e => exact .same (.refl _)
        | ok r => exact .sync hticket hr
      · cases h
  | snapshotPersist ticket freshId remote =>
      simp only [gitHubNext] at h
      split at h
      · rename_i y i hticket
        obtain rfl := Option.some.inj h
        cases hr : persistSnapshot rt s.db freshId y i remote with
        | error e => exact .same (.refl _)
        | ok db' => exact .snapshot hticket hr
      · cases h

/-- What a turn can select under an installation. -/
inductive Selects (rt : Runtime K) (s : GitHubState) : GitHubTurn → ℕ → ℕ → Prop
  | webhook {w : WebhookRequest} {payload : Fields} {e : InstallationEvent} {x : ℕ} :
      w.payload = .obj payload → readInstallationEvent rt payload e.action = .ok e →
      Takes s.db e → e.status = .active →
      Listed rt payload
        (if w.eventType = "installation" then "repositories" else "repositories_added") x →
      Selects rt s (.webhook w) x e.installationId
  | sync {ticket i x : ℕ} {repositories : List RepositoryMetadata} :
      s.requests.find? ticket = some ⟨.sync i (s.db.revision i), false⟩ →
      (∃ m ∈ repositories, m.id = x) →
      Selects rt s (.syncPersist ticket repositories) x i
  | snapshot {ticket i x : ℕ} {freshId : String} {remote : RemoteSnapshot} {row : Repository} :
      s.requests.find? ticket = some ⟨.snapshot x i, false⟩ →
      s.db.repositories.find? x = some row → row.isSelected = true →
      Selects rt s (.snapshotPersist ticket freshId remote) x i

theorem SameAccess.selected {db db' : GitHubDb} (h : SameAccess db db') (hx : db'.Selected x i) :
    db.Selected x i := by
  unfold GitHubDb.Selected at hx ⊢
  rwa [h.repositories] at hx

/-- **What is selected after a turn** was selected before it, or the turn selects it. -/
theorem Turned.selected (h : Turned rt s s' l) (hx : s'.db.Selected x i) :
    s.db.Selected x i ∨ Selects rt s l x i := by
  cases h with
  | same hsame => exact .inl (hsame.selected hx)
  | webhook htaken =>
      rename_i w payload e added removed
      obtain ⟨hopen, ⟨hadded, rfl⟩ | ⟨-, hx⟩⟩ := htaken.selected hx
      · obtain ⟨hactive, hremoved⟩ := hopen rfl
        refine .inr (.webhook htaken.payload_eq htaken.read htaken.takes hactive ?_)
        split_ifs with ht
        · exact (htaken.installation ht).2 x hadded
        · exact ((htaken.repositories ht hactive).1 x).1 hadded
      · exact .inl hx
  | sync hticket hreplace =>
      rcases selected_of_replace hreplace hx with ⟨rfl, hlisted⟩ | ⟨-, hx⟩
      · obtain ⟨-, rfl, -⟩ := replaceInstallationRepositories_eq_ok hreplace
        exact .inr (.sync hticket hlisted)
      · exact .inl hx
  | snapshot hticket hpersist =>
      obtain ⟨-, -, -, ⟨row, hrow, hselected⟩, hall⟩ := persistSnapshot_eq_ok hpersist
      rcases hall x i hx with ⟨rfl, rfl⟩ | ⟨-, hx⟩
      · exact .inr (.snapshot hticket hrow hselected)
      · exact .inl hx

/-- Selected repositories belong to active installations. -/
def SelectedActive (db : GitHubDb) : Prop := ∀ x i, db.Selected x i → db.status i = some .active

/-- **Selected implies active** is kept by every turn. -/
theorem Turned.selectedActive (h : Turned rt s s' l) (hs : SelectedActive s.db) :
    SelectedActive s'.db := by
  intro x i hx
  cases h with
  | same hsame =>
      unfold GitHubDb.status
      rw [hsame.installations]
      exact hs x i (hsame.selected hx)
  | webhook htaken =>
      rename_i w payload e added removed
      obtain ⟨hopen, hcases⟩ := htaken.selected hx
      rw [htaken.status_eq]
      split_ifs with hi
      · rw [(hopen hi).1]
      · rcases hcases with ⟨-, hi'⟩ | ⟨-, hx⟩
        · exact absurd hi' hi
        · exact hs x i hx
  | sync hticket hreplace =>
      obtain ⟨hactive, -, hbound, -⟩ := replaceInstallationRepositories_eq_ok hreplace
      have hstatus : ∀ j, s'.db.status j = s.db.status j := by
        intro j
        unfold GitHubDb.status
        rw [hbound.installations]
        rfl
      rw [hstatus]
      rcases selected_of_replace hreplace hx with ⟨rfl, -⟩ | ⟨-, hx⟩
      · exact hactive
      · exact hs x i hx
  | snapshot hticket hpersist =>
      obtain ⟨hinstallations, -, hactive, -, hall⟩ := persistSnapshot_eq_ok hpersist
      unfold GitHubDb.status
      rw [hinstallations]
      rcases hall x i hx with ⟨rfl, rfl⟩ | ⟨-, hx⟩
      · exact hactive
      · exact hs x i hx

/-- Along a turn the revision of an installation only grows, and the installation stays. -/
theorem Turned.revision_le (h : Turned rt s s' l) (hknown : s.db.status i ≠ none) :
    s'.db.status i ≠ none ∧ s.db.revision i ≤ s'.db.revision i := by
  cases h with
  | same hsame =>
      unfold GitHubDb.status GitHubDb.revision at *
      rw [hsame.installations, hsame.versions]
      exact ⟨hknown, le_rfl⟩
  | webhook htaken =>
      rename_i w payload e added removed
      rw [htaken.status_eq]
      by_cases hi : i = e.installationId
      · subst hi
        rw [if_pos rfl, htaken.revision_eq hknown]
        exact ⟨by simp, Nat.le_succ _⟩
      · rw [if_neg hi, htaken.revision_of_ne hi]
        exact ⟨hknown, le_rfl⟩
  | sync hticket hreplace =>
      obtain ⟨-, -, hbound, -⟩ := replaceInstallationRepositories_eq_ok hreplace
      unfold GitHubDb.status GitHubDb.revision at *
      rw [hbound.installations, hbound.versions]
      exact ⟨hknown, le_rfl⟩
  | snapshot hticket hpersist =>
      obtain ⟨hinstallations, hversions, -⟩ := persistSnapshot_eq_ok hpersist
      unfold GitHubDb.status GitHubDb.revision at *
      rw [hinstallations, hversions]
      exact ⟨hknown, le_rfl⟩

/-- The requests after a turn: each is a request from before, or has just read the store. -/
structure RequestsKept (s s' : GitHubState) : Prop where
  kept : ∀ k r, s.requests.find? k = some r →
    ∃ r', s'.requests.find? k = some r' ∧ r'.read = r.read
  fresh : ∀ k r', s'.requests.find? k = some r' →
    (∃ r, s.requests.find? k = some r ∧ r'.read = r.read) ∨
      s'.db = s.db ∧ ∀ i revision, r'.read = .sync i revision →
        s.db.status i ≠ none ∧ revision = s.db.revision i

theorem RequestsKept.of_eq (h : s'.requests = s.requests) : RequestsKept s s' where
  kept _ r hr := ⟨r, h ▸ hr, rfl⟩
  fresh _ r' hr' := .inl ⟨r', h ▸ hr', rfl⟩

theorem requestsKept_begin {read : Except GitHubError RemoteRead}
    (h : ∀ i revision, read = .ok (.sync i revision) →
      s.db.status i ≠ none ∧ revision = s.db.revision i) : RequestsKept s (s.begin read) := by
  unfold GitHubState.begin
  cases read with
  | error e => exact .of_eq rfl
  | ok read =>
      refine ⟨fun k r hr => ⟨r, Table.find?_push_of_some hr, rfl⟩, fun k r' hr' => ?_⟩
      rw [Table.find?_push] at hr'
      split_ifs at hr'
      · obtain rfl := Option.some.inj hr'
        exact .inr ⟨rfl, fun i revision hi => h i revision (congrArg _ hi)⟩
      · exact .inl ⟨r', hr', rfl⟩

theorem requestsKept_finish {ticket : ℕ} {written : Except GitHubError GitHubDb} :
    RequestsKept s (s.finish ticket written) := by
  have hfind : ∀ k, (s.finish ticket written).requests.find? k = if k = ticket then
      (s.requests.find? ticket).map fun r => { r with finished := true }
      else s.requests.find? k := fun k => Table.find?_modify _
  refine ⟨fun k r hr => ?_, fun k r' hr' => .inl ?_⟩
  · rw [hfind]
    split_ifs with hk
    · exact ⟨{ r with finished := true }, by rw [← hk, hr]; rfl, rfl⟩
    · exact ⟨r, hr, rfl⟩
  · rw [hfind] at hr'
    split_ifs at hr' with hk
    · obtain ⟨r, hr, rfl⟩ := Option.map_eq_some_iff.1 hr'
      exact ⟨r, hk ▸ hr, rfl⟩
    · exact ⟨r', hr', rfl⟩

/-- A request keeps what it read first, and a new one read the state it found. -/
theorem requestsKept_of_next (h : gitHubNext rt maximum s l = some s') : RequestsKept s s' := by
  cases l with
  | webhook w =>
      obtain rfl := Option.some.inj h
      exact .of_eq rfl
  | syncBegin j =>
      obtain rfl := Option.some.inj h
      refine requestsKept_begin fun i revision hread => ?_
      unfold beginSync at hread
      obtain ⟨_, -, hread⟩ := bind_eq_ok.1 hread
      obtain ⟨⟨row, n⟩, hget, hread⟩ := bind_eq_ok.1 hread
      obtain ⟨_, -, hread⟩ := bind_eq_ok.1 hread
      obtain ⟨rfl, rfl⟩ := RemoteRead.sync.inj (Except.ok.inj hread)
      obtain ⟨hrow, hn⟩ := getInstallation_eq_ok hget
      unfold GitHubDb.status
      rw [hrow]
      exact ⟨by simp, hn⟩
  | snapshotBegin j =>
      obtain rfl := Option.some.inj h
      refine requestsKept_begin fun i revision hread => ?_
      unfold beginSnapshot at hread
      obtain ⟨_, -, hread⟩ := bind_eq_ok.1 hread
      obtain ⟨_, -, hread⟩ := bind_eq_ok.1 hread
      obtain ⟨_, -, hread⟩ := bind_eq_ok.1 hread
      cases Except.ok.inj hread
  | syncPersist ticket repositories =>
      simp only [gitHubNext] at h
      split at h
      · obtain rfl := Option.some.inj h
        exact requestsKept_finish
      · cases h
  | snapshotPersist ticket freshId remote =>
      simp only [gitHubNext] at h
      split at h
      · obtain rfl := Option.some.inj h
        exact requestsKept_finish
      · cases h

end Turn

/-! ## Every run -/

/-- The request whose second step a turn is. -/
def GitHubTurn.ticket : GitHubTurn → Option ℕ
  | .syncPersist ticket _ => some ticket
  | .snapshotPersist ticket _ _ => some ticket
  | _ => none

/-- A webhook deselects a repository of an installation. -/
structure Revokes (t : Transition GitHubState GitHubTurn) (x i : ℕ) : Prop where
  webhook : ∃ w, t.label = .webhook w
  before : t.source.db.Selected x i
  after : ∃ row, t.target.db.repositories.find? x = some row ∧ row.installationId = i ∧
    row.isSelected = false

/-- A sync or a snapshot `t` selects again what a webhook `r`, applied after its first read,
deselected. -/
def Undoes (t r : Transition GitHubState GitHubTurn) : Prop :=
  ∃ x i ticket, Revokes r x i ∧ t.label.ticket = some ticket ∧
    (r.source.requests.find? ticket).isSome ∧ ¬ t.source.db.Selected x i ∧ t.target.db.Selected x i

/-- A snapshot finds its repository still bound to the installation it read at the start. -/
def StillBound (t : Transition GitHubState GitHubTurn) : Prop :=
  ∀ ticket freshId remote x i finished row, t.label = .snapshotPersist ticket freshId remote →
    t.source.requests.find? ticket = some ⟨.snapshot x i, finished⟩ →
    t.source.db.repositories.find? x = some row → row.installationId = i

section Run

variable {h : List (Transition GitHubState GitHubTurn)} {s : GitHubState}

/-- **In every reachable state a selected repository's installation is active.** -/
theorem selectedActive_of_run (r : GitHubRun rt maximum h s) : SelectedActive s.db := by
  refine r.induct (I := fun _ s => SelectedActive s.db) (fun s hs => ?_)
    fun h s l s' _ hs hstep => (turned_of_next hstep).selectedActive hs
  subst hs
  rintro x i ⟨row, hrow, -⟩
  cases hrow

/-- What a run keeps about its requests: they stay with what they read, a sync read a
revision that its installation has reached, and every webhook that revoked something after
that left the installation's revision ahead of it. -/
structure RequestsSound (h : List (Transition GitHubState GitHubTurn)) (s : GitHubState) : Prop where
  kept : ∀ t ∈ h, ∀ k q, t.source.requests.find? k = some q →
    ∃ q', s.requests.find? k = some q' ∧ q'.read = q.read
  read : ∀ k q i revision, s.requests.find? k = some q → q.read = .sync i revision →
    s.db.status i ≠ none ∧ revision ≤ s.db.revision i
  overtaken : ∀ t ∈ h, ∀ x i, Revokes t x i → ∀ k q revision,
    t.source.requests.find? k = some q → q.read = .sync i revision → revision < s.db.revision i

/-- A webhook that revokes raises the revision of the installation it revokes from. -/
theorem Turned.revision_lt {s s' : GitHubState} {l : GitHubTurn} {x i : ℕ} (h : Turned rt s s' l)
    (hr : Revokes ⟨s, l, s'⟩ x i) (hknown : s.db.status i ≠ none) :
    s.db.revision i < s'.db.revision i := by
  obtain ⟨⟨w, hw⟩, hbefore, row, hrow, hi, hoff⟩ := hr
  cases h with
  | same hsame =>
      obtain ⟨row', hrow', -, hon⟩ := hbefore
      rw [← hsame.repositories] at hrow'
      obtain rfl : row = row' := Option.some.inj (hrow.symm.trans hrow')
      exact absurd (hon.symm.trans hoff) (by decide)
  | webhook htaken =>
      have hinstallation := htaken.eq_of_deselected hbefore hrow hi hoff
      subst hinstallation
      rw [htaken.revision_eq hknown]
      exact Nat.lt_succ_self _
  | sync => cases hw
  | snapshot => cases hw

theorem requestsSound_of_run (r : GitHubRun rt maximum h s) : RequestsSound h s := by
  refine r.induct (I := RequestsSound) (fun s hs => ?_) fun h s l s' _ ih hstep => ?_
  · subst hs
    refine ⟨fun t ht => absurd ht List.not_mem_nil, fun k q i revision hq => ?_,
      fun t ht => absurd ht List.not_mem_nil⟩
    cases hq
  · have hturn := turned_of_next hstep
    have hkept := requestsKept_of_next hstep
    -- whatever a request of the state before read, it is known and not ahead of its installation
    have hread : ∀ k q i revision, s.requests.find? k = some q → q.read = .sync i revision →
        s'.db.status i ≠ none ∧ revision ≤ s.db.revision i ∧ s.db.revision i ≤ s'.db.revision i := by
      intro k q i revision hq hsync
      obtain ⟨hknown, hle⟩ := ih.read k q i revision hq hsync
      obtain ⟨hknown', hle'⟩ := hturn.revision_le hknown
      exact ⟨hknown', hle, hle'⟩
    constructor
    · intro t ht k q hq
      rcases List.mem_cons.1 ht with rfl | ht
      · exact hkept.kept k q hq
      · obtain ⟨q₁, hq₁, h₁⟩ := ih.kept t ht k q hq
        obtain ⟨q₂, hq₂, h₂⟩ := hkept.kept k q₁ hq₁
        exact ⟨q₂, hq₂, h₂.trans h₁⟩
    · intro k q' i revision hq' hsync
      rcases hkept.fresh k q' hq' with ⟨q, hq, heq⟩ | ⟨hdb, hfresh⟩
      · obtain ⟨hknown, hle, hle'⟩ := hread k q i revision hq (heq ▸ hsync)
        exact ⟨hknown, hle.trans hle'⟩
      · obtain ⟨hknown, rfl⟩ := hfresh i revision hsync
        rw [hdb]
        exact ⟨hknown, le_rfl⟩
    · intro t ht x i hrevokes k q revision hq hsync
      rcases List.mem_cons.1 ht with rfl | ht
      · obtain ⟨hknown, hle⟩ := ih.read k q i revision hq hsync
        exact hle.trans_lt (hturn.revision_lt hrevokes hknown)
      · obtain ⟨q₁, hq₁, heq⟩ := ih.kept t ht k q hq
        obtain ⟨-, -, hle'⟩ := hread k q₁ i revision hq₁ (heq.trans hsync)
        exact (ih.overtaken t ht x i hrevokes k q revision hq hsync).trans_le hle'

/-- No turn undoes an older revocation, if the snapshots find their repositories bound. -/
theorem not_undoes {t r : Transition GitHubState GitHubTurn}
    (hnext : gitHubNext rt maximum t.source t.label = some t.target)
    (hsound : RequestsSound h t.source) (hr : r ∈ h) (hbound : StillBound t) : ¬ Undoes t r := by
  obtain ⟨s, l, s'⟩ := t
  rintro ⟨x, i, ticket, hrevokes, hticket, hbegun, hbefore, hafter⟩
  rcases (turned_of_next hnext).selected hafter with hx | hselects
  · exact hbefore hx
  · cases hselects with
    | webhook => cases hticket
    | sync hrequest hlisted =>
        obtain rfl := Option.some.inj hticket
        obtain ⟨q, hq⟩ := Option.isSome_iff_exists.1 hbegun
        obtain ⟨q', hq', heq⟩ := hsound.kept r hr _ q hq
        obtain rfl := Option.some.inj (hrequest.symm.trans hq')
        exact lt_irrefl _ (hsound.overtaken r hr x i hrevokes _ q _ hq heq.symm)
    | snapshot hrequest hrow hselected =>
        exact hbefore ⟨_, hrow, hbound _ _ _ _ _ _ _ rfl hrequest hrow, hselected⟩

/-- **Selected implies active, and what a webhook revoked stays revoked.**  In every run
every selected repository belongs to an active installation; and if every snapshot of the
run finds its repository still bound to the installation it read, then no sync and no
snapshot selects again what a webhook applied after its first read deselected. -/
theorem selection_of_run (r : GitHubRun rt maximum h s) :
    (∀ x i, s.db.Selected x i → s.db.status i = some .active) ∧
      ((∀ t ∈ h, StillBound t) → h.Pairwise fun t r => ¬ Undoes t r) := by
  refine ⟨selectedActive_of_run r, fun hbound => ?_⟩
  refine r.induct_of_forall (C := StillBound)
    (I := fun h _ => h.Pairwise fun t r => ¬ Undoes t r) hbound (fun _ _ => .nil)
    fun h s l s' run _ ih hstill hstep => List.pairwise_cons.2 ⟨fun q hq => ?_, ih⟩
  exact not_undoes hstep (requestsSound_of_run run) hq hstill

end Run

section Examples

/-- A repository of a payload. -/
def listedRepository (id : ℕ) (name : String) : Json :=
  .obj [("id", Json.int id), ("name", .str name), ("full_name", .str ("acme/" ++ name))]

/-- A signed `installation_repositories` event of a read-only installation. -/
def selectionWebhook (deliveryId action : String) (installation updatedAt : ℕ)
    (added removed : List Json) : WebhookRequest where
  deliveryId := deliveryId
  eventType := "installation_repositories"
  payload := .obj
    [("action", .str action),
      ("installation", .obj
        [("id", Json.int installation),
          ("account", .obj [("login", .str "acme"), ("type", .str "Organization")]),
          ("repository_selection", .str "selected"),
          ("permissions", .obj [("metadata", .str "read"), ("contents", .str "read")]),
          ("suspended_at", .null),
          ("updated_at", Json.int updatedAt)]),
      ("repository_selection", .str "selected"),
      ("repositories_added", .arr added),
      ("repositories_removed", .arr removed)]

/-- Which installation a repository is bound to, and whether it is selected. -/
def GitHubDb.binding (db : GitHubDb) (x : ℕ) : Option (ℕ × Bool) :=
  (db.repositories.find? x).map fun row => (row.installationId, row.isSelected)

theorem selected_of_binding {db : GitHubDb} {x i : ℕ} (h : db.binding x = some (i, true)) :
    db.Selected x i := by
  obtain ⟨row, hrow, heq⟩ := Option.map_eq_some_iff.1 h
  obtain ⟨rfl, hon⟩ := Prod.mk.inj heq
  exact ⟨row, hrow, rfl, hon⟩

theorem not_selected_of_binding {db : GitHubDb} {x i j : ℕ} {b : Bool}
    (h : db.binding x = some (j, b)) (hne : j ≠ i ∨ b = false) : ¬ db.Selected x i := by
  rintro ⟨row, hrow, hi, hon⟩
  obtain ⟨row', hrow', heq⟩ := Option.map_eq_some_iff.1 h
  obtain rfl : row = row' := Option.some.inj (hrow.symm.trans hrow')
  obtain ⟨rfl, rfl⟩ := Prod.mk.inj heq
  exact hne.elim (fun h => h hi) fun h => absurd (hon.symm.trans h) (by decide)

/-- The metadata of repository 7, and the tree a snapshot read. -/
def remoteOfSeven : RemoteSnapshot where
  metadata := ⟨7, "api", "acme/api", "acme", "main"⟩
  ref := "main"
  commitSha := "c0"
  treeSha := "t0"
  entries := []
  truncated := false

/-- Repository 7 moves from installation 1 to installation 2 while a snapshot reads GitHub. -/
def movedTurns : List GitHubTurn :=
  [.webhook (selectionWebhook "d1" "added" 1 1 [listedRepository 7 "api"] []),
    .snapshotBegin 7,
    .webhook (selectionWebhook "d2" "removed" 1 2 [] [listedRepository 7 "api"]),
    .webhook (selectionWebhook "d3" "added" 2 1 [listedRepository 7 "api"] []),
    .snapshotPersist 1 "s1" remoteOfSeven]

/-- Whether the turn is a webhook. -/
def GitHubTurn.isWebhook : GitHubTurn → Bool
  | .webhook _ => true
  | _ => false

/-- A request has begun before the webhook `r` takes repository 7 from installation 1. -/
def takesAway (ticket : ℕ) (r : Transition GitHubState GitHubTurn) : Bool :=
  r.label.isWebhook && (r.source.requests.find? ticket).isSome &&
    r.source.db.binding 7 == some (1, true) && r.target.db.binding 7 == some (1, false)

theorem revokes_of_takesAway {ticket : ℕ} {r : Transition GitHubState GitHubTurn}
    (h : takesAway ticket r = true) : Revokes r 7 1 ∧ (r.source.requests.find? ticket).isSome := by
  simp only [takesAway, Bool.and_eq_true, beq_iff_eq] at h
  obtain ⟨⟨⟨hwebhook, hbegun⟩, hbefore⟩, hafter⟩ := h
  have hlabel : ∃ w, r.label = .webhook w := by
    cases hl : r.label with
    | webhook w => exact ⟨w, rfl⟩
    | _ => rw [hl] at hwebhook; cases hwebhook
  obtain ⟨row, hrow, hbinding⟩ := Option.map_eq_some_iff.1 hafter
  obtain ⟨hi, hoff⟩ := Prod.mk.inj hbinding
  exact ⟨⟨hlabel, selected_of_binding hbefore, row, hrow, hi, hoff⟩, hbegun⟩

/-- The second step `t` of that request gives it back. -/
def givesBack (ticket : ℕ) (t r : Transition GitHubState GitHubTurn) : Bool :=
  takesAway ticket r && t.label.ticket == some ticket && t.source.db.binding 7 == some (2, true) &&
    t.target.db.binding 7 == some (1, true)

theorem undoes_of_givesBack {ticket : ℕ} {t r : Transition GitHubState GitHubTurn}
    (h : givesBack ticket t r = true) : Undoes t r := by
  simp only [givesBack, Bool.and_eq_true, beq_iff_eq] at h
  obtain ⟨⟨⟨haway, hticket⟩, htbefore⟩, htafter⟩ := h
  obtain ⟨hrevokes, hbegun⟩ := revokes_of_takesAway haway
  exact ⟨7, 1, ticket, hrevokes, hticket, hbegun, not_selected_of_binding htbefore (.inl (by decide)),
    selected_of_binding htafter⟩

/-- `StillBound`, computed. -/
def stillBound (t : Transition GitHubState GitHubTurn) : Bool :=
  match t.label.ticket.bind t.source.requests.find? with
  | some ⟨.snapshot x i, _⟩ =>
      (t.source.db.repositories.find? x).all fun row => row.installationId == i
  | _ => true

theorem stillBound_of_eq_true {t : Transition GitHubState GitHubTurn} (h : stillBound t = true) :
    StillBound t := by
  intro ticket freshId remote x i finished row hlabel hrequest hrow
  have hfind : t.label.ticket.bind t.source.requests.find? = some ⟨.snapshot x i, finished⟩ := by
    rw [hlabel]
    exact hrequest
  unfold stillBound at h
  rw [hfind] at h
  simpa [hrow] using h

/-- Repository 7 is removed while a snapshot of it and a sync that lists it read GitHub. -/
def revokedTurns : List GitHubTurn :=
  [.webhook (selectionWebhook "d1" "added" 1 1 [listedRepository 7 "api"] []),
    .snapshotBegin 7,
    .syncBegin 1,
    .webhook (selectionWebhook "d2" "removed" 1 2 [] [listedRepository 7 "api"]),
    .snapshotPersist 1 "s1" remoteOfSeven,
    .syncPersist 2 [remoteOfSeven.metadata]]

/-- The snapshot finds its repository where it was: the removal stays, whatever the two requests read
before it. -/
theorem selection_of_run_revoked : ∃ h s, GitHubRun Runtime.reference 100 h s ∧
    (∃ r ∈ h, Revokes r 7 1 ∧ (r.source.requests.find? 1).isSome ∧ (r.source.requests.find? 2).isSome) ∧
    h.map (·.label.ticket) = [some 2, some 1, none, none, none, none] ∧ s.db.binding 7 = some (1, false) ∧
    (∀ x i, s.db.Selected x i → s.db.status i = some .active) ∧ h.Pairwise fun t r => ¬ Undoes t r := by
  have hreplay : (replay (gitHubNext Runtime.reference 100) revokedTurns
      ([], GitHubState.initial)).map (fun r =>
        (r.2.db.binding 7, r.1.map (·.label.ticket),
          r.1.all stillBound && r.1.any fun t => takesAway 1 t && takesAway 2 t)) =
      some (some (1, false), [some 2, some 1, none, none, none, none], true) := by
    decide +kernel
  obtain ⟨h, s, r, heq⟩ :=
    @Run.exists_of_replay _ _ (· = GitHubState.initial) _ _ _ _ _ _ rfl hreplay
  obtain ⟨hbinding, heq⟩ := Prod.mk.inj heq
  obtain ⟨htickets, hall⟩ := Prod.mk.inj heq
  obtain ⟨hstill, haway⟩ := (Bool.and_eq_true _ _).mp hall
  have hbound : ∀ t ∈ h, StillBound t := fun t ht =>
    stillBound_of_eq_true (List.all_eq_true.1 hstill t ht)
  obtain ⟨t, ht, haway⟩ := List.any_eq_true.1 haway
  obtain ⟨hfirst, hsecond⟩ := (Bool.and_eq_true _ _).mp haway
  obtain ⟨hrevokes, hbegun⟩ := revokes_of_takesAway hfirst
  exact ⟨h, s, r, ⟨t, ht, hrevokes, hbegun, (revokes_of_takesAway hsecond).2⟩, htickets, hbinding,
    (selection_of_run r).1, (selection_of_run r).2 hbound⟩

end Examples

/-- **A snapshot can undo a revocation:** installation 1 loses repository 7, installation 2
selects it, and the snapshot that had begun under installation 1 finds it selected in an
active installation and binds it to installation 1 again. -/
theorem exists_undoes : ∃ h s, GitHubRun Runtime.reference 100 h s ∧
    ¬ h.Pairwise fun t r => ¬ Undoes t r := by
  have hreplay : (replay (gitHubNext Runtime.reference 100) movedTurns
      ([], GitHubState.initial)).map (fun r => (r.1.head?.map fun t =>
        r.1.tail.any (givesBack 1 t)) == some true) = some true := by
    decide +kernel
  obtain ⟨h, s, r, heq⟩ :=
    @Run.exists_of_replay _ _ (· = GitHubState.initial) _ _ _ _ _ _ rfl hreplay
  refine ⟨h, s, r, fun hpairwise => ?_⟩
  cases h with
  | nil => cases heq
  | cons t h =>
      simp only [List.head?_cons, Option.map_some, List.tail_cons, beq_iff_eq, Option.some.injEq,
        List.any_eq_true] at heq
      obtain ⟨q, hq, hback⟩ := heq
      exact (List.pairwise_cons.1 hpairwise).1 q hq (undoes_of_givesBack hback)

end GitHub
end PulseGraph
