/-
# Removals and late deliveries

An `installation_repositories` webhook changes a selection only if its event is newer than
the version recorded for the installation, whichever repositories the recorded event was
about: a stale event is acknowledged and left to the next sync.  So a removal that arrives
after a newer event about another repository removes nothing.  A removal that is newer than
what is recorded when it arrives is applied, and no event at most as new as it changes the
selection afterwards, since its priority is the greatest that an event of a selection has.

**Proved here.**  After such a removal the repository is selected under that installation
only if a later turn selected it again: an event with a strictly newer timestamp that lists it
as added, or a sync that lists it (`exists_reselects`).  `not_removalsWin` is a run in which
the removal arrives too late.
-/

import PulseGraph.GitHub.Selection

namespace PulseGraph
namespace GitHub

open Library (Json Run Table Transition bind_eq_ok labels_of_replay replay toOption_any_eq_true
  toOption_eq_some)

variable {K : Type} {rt : Runtime K} {maximum : ℕ}

/-! ## The deliveries -/

/-- An `installation_repositories` webhook or a turn of a sync. -/
def GitHubTurn.OfSelection : GitHubTurn → Prop
  | .webhook w => w.eventType = "installation_repositories"
  | .syncBegin _ => True
  | .syncPersist _ _ => True
  | _ => False

/-- The turn delivers the `removed` event `e`, which lists repository `x`; it is accepted and
no duplicate. -/
def DeliversRemoval (rt : Runtime K) (maximum : ℕ) (t : Transition GitHubState GitHubTurn)
    (e : InstallationEvent) (x : ℕ) : Prop :=
  ∃ w payload db' outcome, t.label = .webhook w ∧ w.eventType = "installation_repositories" ∧
    receiveGithubWebhook rt maximum t.source.db w = .ok (db', outcome) ∧ outcome ≠ "duplicate" ∧
    w.payload = .obj payload ∧ e.action = "removed" ∧
    text rt (Fields.get payload "action") "action" = .ok e.action ∧
    readInstallationEvent rt payload e.action = .ok e ∧
    Listed rt payload "repositories_removed" x

/-- The event is newer than what is recorded for its installation. -/
def ProviderCurrent (db : GitHubDb) (e : InstallationEvent) : Prop :=
  ∀ v, db.versions.find? e.installationId = some v → v.version < e.version

/-- The turn delivers an event of the installation of `e`, strictly newer than `e` by its
timestamp, that lists `x` as added. -/
def AddsLater (rt : Runtime K) (t : Transition GitHubState GitHubTurn) (e : InstallationEvent)
    (x : ℕ) : Prop :=
  ∃ w payload e', t.label = .webhook w ∧ w.payload = .obj payload ∧
    text rt (Fields.get payload "action") "action" = .ok e'.action ∧
    readInstallationEvent rt payload e'.action = .ok e' ∧ e'.installationId = e.installationId ∧
    e.providerUpdatedAtUs < e'.providerUpdatedAtUs ∧ Listed rt payload "repositories_added" x

/-- The turn writes what a sync of the installation read, and that lists `x`. -/
def SyncsIn (t : Transition GitHubState GitHubTurn) (i x : ℕ) : Prop :=
  ∃ ticket repositories revision, t.label = .syncPersist ticket repositories ∧
    t.source.requests.find? ticket = some ⟨.sync i revision, false⟩ ∧ ∃ m ∈ repositories, m.id = x

/-! ## What stays of a removal -/

/-- What a removal leaves for good: its installation is closed to events of a selection, or
records a version at least as new. -/
def Outdated (db : GitHubDb) (e : InstallationEvent) : Prop :=
  db.status e.installationId = some .deleted ∨ db.status e.installationId = some .suspended ∨
    db.status e.installationId ≠ none ∧
      ∃ v, db.versions.find? e.installationId = some v ∧ e.version ≤ v.version

section Step

variable {db db' : GitHubDb} {e e' : InstallationEvent} {i x : ℕ}

/-- The priority of an event that leaves its installation active is at most a removal's. -/
theorem priority_le_of_active (hactive : e'.status = .active)
    (haction : e'.action = "added" ∨ e'.action = "removed") : e'.priority ≤ 70 := by
  obtain ⟨-, -, hselection, -⟩ := installationStatus_eq_active_iff.1 hactive
  unfold InstallationEvent.priority eventPriority
  rw [hselection]
  rcases haction with h | h <;> simp [h]

theorem le_priority_of_removed (h : e.action = "removed") : 70 ≤ e.priority := by
  unfold InstallationEvent.priority eventPriority
  rw [h]
  split_ifs <;> simp_all

/-- An event of a selection that is newer than a removal and leaves its installation active
has a newer timestamp. -/
theorem timestamp_lt_of_version_lt (he : e.action = "removed") (hactive : e'.status = .active)
    (haction : e'.action = "added" ∨ e'.action = "removed") (h : e.version < e'.version) :
    e.providerUpdatedAtUs < e'.providerUpdatedAtUs := by
  rcases (Prod.Lex.toLex_lt_toLex).1 h with hlt | ⟨-, hlt⟩
  · exact hlt
  · have hle := priority_le_of_active hactive haction
    have hge := le_priority_of_removed he
    dsimp only at hlt
    omega

theorem SameAccess.outdated (hsame : SameAccess db db') (h : Outdated db e) : Outdated db' e := by
  unfold Outdated GitHubDb.status at h ⊢
  rwa [hsame.installations, hsame.versions]

/-- A taken event of a selection finds its installation open. -/
theorem version_lt_of_takes (h : Outdated db e) (htakes : Takes db e')
    (hi : e'.installationId = e.installationId)
    (haction : e'.action = "added" ∨ e'.action = "removed") : e.version < e'.version := by
  have hrow : ∀ status, db.status e.installationId = some status →
      ∃ row, db.installations.find? e'.installationId = some row ∧ row.status = status := by
    intro status hstatus
    rw [hi]
    exact Option.map_eq_some_iff.1 hstatus
  rcases h with hdeleted | hsuspended | ⟨hknown, v, hv, hle⟩
  · obtain ⟨row, hfind, hstatus⟩ := hrow _ hdeleted
    have := (htakes row hfind).1 hstatus
    rcases haction with h | h <;> rw [h] at this <;> exact absurd this (by decide)
  · obtain ⟨row, hfind, hstatus⟩ := hrow _ hsuspended
    have := (htakes row hfind).2.1 hstatus
    rcases haction with h | h <;> rw [h] at this <;> exact absurd this (by decide)
  · obtain ⟨status, hstatus⟩ := Option.ne_none_iff_exists'.1 hknown
    obtain ⟨row, hfind, -⟩ := hrow _ hstatus
    exact hle.trans_lt ((htakes row hfind).2.2 v (hi ▸ hv))

variable {w : WebhookRequest} {payload : Fields} {added removed : List ℕ}

/-- The version a taken webhook records. -/
theorem WebhookTaken.version_eq (h : WebhookTaken rt w payload db db' e' added removed)
    (hlt : ∀ v, db.versions.find? e'.installationId = some v → v.version < e'.version) :
    ∃ v, db'.versions.find? e'.installationId = some v ∧ v.version = e'.version := by
  rw [h.versions_eq, versions_takeInstallationEvent hlt]
  exact ⟨_, rfl, rfl⟩

/-- A taken event of a selection leaves older removals outdated. -/
theorem WebhookTaken.outdated (h : WebhookTaken rt w payload db db' e' added removed)
    (hold : Outdated db e) (haction : e'.action = "added" ∨ e'.action = "removed") :
    Outdated db' e := by
  by_cases hi : e'.installationId = e.installationId
  · have hlt := version_lt_of_takes hold h.takes hi haction
    have hknown : db.status e'.installationId ≠ none := by
      rw [hi]
      rcases hold with h | h | h
      · simp [h]
      · simp [h]
      · exact h.1
    obtain ⟨status, hstatus⟩ := Option.ne_none_iff_exists'.1 hknown
    obtain ⟨row, hrow, -⟩ := Option.map_eq_some_iff.1 hstatus
    obtain ⟨v, hv, heq⟩ := h.version_eq (h.takes row hrow).2.2
    refine .inr (.inr ⟨?_, v, hi ▸ hv, heq ▸ hlt.le⟩)
    rw [h.status_eq, if_pos hi.symm]
    simp
  · unfold Outdated
    rw [h.status_eq, if_neg (Ne.symm hi), h.versions_eq,
      versions_takeInstallationEvent_of_ne (Ne.symm hi)]
    exact hold

end Step

/-! ## Every run -/

section Run

variable {s s' : GitHubState} {l : GitHubTurn} {e : InstallationEvent} {x : ℕ}

/-- **The removal itself:** it deselects the repository, and stays on record. -/
theorem removal_applies {t : Transition GitHubState GitHubTurn}
    (hnext : gitHubNext rt maximum t.source t.label = some t.target)
    (hactive : SelectedActive t.target.db) (ht : DeliversRemoval rt maximum t e x)
    (hcurrent : ProviderCurrent t.source.db e) :
    Outdated t.target.db e ∧ ¬ t.target.db.Selected x e.installationId := by
  obtain ⟨s, l, s'⟩ := t
  obtain ⟨w, payload, db', outcome, rfl, htype, hreceive, hfresh, hw, hremoved, haction, hread,
    hlisted⟩ := ht
  have hdb : s'.db = db' := by
    have hs : _ = s' := Option.some.inj hnext
    dsimp only at hreceive hs
    rw [← hs, hreceive]
    rfl
  rcases receiveInstallationRepositories_effect htype hreceive with ⟨h, -⟩ | ⟨payload', e', hw', h⟩
  · exact absurd h hfresh
  obtain rfl : payload = payload' := by simpa using hw.symm.trans hw'
  obtain ⟨haction', hor, hread', heffect⟩ := h
  obtain rfl : e = e' := by
    have heq : e.action = e'.action := Except.ok.inj (haction.symm.trans haction')
    rw [heq, hread'] at hread
    exact (Except.ok.inj hread).symm
  dsimp only at hcurrent hactive ⊢
  rw [hdb] at hactive ⊢
  rcases heffect with ⟨hnot, hsame⟩ | ⟨added, removed, htaken⟩
  · -- turned away although it is current: the installation is closed
    have hclosed : s.db.status e.installationId = some .deleted ∨
        s.db.status e.installationId = some .suspended := by
      by_contra hopen
      rw [not_or] at hopen
      refine hnot fun row hrow => ⟨fun h => absurd ?_ hopen.1, fun h => absurd ?_ hopen.2, hcurrent⟩
      · unfold GitHubDb.status; rw [hrow, ← h]; rfl
      · unfold GitHubDb.status; rw [hrow, ← h]; rfl
    have hout : Outdated db' e := hsame.outdated (hclosed.imp_right .inl)
    refine ⟨hout, fun hx => ?_⟩
    have hstatus := hactive x _ hx
    unfold GitHubDb.status at hstatus hclosed
    rw [hsame.installations] at hstatus
    rcases hclosed with h | h <;> rw [h] at hstatus <;> cases hstatus
  · obtain ⟨v, hv, heq⟩ := htaken.version_eq hcurrent
    refine ⟨.inr (.inr ⟨?_, v, hv, heq ▸ le_rfl⟩), fun hx => ?_⟩
    · rw [htaken.status_eq, if_pos rfl]
      simp
    · obtain ⟨hactive, hnot⟩ := (htaken.selected hx).1 rfl
      have hne : w.eventType ≠ "installation" := by rw [htype]; decide
      exact hnot (((htaken.repositories hne hactive).2 x).2 hlisted)

/-- **One later turn:** the removal stays on record, and what selects the repository again is
a newer event that adds it, or a sync that lists it. -/
theorem outdated_of_next (hnext : gitHubNext rt maximum s l = some s') (hl : l.OfSelection)
    (he : e.action = "removed") (hold : Outdated s.db e) :
    Outdated s'.db e ∧ (s'.db.Selected x e.installationId → s.db.Selected x e.installationId ∨
      AddsLater rt ⟨s, l, s'⟩ e x ∨ SyncsIn ⟨s, l, s'⟩ e.installationId x) := by
  cases l with
  | webhook w =>
      have htype : w.eventType = "installation_repositories" := hl
      obtain rfl := Option.some.inj hnext
      cases hw : receiveGithubWebhook rt maximum s.db w with
      | error _ => exact ⟨hold, .inl⟩
      | ok r =>
          obtain ⟨db', outcome⟩ := r
          rcases receiveInstallationRepositories_effect htype hw with ⟨-, h⟩ | ⟨payload, e', hp, h⟩
          · exact ⟨h.outdated hold, fun hx => .inl (h.selected hx)⟩
          · obtain ⟨haction, hor, hread, ⟨-, h⟩ | ⟨added, removed, htaken⟩⟩ := h
            · exact ⟨h.outdated hold, fun hx => .inl (h.selected hx)⟩
            · refine ⟨htaken.outdated hold hor, fun hx => ?_⟩
              obtain ⟨hopen, ⟨hadded, hi⟩ | ⟨-, h⟩⟩ := htaken.selected hx
              · obtain ⟨hactive, -⟩ := hopen hi
                have hne : w.eventType ≠ "installation" := by rw [htype]; decide
                have hlt := version_lt_of_takes hold htaken.takes hi.symm hor
                exact .inr (.inl ⟨w, payload, e', rfl, hp, haction, hread, hi.symm,
                  timestamp_lt_of_version_lt he hactive hor hlt,
                  ((htaken.repositories hne hactive).1 x).1 hadded⟩)
              · exact .inl h
  | syncBegin j =>
      obtain rfl := Option.some.inj hnext
      have hdb : (s.begin (beginSync s.db j)).db = s.db := by
        unfold GitHubState.begin
        split <;> rfl
      rw [hdb]
      exact ⟨hold, .inl⟩
  | syncPersist ticket repositories =>
      have hturn := turned_of_next hnext
      refine ⟨?_, fun hx => (hturn.selected hx).imp_right fun h => .inr ?_⟩
      · cases hturn with
        | same h => exact h.outdated hold
        | sync hrequest hreplace =>
            obtain ⟨-, -, hbound, -⟩ := replaceInstallationRepositories_eq_ok hreplace
            unfold Outdated GitHubDb.status at hold ⊢
            rw [hbound.installations, hbound.versions]
            exact hold
      · cases h with
        | sync hrequest hlisted => exact ⟨ticket, repositories, _, rfl, hrequest, hlisted⟩
  | snapshotBegin => exact hl.elim
  | snapshotPersist => exact hl.elim

/-- **A current removal wins.**  Whatever came before: if a `removed` event that lists a
repository is newer than what is recorded for its installation when it is delivered, and
`installation_repositories` webhooks and syncs follow in any order, then the repository is
selected under that installation at the end only if one of the turns that followed found it
deselected and selected it again: a webhook that carries a strictly newer event that lists it
as added, or a sync that lists it. -/
theorem exists_reselects {t : Transition GitHubState GitHubTurn}
    {later earlier : List (Transition GitHubState GitHubTurn)}
    (r : GitHubRun rt maximum (later ++ t :: earlier) s) (ht : DeliversRemoval rt maximum t e x)
    (hcurrent : ProviderCurrent t.source.db e) (hlater : ∀ u ∈ later, u.label.OfSelection)
    (hx : s.db.Selected x e.installationId) :
    ∃ u ∈ later, ¬ u.source.db.Selected x e.installationId ∧ u.target.db.Selected x e.installationId ∧
      (AddsLater rt u e x ∨ SyncsIn u e.installationId x) := by
  have he : e.action = "removed" := by
    obtain ⟨_, _, _, _, _, _, _, _, _, he, -⟩ := ht
    exact he
  suffices h : Outdated s.db e ∧ (s.db.Selected x e.installationId → ∃ u ∈ later,
      ¬ u.source.db.Selected x e.installationId ∧ u.target.db.Selected x e.installationId ∧
        (AddsLater rt u e x ∨ SyncsIn u e.installationId x)) from h.2 hx
  clear hx
  induction later generalizing s with
  | nil =>
      have hactive := selectedActive_of_run r
      obtain ⟨s, l, s'⟩ := t
      cases r with
      | next run hnext =>
          obtain ⟨hout, hnot⟩ := removal_applies hnext hactive ht hcurrent
          exact ⟨hout, fun h => absurd h hnot⟩
  | cons u later ih =>
      obtain ⟨s₁, l, s⟩ := u
      cases r with
      | next run hnext =>
          obtain ⟨hout, hex⟩ := ih run fun v hv => hlater v (List.mem_cons_of_mem _ hv)
          obtain ⟨hout', hstep⟩ := outdated_of_next hnext (hlater _ List.mem_cons_self) he hout
          refine ⟨hout', fun hx => ?_⟩
          -- the turn finds it selected, and an older one did it, or the turn does it
          by_cases hbefore : s₁.db.Selected x e.installationId
          · obtain ⟨v, hv, h⟩ := hex hbefore
            exact ⟨v, List.mem_cons_of_mem _ hv, h⟩
          · exact ⟨_, List.mem_cons_self, hbefore, hx, (hstep hx).resolve_left hbefore⟩

end Run

section Examples

/-- Whether a field of the payload lists the repository. -/
def lists (payload : Fields) (field : String) (x : ℕ) : Bool :=
  (items (payload.getOr field (.arr []))).any fun entry => match entry with
    | .obj fields =>
        (repositoryFields Runtime.reference fields).toOption.any fun f => f.repositoryId == x
    | _ => false

theorem lists_iff {payload : Fields} {field : String} :
    lists payload field x = true ↔ Listed Runtime.reference payload field x := by
  unfold lists
  rw [List.any_eq_true]
  constructor
  · rintro ⟨entry, hentry, h⟩
    cases entry with
    | obj fields =>
        obtain ⟨f, hf, hx⟩ := toOption_any_eq_true.1 h
        exact listed_of_mem_items hentry hf (beq_iff_eq.1 hx)
    | _ => cases h
  · rintro ⟨entries, fields, f, hentries, hmem, hf, hx⟩
    refine ⟨.obj fields, ?_, ?_⟩
    · rw [hentries]
      exact hmem
    · exact toOption_any_eq_true.2 ⟨f, hf, beq_iff_eq.2 hx⟩

/-- The event of a webhook. -/
def eventOf (w : WebhookRequest) : Option InstallationEvent :=
  match w.payload with
  | .obj payload =>
      (text Runtime.reference (Fields.get payload "action") "action").toOption.bind fun action =>
        (readInstallationEvent Runtime.reference payload action).toOption
  | _ => none

/-- Whether the webhook lists the repository in the field. -/
def webhookLists (w : WebhookRequest) (field : String) (x : ℕ) : Bool :=
  match w.payload with
  | .obj payload => lists payload field x
  | _ => false

/-- A webhook that adds a repository later is one whose event is newer and lists it. -/
theorem AddsLater.event {u : Transition GitHubState GitHubTurn} {w : WebhookRequest}
    (h : AddsLater Runtime.reference u e x) (hlabel : u.label = .webhook w) :
    webhookLists w "repositories_added" x = true ∧
      ∃ e', eventOf w = some e' ∧ e.providerUpdatedAtUs < e'.providerUpdatedAtUs := by
  obtain ⟨w', payload, e', hlabel', hw, haction, hread, -, hlt, hlisted⟩ := h
  obtain rfl : w = w' := by simpa using hlabel.symm.trans hlabel'
  unfold webhookLists eventOf
  rw [hw]
  refine ⟨lists_iff.2 hlisted, e', ?_, hlt⟩
  dsimp only
  rw [haction]
  dsimp only [Except.toOption, Option.bind]
  rw [hread]

/-- The webhook would be accepted, and is no duplicate. -/
def accepted (w : WebhookRequest) (t : Transition GitHubState GitHubTurn) : Bool :=
  (receiveGithubWebhook Runtime.reference 100 t.source.db w).toOption.any fun r => r.2 != "duplicate"

/-- The event of the webhook is newer than what is recorded. -/
def isCurrent (w : WebhookRequest) (t : Transition GitHubState GitHubTurn) : Bool :=
  (eventOf w).any fun e =>
    (t.source.db.versions.find? e.installationId).all fun v => decide (v.version < e.version)

/-- A removal that is delivered, computed. -/
theorem deliversRemoval_of_accepted {t : Transition GitHubState GitHubTurn} {w : WebhookRequest}
    (hlabel : t.label = .webhook w) (htype : w.eventType = "installation_repositories")
    (haccepted : accepted w t = true) (hevent : eventOf w = some e) (he : e.action = "removed")
    (hlists : webhookLists w "repositories_removed" x = true) :
    DeliversRemoval Runtime.reference 100 t e x := by
  obtain ⟨⟨db', outcome⟩, hw, hfresh⟩ := toOption_any_eq_true.1 haccepted
  unfold eventOf at hevent
  unfold webhookLists at hlists
  cases hp : w.payload with
  | obj payload =>
      rw [hp] at hevent hlists
      obtain ⟨action, haction, hread⟩ := Option.bind_eq_some_iff.1 hevent
      have haction' := toOption_eq_some.1 haction
      have hread' := toOption_eq_some.1 hread
      obtain rfl := readInstallationEvent_action hread'
      exact ⟨w, payload, db', outcome, hlabel, htype, hw, bne_iff_ne.1 hfresh, hp, he, haction', hread',
        lists_iff.1 hlists⟩
  | _ => rw [hp] at hlists; cases hlists

/-- The run of three turns. -/
theorem exists_run_of_three {next : GitHubState → GitHubTurn → Option GitHubState}
    {l₁ l₂ l₃ : GitHubTurn} {s₀ s : GitHubState} {h : List (Transition GitHubState GitHubTurn)}
    (hr : replay next [l₁, l₂, l₃] ([], s₀) = some (h, s)) :
    ∃ t₁ t₂ t₃, h = [t₃, t₂, t₁] ∧ t₁.label = l₁ ∧ t₂.label = l₂ ∧ t₃.label = l₃ := by
  have hlabels := labels_of_replay hr
  obtain ⟨t₃, h₂, rfl, h₃, hlabels⟩ := List.map_eq_cons_iff.1 hlabels
  obtain ⟨t₂, h₁, rfl, h₂, hlabels⟩ := List.map_eq_cons_iff.1 hlabels
  obtain ⟨t₁, h₀, rfl, h₁, hlabels⟩ := List.map_eq_cons_iff.1 hlabels
  obtain rfl := List.map_eq_nil_iff.1 hlabels
  exact ⟨t₁, t₂, t₃, rfl, h₁, h₂, h₃⟩

/-- Repository 7 is removed from installation 1, by an event of this timestamp. -/
def removesSeven (deliveryId : String) (updatedAt : ℕ) : WebhookRequest :=
  selectionWebhook deliveryId "removed" 1 updatedAt [] [listedRepository 7 "api"]

/-- A repository is added to installation 1, by an event of this timestamp. -/
def addsOne (deliveryId : String) (updatedAt id : ℕ) (name : String) : WebhookRequest :=
  selectionWebhook deliveryId "added" 1 updatedAt [listedRepository id name] []

/-- A removal, and a newer event that adds the repository again: that event is what the
theorem finds. -/
theorem exists_reselects_readded : ∃ h s, GitHubRun Runtime.reference 100 h s ∧
    s.db.Selected 7 1 ∧ ∃ t₁ t₂ t₃, h = [t₃, t₂, t₁] ∧
      ∃ e, DeliversRemoval Runtime.reference 100 t₂ e 7 ∧ ProviderCurrent t₂.source.db e ∧
        ∃ u ∈ [t₃], ¬ u.source.db.Selected 7 e.installationId ∧ u.target.db.Selected 7 e.installationId ∧
          (AddsLater Runtime.reference u e 7 ∨ SyncsIn u e.installationId 7) := by
  have hreplay : (replay (gitHubNext Runtime.reference 100)
      [.webhook (addsOne "d1" 1 7 "api"), .webhook (removesSeven "d2" 2), .webhook (addsOne "d3" 3 7 "api")]
      ([], GitHubState.initial)).map (fun r => (r.2.db.binding 7, r.1.map fun t =>
        accepted (removesSeven "d2" 2) t && isCurrent (removesSeven "d2" 2) t)) =
      some (some (1, true), [false, true, true]) := by
    decide +kernel
  obtain ⟨⟨h, s⟩, hr, heq⟩ := Option.map_eq_some_iff.1 hreplay
  obtain ⟨hbinding, hflags⟩ := Prod.mk.inj heq
  have run : GitHubRun Runtime.reference 100 h s := Run.of_replay (.start rfl) hr
  obtain ⟨t₁, t₂, t₃, rfl, -, h₂, h₃⟩ := exists_run_of_three hr
  obtain ⟨e, hevent, he, hi⟩ : ∃ e, eventOf (removesSeven "d2" 2) = some e ∧
      e.action = "removed" ∧ e.installationId = 1 := by
    have hsome : (eventOf (removesSeven "d2" 2)).map (fun e => (e.action, e.installationId)) =
        some ("removed", 1) := by decide +kernel
    obtain ⟨e, hevent, heq⟩ := Option.map_eq_some_iff.1 hsome
    exact ⟨e, hevent, (Prod.mk.inj heq).1, (Prod.mk.inj heq).2⟩
  simp only [List.map_cons, List.map_nil, List.cons.injEq, Bool.and_eq_true, and_true] at hflags
  obtain ⟨-, ⟨haccepted, hcurrent⟩, -⟩ := hflags
  have hdelivers : DeliversRemoval Runtime.reference 100 t₂ e 7 :=
    deliversRemoval_of_accepted h₂ rfl haccepted hevent he (by decide +kernel)
  have hnewer : ProviderCurrent t₂.source.db e := by
    intro v hv
    unfold isCurrent at hcurrent
    rw [hevent] at hcurrent
    simpa [hv] using hcurrent
  have hselected : s.db.Selected 7 e.installationId := hi ▸ selected_of_binding hbinding
  refine ⟨_, s, run, hi ▸ hselected, t₁, t₂, t₃, rfl, e, hdelivers, hnewer, ?_⟩
  refine @exists_reselects _ Runtime.reference 100 s e 7 t₂ [t₃] [t₁] run hdelivers hnewer ?_ hselected
  intro u hu
  rw [List.mem_singleton.1 hu, h₃]
  exact rfl

end Examples

/-- **A removal can arrive too late:** repositories 7 and 8 are added to installation 1 by
events of timestamps 1 and 3, and the removal of 7, of timestamp 2, comes last.  It is not
applied, and 7 stays selected although no event that adds it is newer. -/
theorem not_removalsWin : ∃ h s, GitHubRun Runtime.reference 100 h s ∧
    (∀ u ∈ h, u.label.OfSelection) ∧ ∃ t ∈ h, ∃ e,
      DeliversRemoval Runtime.reference 100 t e 7 ∧ s.db.Selected 7 e.installationId ∧
        ∀ u ∈ h, ¬ AddsLater Runtime.reference u e 7 ∧ ¬ SyncsIn u e.installationId 7 := by
  have hreplay : (replay (gitHubNext Runtime.reference 100)
      [.webhook (addsOne "d1" 1 7 "api"), .webhook (addsOne "d2" 3 8 "web"), .webhook (removesSeven "d3" 2)]
      ([], GitHubState.initial)).map (fun r => (r.2.db.binding 7, r.1.map
        (accepted (removesSeven "d3" 2)))) = some (some (1, true), [true, true, true]) := by
    decide +kernel
  obtain ⟨⟨h, s⟩, hr, heq⟩ := Option.map_eq_some_iff.1 hreplay
  obtain ⟨hbinding, hflags⟩ := Prod.mk.inj heq
  have run : GitHubRun Runtime.reference 100 h s := Run.of_replay (.start rfl) hr
  obtain ⟨t₁, t₂, t₃, rfl, h₁, h₂, h₃⟩ := exists_run_of_three hr
  obtain ⟨e, hevent, he, hi, hus⟩ : ∃ e, eventOf (removesSeven "d3" 2) = some e ∧
      e.action = "removed" ∧ e.installationId = 1 ∧ e.providerUpdatedAtUs = 2000000 := by
    have hsome : (eventOf (removesSeven "d3" 2)).map (fun e =>
        (e.action, e.installationId, e.providerUpdatedAtUs)) = some ("removed", 1, 2000000) := by
      decide +kernel
    obtain ⟨e, hevent, heq⟩ := Option.map_eq_some_iff.1 hsome
    simp only [Prod.mk.injEq] at heq
    exact ⟨e, hevent, heq⟩
  simp only [List.map_cons, List.cons.injEq] at hflags
  have hwebhook : ∀ u ∈ [t₃, t₂, t₁], ∃ w, u.label = .webhook w ∧
      w.eventType = "installation_repositories" ∧ (webhookLists w "repositories_added" 7 = false ∨
        (eventOf w).all fun e' => decide (e'.providerUpdatedAtUs ≤ 2000000)) := by
    intro u hu
    simp only [List.mem_cons, List.not_mem_nil, or_false] at hu
    rcases hu with rfl | rfl | rfl
    · exact ⟨_, h₃, rfl, .inl (by decide +kernel)⟩
    · exact ⟨_, h₂, rfl, .inl (by decide +kernel)⟩
    · exact ⟨_, h₁, rfl, .inr (by decide +kernel)⟩
  refine ⟨_, s, run, fun u hu => ?_, t₃, List.mem_cons_self, e,
    deliversRemoval_of_accepted h₃ rfl hflags.1 hevent he (by decide +kernel),
    hi ▸ selected_of_binding hbinding, fun u hu => ⟨fun hadds => ?_, ?_⟩⟩
  · obtain ⟨w, hlabel, htype, -⟩ := hwebhook u hu
    rw [hlabel]
    exact htype
  · obtain ⟨w, hlabel, -, hstale⟩ := hwebhook u hu
    obtain ⟨hlists, e', hevent', hlt⟩ := hadds.event hlabel
    rcases hstale with h | h
    · exact absurd (hlists.symm.trans h) (by decide)
    · rw [hevent', Option.all_some, decide_eq_true_eq] at h
      omega
  · rintro ⟨ticket, repositories, revision, hlabel, -⟩
    obtain ⟨w, hlabel', -⟩ := hwebhook u hu
    cases hlabel.symm.trans hlabel'

end GitHub
end PulseGraph
