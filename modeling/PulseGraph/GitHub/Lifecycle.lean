/-
# The status of an installation does not follow its newest event

GitHub delivers webhooks out of order.  `_observe_installation_event` keeps the version
of the last event taken, so that "a newer provider timestamp wins", but before it is
asked the status itself turns events away: a deleted installation takes only deletions,
a suspended one only `suspend`, `unsuspend` and `deleted`.  What is turned away is not
recorded, not even its version, so an older `unsuspend` that arrives later finds nothing
newer in its way.

**Proved here.**  The installation is a latched register (`Holds.applyInstallationEvent`),
so the library says which sets of events end at one status in every order and which do
not: `statusSettles_iff`.  `not_statusSettles` is a set of three ordinary events that does
not: a suspension, an `unsuspend`, and the newest, which reports a write permission.
-/

import PulseGraph.GitHub.Store
import PulseGraph.Library.Latch
import Mathlib.Tactic.FinCases

namespace PulseGraph
namespace GitHub

open Library (Json Latch bind_eq_ok)

variable {K : Type} {rt : Runtime K}

/-- A webhook whose payload `upsert_installation_from_webhook` accepts. -/
structure LifecycleWebhook (rt : Runtime K) where
  payload : Fields
  action : String
  event : InstallationEvent
  accepted : readInstallationEvent rt payload action = .ok event

namespace LifecycleWebhook

/-- The version of the event a webhook carries. -/
def version (w : LifecycleWebhook rt) : ℤ ×ₗ ℕ := w.event.version

/-- The status the webhook's own payload yields. -/
def status (w : LifecycleWebhook rt) : InstallationStatus := w.event.status

/-- A payload that is accepted, as a webhook. -/
def of (payload : Fields) (action : String)
    (h : (readInstallationEvent rt payload action).toOption.isSome = true) : LifecycleWebhook rt where
  payload := payload
  action := action
  event := (readInstallationEvent rt payload action).toOption.get h
  accepted := by
    revert h
    cases readInstallationEvent rt payload action with
    | error e => intro h; cases h
    | ok e => intro _; rfl

end LifecycleWebhook

/-- The webhooks are delivered one after the other. -/
def deliverAll (rt : Runtime K) (db : GitHubDb) (l : List (LifecycleWebhook rt)) :
    Except GitHubError GitHubDb :=
  l.foldlM (fun db w => do
    let (db, _) ← upsertInstallationFromWebhook rt db w.payload w.action
    return db) db

/-- A delivery of accepted webhooks never raises. -/
theorem deliverAll_eq (db : GitHubDb) (l : List (LifecycleWebhook rt)) :
    deliverAll rt db l = .ok (l.foldl (fun db w => (applyInstallationEvent db w.event).1) db) := by
  unfold deliverAll
  induction l generalizing db with
  | nil => rfl
  | cons w l ih =>
      rw [List.foldlM_cons, List.foldl_cons, ← ih]
      unfold upsertInstallationFromWebhook
      rw [w.accepted]
      rfl

/-! ## The installation as a latched register -/

/-- Suspended is locked, with `suspend` and `unsuspend` for keys; deleted is final. -/
def installationLatch (rt : Runtime K) :
    Latch (LifecycleWebhook rt) (ℤ ×ₗ ℕ) InstallationStatus where
  version := LifecycleWebhook.version
  value := LifecycleWebhook.status
  key w := w.event.action ∈ ["suspend", "unsuspend"]
  locked := .suspended
  final := .deleted

/-- A `suspend`, `unsuspend` or `deleted` event: one a suspension never turns away. -/
def Ungated (w : LifecycleWebhook rt) : Prop :=
  w.event.action ∈ ["suspend", "unsuspend", "deleted"]

instance (w : LifecycleWebhook rt) : Decidable (Ungated w) := inferInstanceAs (Decidable (_ ∈ _))

theorem status_eq_deleted_iff {w : LifecycleWebhook rt} :
    w.status = .deleted ↔ w.event.action = "deleted" := installationStatus_eq_deleted_iff

theorem passes_iff {w : LifecycleWebhook rt} : (installationLatch rt).Passes w ↔ Ungated w := by
  unfold Latch.Passes Ungated
  rw [show (installationLatch rt).value w = (installationLatch rt).final ↔
    w.event.action = "deleted" from status_eq_deleted_iff]
  simp only [installationLatch, decide_eq_true_eq, List.mem_cons, List.not_mem_nil, or_false, or_assoc]

/-- What is stored of an installation is the last event taken. -/
def Holds (db : GitHubDb) (installationId : ℕ) : Option (LifecycleWebhook rt) → Prop
  | none => db.installations.find? installationId = none ∧ db.versions.find? installationId = none
  | some w => db.status installationId = some w.status ∧ db.version installationId = some w.version

/-- What a taken event leaves of its installation. -/
theorem holds_takeInstallationEvent {db : GitHubDb} {w : LifecycleWebhook rt}
    (h : ∀ v, db.versions.find? w.event.installationId = some v → v.version < w.event.version) :
    Holds (takeInstallationEvent db w.event) w.event.installationId (some w) := by
  constructor
  · rw [status_takeInstallationEvent, if_pos rfl]
    rfl
  · unfold GitHubDb.version
    rw [versions_takeInstallationEvent h]
    rfl

/-- **The store is a latched register:** one webhook does to what is stored of its
installation what one offer does to the register. -/
theorem Holds.applyInstallationEvent {db : GitHubDb} {installationId : ℕ}
    {held : Option (LifecycleWebhook rt)} {w : LifecycleWebhook rt} (h : Holds db installationId held)
    (hw : w.event.installationId = installationId) :
    Holds (applyInstallationEvent db w.event).1 installationId
      ((installationLatch rt).offer held w) := by
  classical
  subst hw
  rw [applyInstallationEvent_eq]
  cases held with
  | none =>
      have htakes : Takes db w.event := fun row hrow => absurd (h.1.symm.trans hrow) (by simp)
      rw [if_pos htakes, Latch.offer_none]
      exact holds_takeInstallationEvent fun v hv => absurd (h.2.symm.trans hv) (by simp)
  | some last =>
      obtain ⟨row, hrow, hstatus⟩ := Option.map_eq_some_iff.1 h.1
      obtain ⟨v, hv, hversion⟩ := Option.map_eq_some_iff.1 h.2
      have hiff : Takes db w.event ↔
          (installationLatch rt).Admits last w ∧ last.version < w.version := by
        have hpasses := passes_iff (w := w)
        unfold Takes Latch.Admits
        simp only [hrow, hv, Option.some.injEq, forall_eq', hstatus, hversion]
        rw [show (installationLatch rt).value last = last.status from rfl,
          show (installationLatch rt).value w = w.status from rfl, and_assoc]
        refine and_congr (imp_congr_right fun _ => status_eq_deleted_iff.symm) ?_
        exact and_congr (imp_congr_right fun _ => hpasses.symm) Iff.rfl
      by_cases htakes : Takes db w.event
      · obtain ⟨hadmits, hlt⟩ := hiff.1 htakes
        rw [if_pos htakes, Latch.offer_of_taken hadmits hlt]
        exact holds_takeInstallationEvent (htakes row hrow).2.2
      · rw [if_neg htakes, Latch.offer_of_not fun ht => htakes (hiff.2 ht)]
        exact h

/-- A whole delivery does to what is stored what the offers do to the register. -/
theorem holds_deliverAll {db : GitHubDb} {installationId : ℕ} {l : List (LifecycleWebhook rt)}
    (h : Holds db installationId (none : Option (LifecycleWebhook rt)))
    (hl : ∀ w ∈ l, w.event.installationId = installationId) :
    ∃ db', deliverAll rt db l = .ok db' ∧
      Holds db' installationId ((installationLatch rt).offerAll l) := by
  refine ⟨_, deliverAll_eq db l, ?_⟩
  unfold Latch.offerAll
  generalize (none : Option (LifecycleWebhook rt)) = held at h
  induction l generalizing db held with
  | nil => exact h
  | cons w l ih =>
      rw [List.foldl_cons, List.foldl_cons]
      exact ih (fun w hw => hl w (List.mem_cons_of_mem _ hw)) _
        (h.applyInstallationEvent (hl w List.mem_cons_self))

/-! ## Which sets of webhooks settle -/

/-- The delivery `l` leaves the installation at a status. -/
def EndsAt (db : GitHubDb) (installationId : ℕ) (l : List (LifecycleWebhook rt))
    (status : InstallationStatus) : Prop :=
  ∃ db', deliverAll rt db l = .ok db' ∧ db'.status installationId = some status

/-- Order-independent and deny-wins: every order of delivery, with any repeats, leads to
one stored status, and that is active only if the newest event's own payload is. -/
def StatusSettles (db : GitHubDb) (installationId : ℕ) (S : List (LifecycleWebhook rt)) : Prop :=
  ∃ status, (∀ l : List (LifecycleWebhook rt), (∀ w, w ∈ l ↔ w ∈ S) →
      EndsAt db installationId l status) ∧
    (status = .active →
      ∃ m ∈ S, (∀ w ∈ S, w.version ≤ m.version) ∧ m.status = .active)

/-- No status check can turn the newest event `m` of the set away for good: a deletion
is the newest if there is one; and an event no `suspend`, `unsuspend` or `deleted` is
newer than yields the status `m` yields, if it is a suspension itself or some
suspension of the set can be lifted. -/
structure NewestPrevails (S : List (LifecycleWebhook rt)) (m : LifecycleWebhook rt) : Prop where
  deletion : ∀ d ∈ S, d.event.action = "deleted" → m.event.action = "deleted"
  suspension : ∀ w ∈ S, (∀ u ∈ S, Ungated u → u.version ≤ w.version) →
    (w.status = .suspended ∨ ∃ s ∈ S, ∃ u ∈ S, s.status = .suspended ∧ Ungated u ∧
      u.status ≠ .suspended ∧ s.version < u.version) →
    w.status = m.status

theorem newestPrevails_iff {S : List (LifecycleWebhook rt)} {m : LifecycleWebhook rt} :
    NewestPrevails S m ↔ (installationLatch rt).Settled S m := by
  constructor
  · intro h
    refine ⟨fun d hd hdf => ?_, fun w hw hlate hw' => ?_⟩
    · exact status_eq_deleted_iff.2 (h.deletion d hd (status_eq_deleted_iff.1 hdf))
    · refine h.suspension w hw (fun u hu hp => hlate u hu (passes_iff.2 hp)) (hw'.imp_right ?_)
      rintro ⟨s, hs, u, hu, hlocked, hp, hopen, hlt⟩
      exact ⟨s, hs, u, hu, hlocked, passes_iff.1 hp, hopen, hlt⟩
  · intro h
    refine ⟨fun d hd hdf => ?_, fun w hw hlate hw' => ?_⟩
    · exact status_eq_deleted_iff.1 (h.final d hd (status_eq_deleted_iff.2 hdf))
    · refine h.late w hw (fun u hu hp => hlate u hu (passes_iff.1 hp)) (hw'.imp_right ?_)
      rintro ⟨s, hs, u, hu, hlocked, hp, hopen, hlt⟩
      exact ⟨s, hs, u, hu, hlocked, passes_iff.2 hp, hopen, hlt⟩

/-- **Exactly which sets of lifecycle webhooks settle.**  For webhooks of one
installation, not stored before, with pairwise distinct versions and `m` the newest:
every order of delivery ends at one status, active only if `m`'s payload is, exactly when
no status check can turn `m` away for good. -/
theorem statusSettles_iff {db : GitHubDb} {installationId : ℕ} {S : List (LifecycleWebhook rt)}
    {m : LifecycleWebhook rt} (hi : db.installations.find? installationId = none)
    (hv : db.versions.find? installationId = none)
    (hS : ∀ w ∈ S, w.event.installationId = installationId)
    (hinj : ∀ w ∈ S, ∀ w' ∈ S, w.version = w'.version → w = w') (hmS : m ∈ S)
    (hm : ∀ w ∈ S, w.version ≤ m.version) :
    StatusSettles db installationId S ↔ NewestPrevails S m := by
  classical
  rw [newestPrevails_iff]
  constructor
  · rintro ⟨status, hends, -⟩
    by_contra hns
    obtain ⟨l, hperm, h, heq, hne⟩ := Latch.exists_perm_value_ne hm hinj hmS hns
    -- the newest first, and nothing after it is taken
    have hfirst : (installationLatch rt).offerAll (m :: S) = some m :=
      Latch.foldl_offer_of_not fun w hw ht => absurd ht.2 (not_lt.2 (hm w hw))
    have hstatus : ∀ (l : List (LifecycleWebhook rt)) (w : LifecycleWebhook rt),
        (∀ w, w ∈ l ↔ w ∈ S) → (installationLatch rt).offerAll l = some w → w.status = status := by
      intro l w hl hw
      obtain ⟨db', hdb', hst⟩ := hends l hl
      obtain ⟨db'', hdb'', hholds⟩ := @holds_deliverAll _ rt db installationId l ⟨hi, hv⟩
        fun w hw => hS w ((hl w).1 hw)
      obtain rfl : db' = db'' := Except.ok.inj (hdb'.symm.trans hdb'')
      rw [hw] at hholds
      exact Option.some.inj (hholds.1.symm.trans hst)
    have hmem : ∀ w, w ∈ m :: S ↔ w ∈ S := by
      intro w
      rw [List.mem_cons]
      exact ⟨fun h => h.elim (fun h => h ▸ hmS) id, .inr⟩
    exact hne ((hstatus l h (fun w => hperm.mem_iff) heq).trans (hstatus _ m hmem hfirst).symm)
  · intro hs
    refine ⟨m.status, fun l hl => ?_, fun hactive => ⟨m, hmS, hm, hactive⟩⟩
    obtain ⟨h, heq, hvalue⟩ := Latch.value_offerAll hm hinj hmS hs hl
    obtain ⟨db', hdb', hholds⟩ := @holds_deliverAll _ rt db installationId l ⟨hi, hv⟩
      fun w hw => hS w ((hl w).1 hw)
    rw [heq] at hholds
    exact ⟨db', hdb', hholds.1.trans (congrArg some hvalue)⟩

section Examples

/-- The payload of an installation event with these permissions on the contents. -/
def lifecyclePayload (updatedAt : ℕ) (contents : String) (suspendedAt : Json) : Fields :=
  [("installation", .obj
    [("id", Json.int 9988),
      ("account", .obj [("login", .str "acme"), ("type", .str "Organization")]),
      ("repository_selection", .str "selected"),
      ("permissions", .obj [("metadata", .str "read"), ("contents", .str contents)]),
      ("suspended_at", suspendedAt),
      ("updated_at", Json.int updatedAt)])]

/-- The owner suspends the installation. -/
def suspendedByOwner : LifecycleWebhook Runtime.reference :=
  .of (lifecyclePayload 1 "read" (.str "2026-09-04T10:00:01Z")) "suspend" (by decide +kernel)

/-- The owner lifts the suspension. -/
def unsuspendedByOwner : LifecycleWebhook Runtime.reference :=
  .of (lifecyclePayload 2 "read" .null) "unsuspend" (by decide +kernel)

/-- The owner then accepts a permission to write. -/
def grantedWrite : LifecycleWebhook Runtime.reference :=
  .of (lifecyclePayload 3 "write" .null) "new_permissions_accepted" (by decide +kernel)

/-- A suspension that is lifted: either order ends with the installation active. -/
theorem statusSettles_unsuspended :
    StatusSettles GitHubDb.empty 9988 [suspendedByOwner, unsuspendedByOwner] :=
  (@statusSettles_iff _ _ GitHubDb.empty 9988 [suspendedByOwner, unsuspendedByOwner]
    unsuspendedByOwner rfl rfl (by decide +kernel) (by
      intro w hw w' hw' h
      fin_cases hw <;> fin_cases hw' <;>
        first | rfl | exact absurd h (by decide +kernel)) (by simp) (by decide +kernel)).2
    ⟨by decide +kernel, by
      intro w hw hlate _
      fin_cases hw
      · exact absurd (hlate unsuspendedByOwner (by simp) (by decide +kernel)) (by decide +kernel)
      · rfl⟩

end Examples

/-- **The newest event does not prevail:** the write permission arrives while the
installation is suspended, is turned away without a trace, and the older `unsuspend`
then makes the installation active. -/
theorem not_statusSettles :
    ∃ S : List (LifecycleWebhook Runtime.reference), ∃ m ∈ S,
      (∀ w ∈ S, w.event.installationId = 9988) ∧
      (∀ w ∈ S, ∀ w' ∈ S, w.version = w'.version → w = w') ∧
      (∀ w ∈ S, w.version ≤ m.version) ∧ m.status = .permissionMisconfigured ∧
      (∃ l : List (LifecycleWebhook Runtime.reference), (∀ w, w ∈ l ↔ w ∈ S) ∧
        EndsAt GitHubDb.empty 9988 l .active) ∧
      ¬ StatusSettles GitHubDb.empty 9988 S := by
  have hends : ∃ l : List (LifecycleWebhook Runtime.reference),
      (∀ w, w ∈ l ↔ w ∈ [suspendedByOwner, unsuspendedByOwner, grantedWrite]) ∧
        EndsAt GitHubDb.empty 9988 l .active := by
    refine ⟨[suspendedByOwner, grantedWrite, unsuspendedByOwner], fun w => ?_, _,
      deliverAll_eq _ _, by decide +kernel⟩
    simp only [List.mem_cons, List.not_mem_nil, or_false]
    exact or_congr_right or_comm
  refine ⟨[suspendedByOwner, unsuspendedByOwner, grantedWrite], grantedWrite, by simp,
    by decide +kernel, ?_, by decide +kernel, by decide +kernel, hends, ?_⟩
  · intro w hw w' hw' h
    fin_cases hw <;> fin_cases hw' <;> first | rfl | exact absurd h (by decide +kernel)
  · rintro ⟨status, hsettles, hactive⟩
    obtain ⟨l, hl, db', hdb', hst⟩ := hends
    obtain ⟨db'', hdb'', hst'⟩ := hsettles l hl
    obtain rfl : db' = db'' := Except.ok.inj (hdb'.symm.trans hdb'')
    obtain ⟨m, hmS, hm, hmactive⟩ := hactive (Option.some.inj (hst'.symm.trans hst))
    fin_cases hmS
    · exact absurd (hm grantedWrite (by simp)) (by decide +kernel)
    · exact absurd (hm grantedWrite (by simp)) (by decide +kernel)
    · exact absurd hmactive (by decide +kernel)

end GitHub
end PulseGraph
