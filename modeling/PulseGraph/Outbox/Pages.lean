/-
# What waits for PagerDuty

The rows of the queue that are for PagerDuty and no digests.  A row that is superseded
points at the row that takes its place, which may be superseded in turn: `Stands q k j`
follows these links from `k` to `j`.  A row that stands for a page and is none itself may
be sent only once the incident is resolved; `PageInvariant` says so of a queue,
`PageStep` what a turn may do to it, and `PageInvariant.step` that such a turn keeps it.
-/

import PulseGraph.Outbox.Deployment

namespace PulseGraph

open Library (Table)

variable {K : Type}

/-- The row is for PagerDuty, and no digest. -/
structure ForPagerDuty (r : OutboxRow) : Prop where
  channel : r.channel = .pagerduty
  no_digest : r.payload.digest = none

/-- The row `j` is the row `k`, or has taken its place. -/
inductive Stands (q : Table ℕ OutboxRow) : ℕ → ℕ → Prop
  | refl {k} : Stands q k k
  | link {k r m j} : q.find? k = some r → r.supersededBy = some m → Stands q m j → Stands q k j

/-- The row `j` stands for a page. -/
def Covers (db : Database K) (j : ℕ) : Prop :=
  ∃ k r, db.outbox.find? k = some r ∧ ForPagerDuty r ∧ r.action = .create ∧ Stands db.outbox k j

/-- The row is the newest one that waits for the incident on PagerDuty. -/
structure Newest (q : Table ℕ OutboxRow) (x : String) (j : ℕ) (r : OutboxRow) : Prop where
  find : q.find? j = some r
  waits : isPendingFor .pagerduty x r = true
  last : ∀ k' r', q.find? k' = some r' → isPendingFor .pagerduty x r' = true → k' ≤ j

/-- A row for PagerDuty and its handle name the row's own incident. -/
def NamesOwn (db : Database K) : Prop :=
  ∀ k r, db.outbox.find? k = some r → ForPagerDuty r →
    r.payload.incidentId = some r.incidentId ∧ ∀ e, r.externalRef = some e → e = r.incidentId

/-- The queue for PagerDuty, in order. -/
structure PageInvariant (db : Database K) : Prop where
  /-- a row and its handle name the row's own incident -/
  own : ∀ k r, db.outbox.find? k = some r → ForPagerDuty r →
    r.payload.incidentId = some r.incidentId ∧ ∀ e, r.externalRef = some e → e = r.incidentId
  /-- a link leads to a row for the same incident -/
  links : ∀ k r m, db.outbox.find? k = some r → r.channel = .pagerduty → r.supersededBy = some m →
    ∃ r', db.outbox.find? m = some r' ∧ r'.channel = .pagerduty ∧ r'.incidentId = r.incidentId
  /-- a row that waits is not superseded -/
  unlinked : ∀ k r, db.outbox.find? k = some r → r.channel = .pagerduty → r.status = .pending →
    r.supersededBy = none
  /-- no row but a page stands for a page of an incident that is not resolved -/
  covered : ∀ j r, db.outbox.find? j = some r → r.channel = .pagerduty → r.status = .pending →
    r.action ≠ .create → Covers db j → Resolved db r.incidentId

/-- The row `r` is superseded: by the newest row that waits for its incident, which goes on
waiting, and is a page where `r` is one unless the incident is resolved. -/
structure Loses (db db' : Database K) (r r' : OutboxRow) : Prop where
  waited : r.status = .pending
  lost : r'.status ≠ .pending
  winner : ∃ j newest, r'.supersededBy = some j ∧ Newest db.outbox r.incidentId j newest ∧
    (db'.outbox.find? j).map (·.status) = some .pending ∧
    (r.action = .create → newest.action ≠ .create → Resolved db r.incidentId)
  resolved : ∀ x, Resolved db x → Resolved db' x

/-- What a turn may do to a row for PagerDuty: keep what it is about, get it a handle,
settle it, or have it superseded. -/
structure PageKept (db db' : Database K) (r r' : OutboxRow) : Prop where
  channel : r'.channel = r.channel
  incidentId : r'.incidentId = r.incidentId
  action : r'.action = r.action
  about : r'.payload.incidentId = r.payload.incidentId
  digest : r'.payload.digest = r.payload.digest
  waited : r'.status = .pending → r.status = .pending
  handle : ForPagerDuty r → ∀ e, r'.externalRef = some e → r.externalRef = some e ∨ e = r.incidentId
  link : r'.supersededBy = r.supersededBy ∨ Loses db db' r r'

/-- What a turn may do to the queue for PagerDuty. -/
structure PageStep (db db' : Database K) : Prop where
  kept : ∀ k r, db.outbox.find? k = some r → r.channel = .pagerduty →
    ∃ r', db'.outbox.find? k = some r' ∧ PageKept db db' r r'
  source : ∀ k r', db'.outbox.find? k = some r' → r'.channel = .pagerduty →
    (∃ r, db.outbox.find? k = some r ∧ r.channel = .pagerduty) ∨
      db.outbox.find? k = none ∧ r'.supersededBy = none ∧ r'.externalRef = none ∧
        (r'.payload.digest = none → r'.payload.incidentId = some r'.incidentId)
  resolved : ∀ j r, db.outbox.find? j = some r → r.channel = .pagerduty → r.status = .pending →
    r.action ≠ .create → Covers db j → Resolved db r.incidentId → Resolved db' r.incidentId

section Step

variable {db db' : Database K}

theorem pageInvariant_empty : PageInvariant (Database.empty : Database K) where
  own k r hr := by simp [Database.empty] at hr
  links k r m hr := by simp [Database.empty] at hr
  unlinked k r hr := by simp [Database.empty] at hr
  covered j r hr := by simp [Database.empty] at hr

/-- What stands for a row is for the same incident. -/
theorem PageInvariant.stands (hI : PageInvariant db) {k j : ℕ} {r : OutboxRow}
    (hs : Stands db.outbox k j) (hr : db.outbox.find? k = some r) (hc : r.channel = .pagerduty) :
    ∃ r', db.outbox.find? j = some r' ∧ r'.channel = .pagerduty ∧ r'.incidentId = r.incidentId := by
  induction hs generalizing r with
  | refl => exact ⟨r, hr, hc, rfl⟩
  | link hk hm _ ih =>
      obtain rfl := Option.some.inj (hk.symm.trans hr)
      obtain ⟨r₁, hr₁, hc₁, hx₁⟩ := hI.links _ _ _ hr hc hm
      obtain ⟨r₂, hr₂, hc₂, hx₂⟩ := ih hr₁ hc₁
      exact ⟨r₂, hr₂, hc₂, hx₂.trans hx₁⟩

/-- Where a row for PagerDuty comes from. -/
theorem PageStep.origin (h : PageStep db db') {k : ℕ} {r' : OutboxRow}
    (hr' : db'.outbox.find? k = some r') (hc : r'.channel = .pagerduty) :
    (∃ r, db.outbox.find? k = some r ∧ r.channel = .pagerduty ∧ PageKept db db' r r') ∨
      db.outbox.find? k = none ∧ r'.supersededBy = none ∧ r'.externalRef = none ∧
        (r'.payload.digest = none → r'.payload.incidentId = some r'.incidentId) := by
  refine (h.source k r' hr' hc).imp_left ?_
  rintro ⟨r, hr, hch⟩
  obtain ⟨r₁, hr₁, hkept⟩ := h.kept k r hr hch
  obtain rfl := Option.some.inj (hr₁.symm.trans hr')
  exact ⟨r, hr, hch, hkept⟩

/-- A row that waits after a turn is superseded by none. -/
theorem PageStep.unlinked (hI : PageInvariant db) (h : PageStep db db') {k : ℕ} {r' : OutboxRow}
    (hr' : db'.outbox.find? k = some r') (hc : r'.channel = .pagerduty)
    (hp : r'.status = .pending) : r'.supersededBy = none := by
  rcases h.origin hr' hc with ⟨r, hr, hch, hkept⟩ | ⟨-, hnone, -⟩
  · rcases hkept.link with hsame | hloses
    · rw [hsame]
      exact hI.unlinked k r hr hch (hkept.waited hp)
    · exact absurd hp hloses.lost
  · exact hnone

/-- Only a row itself stands for it when nothing supersedes it. -/
theorem Stands.eq_of_unlinked {q : Table ℕ OutboxRow} {k j : ℕ} {r : OutboxRow} (hs : Stands q k j)
    (hr : q.find? k = some r) (hn : r.supersededBy = none) : j = k := by
  cases hs with
  | refl => rfl
  | link hk hm _ =>
      obtain rfl := Option.some.inj (hk.symm.trans hr)
      rw [hn] at hm
      cases hm

/-- **How a row that waits comes to stand for another**: it did before the turn, or a row
that did is superseded by it now.  The induction is on the links after the turn; a row
that supersedes another one now waits, so the links end there. -/
theorem PageStep.stands (hI : PageInvariant db) (h : PageStep db db') {k j : ℕ}
    (hs : Stands db'.outbox k j) {r : OutboxRow} (hr : db.outbox.find? k = some r)
    (hc : r.channel = .pagerduty) : Stands db.outbox k j ∨ ∃ p rp newest, Stands db.outbox k p ∧
      db.outbox.find? p = some rp ∧ rp.channel = .pagerduty ∧ rp.status = .pending ∧
      Newest db.outbox rp.incidentId j newest ∧
      (rp.action = .create → newest.action ≠ .create → Resolved db rp.incidentId) ∧
      ∀ x, Resolved db x → Resolved db' x := by
  induction hs generalizing r with
  | refl => exact .inl .refl
  | @link k r' m j hk hm hrest ih =>
      obtain ⟨r₁, hr₁, hkept⟩ := h.kept k r hr hc
      obtain rfl := Option.some.inj (hr₁.symm.trans hk)
      rcases hkept.link with hsame | hloses
      · rw [hsame] at hm
        obtain ⟨rm, hrm, hcm, -⟩ := hI.links k r m hr hc hm
        rcases ih hrm hcm with hold | ⟨p, rp, newest, hp, hrest⟩
        · exact .inl (.link hr hm hold)
        · exact .inr ⟨p, rp, newest, .link hr hm hp, hrest⟩
      · obtain ⟨j₀, newest, hj₀, hnewest, hwaits, hpage⟩ := hloses.winner
        obtain rfl := Option.some.inj (hj₀.symm.trans hm)
        obtain ⟨rm', hrm', hpending⟩ := Option.map_eq_some_iff.1 hwaits
        obtain ⟨rm, hrm, hkeptm⟩ := h.kept j₀ newest hnewest.find (isPendingFor_iff.1 hnewest.waits).1
        obtain rfl := Option.some.inj (hrm'.symm.trans hrm)
        have hcm : rm'.channel = .pagerduty :=
          hkeptm.channel.trans (isPendingFor_iff.1 hnewest.waits).1
        obtain rfl := hrest.eq_of_unlinked hrm' (h.unlinked hI hrm' hcm hpending)
        exact .inr ⟨k, r, newest, .refl, hr, hc, hloses.waited, hnewest, hpage, hloses.resolved⟩

/-- **A turn that is a `PageStep` keeps the queue for PagerDuty in order.** -/
theorem PageInvariant.step (hI : PageInvariant db) (h : PageStep db db') : PageInvariant db' := by
  refine ⟨fun k r' hr' hpd => ?_, fun k r' m hr' hc hm => ?_, fun k r' hr' hc hp =>
    h.unlinked hI hr' hc hp, fun j r' hr' hc hp hact hcov => ?_⟩
  · rcases h.origin hr' hpd.channel with ⟨r, hr, hch, hkept⟩ | ⟨-, -, hnone, habout⟩
    · have hpd₀ : ForPagerDuty r := ⟨hch, hkept.digest ▸ hpd.no_digest⟩
      obtain ⟨habout, href⟩ := hI.own k r hr hpd₀
      rw [hkept.about, hkept.incidentId]
      exact ⟨habout, fun e he => (hkept.handle hpd₀ e he).elim (href e) id⟩
    · refine ⟨habout hpd.no_digest, fun e he => ?_⟩
      rw [hnone] at he
      cases he
  · rcases h.origin hr' hc with ⟨r, hr, hch, hkept⟩ | ⟨-, hnone, -⟩
    swap
    · rw [hnone] at hm
      cases hm
    -- the row the link leads to was there before the turn
    have htarget : ∃ rm, db.outbox.find? m = some rm ∧ rm.channel = .pagerduty ∧
        rm.incidentId = r.incidentId := by
      rcases hkept.link with hsame | hloses
      · exact hI.links k r m hr hch (hsame ▸ hm)
      · obtain ⟨j, newest, hj, hnewest, -⟩ := hloses.winner
        obtain rfl := Option.some.inj (hj.symm.trans hm)
        obtain ⟨hcn, -, hxn⟩ := isPendingFor_iff.1 hnewest.waits
        exact ⟨newest, hnewest.find, hcn, hxn⟩
    obtain ⟨rm, hrm, hcm, hxm⟩ := htarget
    obtain ⟨rm', hrm', hkeptm⟩ := h.kept m rm hrm hcm
    exact ⟨rm', hrm', hkeptm.channel.trans hcm,
      hkeptm.incidentId.trans (hxm.trans hkept.incidentId.symm)⟩
  · obtain ⟨k, rk', hrk', hpd, hcreate, hs⟩ := hcov
    rcases h.origin hrk' hpd.channel with ⟨rk, hrk, hck, hkeptk⟩ | ⟨-, hnone, -⟩
    swap
    · -- a new page stands for itself
      obtain rfl := hs.eq_of_unlinked hrk' hnone
      obtain rfl := Option.some.inj (hrk'.symm.trans hr')
      exact absurd hcreate hact
    have hpd₀ : ForPagerDuty rk := ⟨hck, hkeptk.digest ▸ hpd.no_digest⟩
    have hcovers : ∀ {p}, Stands db.outbox k p → Covers db p :=
      fun hp => ⟨k, rk, hrk, hpd₀, hkeptk.action ▸ hcreate, hp⟩
    rcases h.stands hI hs hrk hck with hold | ⟨p, rp, newest, hsp, hrp, hcp, hwaits, hnewest, hpage, hkeeps⟩
    · obtain ⟨r, hr, hch, -⟩ := hI.stands hold hrk hck
      obtain ⟨r₁, hr₁, hkept⟩ := h.kept j r hr hch
      obtain rfl := Option.some.inj (hr₁.symm.trans hr')
      rw [hkept.action] at hact
      have hwaited := hkept.waited hp
      rw [hkept.incidentId]
      exact h.resolved j r hr hch hwaited hact (hcovers hold)
        (hI.covered j r hr hch hwaited hact (hcovers hold))
    · obtain ⟨hcn, -, hxn⟩ := isPendingFor_iff.1 hnewest.waits
      obtain ⟨r₁, hr₁, hkept⟩ := h.kept j newest hnewest.find hcn
      obtain rfl := Option.some.inj (hr₁.symm.trans hr')
      rw [hkept.action] at hact
      rw [hkept.incidentId, hxn]
      refine hkeeps _ ?_
      by_cases hcr : rp.action = .create
      · exact hpage hcr hact
      · exact hI.covered p rp hrp hcp hwaits hcr (hcovers hsp)

end Step

end PulseGraph
