/-
# When a storm's card reads as resolved

The card of a storm is that of its anchor.  What is sent for it is decided at dispatch
from the anchor's own state (`hydrate_payload`, `effective_action`), while the storm is
over only when every member is: `incident_groups.status` says so and is not asked.

**Proved here.**  `stormCard_iff` says for which rows, in which states, the card reads as
resolved exactly when the storm is, and `not_stormCard` has a storm whose card reads so
while a member is active.
-/

import PulseGraph.Outbox.Deployment

namespace PulseGraph

open Library (Table Transition)

variable {K : Type}

/-- The action dispatch sends for a row, as the row and the database stand. -/
def sentAction (db : Database K) (k : ℕ) (r : OutboxRow) : Action :=
  (prepareDispatch (claimedRow k r) db).action

/-- Every member of the storm is resolved. -/
def StormOver (db : Database K) (g : String) : Prop :=
  ∀ x i, db.member g x = some i → i.status = .RESOLVED

variable [Field K] [LinearOrder K] {rt : Runtime K} {s : Deployment K}
  {h : List (Transition (Deployment K) Turn)}

/-- **When the card of a storm tells the truth.**  For a row on the card of a storm, in
every reachable state: dispatch sends a `resolve` exactly when every member is resolved,
if and only if every member is resolved, or the anchor is not and the row is not queued
as a `resolve`.  This is so on every channel. -/
theorem stormCard_iff (hrun : DeploymentRun rt h s) {g : String} {group : IncidentGroup} {k : ℕ}
    {r : OutboxRow} (hg : s.db.incidentGroups.find? g = some group)
    (hr : s.db.outbox.find? k = some r) (hcard : r.incidentId = group.anchorIncidentId) :
    (sentAction s.db k r = .resolve ↔ StormOver s.db g) ↔
      StormOver s.db g ∨
        (s.db.incidents.find? group.anchorIncidentId).map (·.status) ≠ some .RESOLVED ∧
          r.action ≠ .resolve := by
  obtain ⟨i, hi⟩ := Option.isSome_iff_exists.1 (hrun.storms.shape g group hg).anchor
  have hfind := (member_eq_some.1 hi).1
  have hnamed := hrun.named
  have hd : r.payload.digest = none := by
    by_contra hdigest
    have hname := hnamed.digest k r hr (Option.ne_none_iff_isSome.1 hdigest)
    have hknown : Known s.db r.incidentId := by
      rw [Known, hcard, hfind]
      rfl
    rw [hnamed.incident _ hknown] at hname
    cases hname
  have hsent : sentAction s.db k r = .resolve ↔ i.status = .RESOLVED ∨ r.action = .resolve := by
    have hcopy : s.db.incidents.find? (claimedRow k r).incidentId = some i :=
      (congrArg s.db.incidents.find? hcard).trans hfind
    rw [sentAction, prepareDispatch_action hd hcopy]
    show (if i.status = .RESOLVED then Action.resolve else r.action) = .resolve ↔ _
    split_ifs with hres
    · exact iff_of_true rfl (.inl hres)
    · exact ⟨.inr, fun h => h.resolve_left hres⟩
  have hover : StormOver s.db g → i.status = .RESOLVED := fun h => h _ i hi
  rw [hsent, hfind, Option.map_some, ne_eq, Option.some_inj]
  tauto

/-- The storm of two services that alert together, with nothing sent yet: its anchor is active, and so
is the card. -/
theorem stormCard_iff_active : ∃ h s group r, DeploymentRun Runtime.reference h s ∧
    s.db.incidentGroups.find? "storm" = some group ∧ s.db.outbox.find? 1 = some r ∧
    (s.db.incidents.find? group.anchorIncidentId).map (·.status) = some .ACKNOWLEDGED ∧
    sentAction s.db 1 r = .create ∧ ¬ StormOver s.db "storm" := by
  have hreplay : (Library.replay (deploymentNext Runtime.reference) (stormRequests.map .request)
      ([], Deployment.initial)).map (fun s =>
        ((s.2.db.incidentGroups.find? "storm").map (·.anchorIncidentId),
          (s.2.db.outbox.find? 1).map fun r => (r.incidentId, r.action, sentAction s.2.db 1 r),
          (s.2.db.incidents.find? "A").map (·.status))) =
      some (some "A", some ("A", .create, .create), some .ACKNOWLEDGED) := by
    decide +kernel
  obtain ⟨h, s, hrun, heq⟩ := DeploymentRun.of_replay hreplay
  obtain ⟨hgroup, heq⟩ := Prod.mk.inj heq
  obtain ⟨hrow, hstatus⟩ := Prod.mk.inj heq
  obtain ⟨group, hg, hanchor⟩ := Option.map_eq_some_iff.1 hgroup
  obtain ⟨r, hr, hrow⟩ := Option.map_eq_some_iff.1 hrow
  obtain ⟨hcard, hrow⟩ := Prod.mk.inj hrow
  obtain ⟨hqueued, hsent⟩ := Prod.mk.inj hrow
  rw [← hanchor] at hstatus
  have hiff := (stormCard_iff hrun hg hr (hcard.trans hanchor.symm)).2
    (.inr ⟨by rw [hstatus]; decide, by rw [hqueued]; decide⟩)
  refine ⟨h, s, group, r, hrun, hg, hr, hstatus, hsent, fun hover => ?_⟩
  rw [hiff.2 hover] at hsent
  cases hsent

set_option synthInstance.maxSize 512 in
/-- **A card that reads as resolved too early**: the anchor of a storm of two is resolved,
and the other member is not. -/
theorem not_stormCard : ¬ ∀ h s g group k r, DeploymentRun Runtime.reference h s →
    s.db.incidentGroups.find? g = some group → 2 ≤ group.memberCount →
    s.db.outbox.find? k = some r → r.channel = .slack → r.payload.mergedInto = none →
    r.incidentId = group.anchorIncidentId →
    (sentAction s.db k r = .resolve ↔ StormOver s.db g) := by
  intro hclaim
  have hreplay : (Library.replay (deploymentNext Runtime.reference)
      ((stormRequests ++ [Request.external "R" 2000 (slackAction "click" .resolve "A")]).map .request)
      ([], Deployment.initial)).map (fun s =>
        ((s.2.db.incidentGroups.find? "storm").map fun g => (g.anchorIncidentId, g.memberCount),
          (s.2.db.outbox.find? 1).map fun r =>
            ((r.channel, r.payload.mergedInto, r.incidentId), sentAction s.2.db 1 r),
          (s.2.db.member "storm" "B").map (·.status))) =
      some (some ("A", 2), some ((.slack, none, "A"), .resolve), some .ACKNOWLEDGED) := by
    decide +kernel
  obtain ⟨h, s, hrun, heq⟩ := DeploymentRun.of_replay hreplay
  obtain ⟨hgroup, heq⟩ := Prod.mk.inj heq
  obtain ⟨hrow, hmember⟩ := Prod.mk.inj heq
  obtain ⟨group, hg, hgroup⟩ := Option.map_eq_some_iff.1 hgroup
  obtain ⟨hanchor, hcount⟩ := Prod.mk.inj hgroup
  obtain ⟨r, hr, hrow⟩ := Option.map_eq_some_iff.1 hrow
  obtain ⟨hfields, hsent⟩ := Prod.mk.inj hrow
  obtain ⟨hslack, hfields⟩ := Prod.mk.inj hfields
  obtain ⟨hmerged, hcard⟩ := Prod.mk.inj hfields
  obtain ⟨i, hi, hstatus⟩ := Option.map_eq_some_iff.1 hmember
  have hover := (hclaim h s "storm" group 1 r hrun hg hcount.ge hr hslack hmerged
    (hcard.trans hanchor.symm)).1 hsent
  rw [hover "B" i hi] at hstatus
  cases hstatus

end PulseGraph
