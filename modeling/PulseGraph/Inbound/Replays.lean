/-
# Replayed callbacks

`inbound_events`: "Providers retry deliveries, so the delivery id is the idempotency key:
replaying the same Slack click or PagerDuty webhook must not re-transition an incident or append
a second ledger entry."  `_apply` runs each action in a transaction of its own and rolls it back
when anything raises; the receipt is written in that transaction on every branch
(`applyExternalAction_receipt`).

**Proved here.**  From every database and for every sequence of callbacks, any of which may fail,
the callbacks whose id was committed earlier in the sequence may be deleted, and each of them
answers `duplicate` and leaves the database as it found it (`inbound_idempotent`).
-/

import PulseGraph.Engine.Effects
import PulseGraph.Library.Receipts

namespace PulseGraph

open Library (Receipts serveAll committedKeys withoutRepeats)

variable {K : Type} [Field K] [LinearOrder K] (rt : Runtime K)

/-- One callback: its action with the `uuid4` and the clock of its attempt, and whether the
transaction gets through, or is rolled back for a reason of its own. -/
structure Attempt where
  freshEventId : String
  now : ℤ
  action : ExternalAction
  getsThrough : Bool

/-- The delivery id of a callback. -/
def Attempt.inboundId (t : Attempt) : String := t.action.inboundId

/-- `_apply`: one reconciliation inside its own write transaction; the answer, if it commits. -/
def applyInbound (t : Attempt) (db : Database K) : Option ReconcileResult × Database K :=
  if t.getsThrough then
    match applyExternalAction rt t.freshEventId t.now t.action db with
    | .ok (result, db') => (some result, db')
    | .error _ => (none, db)
  else (none, db)

section Attempts

variable {rt} {db : Database K} {t : Attempt}

/-- What commits is an external action; what does not leaves the database alone. -/
theorem applyInbound_cases : (∃ result db', applyInbound rt t db = (some result, db') ∧
      applyExternalAction rt t.freshEventId t.now t.action db = .ok (result, db')) ∨
    applyInbound rt t db = (none, db) := by
  unfold applyInbound
  split_ifs
  · cases hr : applyExternalAction rt t.freshEventId t.now t.action db with
    | ok r => exact .inl ⟨r.1, r.2, rfl, rfl⟩
    | error e => exact .inr rfl
  · exact .inr rfl

/-- **A replay**: an action whose id was seen answers `duplicate` and changes nothing. -/
theorem applyExternalAction_replayed {freshEventId : String} {now : ℤ} {action : ExternalAction}
    (h : alreadySeen action.inboundId db = true) : applyExternalAction rt freshEventId now action db =
      .ok ({ status := .duplicate, incidentId := action.incidentId, detail := "replayed" }, db) := by
  unfold applyExternalAction
  rw [if_pos h]

/-- `inbound_events` are the receipts of the callbacks. -/
theorem inbound_receipts : Receipts (applyInbound rt) Attempt.inboundId
    (fun id (db : Database K) => alreadySeen id db = true) where
  kept id t db hseen := by
    rcases @applyInbound_cases _ _ _ rt db t with ⟨result, db', heq, ha⟩ | heq
    · rw [heq]
      exact applyExternalAction_seen ha hseen
    · rw [heq]
      exact hseen
  left t db hsome := by
    rcases @applyInbound_cases _ _ _ rt db t with ⟨result, db', heq, ha⟩ | heq
    · rw [heq]
      exact (applyExternalAction_seen_iff ha).2 (.inl rfl)
    · rw [heq] at hsome
      cases hsome
  repeats t db hseen := by
    unfold applyInbound
    split_ifs
    · rw [applyExternalAction_replayed hseen]
    · rfl

/-- **Inbound callbacks are idempotent**: a sequence leaves the database that it leaves without the
callbacks whose id was committed earlier in it; each of these leaves the database as it finds it,
and answers `duplicate` unless it is rolled back. -/
theorem inbound_idempotent (db : Database K) (ts : List Attempt) :
    serveAll (applyInbound rt) (withoutRepeats (applyInbound rt) Attempt.inboundId db [] ts) db =
      serveAll (applyInbound rt) ts db ∧
    ∀ before t after, ts = before ++ t :: after →
      t.inboundId ∈ committedKeys (applyInbound rt) Attempt.inboundId before db →
        (applyInbound rt t (serveAll (applyInbound rt) before db)).2 = serveAll (applyInbound rt) before db ∧
        (t.getsThrough = true → ((applyInbound rt t (serveAll (applyInbound rt) before db)).1.map (·.status)) =
          some .duplicate) := by
  refine ⟨?_, fun before t after _ hcommitted => ?_⟩
  · exact @Receipts.serveAll_withoutRepeats _ _ _ _ _ _ _ _ db ts [] inbound_receipts
  · have hseen := inbound_receipts.seen_of_committed hcommitted
    generalize serveAll (applyInbound rt) before db = found at hseen ⊢
    refine ⟨inbound_receipts.repeats t found hseen, fun hthrough => ?_⟩
    unfold applyInbound
    rw [if_pos hthrough, applyExternalAction_replayed hseen]
    rfl

end Attempts

end PulseGraph
