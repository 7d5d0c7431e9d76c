/-
# How urgent the survivor of a collapse is

`routing.py` derives the priority of a row from the severity of its incident "so that the
drain order after recovery matches what an on-call engineer actually needs", and fails over
what is urgent "rather than sitting in a queue nobody is watching".  `coalesce_pending` keeps
the newest row of an incident and does not look at its priority, while a redirection gathers
the rows of a whole storm on one incident.

**Proved here.**  Where the rows that wait for an incident are in order of urgency, the
survivor of a collapse is as urgent as every row it supersedes (`urgencyKept_of_ordered`).
`urgencyKept_of_run` has this in every state of a run whose decisions join their queues in
order: none queues rows behind more urgent ones, and none points a member's rows at an anchor
whose own are out of order with them.  `not_urgencyKept` has a low member's row supersede the
high one of its anchor.
-/

import PulseGraph.Engine.Notices
import PulseGraph.Engine.Persists
import PulseGraph.Outbox.Coalescing

namespace PulseGraph

open Library (Table Run Transition)

variable {K : Type}

/-! ## Queues in order of urgency -/

/-- **A collapse of the channel keeps the urgency**: what it supersedes leaves a survivor that waits,
whose priority is no greater; it is fit for failover if the row was, and drains before whatever is
less urgent than the row. -/
def UrgencyKept (channel : Channel) (db : Database K) : Prop :=
  ∀ k r r', db.outbox.find? k = some r → r.status = .pending →
    (coalescePending channel db).2.outbox.find? k = some r' → r'.status = .superseded →
    ∃ j w, r'.supersededBy = some j ∧ (coalescePending channel db).2.outbox.find? j = some w ∧
      w.status = .pending ∧ w.priority ≤ r.priority ∧
      (isFailoverWorthy r.priority = true → isFailoverWorthy w.priority = true) ∧
      ∀ v : OutboxRow, r.priority < v.priority → w.priority < v.priority

/-- Of two rows that wait for one incident on one channel the newer one is as urgent. -/
structure UrgentOrder (q : Table ℕ OutboxRow) : Prop where
  ordered : ∀ c x k r k' r', Waits c q x k r → Waits c q x k' r' → k < k' → r'.priority ≤ r.priority
  bounded : ∀ k r, q.find? k = some r → -1 ≤ r.priority

/-- A row of this priority may wait behind all that waits for the incident on the channel. -/
def MayFollow (c : Channel) (q : Table ℕ OutboxRow) (x : String) (priority : ℤ) : Prop :=
  ∀ k r, Waits c q x k r → priority ≤ r.priority

/-- What waits for the two incidents is in order of urgency together. -/
def MayMerge (q : Table ℕ OutboxRow) (x a : String) : Prop :=
  ∀ c k r k' r', Waits c q x k r → Waits c q a k' r' →
    (k < k' → r'.priority ≤ r.priority) ∧ (k' < k → r.priority ≤ r'.priority)

/-- **The decision joins its queues in order**: its rows may wait behind what waits for its incident,
and if they may be pointed at an anchor, both with it. -/
structure JoinsInOrder (q : Table ℕ OutboxRow) (d : EngineDecision) (points : String → Prop) : Prop where
  queued : ∀ intent ∈ d.deliveryIntents, MayFollow intent.channel q d.incidentId (priorityBySeverity d.severityFinal)
  merged : ∀ a, points a → a ≠ d.incidentId → MayMerge q d.incidentId a ∧
    ∀ intent ∈ d.deliveryIntents, MayFollow intent.channel q a (priorityBySeverity d.severityFinal)

section Queues

variable {q q' : Table ℕ OutboxRow} {db db' : Database K} {channel : Channel} {x a : String} {now : ℤ}

theorem priorityBySeverity_nonneg (s : Severity) : 0 ≤ priorityBySeverity s := by
  cases s <;> decide

/-- **In order of urgency** every collapse keeps the urgency. -/
theorem urgencyKept_of_ordered (h : UrgentOrder db.outbox) (channel : Channel) : UrgencyKept channel db := by
  intro k r r' hr hp hr' hsup
  have hexact := (coalescePending_exact channel db).1
  -- a row that is superseded now waited on the channel
  have hch : r.channel = channel := by
    by_contra hne
    have hkept := hexact.others k r hr fun h => hne h.1
    obtain rfl := Option.some.inj (hr'.symm.trans hkept)
    rw [hp] at hsup
    cases hsup
  have hw : Waits channel db.outbox r.incidentId k r := ⟨hr, isPendingFor_iff.2 ⟨hch, hp, rfl⟩⟩
  obtain ⟨j, hj⟩ := exists_newest hw
  have hne : k ≠ j := by
    rintro rfl
    obtain ⟨via, -, hkept⟩ := hexact.winner _ k r hj hr
    obtain rfl := Option.some.inj (hr'.symm.trans hkept)
    have hstatus : r.status = .superseded := hsup
    rw [hp] at hstatus
    cases hstatus
  obtain rfl := Option.some.inj (hr'.symm.trans (hexact.loser _ j k r hj hw hne))
  obtain ⟨w, hwaits⟩ := hj.waits
  obtain ⟨via, -, hwinner⟩ := hexact.winner _ j w hj hwaits.row
  have hle : w.priority ≤ r.priority :=
    h.ordered channel _ k r j w hw hwaits (lt_of_le_of_ne (hj.newest k r hw) hne)
  refine ⟨j, w.withMarker via, rfl, hwinner, (isPendingFor_iff.1 hwaits.pending).2.1, hle, fun hworthy => ?_,
    fun v hv => lt_of_le_of_lt hle hv⟩
  unfold isFailoverWorthy at hworthy ⊢
  exact decide_eq_true (le_trans hle (of_decide_eq_true hworthy))

/-- Pushed rows wait behind what waited. -/
theorem waits_push {c : Channel} {k : ℕ} {r r₀ : OutboxRow} (h : Waits c (q.push r₀) x k r) :
    Waits c q x k r ∨ k = q.nextKey ∧ r = r₀ := by
  obtain ⟨hr, hp⟩ := h
  rw [Table.find?_push] at hr
  split_ifs at hr with hk
  · exact .inr ⟨hk, (Option.some.inj hr).symm⟩
  · exact .inl ⟨hr, hp⟩

theorem UrgentOrder.push {r₀ : OutboxRow} (h : UrgentOrder q) (hb : -1 ≤ r₀.priority)
    (hm : MayFollow r₀.channel q r₀.incidentId r₀.priority) : UrgentOrder (q.push r₀) := by
  refine ⟨fun c x k r k' r' hr hr' hlt => ?_, fun k r hr => ?_⟩
  · rcases waits_push hr' with hr' | ⟨rfl, rfl⟩
    · rcases waits_push hr with hr | ⟨rfl, -⟩
      · exact h.ordered c x k r k' r' hr hr' hlt
      · exact absurd (Table.lt_nextKey hr'.row) (not_lt.2 hlt.le)
    · rcases waits_push hr with hr | ⟨rfl, -⟩
      · obtain ⟨rfl, -, rfl⟩ := isPendingFor_iff.1 hr'.pending
        exact hm k r hr
      · exact absurd hlt (lt_irrefl _)
  · rw [Table.find?_push] at hr
    split_ifs at hr
    · exact Option.some.inj hr ▸ hb
    · exact h.bounded k r hr

theorem MayFollow.push {c : Channel} {p : ℤ} {r₀ : OutboxRow} (h : MayFollow c q x p)
    (hp : r₀.incidentId = x → p ≤ r₀.priority) : MayFollow c (q.push r₀) x p := by
  intro k r hr
  rcases waits_push hr with hr' | ⟨-, rfl⟩
  · exact h k r hr'
  · exact hp (isPendingFor_iff.1 hr.pending).2.2

/-- A row of the one incident may wait behind those of the other. -/
theorem MayMerge.push {r₀ : OutboxRow} (h : MayMerge q x a) (hid : r₀.incidentId = x) (hne : x ≠ a)
    (hm : MayFollow r₀.channel q a r₀.priority) : MayMerge (q.push r₀) x a := by
  intro c k r k' r' hr hr'
  rcases waits_push hr' with hold' | ⟨-, rfl⟩
  · rcases waits_push hr with hold | ⟨rfl, rfl⟩
    · exact h c k r k' r' hold hold'
    · obtain ⟨rfl, -, -⟩ := isPendingFor_iff.1 hr.pending
      exact ⟨fun hlt => absurd (Table.lt_nextKey hold'.row) (not_lt.2 hlt.le), fun _ => hm k' r' hold'⟩
  · exact absurd (hid.symm.trans (isPendingFor_iff.1 hr'.pending).2.2) hne

/-- The rows of a decision, one after the other. -/
theorem UrgentOrder.pushAll {rows : List OutboxRow} {p : ℤ} (h : UrgentOrder q) (hb : -1 ≤ p)
    (hrows : ∀ r ∈ rows, r.incidentId = x ∧ r.priority = p ∧ MayFollow r.channel q x p) :
    UrgentOrder (q.pushAll rows) := by
  induction rows generalizing q with
  | nil => exact h
  | cons r rows ih =>
      obtain ⟨rfl, rfl, hm⟩ := hrows r List.mem_cons_self
      refine ih (h.push hb hm) fun r' hr' => ?_
      obtain ⟨hid, hp, hm'⟩ := hrows r' (List.mem_cons_of_mem _ hr')
      exact ⟨hid, hp, hm'.push fun _ => le_refl _⟩

theorem MayMerge.pushAll {rows : List OutboxRow} {p : ℤ} (h : MayMerge q x a) (hne : x ≠ a)
    (hrows : ∀ r ∈ rows, r.incidentId = x ∧ r.priority = p ∧ MayFollow r.channel q a p) :
    MayMerge (q.pushAll rows) x a := by
  induction rows generalizing q with
  | nil => exact h
  | cons r rows ih =>
      obtain ⟨hid, rfl, hm⟩ := hrows r List.mem_cons_self
      refine ih (h.push hid hne hm) fun r' hr' => ?_
      obtain ⟨hid', hp', hm'⟩ := hrows r' (List.mem_cons_of_mem _ hr')
      exact ⟨hid', hp', hm'.push fun ha => absurd (hid.symm.trans ha) hne⟩

/-- What waits after a redirection: rows of the others, those of the member and of the anchor on the
anchor, and on the member its notice. -/
theorem waits_redirect {c : Channel} {y : String} {k : ℕ} {r' : OutboxRow}
    (h : Waits c (redirectMemberDeliveries now x a db).outbox y k r') :
    (y = a ∧ ∃ r, (Waits c db.outbox x k r ∨ Waits c db.outbox a k r) ∧ r'.priority = r.priority) ∨
      (y ≠ a ∧ y ≠ x ∧ Waits c db.outbox y k r') ∨
      (y = x ∧ k = (db.outbox.update fun _ => OutboxRow.movedTo x a).nextKey) := by
  obtain ⟨hr', hp'⟩ := h
  obtain ⟨hc, hpending, hy⟩ := isPendingFor_iff.1 hp'
  rcases find?_redirectMemberDeliveries hr' with ⟨r, hr, rfl⟩ | ⟨-, rfl, rfl⟩
  · by_cases hmoved : r.incidentId = x ∧ r.status = .pending
    · have heq : r.movedTo x a = r.redirect a := if_pos hmoved
      rw [heq] at hc hy ⊢
      exact .inl ⟨hy.symm, r, .inl ⟨hr, isPendingFor_iff.2 ⟨hc, hmoved.2, hmoved.1⟩⟩, rfl⟩
    · rw [movedTo_of_not hmoved] at hp' hpending hy ⊢
      by_cases hya : y = a
      · exact .inl ⟨hya, r, .inr ⟨hr, hya ▸ hp'⟩, rfl⟩
      · exact .inr (.inl ⟨hya, fun hyx => hmoved ⟨hy.trans hyx, hpending⟩, hr, hp'⟩)
  · exact .inr (.inr ⟨hy.symm, rfl⟩)

/-- **A redirection** of rows in order with those of the anchor. -/
theorem UrgentOrder.redirect (h : UrgentOrder db.outbox) (hm : MayMerge db.outbox x a) (hne : x ≠ a) :
    UrgentOrder (redirectMemberDeliveries now x a db).outbox := by
  refine ⟨fun c y k r k' r' hr hr' hlt => ?_, fun k r' hr' => ?_⟩
  · rcases waits_redirect hr with ⟨rfl, r₀, hr₀, hp₀⟩ | ⟨hya, hyx, hr₀⟩ | ⟨rfl, rfl⟩
    · rcases waits_redirect hr' with ⟨-, r₁, hr₁, hp₁⟩ | ⟨hya, -⟩ | ⟨hyx, -⟩
      · rw [hp₀, hp₁]
        rcases hr₀ with hr₀ | hr₀
        · rcases hr₁ with hr₁ | hr₁
          · exact h.ordered c x k r₀ k' r₁ hr₀ hr₁ hlt
          · exact (hm c k r₀ k' r₁ hr₀ hr₁).1 hlt
        · rcases hr₁ with hr₁ | hr₁
          · exact (hm c k' r₁ k r₀ hr₁ hr₀).2 hlt
          · exact h.ordered c y k r₀ k' r₁ hr₀ hr₁ hlt
      · exact absurd rfl hya
      · exact absurd hyx.symm hne
    · rcases waits_redirect hr' with ⟨rfl, -⟩ | ⟨-, -, hr₁⟩ | ⟨rfl, -⟩
      · exact absurd rfl hya
      · exact h.ordered c y k r k' r' hr₀ hr₁ hlt
      · exact absurd rfl hyx
    · rcases waits_redirect hr' with ⟨rfl, -⟩ | ⟨-, hyx, -⟩ | ⟨-, rfl⟩
      · exact absurd rfl hne
      · exact absurd rfl hyx
      · exact absurd hlt (lt_irrefl _)
  · rcases find?_redirectMemberDeliveries hr' with ⟨r, hr, rfl⟩ | ⟨-, -, rfl⟩
    · have hp : (r.movedTo x a).priority = r.priority := by
        unfold OutboxRow.movedTo
        split_ifs <;> rfl
      rw [hp]
      exact h.bounded k r hr
    · show (-1 : ℤ) ≤ defaultPriority
      decide

end Queues

/-! ## Transactions -/

section Transactions

variable {rt : Runtime K} {db db' : Database K} {now : ℤ} {x : String}

/-- The rows of a decision that joins its queues in order. -/
theorem persisted_urgent {d : EngineDecision} {points : String → Prop} (h : UrgentOrder db.outbox)
    (hj : JoinsInOrder db.outbox d points) : UrgentOrder (persisted rt now d db).outbox ∧
      ∀ a, points a → a ≠ d.incidentId → MayMerge (persisted rt now d db).outbox d.incidentId a := by
  have hbound : -1 ≤ priorityBySeverity d.severityFinal :=
    le_trans (by decide) (priorityBySeverity_nonneg d.severityFinal)
  have hrow : ∀ r ∈ d.deliveryIntents.map (outboxRow now d), r.incidentId = d.incidentId ∧
      r.priority = priorityBySeverity d.severityFinal ∧ ∃ intent ∈ d.deliveryIntents, r.channel = intent.channel := by
    intro r hr
    obtain ⟨intent, hi, rfl⟩ := List.mem_map.1 hr
    exact ⟨rfl, rfl, intent, hi, rfl⟩
  constructor
  · refine @UrgentOrder.pushAll db.outbox d.incidentId _ _ h hbound fun r hr => ?_
    obtain ⟨hid, hp, intent, hi, hc⟩ := hrow r hr
    exact ⟨hid, hp, hc ▸ hj.queued intent hi⟩
  · intro a ha hne
    obtain ⟨hmerge, hfollow⟩ := hj.merged a ha hne
    refine @MayMerge.pushAll _ _ _ _ (priorityBySeverity d.severityFinal) hmerge hne.symm fun r hr => ?_
    obtain ⟨hid, hp, intent, hi, hc⟩ := hrow r hr
    exact ⟨hid, hp, hc ▸ hfollow intent hi⟩

/-- What both call sites do with an assignment. -/
theorem redirectFor_urgent {g : Option GroupAssignment} (h : UrgentOrder db.outbox)
    (hm : ∀ c, g = some c → c.anchorIncidentId ≠ x → MayMerge db.outbox x c.anchorIncidentId) :
    UrgentOrder (redirectFor now x g db).outbox := by
  unfold redirectFor
  split
  · exact h
  · next c =>
      split_ifs with hmember
      · exact h.redirect (hm c rfl hmember.2) hmember.2.symm
      · exact h

variable [Field K] [LinearOrder K]

theorem ingestEvent_urgent [IsStrictOrderedRing K] {freshId freshGroupId : String} {event : NormalizedEvent}
    {d : EngineDecision} (hfresh : (Request.ingest freshId freshGroupId now event).fresh db = true)
    (h : ingestEvent rt freshId freshGroupId now event db = .ok (d, db')) (hs : StormsBut none db)
    (hj : EdgesJoin db) (hq : UrgentOrder db.outbox)
    (ho : JoinsInOrder db.outbox d fun a => d.isCriticalBypass = false ∧ BelongsOn rt now d db d.incidentId a) :
    UrgentOrder db'.outbox := by
  obtain ⟨hd, db₁, hpersist, hrest⟩ := ingestEvent_parts h
  obtain ⟨-, rfl⟩ := persistDecision_ok.1 hpersist
  obtain ⟨hpushed, hmerge⟩ := @persisted_urgent _ rt db now d _ hq ho
  rcases hrest with ⟨-, rfl⟩ | ⟨hb, db₂, hobs, rfl⟩
  · exact hpushed
  have houtbox : (regroup freshGroupId now d.incidentId d.scopeKey db₂).2.outbox =
      (persisted rt now d db).outbox := by
    rw [regroup_outbox, observeIncident_frame hobs]
  refine redirectFor_urgent (by rw [houtbox]; exact hpushed) fun c hc hne => ?_
  rw [houtbox]
  exact hmerge _ ⟨hb, regroup_belongsOn hfresh h hs hj hb hobs hc hne⟩ hne

/-- **An external action** whose decision joins its queues in order. -/
theorem applyExternalAction_urgent {freshEventId : String} {action : ExternalAction} {result : ReconcileResult}
    (h : applyExternalAction rt freshEventId now action db = .ok (result, db')) (hq : UrgentOrder db.outbox)
    (hj : ∀ i next d, Applies action db i next →
      buildDecision freshEventId i (db.latestEvent action.incidentId) action next = .ok d →
      JoinsInOrder db.outbox d fun a => anchorIn db action.incidentId = some a) : UrgentOrder db'.outbox := by
  have hsame := applyExternalAction_anchorIn h
  rcases applyExternalAction_cases h with ⟨-, -, hdb⟩ | ⟨-, i, next, d, db₁, ha, hd, hp, rfl⟩
  · rw [hdb]
    exact hq
  obtain ⟨-, -, hid, -⟩ := buildDecision_eq_ok hd
  obtain ⟨-, rfl⟩ := persistDecision_ok.1 hp
  obtain ⟨hpushed, hmerge⟩ := @persisted_urgent _ rt db now d _ hq (hj i next d ha hd)
  obtain ⟨g, db₂, houtbox, hsettled, hanchor⟩ := settleAction_redirects now action i.status next (persisted rt now d db)
  rw [hsettled]
  refine redirectFor_urgent (by rw [houtbox]; exact hpushed) fun c hc hne => ?_
  rw [houtbox, ← hid]
  refine hmerge _ ?_ (hid ▸ hne)
  rw [← hsame]
  exact hanchor c hc hne

/-- **A sweep**: one external action after the other. -/
theorem sweepOnce_urgent {freshEventIds : ℕ → String} {moment : ℤ} {n : ℕ}
    (h : sweepOnce rt freshEventIds now moment db = .ok (n, db')) (hq : UrgentOrder db.outbox)
    (hj : ∀ b d points, Persists rt db (.sweep freshEventIds now moment) b d points →
      JoinsInOrder b.outbox d points) : UrgentOrder db'.outbox := by
  refine sweepOnce_finds (P := fun b => UrgentOrder b.outbox) h hq fun b b' m overdue o result hfinds hc ho hq ha => ?_
  exact applyExternalAction_urgent ha hq fun i next d happ hd => hj b d _ (.sweep hfinds hc ho happ hd)

omit [Field K] [LinearOrder K] in
theorem persistTrigger_urgent {freshEventId incidentId : String} {quietAtMs : ℤ} {committed : Bool}
    (h : persistTrigger rt freshEventId now { incidentId, quietAtMs } db = .ok (committed, db'))
    (hq : UrgentOrder db.outbox)
    (hj : ∀ d, deadlineDecision freshEventId { incidentId, quietAtMs } db = some d →
      JoinsInOrder db.outbox d fun _ => False) : UrgentOrder db'.outbox := by
  rcases persistTrigger_commits h with ⟨-, rfl⟩ | ⟨d, hd, hp⟩
  · exact hq
  · obtain ⟨-, rfl⟩ := persistDecision_ok.1 hp
    exact (persisted_urgent hq (hj d hd)).1

/-- **A request** all of whose decisions join their queues in order. -/
theorem engineNext_urgent [IsStrictOrderedRing K] {q : Request} (h : engineNext rt db q = some db')
    (hs : StormsBut none db) (hj : EdgesJoin db) (hq : UrgentOrder db.outbox)
    (ho : ∀ b d points, Persists rt db q b d points → JoinsInOrder b.outbox d points) : UrgentOrder db'.outbox := by
  unfold engineNext at h
  split_ifs at h with hfresh
  obtain rfl := Option.some.inj h
  cases q with
  | ingest freshId freshGroupId now event =>
      cases hr : ingestEvent rt freshId freshGroupId now event db with
      | ok r =>
          rw [serve, hr]
          exact ingestEvent_urgent hfresh hr hs hj hq (ho _ _ _ (.ingest (ingestEvent_parts hr).1))
      | error e => rw [serve, hr]; exact hq
  | timer freshEventId now incidentId quietAtMs =>
      cases hr : persistTrigger rt freshEventId now { incidentId, quietAtMs } db with
      | ok r =>
          rw [serve, hr]
          exact persistTrigger_urgent hr hq fun d hd => ho _ _ _ (.timer hd)
      | error e => rw [serve, hr]; exact hq
  | external freshEventId now action =>
      cases hr : applyExternalAction rt freshEventId now action db with
      | ok r =>
          rw [serve, hr]
          exact applyExternalAction_urgent hr hq fun i next d ha hd => ho _ _ _ (.external ha hd)
      | error e => rw [serve, hr]; exact hq
  | sweep freshEventIds now moment =>
      cases hr : sweepOnce rt freshEventIds now moment db with
      | ok r => rw [serve, hr]; exact sweepOnce_urgent hr hq ho
      | error e => rw [serve, hr]; exact hq

end Transactions

/-! ## Every run -/

section Runs

variable {rt : Runtime K} {db db' : Database K}

/-- What a step of a worker keeps of a row. -/
theorem RowStep.place {w : String} {phase : Phase} {step : WorkerStep} {k : ℕ} {r r' : OutboxRow}
    (hstep : RowStep rt w phase db step k r r') :
    r'.priority = r.priority ∧ r'.channel = r.channel ∧ r'.incidentId = r.incidentId := by
  cases hstep with
  | collapsed _ hc _ => cases hc <;> exact ⟨rfl, rfl, rfl⟩
  | _ => exact ⟨rfl, rfl, rfl⟩

/-- A digest comes after all that is in the queue. -/
theorem afterProbe_newest {now : ℤ} {channel : Channel} {outcome : Option Exc} {k : ℕ} {r' : OutboxRow}
    (h : afterProbe rt now channel outcome db = some db') (hk : db.outbox.find? k = none)
    (hk' : db'.outbox.find? k = some r') : ∀ j r, db.outbox.find? j = some r → j < k := by
  intro j r hj
  unfold afterProbe at h
  obtain ⟨db₁, hr, rfl⟩ := Option.map_eq_some_iff.1 h
  have hq := (recordProbeResult_frame hr).outbox
  rw [← hq] at hk hj
  split_ifs at hk' with hstate
  · have hcol := coalescePending_collapse channel db₁
    unfold prepareBacklog at hk'
    dsimp only at hk'
    split at hk'
    · change (Table.push _ _).find? k = _ at hk'
      rw [Table.find?_push, hcol.unread k hk] at hk'
      split_ifs at hk' with hkey
      obtain ⟨r₁, hr₁, -⟩ := hcol.row j r hj
      exact hkey ▸ Table.lt_nextKey hr₁
    · rw [hcol.unread k hk] at hk'
      cases hk'
  · rw [hk] at hk'
    cases hk'

theorem WorkerMove.digest_newest {w : String} {phase phase' : Phase} {now : ℤ} {k : ℕ} {r' : OutboxRow}
    (h : WorkerMove rt w db phase (.probeReturns now none) phase' db') (hk : db.outbox.find? k = none)
    (hk' : db'.outbox.find? k = some r') : ∀ j r, db.outbox.find? j = some r → j < k := by
  cases h with
  | probeRaises _ =>
      rw [hk] at hk'
      cases hk'
  | probed hr => exact afterProbe_newest hr hk hk'

/-- The worker queues digests at most: no stand-in, and no row that was superseded in its hands. -/
def QueuesDigests (db db' : Database K) : Prop :=
  ∀ k r', db'.outbox.find? k = some r' → r'.status = .pending →
    (db.outbox.find? k = none ∧ r'.failoverOf = none) ∨ ∃ r, db.outbox.find? k = some r ∧ r.status = .pending

/-- **A step of a worker** that queues digests at most. -/
theorem WorkerMove.urgent {w : String} {phase phase' : Phase} {step : WorkerStep}
    (h : WorkerMove rt w db phase step phase' db') (hq : UrgentOrder db.outbox) (hd : QueuesDigests db db') :
    UrgentOrder db'.outbox := by
  obtain ⟨hrows, hnew⟩ := h.rows
  have hold : ∀ {k r r'}, db.outbox.find? k = some r → db'.outbox.find? k = some r' →
      r'.priority = r.priority ∧ r'.channel = r.channel ∧ r'.incidentId = r.incidentId := by
    intro k r r' hr hr'
    obtain ⟨r₁, hr₁, hstep⟩ := hrows k r hr
    obtain rfl := Option.some.inj (hr₁.symm.trans hr')
    exact hstep.place
  -- a new row that is no stand-in is a digest, the newest row and the most urgent
  have hdigest : ∀ {k r'}, db.outbox.find? k = none → db'.outbox.find? k = some r' → r'.failoverOf = none →
      r'.priority = -1 ∧ ∀ j r, db.outbox.find? j = some r → j < k := by
    intro k r' hk hk' hprimary
    cases hnew k r' hk hk' with
    | digest _ => exact ⟨rfl, h.digest_newest hk hk'⟩
    | failover _ _ _ _ => cases hprimary
  have hsource : ∀ {c x k r'}, Waits c db'.outbox x k r' →
      (∃ r, Waits c db.outbox x k r ∧ r'.priority = r.priority) ∨
        r'.priority = -1 ∧ ∀ j r, db.outbox.find? j = some r → j < k := by
    intro c x k r' ⟨hr', hp'⟩
    obtain ⟨hch, hpending, hx⟩ := isPendingFor_iff.1 hp'
    rcases hd k r' hr' hpending with ⟨hk, hprimary⟩ | ⟨r, hr, hp⟩
    · exact .inr (hdigest hk hr' hprimary)
    · obtain ⟨hpriority, hc', hid⟩ := hold hr hr'
      exact .inl ⟨r, ⟨hr, isPendingFor_iff.2 ⟨hc' ▸ hch, hp, hid ▸ hx⟩⟩, hpriority⟩
  refine ⟨fun c x k r k' r' hr hr' hlt => ?_, fun k r' hr' => ?_⟩
  · rcases hsource hr' with ⟨r₁, hr₁, hp₁⟩ | ⟨hp₁, -⟩
    · rcases hsource hr with ⟨r₀, hr₀, hp₀⟩ | ⟨-, hlast⟩
      · rw [hp₀, hp₁]
        exact hq.ordered c x k r₀ k' r₁ hr₀ hr₁ hlt
      · exact absurd (hlast k' r₁ hr₁.row) (not_lt.2 hlt.le)
    · rw [hp₁]
      rcases hsource hr with ⟨r₀, hr₀, hp₀⟩ | ⟨hp₀, -⟩
      · rw [hp₀]
        exact hq.bounded k r₀ hr₀.row
      · exact hp₀.ge
  · cases hr : db.outbox.find? k with
    | some r =>
        rw [(hold hr hr').1]
        exact hq.bounded k r hr
    | none =>
        cases hnew k r' hr hr' with
        | digest _ => exact le_refl _
        | @failover now channel batch k₀ r₀ target _ hmem _ _ =>
            exact hq.bounded k₀ r₀ (mem_failoverCandidates.1 hmem).1

variable (rt) [Field K] [LinearOrder K]

/-- **The turn keeps its queues in order**: every decision of a request joins them in order, and a
worker queues digests at most. -/
structure TurnInOrder (t : Transition (Deployment K) Turn) : Prop where
  request : ∀ q b d points, t.label = .request q → Persists rt t.source.db q b d points →
    JoinsInOrder b.outbox d points
  worker : ∀ w step, t.label = .worker w step → QueuesDigests t.source.db t.target.db

variable {rt} {s s' : Deployment K} {h : List (Transition (Deployment K) Turn)}

/-- **Coalescing keeps the urgency** in every state of a run whose turns keep their queues in order. -/
theorem urgencyKept_of_run [IsStrictOrderedRing K] (r : DeploymentRun rt h s) (hc : ∀ t ∈ h, TurnInOrder rt t)
    (channel : Channel) : UrgencyKept channel s.db := by
  refine urgencyKept_of_ordered ?_ channel
  refine Run.induct_of_forall (I := fun _ s => UrgentOrder s.db.outbox) r hc ?_ ?_
  · rintro s rfl
    constructor
    · intro c x k r k' r' hr
      have hrow := hr.row
      simp [Deployment.initial, Database.empty] at hrow
    · intro k r hr
      simp [Deployment.initial, Database.empty] at hr
  · rintro h s turn s' hrun - hq hturn hnext
    have hrun : DeploymentRun rt h s := hrun
    cases turn with
    | request q =>
        exact engineNext_urgent (deploymentNext_request hnext).1 hrun.storms hrun.edgesJoin hq fun b d points =>
          hturn.request q b d points rfl
    | worker w step => exact (deploymentNext_worker hnext).1.urgent hq (hturn.worker w step rfl)

end Runs

/-- The alert comes with a request that decides a high severity, and finds high rows alone. -/
def findsHigh {K : Type} [Field K] [LinearOrder K] (rt : Runtime K) (t : Transition (Deployment K) Turn) : Bool :=
  (t.source.db.outbox.rows.all fun r => r.2.priority = 1) && match t.label with
  | .request (.ingest freshId _ now event) => match processEvent rt freshId now event t.source.db with
      | .ok d => d.severityFinal = .high
      | .error _ => true
  | _ => false

/-- Where all is high, all is in order. -/
theorem turnInOrder_of_findsHigh [Field K] [LinearOrder K] {rt : Runtime K} {t : Transition (Deployment K) Turn}
    (h : findsHigh rt t = true) : TurnInOrder rt t := by
  obtain ⟨hrows, hlabel⟩ := Bool.and_eq_true_iff.1 h
  have hpriority : ∀ k r, t.source.db.outbox.find? k = some r → r.priority = 1 := by
    intro k r hr
    exact of_decide_eq_true (List.all_eq_true.1 hrows (k, r) (Table.find?_eq_some_iff.1 hr))
  constructor
  · intro q b d points hq hp
    rw [hq] at hlabel
    cases hp with
    | @ingest freshId freshGroupId now event d hd =>
        dsimp only at hlabel
        rw [hd] at hlabel
        have hhigh : d.severityFinal = .high := of_decide_eq_true hlabel
        have hfollow : ∀ c x, MayFollow c t.source.db.outbox x (priorityBySeverity d.severityFinal) := by
          intro c x k r hr
          rw [hhigh, hpriority k r hr.row]
          decide
        refine ⟨fun intent _ => hfollow _ _, fun a _ _ => ⟨fun c k r k' r' hr hr' => ?_, fun intent _ => hfollow _ _⟩⟩
        rw [hpriority k r hr.row, hpriority k' r' hr'.row]
        exact ⟨fun _ => le_refl _, fun _ => le_refl _⟩
    | timer _ => cases hlabel
    | external _ _ => cases hlabel
    | sweep _ _ _ _ _ => cases hlabel
  · intro w step hw
    rw [hw] at hlabel
    cases hlabel

/-- The rows of a storm whose members are all high are gathered on its anchor. -/
theorem urgencyKept_of_run_storm : ∃ h s, DeploymentRun Runtime.reference h s ∧
    s.db.outbox.rows.map (fun r => (r.1, r.2.incidentId, r.2.priority)) = [(1, "A", 1), (2, "A", 1), (3, "A", 1)] ∧
    UrgencyKept .slack s.db := by
  have hreplay : (Library.replay (deploymentNext Runtime.reference) (stormRequests.map .request)
      ([], Deployment.initial)).map (fun s =>
        (s.2.db.outbox.rows.map fun r => (r.1, r.2.incidentId, r.2.priority),
          s.1.all (findsHigh Runtime.reference))) =
      some ([(1, "A", 1), (2, "A", 1), (3, "A", 1)], true) := by decide +kernel
  obtain ⟨h, s, r, heq⟩ := DeploymentRun.of_replay hreplay
  obtain ⟨hrows, hhigh⟩ := Prod.mk.inj heq
  exact ⟨h, s, r, hrows, urgencyKept_of_run r
    (fun t ht => turnInOrder_of_findsHigh (List.all_eq_true.1 hhigh t ht)) .slack⟩

/-- A low alert of a service, a second after the epoch. -/
def lowAlertOf (service eventId : String) : NormalizedEvent :=
  { sampleEvent eventId "low" .firing 1000 with service := service }

/-- **A high page sinks to the priority of a low one**: the rows of a low member are pointed at an anchor
whose high row still waits, and the newest of them survives. -/
theorem not_urgencyKept : ¬ ∀ h s, DeploymentRun Runtime.reference h s → ∀ channel, UrgencyKept channel s.db := by
  intro hclaim
  have hreplay : (Library.replay (deploymentNext Runtime.reference)
      [.request (.ingest "A" "unused" 1000 (alertOf "disk" "1")),
        .request (.ingest "B" "unused" 1000 (lowAlertOf "api" "2")),
        .request (.ingest "C" "storm" 1000 (lowAlertOf "api" "3"))]
      ([], Deployment.initial)).map (fun s =>
        ((s.2.db.outbox.find? 1).map (fun r => (r.status, r.priority)),
          ((coalescePending .slack s.2.db).2.outbox.find? 1).map (fun r => (r.status, r.supersededBy)),
          ((coalescePending .slack s.2.db).2.outbox.find? 3).map (·.priority))) =
      some (some (.pending, 1), some (.superseded, some 3), some 3) := by decide +kernel
  obtain ⟨h, s, r, heq⟩ := DeploymentRun.of_replay hreplay
  simp only [Prod.mk.injEq] at heq
  obtain ⟨hfirst, hloser, hwinner⟩ := heq
  obtain ⟨row, hrow, hfields⟩ := Option.map_eq_some_iff.1 hfirst
  obtain ⟨row', hrow', hfields'⟩ := Option.map_eq_some_iff.1 hloser
  obtain ⟨hp, hpriority⟩ := Prod.mk.inj hfields
  obtain ⟨hsup, hby⟩ := Prod.mk.inj hfields'
  obtain ⟨j, w, hj, hw, -, hle, -⟩ := hclaim h s r .slack 1 row row' hrow hp hrow' hsup
  obtain rfl := Option.some.inj (hj.symm.trans hby)
  rw [hw] at hwinner
  have hthree : w.priority = 3 := Option.some.inj hwinner
  rw [hthree, hpriority] at hle
  exact absurd hle (by decide)

end PulseGraph
