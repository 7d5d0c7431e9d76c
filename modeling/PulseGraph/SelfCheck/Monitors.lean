/-
# What the self-check says about the monitors

Two signals of the self-check are about the monitors: how far the worst of their clocks is out,
and how long ago "we last *received* something".  A timer, a sweep and an external action
persist an event of their own through the same code, under the source `generic`, with the
instant of the last alert as the instant it fired: its skew is how long the incident waited.

**Proved here.**  In every state of every run the two signals are those of the alerts alone
exactly when the synthetic events on record go unnoticed (`Unnoticed`): none is later than the
last alert, and where one is the newest event of its clock, it waited no longer than some
monitor's clock is out, and hides no clock that is further out than those on record
(`signals_iff_of_run`).  `not_signals` fires the quiet deadline of an alert: the clocks are five
seconds out from then on.
-/

import PulseGraph.Outbox.Deployment
import PulseGraph.SelfCheck.Signals

namespace PulseGraph

open Library (Table Run Transition)

variable {K : Type}

/-! ## The events on record -/

/-- An event on record: an alert with the instant it was received, or the ledger row of an event that
no monitor sent. -/
inductive Heard where
  | alert (event : NormalizedEvent) (now : ℤ)
  | synthetic (row : RawEvent)

namespace Heard

/-- A monitor sent it. -/
def isAlert : Heard → Bool
  | alert _ _ => true
  | synthetic _ => false

/-- The clock the event is a reading of: its source, in its scope. -/
def clock : Heard → Source × String
  | alert event _ => (event.source, scopeKeyFor event)
  | synthetic row => (row.source, row.scopeKey)

/-- How far the instant it fired is from the instant it was recorded. -/
def skew : Heard → ℤ
  | alert event now => |skewMs event.firedAt now|
  | synthetic row => |row.firedAt - row.ingestedAt|

/-- The instant it was recorded. -/
def recordedAt : Heard → ℤ
  | alert _ now => now
  | synthetic row => row.ingestedAt

theorem skew_nonneg (e : Heard) : 0 ≤ e.skew := by
  cases e <;> exact abs_nonneg _

end Heard

/-- The newest event of a clock, in a record with the latest event first. -/
def newestOf (record : List Heard) (p : Source × String) : Option Heard :=
  record.find? fun e => e.clock = p

/-- How far a clock is out by its newest event, none being none. -/
def skewOf (record : List Heard) (p : Source × String) : ℤ := ((newestOf record p).map Heard.skew).getD 0

/-- How far the worst of the clocks is out. -/
def worstSkewOf (record : List Heard) : ℤ := ((record.map fun e => skewOf record e.clock).max?).getD 0

/-- When the latest event was recorded. -/
def lastOf (record : List Heard) : Option ℤ := (record.map Heard.recordedAt).max?

/-- What the monitors sent. -/
def alertsIn (record : List Heard) : List Heard := record.filter Heard.isAlert

/-- **The synthetic events go unnoticed**: none is later than all alerts; one that is the newest of
its clock waited no longer than the clock of some monitor is out, and the alert of that clock which
it hides is no further out than some clock on record. -/
structure Unnoticed (record : List Heard) : Prop where
  received : ∀ row, .synthetic row ∈ record → ∃ event now, .alert event now ∈ record ∧ row.ingestedAt ≤ now
  waited : ∀ p row, newestOf record p = some (.synthetic row) →
    ∃ p', |row.firedAt - row.ingestedAt| ≤ skewOf (alertsIn record) p'
  hidden : ∀ p row, newestOf record p = some (.synthetic row) →
    ∃ p', skewOf (alertsIn record) p ≤ skewOf record p'

section Record

variable {record : List Heard} {p : Source × String} {e : Heard}

theorem skewOf_nonneg : 0 ≤ skewOf record p := by
  unfold skewOf
  cases newestOf record p with
  | none => exact le_refl _
  | some e => exact e.skew_nonneg

theorem worstSkewOf_le {b : ℤ} (hb : 0 ≤ b) : worstSkewOf record ≤ b ↔ ∀ p, skewOf record p ≤ b := by
  unfold worstSkewOf
  rw [max?_getD_le hb]
  constructor
  · intro h p
    cases he : newestOf record p with
    | none =>
        unfold skewOf
        rw [he]
        exact hb
    | some e =>
        have hclock : e.clock = p := by simpa using List.find?_some he
        rw [← hclock]
        exact h _ (List.mem_map.2 ⟨e, List.mem_of_find?_eq_some he, rfl⟩)
  · rintro h _ he
    obtain ⟨e, -, rfl⟩ := List.mem_map.1 he
    exact h _

theorem worstSkewOf_nonneg : 0 ≤ worstSkewOf record := by
  refine max?_getD_nonneg fun _ he => ?_
  obtain ⟨e, -, rfl⟩ := List.mem_map.1 he
  exact skewOf_nonneg

/-- **The worst clock** is one of the clocks. -/
theorem le_worstSkewOf {b : ℤ} : b ≤ worstSkewOf record ↔ ∃ p, b ≤ skewOf record p := by
  constructor
  · intro h
    unfold worstSkewOf at h
    cases hm : (record.map fun e => skewOf record e.clock).max? with
    | none =>
        rw [hm] at h
        exact ⟨(.generic, ""), h.trans skewOf_nonneg⟩
    | some m =>
        rw [hm] at h
        obtain ⟨e, -, rfl⟩ := List.mem_map.1 (List.max?_mem hm)
        exact ⟨e.clock, h⟩
  · rintro ⟨p, h⟩
    exact h.trans ((worstSkewOf_le worstSkewOf_nonneg).1 (le_refl _) p)

/-- A clock whose newest event is an alert, or that has none, is as far out by the alerts. -/
theorem skewOf_alertsIn (h : ∀ row, newestOf record p ≠ some (.synthetic row)) :
    skewOf (alertsIn record) p = skewOf record p := by
  have hnewest : newestOf (alertsIn record) p = newestOf record p := by
    induction record with
    | nil => rfl
    | cons e record ih =>
        unfold newestOf at ih h ⊢
        unfold alertsIn at ih ⊢
        by_cases hp : e.clock = p
        · rw [List.find?_cons_of_pos (by simpa using hp)] at h ⊢
          cases e with
          | alert event now =>
              rw [List.filter_cons_of_pos rfl, List.find?_cons_of_pos (by simpa using hp)]
          | synthetic row => exact absurd rfl (h row)
        · rw [List.find?_cons_of_neg (by simpa using hp)] at h ⊢
          rw [← ih h]
          cases e with
          | alert event now =>
              rw [List.filter_cons_of_pos rfl, List.find?_cons_of_neg (by simpa using hp)]
          | synthetic row => rw [List.filter_cons_of_neg (by simp [Heard.isAlert])]
  rw [skewOf, skewOf, hnewest]

/-- **When the worst clock is a monitor's.** -/
theorem worstSkewOf_alertsIn : worstSkewOf record = worstSkewOf (alertsIn record) ↔
    ∀ p row, newestOf record p = some (.synthetic row) →
      (∃ p', |row.firedAt - row.ingestedAt| ≤ skewOf (alertsIn record) p') ∧
      ∃ p', skewOf (alertsIn record) p ≤ skewOf record p' := by
  have hskew : ∀ {p row}, newestOf record p = some (.synthetic row) →
      skewOf record p = |row.firedAt - row.ingestedAt| := by
    intro p row h
    rw [skewOf, h]
    rfl
  constructor
  · intro h p row hnewest
    rw [← le_worstSkewOf, ← le_worstSkewOf, ← h, ← hskew hnewest]
    exact ⟨le_worstSkewOf.2 ⟨p, le_refl _⟩, h ▸ le_worstSkewOf.2 ⟨p, le_refl _⟩⟩
  · intro h
    refine le_antisymm ((worstSkewOf_le worstSkewOf_nonneg).2 fun p => ?_)
      ((worstSkewOf_le worstSkewOf_nonneg).2 fun p => ?_)
    · by_cases hp : ∃ row, newestOf record p = some (.synthetic row)
      · obtain ⟨row, hrow⟩ := hp
        rw [hskew hrow]
        exact le_worstSkewOf.2 (h p row hrow).1
      · rw [← skewOf_alertsIn fun row hrow => hp ⟨row, hrow⟩]
        exact le_worstSkewOf.2 ⟨p, le_refl _⟩
    · by_cases hp : ∃ row, newestOf record p = some (.synthetic row)
      · obtain ⟨row, hrow⟩ := hp
        exact le_worstSkewOf.2 (h p row hrow).2
      · rw [skewOf_alertsIn fun row hrow => hp ⟨row, hrow⟩]
        exact le_worstSkewOf.2 ⟨p, le_refl _⟩

theorem lastOf_eq_some {m : ℤ} : lastOf record = some m ↔
    (∃ e ∈ record, e.recordedAt = m) ∧ ∀ e ∈ record, e.recordedAt ≤ m := by
  rw [lastOf, List.max?_eq_some_iff, List.mem_map, List.forall_mem_map]

theorem lastOf_eq_none : lastOf record = none ↔ record = [] := by
  rw [lastOf, List.max?_eq_none_iff, List.map_eq_nil_iff]

/-- **When the latest event is a monitor's.** -/
theorem lastOf_alertsIn : lastOf record = lastOf (alertsIn record) ↔
    ∀ row, .synthetic row ∈ record → ∃ event now, .alert event now ∈ record ∧ row.ingestedAt ≤ now := by
  have hsent : ∀ {e : Heard}, e ∈ alertsIn record → ∃ event now, e = .alert event now ∧ e ∈ record := by
    intro e he
    obtain ⟨hmem, halert⟩ := List.mem_filter.1 he
    cases e with
    | alert event now => exact ⟨event, now, rfl, hmem⟩
    | synthetic row => cases halert
  constructor
  · intro h row hrow
    cases hlast : lastOf record with
    | none =>
        rw [lastOf_eq_none.1 hlast] at hrow
        cases hrow
    | some m =>
        have hle : row.ingestedAt ≤ m := (lastOf_eq_some.1 hlast).2 _ hrow
        rw [h] at hlast
        obtain ⟨⟨e, he, rfl⟩, -⟩ := lastOf_eq_some.1 hlast
        obtain ⟨event, now, rfl, hmem⟩ := hsent he
        exact ⟨event, now, hmem, hle⟩
  · intro h
    cases hlast : lastOf (alertsIn record) with
    | none =>
        have hnone : ∀ event now, .alert event now ∉ record := fun event now hmem =>
          List.eq_nil_iff_forall_not_mem.1 (lastOf_eq_none.1 hlast) _ (List.mem_filter.2 ⟨hmem, rfl⟩)
        refine lastOf_eq_none.2 (List.eq_nil_iff_forall_not_mem.2 fun e he => ?_)
        cases e with
        | alert event now => exact hnone event now he
        | synthetic row =>
            obtain ⟨event, now, hmem, -⟩ := h row he
            exact hnone event now hmem
    | some m =>
        obtain ⟨⟨e, he, hm⟩, hle⟩ := lastOf_eq_some.1 hlast
        refine lastOf_eq_some.2 ⟨⟨e, (List.mem_filter.1 he).1, hm⟩, fun e he => ?_⟩
        cases e with
        | alert event now => exact hle _ (List.mem_filter.2 ⟨he, rfl⟩)
        | synthetic row =>
            obtain ⟨event, now, hmem, hrow⟩ := h row he
            exact hrow.trans (hle (.alert event now) (List.mem_filter.2 ⟨hmem, rfl⟩))

/-- **The signals are a function of the alerts** exactly when the synthetic events go unnoticed. -/
theorem unnoticed_iff : Unnoticed record ↔
    worstSkewOf record = worstSkewOf (alertsIn record) ∧ lastOf record = lastOf (alertsIn record) := by
  rw [worstSkewOf_alertsIn, lastOf_alertsIn]
  constructor
  · rintro ⟨hreceived, hwaited, hhidden⟩
    exact ⟨fun p row h => ⟨hwaited p row h, hhidden p row h⟩, hreceived⟩
  · rintro ⟨hskews, hreceived⟩
    exact ⟨hreceived, fun p row h => (hskews p row h).1, fun p row h => (hskews p row h).2⟩

end Record

/-! ## The signals of a record -/

/-- The two tables the signals read are what the record makes of them. -/
structure SignalsOf (record : List Heard) (db : Database K) : Prop where
  skews : ∀ p, skewAt db p = skewOf record p
  last : lastIngest db = lastOf record

/-- The two tables the signals read are the same. -/
def SameRecord (db db' : Database K) : Prop := db'.clockSkew = db.clockSkew ∧ db'.rawEvents = db.rawEvents

/-- The transaction takes one event in: it records its skew, and the instant it was recorded. -/
structure TakesIn (e : Heard) (db db' : Database K) : Prop where
  skews : ∀ p, skewAt db' p = if p = e.clock then e.skew else skewAt db p
  ledger : db'.rawEvents.map (·.ingestedAt) = e.recordedAt :: db.rawEvents.map (·.ingestedAt)

/-- The transaction takes in the synthetic events whose rows it appends, and nothing else. -/
def TakesRows (db db' : Database K) : Prop :=
  ∃ rows, db'.rawEvents = rows ++ db.rawEvents ∧
    ∀ record, SignalsOf record db → SignalsOf (rows.map .synthetic ++ record) db'

section Signals

variable {rt : Runtime K} {record : List Heard} {db db' db'' : Database K} {e : Heard} {now : ℤ}

/-- **The worst skew is that of the record.** -/
theorem SignalsOf.worstSkew_eq (h : SignalsOf record db) : worstSkew db = worstSkewOf record := by
  apply le_antisymm
  · rw [worstSkew_le worstSkewOf_nonneg]
    intro p
    rw [h.skews p]
    exact (worstSkewOf_le worstSkewOf_nonneg).1 (le_refl _) p
  · rw [worstSkewOf_le worstSkew_nonneg]
    intro p
    rw [← h.skews p]
    exact (worstSkew_le worstSkew_nonneg).1 (le_refl _) p

theorem SignalsOf.of_same (h : SignalsOf record db) (hsame : SameRecord db db') : SignalsOf record db' := by
  constructor
  · intro p
    rw [← h.skews p, skewAt, skewAt, hsame.1]
  · rw [← h.last, lastIngest, lastIngest, hsame.2]

/-- One event more. -/
theorem SignalsOf.takeIn (h : SignalsOf record db) (ht : TakesIn e db db') : SignalsOf (e :: record) db' := by
  constructor
  · intro p
    rw [ht.skews p, h.skews p, skewOf, skewOf, newestOf, newestOf, List.find?_cons]
    by_cases hp : p = e.clock
    · rw [if_pos hp, decide_eq_true hp.symm]
      rfl
    · rw [if_neg hp, decide_eq_false (Ne.symm hp)]
  · have hlast := h.last
    unfold lastIngest lastOf at hlast ⊢
    rw [ht.ledger, List.map_cons, List.max?_cons, List.max?_cons, hlast]

theorem TakesIn.of_same (h : TakesIn e db db') (hsame : SameRecord db' db'') : TakesIn e db db'' := by
  constructor
  · intro p
    rw [← h.skews p, skewAt, skewAt, hsame.1]
  · rw [hsame.2, h.ledger]

theorem TakesRows.of_same (hsame : SameRecord db db') : TakesRows db db' :=
  ⟨[], hsame.2, fun _ h => h.of_same hsame⟩

theorem TakesRows.trans (h : TakesRows db db') (h' : TakesRows db' db'') : TakesRows db db'' := by
  obtain ⟨rows, hrows, hsignals⟩ := h
  obtain ⟨rows', hrows', hsignals'⟩ := h'
  refine ⟨rows' ++ rows, by rw [hrows', hrows, List.append_assoc], fun record hr => ?_⟩
  rw [List.map_append, List.append_assoc]
  exact hsignals' _ (hsignals record hr)

/-- The skew of a synthetic event, which fires at a stored instant. -/
theorem skewMs_ofIsoMs (ms now : ℤ) : skewMs (DateTime.ofIsoMs ms) now = ms - now := by
  show (ms * 1000 - now * 1000).tdiv 1000 = ms - now
  rw [← sub_mul, Int.mul_tdiv_cancel _ (by decide)]

theorem isoMs_ofIsoMs (ms : ℤ) : (DateTime.ofIsoMs ms).isoMs = ms := Int.mul_ediv_cancel ms (by decide)

/-- **A synthetic decision** is persisted. -/
theorem takesRows_of_persisted {d : EngineDecision} {ms : ℤ} (hfired : d.event.firedAt = DateTime.ofIsoMs ms)
    (hsame : SameRecord (persisted rt now d db) db') : TakesRows db db' := by
  have hin : TakesIn (.synthetic (ledgerRow rt now d db)) db (persisted rt now d db) := by
    refine ⟨fun p => ?_, rfl⟩
    have hskew : |skewMs d.event.firedAt now| = (Heard.synthetic (ledgerRow rt now d db)).skew := by
      show _ = |d.event.firedAt.isoMs - now|
      rw [hfired, skewMs_ofIsoMs, isoMs_ofIsoMs]
    rw [← hskew]
    exact @skewAt_recordSkew _ db p d.event.source d.scopeKey d.event.firedAt now
  exact ⟨[ledgerRow rt now d db], hsame.2, fun record hr => hr.takeIn (hin.of_same hsame)⟩

/-- A quiet deadline. -/
theorem persistTrigger_takesRows {freshEventId : String} {trigger : TimerTrigger} {committed : Bool}
    (h : persistTrigger rt freshEventId now trigger db = .ok (committed, db')) : TakesRows db db' := by
  rcases persistTrigger_commits h with ⟨-, rfl⟩ | ⟨d, hd, hp⟩
  · exact .of_same ⟨rfl, rfl⟩
  · obtain ⟨i, next, -, -, -, -, -, -, -, -, -, -, -, hevent, -⟩ := deadlineDecision_eq_some hd
    obtain ⟨-, rfl⟩ := persistDecision_ok.1 hp
    have hfired : d.event.firedAt = DateTime.ofIsoMs i.lastAlertAt := by
      rw [hevent]
      rfl
    exact takesRows_of_persisted hfired ⟨rfl, rfl⟩

variable [Field K] [LinearOrder K]

/-- A settled action changes neither table. -/
theorem settleAction_sameRecord (now : ℤ) (action : ExternalAction) (current next : IncidentState)
    (db : Database K) : SameRecord db (settleAction now action current next db) := by
  unfold settleAction recordInbound
  dsimp only
  rw [redirectFor_frame, refreshGroupForMember_frame]
  exact ⟨rfl, rfl⟩

/-- An external action. -/
theorem applyExternalAction_takesRows {freshEventId : String} {action : ExternalAction} {result : ReconcileResult}
    (h : applyExternalAction rt freshEventId now action db = .ok (result, db')) : TakesRows db db' := by
  rcases applyExternalAction_cases h with ⟨-, -, hdb⟩ | ⟨-, i, next, d, db₁, -, hd, hp, rfl⟩
  · rw [hdb]
    exact .of_same ⟨rfl, rfl⟩
  · obtain ⟨message, -, -, -, -, -, -, -, -, -, -, hevent, -⟩ := buildDecision_eq_ok hd
    obtain ⟨-, rfl⟩ := persistDecision_ok.1 hp
    have hfired : d.event.firedAt = DateTime.ofIsoMs i.lastAlertAt := by
      rw [hevent]
      rfl
    exact takesRows_of_persisted hfired (settleAction_sameRecord now action i.status next _)

theorem regroup_sameRecord {freshGroupId x scopeKey : String} :
    SameRecord db (regroup freshGroupId now x scopeKey db).2 := by
  have hassign : SameRecord db (assignGroup freshGroupId now x scopeKey db).2 := by
    rw [assignGroup_frame]
    exact ⟨rfl, rfl⟩
  unfold regroup
  split
  · next heq =>
      rw [heq] at hassign
      exact hassign
  · next heq =>
      rw [heq] at hassign
      rw [refreshGroupForMember_frame]
      exact hassign

omit [Field K] [LinearOrder K] in
/-- A decision is of the scope of its event. -/
theorem processEvent_scopeKey {freshId : String} {event : NormalizedEvent} {d : EngineDecision}
    (h : processEvent rt freshId now event db = .ok d) : d.scopeKey = scopeKeyFor event := by
  rcases processEvent_cases h with ⟨-, rfl⟩ | ⟨-, -, ho⟩ | ⟨-, record, -, -, hd⟩
  · rfl
  · exact (openDecision_eq_ok ho).2.2.2.2.2.2.1
  · exact (duplicateDecision_eq_ok hd).2.2.2.2.2.2.1

/-- **An alert** that commits is taken in. -/
theorem ingestEvent_takesIn {freshId freshGroupId : String} {event : NormalizedEvent} {d : EngineDecision}
    (h : ingestEvent rt freshId freshGroupId now event db = .ok (d, db')) :
    TakesIn (.alert event now) db db' := by
  obtain ⟨hd, db₁, hpersist, hrest⟩ := ingestEvent_parts h
  obtain ⟨-, rfl⟩ := persistDecision_ok.1 hpersist
  have hin : TakesIn (.alert event now) db (persisted rt now d db) := by
    refine ⟨fun p => ?_, rfl⟩
    have hskew : skewAt (persisted rt now d db) p =
        if p = (d.event.source, d.scopeKey) then |skewMs d.event.firedAt now| else skewAt db p :=
      @skewAt_recordSkew _ db p d.event.source d.scopeKey d.event.firedAt now
    rwa [processEvent_event hd, processEvent_scopeKey hd] at hskew
  rcases hrest with ⟨-, rfl⟩ | ⟨-, db₂, hobs, rfl⟩
  · exact hin
  · refine hin.of_same ?_
    have hobserved : SameRecord (persisted rt now d db) db₂ := by
      rw [observeIncident_frame hobs]
      exact ⟨rfl, rfl⟩
    have hgrouped : SameRecord db₂ (regroup freshGroupId now d.incidentId d.scopeKey db₂).2 := regroup_sameRecord
    rw [redirectFor_frame]
    exact ⟨hgrouped.1.trans hobserved.1, hgrouped.2.trans hobserved.2⟩

end Signals

/-! ## Every run -/

section Runs

variable (rt : Runtime K) [Field K] [LinearOrder K]

/-- What a turn puts on record: the alert of an ingest that commits, and the rows a timer, a sweep or
an external action appends. -/
def heardOf (t : Transition (Deployment K) Turn) : List Heard :=
  match t.label with
  | .request (.ingest freshId freshGroupId now event) =>
      match ingestEvent rt freshId freshGroupId now event t.source.db with
      | .ok _ => [.alert event now]
      | .error _ => []
  | .request _ =>
      (t.target.db.rawEvents.take (t.target.db.rawEvents.length - t.source.db.rawEvents.length)).map .synthetic
  | .worker _ _ => []

/-- The record of a run, the latest event first. -/
def recordOf (h : List (Transition (Deployment K) Turn)) : List Heard := h.flatMap (heardOf rt)

/-- The alerts of a run, the latest first. -/
def alertsOf (h : List (Transition (Deployment K) Turn)) : List Heard := alertsIn (recordOf rt h)

variable {rt} {s s' : Deployment K} {h h' : List (Transition (Deployment K) Turn)} {record : List Heard}

/-- A request that is no alert. -/
theorem SignalsOf.request {q : Request} (hr : TakesRows s.db s'.db) (hs : SignalsOf record s.db)
    (hq : ∀ freshId freshGroupId now event, q ≠ .ingest freshId freshGroupId now event) :
    SignalsOf (heardOf rt ⟨s, .request q, s'⟩ ++ record) s'.db := by
  obtain ⟨rows, hrows, hsignals⟩ := hr
  have hheard : heardOf rt ⟨s, .request q, s'⟩ = rows.map .synthetic := by
    unfold heardOf
    cases q with
    | ingest freshId freshGroupId now event => exact absurd rfl (hq _ _ _ _)
    | _ =>
        dsimp only
        rw [hrows, List.length_append, Nat.add_sub_cancel, List.take_left]
  rw [hheard]
  exact hsignals record hs

/-- One turn. -/
theorem SignalsOf.turn {turn : Turn} (hs : SignalsOf record s.db) (hnext : deploymentNext rt s turn = some s') :
    SignalsOf (heardOf rt ⟨s, turn, s'⟩ ++ record) s'.db := by
  cases turn with
  | worker w step =>
      refine hs.of_same ?_
      rw [(deploymentNext_worker hnext).1.frame]
      exact ⟨rfl, rfl⟩
  | request q =>
      have hserve := serve_of_engineNext (deploymentNext_request hnext).1
      cases q with
      | ingest freshId freshGroupId now event =>
          rw [serve] at hserve
          unfold heardOf
          dsimp only
          cases hr : ingestEvent rt freshId freshGroupId now event s.db with
          | ok r =>
              rw [hr] at hserve
              rw [← hserve]
              exact hs.takeIn (ingestEvent_takesIn hr)
          | error e =>
              rw [hr] at hserve
              rw [← hserve]
              exact hs
      | timer freshEventId now incidentId quietAtMs =>
          refine SignalsOf.request ?_ hs (fun _ _ _ _ => by simp)
          rw [← hserve, serve]
          cases hr : persistTrigger rt freshEventId now { incidentId, quietAtMs } s.db with
          | ok r => exact persistTrigger_takesRows hr
          | error e => exact .of_same ⟨rfl, rfl⟩
      | external freshEventId now action =>
          refine SignalsOf.request ?_ hs (fun _ _ _ _ => by simp)
          rw [← hserve, serve]
          cases hr : applyExternalAction rt freshEventId now action s.db with
          | ok r => exact applyExternalAction_takesRows hr
          | error e => exact .of_same ⟨rfl, rfl⟩
      | sweep freshEventIds now moment =>
          refine SignalsOf.request ?_ hs (fun _ _ _ _ => by simp)
          rw [← hserve, serve]
          cases hr : sweepOnce rt freshEventIds now moment s.db with
          | ok r =>
              exact sweepOnce_induct (P := TakesRows s.db) hr (.of_same ⟨rfl, rfl⟩)
                fun a b overdue o result k _ _ ha hstep => ha.trans (applyExternalAction_takesRows hstep)
          | error e => exact .of_same ⟨rfl, rfl⟩

/-- **The signals of every state are those of the record.** -/
theorem DeploymentRun.signalsOf (r : DeploymentRun rt h s) : SignalsOf (recordOf rt h) s.db := by
  refine r.induct (I := fun h s => SignalsOf (recordOf rt h) s.db) ?_ ?_
  · rintro s rfl
    exact ⟨fun p => rfl, rfl⟩
  · intro h s turn s' _ hs hnext
    unfold recordOf at hs ⊢
    rw [List.flatMap_cons]
    exact hs.turn hnext

/-- An age tells the instant, when it is asked for late enough. -/
theorem ageSeconds_injective {v v' : Option ℤ} (h : ∀ nowUs, ageSeconds v nowUs = ageSeconds v' nowUs) :
    v = v' := by
  have hage : ∀ {a nowUs : ℤ}, a * 1000 ≤ nowUs →
      ageSeconds (some a) nowUs = some (((nowUs - a * 1000 : ℤ) : ℚ) / 1000000) := by
    intro a nowUs hle
    have hcast : (0 : ℚ) ≤ ((nowUs - a * 1000 : ℤ) : ℚ) := by exact_mod_cast (by omega : 0 ≤ nowUs - a * 1000)
    rw [ageSeconds, Option.map_some, max_eq_right (by positivity)]
  cases v with
  | none =>
      cases v' with
      | none => rfl
      | some b => cases h 0
  | some a =>
      cases v' with
      | none => cases h 0
      | some b =>
          have heq := h (max (a * 1000) (b * 1000))
          rw [hage (le_max_left _ _), hage (le_max_right _ _), Option.some_inj] at heq
          have hcast : ((max (a * 1000) (b * 1000) - a * 1000 : ℤ) : ℚ) =
              ((max (a * 1000) (b * 1000) - b * 1000 : ℤ) : ℚ) := by linarith
          have hint := Int.cast_injective hcast
          congr 1
          omega

omit [Field K] [LinearOrder K] in
/-- Equal signals at all instants are an equal worst clock and an equal latest event. -/
theorem signals_eq_iff {w : ℤ} {v : Option ℤ} {db : Database K} :
    (∀ nowUs workers, (gather nowUs workers (some db)).worstClockSkewMs = w ∧
      (gather nowUs workers (some db)).secondsSinceLastIngest = ageSeconds v nowUs) ↔
    worstSkew db = w ∧ lastIngest db = v := by
  constructor
  · intro h
    exact ⟨(h 0 []).1, ageSeconds_injective fun nowUs => (h nowUs []).2⟩
  · rintro ⟨rfl, rfl⟩ nowUs workers
    exact ⟨rfl, rfl⟩

/-- **The signals reflect the monitors** exactly when the synthetic events go unnoticed; and beside a
run in which they do, a run with the same alerts has the same signals exactly when they do in it too. -/
theorem signals_iff_of_run (r : DeploymentRun rt h s) (r' : DeploymentRun rt h' s') :
    ((∀ nowUs workers, (gather nowUs workers (some s.db)).worstClockSkewMs = worstSkewOf (alertsOf rt h) ∧
        (gather nowUs workers (some s.db)).secondsSinceLastIngest = ageSeconds (lastOf (alertsOf rt h)) nowUs) ↔
      Unnoticed (recordOf rt h)) ∧
    (Unnoticed (recordOf rt h) → alertsOf rt h = alertsOf rt h' →
      ((∀ nowUs workers workers',
        (gather nowUs workers (some s.db)).worstClockSkewMs = (gather nowUs workers' (some s'.db)).worstClockSkewMs ∧
        (gather nowUs workers (some s.db)).secondsSinceLastIngest =
          (gather nowUs workers' (some s'.db)).secondsSinceLastIngest) ↔ Unnoticed (recordOf rt h'))) := by
  have hs := r.signalsOf
  have hs' := r'.signalsOf
  have hiff : worstSkew s.db = worstSkewOf (alertsOf rt h) ∧ lastIngest s.db = lastOf (alertsOf rt h) ↔
      Unnoticed (recordOf rt h) := by
    rw [hs.worstSkew_eq, hs.last]
    exact unnoticed_iff.symm
  have hiff' : worstSkew s'.db = worstSkewOf (alertsOf rt h') ∧ lastIngest s'.db = lastOf (alertsOf rt h') ↔
      Unnoticed (recordOf rt h') := by
    rw [hs'.worstSkew_eq, hs'.last]
    exact unnoticed_iff.symm
  refine ⟨signals_eq_iff.trans hiff, fun hu hsame => ?_⟩
  obtain ⟨hworst, hlast⟩ := hiff.2 hu
  rw [← hiff', ← hsame, ← hworst, ← hlast, ← signals_eq_iff]
  constructor
  · intro h nowUs workers
    obtain ⟨hskew, hage⟩ := h nowUs [] workers
    exact ⟨hskew.symm, hage.symm⟩
  · intro h nowUs workers workers'
    obtain ⟨hskew, hage⟩ := h nowUs workers'
    exact ⟨hskew.symm, hage.symm⟩

/-- Event by event, what makes a record go unnoticed. -/
def unnoticedCheck (record : List Heard) : Bool :=
  record.all fun e => e.isAlert || (record.any fun a => a.isAlert && decide (e.recordedAt ≤ a.recordedAt)) &&
    decide (e.skew ≤ worstSkewOf (alertsIn record)) && decide (skewOf (alertsIn record) e.clock ≤ worstSkewOf record)

theorem unnoticed_of_check (h : unnoticedCheck record = true) : Unnoticed record := by
  have hsynthetic : ∀ row, .synthetic row ∈ record →
      (∃ a ∈ record, a.isAlert = true ∧ row.ingestedAt ≤ a.recordedAt) ∧
        |row.firedAt - row.ingestedAt| ≤ worstSkewOf (alertsIn record) ∧
        skewOf (alertsIn record) (row.source, row.scopeKey) ≤ worstSkewOf record := by
    intro row hrow
    have hcheck := List.all_eq_true.1 h _ hrow
    simp only [Bool.or_eq_true, Bool.and_eq_true, List.any_eq_true, decide_eq_true_eq] at hcheck
    obtain ⟨⟨hlater, hskew⟩, hhidden⟩ := hcheck.resolve_left Bool.false_ne_true
    exact ⟨hlater, hskew, hhidden⟩
  have hnewest : ∀ {p row}, newestOf record p = some (.synthetic row) →
      .synthetic row ∈ record ∧ (row.source, row.scopeKey) = p := by
    intro p row hp
    unfold newestOf at hp
    have hclock : (Heard.synthetic row).clock = p := by simpa using List.find?_some hp
    exact ⟨List.mem_of_find?_eq_some hp, hclock⟩
  refine ⟨fun row hrow => ?_, fun p row hp => ?_, fun p row hp => ?_⟩
  · obtain ⟨⟨a, ha, halert, hle⟩, -⟩ := hsynthetic row hrow
    cases a with
    | alert event now => exact ⟨event, now, ha, hle⟩
    | synthetic row => cases halert
  · exact le_worstSkewOf.1 (hsynthetic row (hnewest hp).1).2.1
  · obtain ⟨hrow, rfl⟩ := hnewest hp
    exact le_worstSkewOf.1 (hsynthetic row hrow).2.2

/-- The alert a turn brings. -/
def Turn.alert : Turn → Option Heard
  | .request (.ingest _ _ now event) => some (.alert event now)
  | _ => none

/-- The alerts of a turn that is not rolled back. -/
theorem alertsIn_heardOf {t : Transition (Deployment K) Turn} (h : t.label.alert.isSome = true → heardOf rt t ≠ []) :
    alertsIn (heardOf rt t) = t.label.alert.toList := by
  obtain ⟨s, label, s'⟩ := t
  have hrows : ∀ rows : List RawEvent, alertsIn (rows.map .synthetic) = [] := by
    intro rows
    refine List.filter_eq_nil_iff.2 fun e he => ?_
    obtain ⟨row, -, rfl⟩ := List.mem_map.1 he
    exact Bool.false_ne_true
  cases label with
  | worker w step => rfl
  | request q =>
      cases q with
      | ingest freshId freshGroupId now event =>
          unfold heardOf at h ⊢
          dsimp only at h ⊢
          cases hr : ingestEvent rt freshId freshGroupId now event s.db with
          | ok r => rfl
          | error e =>
              rw [hr] at h
              exact absurd rfl (h rfl)
      | timer _ _ _ _ => exact hrows _
      | external _ _ _ => exact hrows _
      | sweep _ _ _ => exact hrows _

/-- The alerts of a run none of whose ingests is rolled back are those its turns bring. -/
theorem alertsOf_eq (hc : (h.all fun t => !t.label.alert.isSome || !(heardOf rt t).isEmpty) = true) :
    alertsOf rt h = (h.map (·.label)).filterMap Turn.alert := by
  induction h with
  | nil => rfl
  | cons t h ih =>
      obtain ⟨hkept, hc⟩ := Bool.and_eq_true_iff.1 hc
      have ht : alertsIn (heardOf rt t) = t.label.alert.toList := by
        refine alertsIn_heardOf fun halert hempty => ?_
        dsimp only at hkept
        rw [halert, hempty] at hkept
        exact Bool.false_ne_true hkept
      have hrest := ih hc
      unfold alertsOf recordOf alertsIn at hrest ⊢
      unfold alertsIn at ht
      rw [List.flatMap_cons, List.filter_append, hrest, ht, List.map_cons]
      cases halert : t.label.alert with
      | none => rw [List.filterMap_cons_none halert]; rfl
      | some e => rw [List.filterMap_cons_some halert]; rfl

end Runs

/-- Two monitors of one scope: the clock of the first is eight seconds slow, that of the second nineteen. -/
def slowAlerts : List Turn :=
  [.request (.ingest "A" "G" 10000 (sampleEvent "1" "high" .firing 2000)),
    .request (.ingest "B" "H" 20000
      { sampleEvent "2" "high" .firing 1000 with source := .datadog, service := "api" })]

/-- The same, and the quiet deadline of the first incident between them. -/
def slowAlertsAndDeadline : List Turn := slowAlerts.insertIdx 1 (.request (.timer "T" 15000 "A" 15000))

/-- The quiet deadline fires at 15 seconds, on an alert that fired at two; the second alert comes after
it from a clock that is further out, and the signals are those of the run without the deadline. -/
theorem signals_iff_of_run_slow : ∃ h s h' s', DeploymentRun Runtime.reference h s ∧
    DeploymentRun Runtime.reference h' s' ∧ s.db.rawEvents.length = 3 ∧ s'.db.rawEvents.length = 2 ∧
    Unnoticed (recordOf Runtime.reference h) ∧ worstSkewOf (alertsOf Runtime.reference h) = 19000 ∧
    ∀ nowUs workers workers',
      (gather nowUs workers (some s.db)).worstClockSkewMs = (gather nowUs workers' (some s'.db)).worstClockSkewMs ∧
      (gather nowUs workers (some s.db)).secondsSinceLastIngest =
        (gather nowUs workers' (some s'.db)).secondsSinceLastIngest := by
  have hreplay : (Library.replay (deploymentNext Runtime.reference) slowAlertsAndDeadline
      ([], Deployment.initial)).map (fun s => (s.2.db.rawEvents.length,
        s.1.all fun t => !t.label.alert.isSome || !(heardOf Runtime.reference t).isEmpty,
        unnoticedCheck (recordOf Runtime.reference s.1),
        worstSkewOf (alertsOf Runtime.reference s.1))) = some (3, true, true, 19000) := by
    decide +kernel
  have hreplay' : (Library.replay (deploymentNext Runtime.reference) slowAlerts
      ([], Deployment.initial)).map (fun s => (s.2.db.rawEvents.length,
        s.1.all fun t => !t.label.alert.isSome || !(heardOf Runtime.reference t).isEmpty,
        unnoticedCheck (recordOf Runtime.reference s.1))) = some (2, true, true) := by
    decide +kernel
  obtain ⟨⟨h, s⟩, hr, heq⟩ := Option.map_eq_some_iff.1 hreplay
  obtain ⟨⟨h', s'⟩, hr', heq'⟩ := Option.map_eq_some_iff.1 hreplay'
  simp only [Prod.mk.injEq] at heq heq'
  obtain ⟨hlen, hc, hcheck, hworst⟩ := heq
  obtain ⟨hlen', hc', hcheck'⟩ := heq'
  have r : DeploymentRun Runtime.reference h s := Run.of_replay (.start rfl) hr
  have r' : DeploymentRun Runtime.reference h' s' := Run.of_replay (.start rfl) hr'
  have hsame : alertsOf Runtime.reference h = alertsOf Runtime.reference h' := by
    rw [alertsOf_eq hc, alertsOf_eq hc', Library.labels_of_replay hr,
      Library.labels_of_replay hr']
    rfl
  exact ⟨h, s, h', s', r, r', hlen, hlen', unnoticed_of_check hcheck, hworst,
    ((signals_iff_of_run r r').2 (unnoticed_of_check hcheck) hsame).2 (unnoticed_of_check hcheck')⟩

/-- **A quiet deadline passes for a monitor**: it fires five seconds after the alert, and a clock is five
seconds out, and an alert was just received. -/
theorem not_signals : ¬ ∀ h s h' s', DeploymentRun Runtime.reference h s → DeploymentRun Runtime.reference h' s' →
    alertsOf Runtime.reference h = alertsOf Runtime.reference h' → ∀ nowUs workers,
      (gather nowUs workers (some s.db)).worstClockSkewMs = (gather nowUs workers (some s'.db)).worstClockSkewMs ∧
      (gather nowUs workers (some s.db)).secondsSinceLastIngest =
        (gather nowUs workers (some s'.db)).secondsSinceLastIngest := by
  intro hclaim
  have hreplay : (Library.replay (deploymentNext Runtime.reference)
      [.request (.ingest "A" "G" 1000 (sampleEvent "1" "high" .firing 1000))] ([], Deployment.initial)).map (fun s =>
        (deploymentNext Runtime.reference s.2 (.request (.timer "T" 6000 "A" 6000))).map fun s' =>
          ((gather 6000000 [] (some s.2.db)).worstClockSkewMs, (gather 6000000 [] (some s'.db)).worstClockSkewMs,
            (gather 6000000 [] (some s.2.db)).secondsSinceLastIngest,
            (gather 6000000 [] (some s'.db)).secondsSinceLastIngest)) =
      some (some (0, 5000, some 5, some 0)) := by
    decide +kernel
  obtain ⟨h, s, r, heq⟩ := DeploymentRun.of_replay hreplay
  obtain ⟨s', hnext, hsignals⟩ := Option.map_eq_some_iff.1 heq
  simp only [Prod.mk.injEq] at hsignals
  have r' : DeploymentRun Runtime.reference (⟨s, .request (.timer "T" 6000 "A" 6000), s'⟩ :: h) s' := .next r hnext
  have hsame : alertsOf Runtime.reference h =
      alertsOf Runtime.reference (⟨s, .request (.timer "T" 6000 "A" 6000), s'⟩ :: h) := by
    unfold alertsOf recordOf
    rw [List.flatMap_cons, alertsIn, alertsIn, List.filter_append]
    have hnone : alertsIn (heardOf Runtime.reference ⟨s, .request (.timer "T" 6000 "A" 6000), s'⟩) = [] :=
      alertsIn_heardOf (by simp [Turn.alert])
    exact (congrArg (· ++ _) hnone).symm
  have hskew := (hclaim h s _ s' r r' hsame 6000000 []).1
  rw [hsignals.1, hsignals.2.1] at hskew
  exact absurd hskew (by decide)

end PulseGraph
