/-
# Stale quiet deadlines

A quiet deadline is taken off the wheel before its transaction runs, and the
transaction asks for an acknowledged incident only: it does not compare the
deadline it was popped for with the persisted one (`FiresCurrent`).  An entry on
the wheel is the persisted deadline of its incident, unless an ingest is about to
replace it (`wheel_follows`), so two orders of steps let an obsolete deadline
fire: an alert moves the deadline of an incident whose trigger is in hand, and a
poll pops the old deadline between an ingest's commit and its schedule.

Without these two (`KeepsTriggers`) every deadline that fires is the persisted one
(`quietDeadline_current`); a run of each kind shows that both are needed
(`not_quietDeadline_current`, `not_quietDeadline_current_of_poll`).
-/

import PulseGraph.Engine.Timers

namespace PulseGraph

open Library (Run Transition replay)

variable {K : Type} [Field K] [LinearOrder K] (rt : Runtime K)

/-- A timer transaction that moves its incident finds the deadline it was popped for. -/
def FiresCurrent (t : Transition (TimerState K) TimerTurn) : Prop :=
  ∀ freshEventId now trigger rest db, t.label = .persist freshEventId now →
    t.source.inHand = trigger :: rest →
    persistTrigger rt freshEventId now trigger t.source.db = .ok (true, db) →
    ∃ i, t.source.db.incidents.find? trigger.incidentId = some i ∧
      i.quietAtMs = some trigger.quietAtMs

/-- No alert acknowledges an incident under another deadline than the trigger of it
that is in hand, and no poll pops another deadline than the one about to be scheduled. -/
def KeepsTriggers (t : Transition (TimerState K) TimerTurn) : Prop :=
  match t.label with
  | .ingest freshId freshGroupId now event =>
      ∀ d db, ingestEvent rt freshId freshGroupId now event t.source.db = .ok (d, db) →
        d.state = .ACKNOWLEDGED →
        ∀ trigger ∈ t.source.inHand, trigger.incidentId = d.incidentId →
          d.quietAtMs = some trigger.quietAtMs
  | .poll now =>
      ∀ x q q', t.source.pending = some (x, q) → AcknowledgedAt t.source.db x (some q) →
        t.source.wheel.deadline x = some q' → q' ≤ now → q' = q
  | _ => True

variable {rt} {h : List (Transition (TimerState K) TimerTurn)} {s s' : TimerState K} {x : String}
  {q : ℤ}

/-! ## What the process knows is in the database -/

/-- The process holds a deadline of the incident somewhere. -/
def Holds (s : TimerState K) (x : String) : Prop :=
  (∃ q, s.wheel.deadline x = some q) ∨ (∃ q, s.pending = some (x, q)) ∨
    ∃ trigger ∈ s.inHand, trigger.incidentId = x

/-- Incidents are never deleted. -/
theorem core_ne_none_of_timerNext (r : TimerRun rt h s) {turn : TimerTurn}
    (hstep : timerNext rt s turn = some s') (hx : s.db.core x ≠ none) : s'.db.core x ≠ none := by
  by_cases hq : turn.isIngest = false
  · obtain ⟨trigger, targets, heff⟩ := effect_of_timerNext r hq hstep
    rcases heff.incidents x with ⟨hcore, -⟩ | ⟨-, i, i', row, -, hi', -⟩
    · rw [hcore]
      exact hx
    · rw [hi']
      simp
  · cases turn with
    | ingest freshId freshGroupId now event =>
        obtain ⟨-, -, hfresh, ⟨d, db, hd, rfl⟩ | ⟨-, rfl⟩⟩ := timerNext_ingest hstep
        · have hc := (ingest_cases hfresh hd).1
          show db.core x ≠ none
          rw [hc.core]
          split_ifs
          · simp
          · exact hx
        · exact hx
    | _ => exact absurd rfl hq

/-- **Every deadline the process holds is of a stored incident.** -/
theorem core_of_holds (r : TimerRun rt h s) (hx : Holds s x) : s.db.core x ≠ none := by
  have hinv : ∀ x, Holds s x → s.db.core x ≠ none := by
    refine Run.induct (I := fun _ s => ∀ x, Holds s x → s.db.core x ≠ none) r ?_ ?_
    · rintro _ rfl x (⟨q, hq⟩ | ⟨q, hq⟩ | ⟨trigger, ht, -⟩)
      · cases hq
      · cases hq
      · cases ht
    · intro h s turn s' r ih hstep x hx
      by_cases hold : Holds s x
      · exact core_ne_none_of_timerNext r hstep (ih x hold)
      cases turn with
      | ingest freshId freshGroupId now event =>
          obtain ⟨-, -, hfresh, ⟨d, db, hd, rfl⟩ | ⟨-, rfl⟩⟩ := timerNext_ingest hstep
          · rcases hx with hw | ⟨q, hp⟩ | hh
            · exact absurd (.inl hw) hold
            · obtain ⟨q', -, heq⟩ := Option.map_eq_some_iff.1 hp
              obtain ⟨rfl, -⟩ := Prod.mk.inj heq
              show db.core d.incidentId ≠ none
              rw [(ingest_cases hfresh hd).1.core_self]
              simp
            · exact absurd (.inr (.inr hh)) hold
          · exact absurd hx hold
      | schedule =>
          obtain ⟨y, q, wheel, hp, hw, rfl⟩ := timerNext_schedule hstep
          have hd := TimerWheel.deadline_schedule (hw (pending_persisted r hp).1)
          rcases hx with ⟨q', hx⟩ | ⟨q', hx⟩ | hh
          · by_cases hxy : x = y
            · exact absurd (.inr (.inl ⟨q, hxy ▸ hp⟩)) hold
            · rw [hd, if_neg hxy] at hx
              exact absurd (.inl ⟨q', hx⟩) hold
          · cases hx
          · exact absurd (.inr (.inr hh)) hold
      | external freshEventId now action =>
          obtain ⟨-, rfl⟩ := timerNext_external hstep
          exact absurd hx hold
      | sweep freshEventIds now moment =>
          obtain ⟨-, rfl⟩ := timerNext_sweep hstep
          exact absurd hx hold
      | poll now =>
          obtain ⟨-, -, rfl⟩ := timerNext_poll hstep
          rcases hx with ⟨q, hw⟩ | hp | ⟨trigger, ht, rfl⟩
          · rw [TimerWheel.deadline_popDue, Option.filter_eq_some_iff] at hw
            exact absurd (.inl ⟨q, hw.1⟩) hold
          · exact absurd (.inr (.inl hp)) hold
          · exact absurd (.inl ⟨_, (TimerWheel.mem_popDue.1 ht).1⟩) hold
      | persist freshEventId now =>
          obtain ⟨-, trigger, rest, hhand, ⟨committed, db, -, rfl⟩ | rfl⟩ := timerNext_persist hstep
          · rcases hx with hw | hp | ⟨t, ht, rfl⟩
            · exact absurd (.inl hw) hold
            · exact absurd (.inr (.inl hp)) hold
            · exact absurd (.inr (.inr ⟨t, hhand ▸ List.mem_cons_of_mem _ ht, rfl⟩)) hold
          · rcases hx with hw | hp | ⟨t, ht, rfl⟩
            · exact absurd (.inl hw) hold
            · exact absurd (.inr (.inl hp)) hold
            · cases ht
      | persistFails =>
          obtain ⟨-, rfl⟩ := timerNext_persistFails hstep
          rcases hx with hw | hp | ⟨t, ht, rfl⟩
          · exact absurd (.inl hw) hold
          · exact absurd (.inr (.inl hp)) hold
          · cases ht
      | restart now =>
          obtain ⟨wheel, hw, rfl⟩ := timerNext_restart hstep
          rcases hx with ⟨q, hx⟩ | ⟨q, hx⟩ | ⟨t, ht, -⟩
          · rw [hw, Option.filter_eq_some_iff] at hx
            obtain ⟨i, hi, -⟩ := quietDeadline_eq_some.1 hx.1
            show s.db.core x ≠ none
            rw [core_of_find? hi]
            simp
          · cases hx
          · cases ht
  exact hinv x hx

/-! ## The deadlines on the wheel -/

/-- The deadline is the persisted one, if the incident is acknowledged. -/
def Follows (db : Database K) (x : String) (q : ℤ) : Prop :=
  ∀ v, AcknowledgedAt db x v → v = some q

/-- A deadline stays the persisted one over every step but an ingest. -/
theorem Follows.of_timerNext (r : TimerRun rt h s) {turn : TimerTurn} (hq : turn.isIngest = false)
    (hstep : timerNext rt s turn = some s') (hf : Follows s.db x q) : Follows s'.db x q :=
  fun v hv => hf v (hv.of_timerNext r hq hstep)

/-- **A deadline on the wheel is the persisted one**, unless an ingest is about to
replace it. -/
theorem wheel_follows (r : TimerRun rt h s) (hw : s.wheel.deadline x = some q) :
    (∃ q', s.pending = some (x, q')) ∨ Follows s.db x q := by
  have hinv : ∀ x q, s.wheel.deadline x = some q →
      (∃ q', s.pending = some (x, q')) ∨ Follows s.db x q := by
    refine Run.induct (I := fun _ s => ∀ x q, s.wheel.deadline x = some q →
      (∃ q', s.pending = some (x, q')) ∨ Follows s.db x q) r ?_ ?_
    · rintro _ rfl x q hw
      cases hw
    · intro h s turn s' r ih hstep x q hw
      cases turn with
      | ingest freshId freshGroupId now event =>
          obtain ⟨hnone, -, hfresh, ⟨d, db, hd, rfl⟩ | ⟨-, rfl⟩⟩ := timerNext_ingest hstep
          · have hold : Follows s.db x q := by
              rcases ih x q hw with ⟨q', hp⟩ | hf
              · simp [hnone] at hp
              · exact hf
            cases hquiet : d.quietAtMs with
            | some q' =>
                by_cases hx : x = d.incidentId
                · exact .inl ⟨q', by rw [hx]; simp⟩
                · refine .inr fun v hv => ?_
                  rcases hv.of_ingest hfresh hd with ⟨hx', -⟩ | ⟨-, hv⟩
                  · exact absurd hx' hx
                  · exact hold v hv
            | none =>
                refine .inr fun v hv => ?_
                rcases hv.of_ingest hfresh hd with ⟨rfl, hstate, -⟩ | ⟨-, hv⟩
                · -- no deadline: a new incident, which is not on the wheel, or a resolved one
                  rcases processEvent_quietAtMs (ingestEvent_commits hd).1 with ⟨t, ht, -⟩ | ⟨-, hid | hres⟩
                  · rw [hquiet] at ht
                    cases ht
                  · have hknown : s.db.core d.incidentId ≠ none := core_of_holds r (.inl ⟨q, hw⟩)
                    simp only [Request.fresh, Bool.and_eq_true, Option.isNone_iff_eq_none] at hfresh
                    rw [hid, Database.core, hfresh.1.1.1] at hknown
                    exact absurd rfl hknown
                  · rw [hstate] at hres
                    cases hres
                · exact hold v hv
          · exact ih x q hw
      | schedule =>
          obtain ⟨y, q', wheel, hp, hsched, rfl⟩ := timerNext_schedule hstep
          have hpend := pending_persisted r hp
          have hw : wheel.deadline x = some q := hw
          rw [TimerWheel.deadline_schedule (hsched hpend.1)] at hw
          split_ifs at hw with hxy
          · obtain rfl := Option.some.inj hw
            exact .inr fun v hv => hpend.2 v (hxy ▸ hv)
          · rcases ih x q hw with ⟨q'', hp'⟩ | hf
            · rw [hp] at hp'
              exact absurd (congrArg Prod.fst (Option.some.inj hp')).symm hxy
            · exact .inr hf
      | external freshEventId now action =>
          have hf := fun hf => Follows.of_timerNext (x := x) (q := q) r rfl hstep hf
          obtain ⟨hnone, rfl⟩ := timerNext_external hstep
          rcases ih x q hw with ⟨q', hp⟩ | hold
          · simp [hnone] at hp
          · exact .inr (hf hold)
      | sweep freshEventIds now moment =>
          have hf := fun hf => Follows.of_timerNext (x := x) (q := q) r rfl hstep hf
          obtain ⟨hnone, rfl⟩ := timerNext_sweep hstep
          rcases ih x q hw with ⟨q', hp⟩ | hold
          · simp [hnone] at hp
          · exact .inr (hf hold)
      | poll now =>
          obtain ⟨-, -, rfl⟩ := timerNext_poll hstep
          rw [TimerWheel.deadline_popDue, Option.filter_eq_some_iff] at hw
          exact ih x q hw.1
      | persist freshEventId now =>
          have hf := fun hf => Follows.of_timerNext (x := x) (q := q) r rfl hstep hf
          obtain ⟨hnone, trigger, rest, -, ⟨committed, db, -, rfl⟩ | rfl⟩ := timerNext_persist hstep
          · rcases ih x q hw with ⟨q', hp⟩ | hold
            · simp [hnone] at hp
            · exact .inr (hf hold)
          · exact ih x q hw
      | persistFails =>
          obtain ⟨-, rfl⟩ := timerNext_persistFails hstep
          exact ih x q hw
      | restart now =>
          obtain ⟨wheel, hrec, rfl⟩ := timerNext_restart hstep
          rw [hrec, Option.filter_eq_some_iff] at hw
          refine .inr fun v hv => ?_
          obtain ⟨i, hi, hs, hq⟩ := quietDeadline_eq_some.1 hw.1
          obtain ⟨j, hj, -, rfl⟩ := acknowledgedAt_iff.1 hv
          obtain rfl := Option.some.inj (hi.symm.trans hj)
          exact hq
  exact hinv x q hw

/-! ## The triggers in hand -/

omit [Field K] [LinearOrder K] in
/-- A timer transaction that moves its incident finds it acknowledged. -/
theorem acknowledgedAt_of_persistTrigger {freshEventId : String} {now : ℤ} {trigger : TimerTrigger}
    {db db' : Database K} (ht : trigger.trigger = .QUIET_DEADLINE)
    (h : persistTrigger rt freshEventId now trigger db = .ok (true, db')) :
    ∃ i, db.incidents.find? trigger.incidentId = some i ∧ i.status = .ACKNOWLEDGED := by
  unfold persistTrigger at h
  split at h
  · cases h
  · next d hd =>
      obtain ⟨i, next, hi, hn, -⟩ := deadlineDecision_eq_some hd
      rw [ht] at hn
      exact ⟨i, hi, (transitionState_quietDeadline.1 hn).1⟩

/-- **Every quiet deadline that fires is the persisted one**, over every run in which
no alert moves a deadline under a trigger in hand, and no poll pops a deadline
that is about to be replaced. -/
theorem quietDeadline_current (r : TimerRun rt h s) (hc : ∀ t ∈ h, KeepsTriggers rt t) :
    ∀ t ∈ h, FiresCurrent rt t := by
  have hinv : (∀ t ∈ h, FiresCurrent rt t) ∧
      ∀ trigger ∈ s.inHand, Follows s.db trigger.incidentId trigger.quietAtMs := by
    refine Run.induct_of_forall (C := KeepsTriggers rt)
      (I := fun h s => (∀ t ∈ h, FiresCurrent rt t) ∧
        ∀ trigger ∈ s.inHand, Follows s.db trigger.incidentId trigger.quietAtMs) r hc ?_ ?_
    · rintro _ rfl
      exact ⟨by simp, by simp [TimerState.start]⟩
    · rintro h s turn s' r - ⟨hcur, ih⟩ hkeep hstep
      constructor
      · -- the trigger that is persisted was in hand
        intro t ht
        rcases List.mem_cons.1 ht with rfl | ht
        · rintro freshEventId now trigger rest db rfl hhand hp
          have hmem : trigger ∈ s.inHand := by
            have hhand : s.inHand = trigger :: rest := hhand
            rw [hhand]
            exact List.mem_cons_self
          obtain ⟨i, hi, hs⟩ := acknowledgedAt_of_persistTrigger (inHand_trigger r trigger hmem) hp
          exact ⟨i, hi, ih trigger hmem _ (acknowledgedAt_iff.2 ⟨i, hi, hs, rfl⟩)⟩
        · exact hcur t ht
      · intro trigger ht
        cases turn with
        | ingest freshId freshGroupId now event =>
            obtain ⟨-, -, hfresh, ⟨d, db, hd, rfl⟩ | ⟨-, rfl⟩⟩ := timerNext_ingest hstep
            · intro v hv
              rcases hv.of_ingest hfresh hd with ⟨hid, hstate, rfl⟩ | ⟨-, hv⟩
              · exact hkeep d db hd hstate trigger ht hid
              · exact ih trigger ht v hv
            · exact ih trigger ht
        | schedule =>
            have hf := fun hf => Follows.of_timerNext (x := trigger.incidentId)
              (q := trigger.quietAtMs) r rfl hstep hf
            obtain ⟨y, q', wheel, -, -, rfl⟩ := timerNext_schedule hstep
            exact hf (ih trigger ht)
        | external freshEventId now action =>
            refine Follows.of_timerNext r rfl hstep ?_
            obtain ⟨-, rfl⟩ := timerNext_external hstep
            exact ih trigger ht
        | sweep freshEventIds now moment =>
            refine Follows.of_timerNext r rfl hstep ?_
            obtain ⟨-, rfl⟩ := timerNext_sweep hstep
            exact ih trigger ht
        | poll now =>
            obtain ⟨-, -, rfl⟩ := timerNext_poll hstep
            obtain ⟨hw, hdue, -⟩ := TimerWheel.mem_popDue.1 ht
            rcases wheel_follows r hw with ⟨q', hp⟩ | hf
            · intro v hv
              obtain rfl := (pending_persisted r hp).2 v hv
              rw [hkeep _ _ _ hp hv hw hdue]
            · exact hf
        | persist freshEventId now =>
            refine Follows.of_timerNext r rfl hstep ?_
            obtain ⟨-, first, rest, hhand, ⟨committed, db, -, rfl⟩ | rfl⟩ := timerNext_persist hstep
            · exact ih trigger (hhand ▸ List.mem_cons_of_mem _ ht)
            · cases ht
        | persistFails =>
            obtain ⟨-, rfl⟩ := timerNext_persistFails hstep
            cases ht
        | restart now =>
            obtain ⟨wheel, -, rfl⟩ := timerNext_restart hstep
            cases ht
  exact hinv.1

/-! ## Runs -/

/-- An alert is scheduled and its deadline fires. -/
def firesOnce : List TimerTurn :=
  [.ingest "incident-1" "group-1" 1000 (sampleEvent "event-1" "warning" .firing 1000), .schedule,
    .poll 6000, .persist "event-2" 6000]

/-- Nothing is in hand at an ingest, and nothing is pending at a poll. -/
def undisturbed (t : Transition (TimerState K) TimerTurn) : Bool :=
  match t.label with
  | .ingest .. => t.source.inHand.isEmpty
  | .poll _ => t.source.pending.isNone
  | _ => true

/-- A step that disturbs nothing keeps the triggers. -/
theorem keepsTriggers_of_undisturbed {t : Transition (TimerState K) TimerTurn}
    (h : undisturbed t = true) : KeepsTriggers rt t := by
  obtain ⟨s, label, s'⟩ := t
  cases label with
  | ingest freshId freshGroupId now event =>
      rintro d db - - trigger ht
      have hempty : s.inHand = [] := List.isEmpty_iff.1 h
      rw [hempty] at ht
      cases ht
  | poll now =>
      rintro x q q' hpend
      have hnone : s.pending = none := Option.isNone_iff_eq_none.1 h
      rw [hnone] at hpend
      cases hpend
  | _ => exact trivial

/-- A run in which the quiet deadline of an incident fires, and is the persisted one. -/
theorem quietDeadline_current_once : ∃ h s, TimerRun Runtime.reference h s ∧
    (s.db.incidents.find? "incident-1").map (·.status) = some .QUIESCENT ∧
    ∀ t ∈ h, FiresCurrent Runtime.reference t := by
  have hrun : (replay (timerNext Runtime.reference) firesOnce ([], TimerState.start)).map
      (fun r => (r.1.all undisturbed, (r.2.db.incidents.find? "incident-1").map (·.status))) =
      some (true, some .QUIESCENT) := by
    decide +kernel
  obtain ⟨h, s, r, hf⟩ := TimerRun.of_replay hrun
  obtain ⟨hall, hstatus⟩ := Prod.mk.inj hf
  refine ⟨h, s, r, hstatus, quietDeadline_current r fun t ht => ?_⟩
  exact keepsTriggers_of_undisturbed (List.all_eq_true.1 hall t ht)

/-- A process about to persist a trigger that will move its incident, whose persisted
deadline is another: the trigger's incident and deadline, and the persisted deadline. -/
def aboutToFire (s : TimerState K) (rt : Runtime K) (freshEventId : String) (now : ℤ) :
    Option (String × ℤ × Option ℤ) :=
  match s.pending, s.inHand with
  | none, trigger :: _ =>
      match persistTrigger rt freshEventId now trigger s.db with
      | .ok (true, _) =>
          (s.db.incidents.find? trigger.incidentId).map fun i =>
            (trigger.incidentId, trigger.quietAtMs, i.quietAtMs)
      | _ => none
  | _, _ => none

/-- Its next step is not current. -/
theorem exists_not_firesCurrent {freshEventId : String} {now : ℤ} {v : Option ℤ} (r : TimerRun rt h s)
    (hs : aboutToFire s rt freshEventId now = some (x, q, v)) (hv : v ≠ some q) :
    ∃ s', TimerRun rt (⟨s, .persist freshEventId now, s'⟩ :: h) s' ∧
      ¬ FiresCurrent rt ⟨s, .persist freshEventId now, s'⟩ := by
  unfold aboutToFire at hs
  split at hs
  · next trigger rest hpend hhand =>
      split at hs
      · next db hp =>
          obtain ⟨i, hi, hval⟩ := Option.map_eq_some_iff.1 hs
          simp only [Prod.mk.injEq] at hval
          obtain ⟨rfl, rfl, rfl⟩ := hval
          have hstep : timerNext rt s (.persist freshEventId now) =
              some { s with db := db, inHand := rest } := by
            rw [timerNext, hpend, hhand]
            simp [hp]
          refine ⟨_, r.next hstep, fun hcur => ?_⟩
          obtain ⟨j, hj, hq⟩ := hcur freshEventId now trigger rest db rfl hhand hp
          obtain rfl := Option.some.inj (hi.symm.trans hj)
          exact hv hq
      · cases hs
  · cases hs

/-- An alert moves the deadline of an incident whose trigger is in hand. -/
def movedInHand : List TimerTurn :=
  [.ingest "incident-1" "group-1" 1000 (sampleEvent "event-1" "warning" .firing 1000), .schedule,
    .poll 6000, .ingest "incident-2" "group-2" 6001 (sampleEvent "event-2" "warning" .firing 6001),
    .schedule]

/-- A poll falls between the commit of an alert and its schedule. -/
def polledBeforeSchedule : List TimerTurn :=
  [.ingest "incident-1" "group-1" 1000 (sampleEvent "event-1" "warning" .firing 1000), .schedule,
    .ingest "incident-2" "group-2" 6000 (sampleEvent "event-2" "warning" .firing 6000), .poll 6000,
    .schedule]

/-- **A stale quiet deadline fires**: the second alert has moved the deadline from 6000 to
11001, and the incident is quiescent at 6002. -/
theorem not_quietDeadline_current : ¬ ∀ h s, TimerRun Runtime.reference h s →
    ∀ t ∈ h, FiresCurrent Runtime.reference t := by
  intro hall
  have hrun : (replay (timerNext Runtime.reference) movedInHand ([], TimerState.start)).map
      (fun r => aboutToFire r.2 Runtime.reference "event-3" 6002) =
      some (some ("incident-1", 6000, some 11001)) := by
    decide +kernel
  obtain ⟨h, s, r, hs⟩ := TimerRun.of_replay hrun
  obtain ⟨s', r', hnot⟩ := exists_not_firesCurrent r hs (by decide)
  exact hnot (hall _ _ r' _ List.mem_cons_self)

/-- **And one that is replaced while it is popped**: no alert finds a trigger in hand, but
the poll comes between the commit of the second alert and its schedule. -/
theorem not_quietDeadline_current_of_poll : ¬ ∀ h s, TimerRun Runtime.reference h s →
    (∀ t ∈ h, t.label.isIngest = true → t.source.inHand = []) →
    ∀ t ∈ h, FiresCurrent Runtime.reference t := by
  intro hall
  have hrun : (replay (timerNext Runtime.reference) polledBeforeSchedule ([], TimerState.start)).map
      (fun r => (r.1.all fun t => !t.label.isIngest || t.source.inHand.isEmpty,
        aboutToFire r.2 Runtime.reference "event-3" 6002)) =
      some (true, some ("incident-1", 6000, some 11000)) := by
    decide +kernel
  obtain ⟨h, s, r, hf⟩ := TimerRun.of_replay hrun
  obtain ⟨hempty, hs⟩ := Prod.mk.inj hf
  obtain ⟨s', r', hnot⟩ := exists_not_firesCurrent r hs (by decide)
  refine hnot (hall _ _ r' (fun t ht hi => ?_) _ List.mem_cons_self)
  rcases List.mem_cons.1 ht with rfl | ht
  · cases hi
  · have hcheck := List.all_eq_true.1 hempty t ht
    rw [hi] at hcheck
    exact List.isEmpty_iff.1 (by simpa using hcheck)

end PulseGraph
