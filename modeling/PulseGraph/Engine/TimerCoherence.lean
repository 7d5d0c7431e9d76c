/-
# The wheel and the persisted deadlines

The deadline of an acknowledged incident is persisted in its row and awaited in
memory.  While a process is up the two agree: the deadline is on the wheel, where
the first poll at or after it takes it, or it is about to be scheduled, or its
trigger is in the worker's hands (`Awaited`).

Two things end that.  A restart schedules the deadlines that are still ahead and
leaves out those that have passed (`overdueAtRestart`); and a timer transaction
that fails ends the worker's task, with the triggers it has in hand
(`droppedTrigger`).  Both are read off the history since the last restart, and
nothing else loses a deadline (`deadline_awaited`).
-/

import PulseGraph.Engine.Timers

namespace PulseGraph

open Library (Run Transition replay)

variable {K : Type} [Field K] [LinearOrder K]

/-- The deadline is on the wheel, and the first poll at or after it takes it. -/
structure OnWheel (s : TimerState K) (x : String) (q : ℤ) : Prop where
  scheduled : s.wheel.deadline x = some q
  popped : ∀ now ≥ q, ∃ t ∈ (s.wheel.popDue now).1, t.incidentId = x ∧ t.quietAtMs = q

/-- The process awaits the deadline: on the wheel, or in the course of being scheduled or
fired. -/
def Awaited (s : TimerState K) (x : String) (q : ℤ) : Prop :=
  OnWheel s x q ∨ s.pending = some (x, q) ∨ ∃ t ∈ s.inHand, t.incidentId = x ∧ t.quietAtMs = q

/-- The last restart found the deadline already past. -/
def overdueAtRestart : List (Transition (TimerState K) TimerTurn) → String → ℤ → Prop
  | [], _, _ => False
  | t :: h, x, q =>
      match t.label with
      | .restart now => AcknowledgedAt t.source.db x (some q) ∧ q ≤ now
      | _ => overdueAtRestart h x q

/-- Since the last restart, the worker's task ended with a trigger of the deadline in hand. -/
def droppedTrigger : List (Transition (TimerState K) TimerTurn) → String → ℤ → Prop
  | [], _, _ => False
  | t :: h, x, q =>
      match t.label with
      | .restart _ => False
      | _ => (t.target.running = false ∧ ∃ trigger ∈ t.source.inHand,
          trigger.incidentId = x ∧ trigger.quietAtMs = q) ∨ droppedTrigger h x q

variable {rt : Runtime K} {h : List (Transition (TimerState K) TimerTurn)} {s s' : TimerState K}
  {x : String} {q : ℤ}

omit [Field K] [LinearOrder K] in
/-- A deadline on the wheel is popped by the first poll at or after it. -/
theorem OnWheel.of_deadline (hw : s.wheel.deadline x = some q) : OnWheel s x q :=
  ⟨hw, fun _ hnow => ⟨{ incidentId := x, quietAtMs := q },
    TimerWheel.mem_popDue.2 ⟨hw, hnow, rfl⟩, rfl, rfl⟩⟩

omit [Field K] [LinearOrder K] in
/-- What a step but a restart leaves awaited or lost stays so. -/
theorem awaited_or_lost {turn : TimerTurn} (hr : ∀ now, turn ≠ .restart now)
    (h' : Awaited s' x q ∨ (s'.running = false ∧ ∃ trigger ∈ s.inHand,
      trigger.incidentId = x ∧ trigger.quietAtMs = q) ∨ overdueAtRestart h x q ∨ droppedTrigger h x q) :
    Awaited s' x q ∨ overdueAtRestart (⟨s, turn, s'⟩ :: h) x q ∨
      droppedTrigger (⟨s, turn, s'⟩ :: h) x q := by
  rcases h' with ha | hdrop | hover | hdrop
  · exact .inl ha
  · cases turn with
    | restart now => exact absurd rfl (hr now)
    | _ => exact .inr (.inr (.inl hdrop))
  · cases turn with
    | restart now => exact absurd rfl (hr now)
    | _ => exact .inr (.inl hover)
  · cases turn with
    | restart now => exact absurd rfl (hr now)
    | _ => exact .inr (.inr (.inr hdrop))

/-- **The wheel covers the persisted deadlines**: in every run, the deadline of an
acknowledged incident is awaited, unless the last restart found it past, or the
worker's task has since ended with its trigger in hand. -/
theorem deadline_awaited (r : TimerRun rt h s) {i : Incident}
    (hi : s.db.incidents.find? x = some i) (hs : i.status = .ACKNOWLEDGED)
    (hq : i.quietAtMs = some q) :
    Awaited s x q ∨ overdueAtRestart h x q ∨ droppedTrigger h x q := by
  have hinv : ∀ x q, AcknowledgedAt s.db x (some q) →
      Awaited s x q ∨ overdueAtRestart h x q ∨ droppedTrigger h x q := by
    refine Run.induct (I := fun h s => ∀ x q, AcknowledgedAt s.db x (some q) →
      Awaited s x q ∨ overdueAtRestart h x q ∨ droppedTrigger h x q) r ?_ ?_
    · rintro _ rfl x q ha
      exact absurd rfl ha.known
    · intro h s turn s' r ih hstep x q ha
      cases turn with
      | ingest freshId freshGroupId now event =>
          refine awaited_or_lost nofun ?_
          obtain ⟨hnone, -, hfresh, ⟨d, db, hd, rfl⟩ | ⟨-, rfl⟩⟩ := timerNext_ingest hstep
          · rcases ha.of_ingest hfresh hd with ⟨rfl, -, hquiet⟩ | ⟨-, ha⟩
            · -- its own incident: the deadline is about to be scheduled
              refine .inl (.inr (.inl ?_))
              show d.quietAtMs.map _ = _
              rw [hquiet]
              rfl
            · rcases ih x q ha with (hw | hp | hh) | hlost
              · exact .inl (.inl (.of_deadline hw.scheduled))
              · simp [hnone] at hp
              · exact .inl (.inr (.inr hh))
              · exact .inr (.inr hlost)
          · rcases ih x q ha with haw | hlost
            · exact .inl haw
            · exact .inr (.inr hlost)
      | schedule =>
          refine awaited_or_lost nofun ?_
          have ha := ha.of_timerNext r rfl hstep
          obtain ⟨y, q', wheel, hp, hsched, rfl⟩ := timerNext_schedule hstep
          have hpend := pending_persisted r hp
          have hd := TimerWheel.deadline_schedule (hsched hpend.1) x
          by_cases hxy : x = y
          · -- what is scheduled is what is persisted
            have heq : q = q' := Option.some.inj (hpend.2 _ (hxy ▸ ha))
            rw [if_pos hxy, ← heq] at hd
            exact .inl (.inl (.of_deadline hd))
          · rw [if_neg hxy] at hd
            rcases ih x q ha with (hw | hp' | hh) | hlost
            · exact .inl (.inl (.of_deadline (hd.trans hw.scheduled)))
            · rw [hp] at hp'
              exact absurd (congrArg Prod.fst (Option.some.inj hp')).symm hxy
            · exact .inl (.inr (.inr hh))
            · exact .inr (.inr hlost)
      | external freshEventId now action =>
          refine awaited_or_lost nofun ?_
          have hold := ha.of_timerNext r rfl hstep
          obtain ⟨-, rfl⟩ := timerNext_external hstep
          rcases ih x q hold with (hw | hp | hh) | hlost
          · exact .inl (.inl (.of_deadline hw.scheduled))
          · exact .inl (.inr (.inl hp))
          · exact .inl (.inr (.inr hh))
          · exact .inr (.inr hlost)
      | sweep freshEventIds now moment =>
          refine awaited_or_lost nofun ?_
          have hold := ha.of_timerNext r rfl hstep
          obtain ⟨-, rfl⟩ := timerNext_sweep hstep
          rcases ih x q hold with (hw | hp | hh) | hlost
          · exact .inl (.inl (.of_deadline hw.scheduled))
          · exact .inl (.inr (.inl hp))
          · exact .inl (.inr (.inr hh))
          · exact .inr (.inr hlost)
      | poll now =>
          refine awaited_or_lost nofun ?_
          obtain ⟨-, hempty, rfl⟩ := timerNext_poll hstep
          rcases ih x q ha with (hw | hp | ⟨t, ht, -⟩) | hlost
          · by_cases hdue : q ≤ now
            · exact .inl (.inr (.inr (hw.popped now hdue)))
            · refine .inl (.inl (.of_deadline ?_))
              rw [TimerWheel.deadline_popDue, hw.scheduled, Option.filter_some,
                if_pos (by simpa using hdue)]
          · exact .inl (.inr (.inl hp))
          · rw [hempty] at ht
            cases ht
          · exact .inr (.inr hlost)
      | persist freshEventId now =>
          refine awaited_or_lost nofun ?_
          have hold := ha.of_timerNext r rfl hstep
          obtain ⟨-, trigger, rest, hhand, ⟨committed, db, hp, rfl⟩ | rfl⟩ := timerNext_persist hstep
          · rcases ih x q hold with (hw | hp' | ⟨t, ht, hx, hqt⟩) | hlost
            · exact .inl (.inl (.of_deadline hw.scheduled))
            · exact .inl (.inr (.inl hp'))
            · rw [hhand] at ht
              rcases List.mem_cons.1 ht with rfl | ht
              · -- its own trigger was persisted: the incident is not acknowledged any more
                have hqd := inHand_trigger r t (hhand ▸ List.mem_cons_self)
                exact absurd (hx ▸ ha) (not_acknowledgedAt_of_persistTrigger hqd hp)
              · exact .inl (.inr (.inr ⟨t, ht, hx, hqt⟩))
            · exact .inr (.inr hlost)
          · rcases ih x q hold with (hw | hp' | hh) | hlost
            · exact .inl (.inl (.of_deadline hw.scheduled))
            · exact .inl (.inr (.inl hp'))
            · exact .inr (.inl ⟨rfl, hh⟩)
            · exact .inr (.inr hlost)
      | persistFails =>
          refine awaited_or_lost nofun ?_
          obtain ⟨-, rfl⟩ := timerNext_persistFails hstep
          rcases ih x q ha with (hw | hp | hh) | hlost
          · exact .inl (.inl (.of_deadline hw.scheduled))
          · exact .inl (.inr (.inl hp))
          · exact .inr (.inl ⟨rfl, hh⟩)
          · exact .inr (.inr hlost)
      | restart now =>
          obtain ⟨wheel, hrec, rfl⟩ := timerNext_restart hstep
          by_cases hdue : q ≤ now
          · exact .inr (.inl ⟨ha, hdue⟩)
          · refine .inl (.inl (.of_deadline ?_))
            show wheel.deadline x = some q
            rw [hrec, quietDeadline_eq_some.2 (acknowledgedAt_iff.1 ha), Option.filter_some,
              if_pos (by simpa using hdue)]
  exact hinv x q (acknowledgedAt_iff.2 ⟨i, hi, hs, hq⟩)

/-! ## Runs -/

/-- The process dies between the commit of an alert and its schedule. -/
def diesBeforeSchedule : List TimerTurn :=
  [.ingest "incident-1" "group-1" 1000 (sampleEvent "event-1" "warning" .firing 1000), .restart 2000]

/-- A process that died before it had scheduled a deadline awaits it. -/
theorem deadline_awaited_after_restart : ∃ h s i, TimerRun Runtime.reference h s ∧
    s.db.incidents.find? "incident-1" = some i ∧ i.status = .ACKNOWLEDGED ∧
    i.quietAtMs = some 6000 ∧ (Awaited s "incident-1" 6000 ∨
      overdueAtRestart h "incident-1" 6000 ∨ droppedTrigger h "incident-1" 6000) := by
  have hrun : (replay (timerNext Runtime.reference) diesBeforeSchedule ([], TimerState.start)).map
      (fun r => (r.2.db.incidents.find? "incident-1").map fun i => (i.status, i.quietAtMs)) =
      some (some (.ACKNOWLEDGED, some 6000)) := by
    decide +kernel
  obtain ⟨h, s, r, hf⟩ := TimerRun.of_replay hrun
  obtain ⟨i, hi, hrow⟩ := Option.map_eq_some_iff.1 hf
  obtain ⟨hs, hq⟩ := Prod.mk.inj hrow
  exact ⟨h, s, i, r, hi, hs, hq, deadline_awaited r hi hs hq⟩

/-- The process is down when a deadline passes. -/
def downAtDeadline : List TimerTurn :=
  [.ingest "incident-1" "group-1" 1000 (sampleEvent "event-1" "warning" .firing 1000), .schedule,
    .restart 6000]

/-- **A deadline that passes while the process is down is not awaited** when it is up again:
the restart leaves it out, and the incident stays acknowledged. -/
theorem not_deadline_awaited : ¬ ∀ h s, TimerRun Runtime.reference h s → ∀ x i q,
    s.db.incidents.find? x = some i → i.status = .ACKNOWLEDGED → i.quietAtMs = some q →
    Awaited s x q := by
  intro hall
  have hrun : (replay (timerNext Runtime.reference) downAtDeadline ([], TimerState.start)).map
      (fun r => ((r.2.db.incidents.find? "incident-1").map fun i => (i.status, i.quietAtMs),
        (r.2.wheel.deadline "incident-1").isNone && r.2.pending.isNone && r.2.inHand.isEmpty)) =
      some (some (.ACKNOWLEDGED, some 6000), true) := by
    decide +kernel
  obtain ⟨h, s, r, hf⟩ := TimerRun.of_replay hrun
  obtain ⟨hinc, hmem⟩ := Prod.mk.inj hf
  simp only [Bool.and_eq_true, Option.isNone_iff_eq_none, List.isEmpty_iff] at hmem
  obtain ⟨⟨hwheel, hpend⟩, hhand⟩ := hmem
  obtain ⟨i, hi, hrow⟩ := Option.map_eq_some_iff.1 hinc
  obtain ⟨hs, hq⟩ := Prod.mk.inj hrow
  rcases hall h s r _ i _ hi hs hq with hw | hp | ⟨t, ht, -⟩
  · have hd := hw.scheduled
    rw [hwheel] at hd
    cases hd
  · rw [hpend] at hp
    cases hp
  · rw [hhand] at ht
    cases ht

end PulseGraph
