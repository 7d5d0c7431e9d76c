/-
# Runs of the engine with its timers

The engine of `PulseGraph.Engine.System` lets a quiet deadline fire for any
incident at any instant.  Here the deadlines come from the timer wheel of one
process, and the process may be restarted at any instant.

Between two awaits the event loop may run another task, so the deadline of an
incident is in up to four places at once: its row, the wheel, the hands of the
timer worker, which pops all that is due and then persists one trigger after the
other, and the ingest that has committed a decision and not yet scheduled its
deadline.  `DbWriter.process_event` keeps the write lock from its transaction to
the schedule: no transaction falls between the two, but a poll may.  An exception
ends the worker's task and the triggers still in its hands are gone.

What the steps do to the rows is read through `AcknowledgedAt`: an ingest writes
the deadline of its own incident, and every other transaction only makes
acknowledged incidents fewer.  `TimerRun.engineRun` says that the databases of
this system are among the engine's.
-/

import PulseGraph.Engine.Lifecycle

namespace PulseGraph

open Library (Table LazyQueue Run Transition)

variable {K : Type} (rt : Runtime K)

/-- A process with its database: the triggers popped and not yet persisted, and the
deadline an ingest has committed and not yet scheduled. -/
structure TimerState (K : Type) where
  db : Database K
  wheel : TimerWheel
  inHand : List TimerTrigger
  pending : Option (String × ℤ)
  running : Bool

/-- A process started on an empty database. -/
def TimerState.start : TimerState K where
  db := Database.empty
  wheel := LazyQueue.empty
  inHand := []
  pending := none
  running := true

/-- What happens next, with the values of `uuid4` it draws. -/
inductive TimerTurn where
  | ingest (freshId freshGroupId : String) (now : ℤ) (event : NormalizedEvent)
  | schedule
  | external (freshEventId : String) (now : ℤ) (action : ExternalAction)
  | sweep (freshEventIds : ℕ → String) (now moment : ℤ)
  | poll (now : ℤ)
  | persist (freshEventId : String) (now : ℤ)
  | persistFails
  | restart (now : ℤ)

variable [Field K] [LinearOrder K]

/-- One step.  A transaction needs the write lock, which an ingest holds until it has
scheduled its deadline; the clock of an ingest and of a restart counts from the epoch. -/
def timerNext (s : TimerState K) : TimerTurn → Option (TimerState K)
  | .ingest freshId freshGroupId now event =>
      if s.pending.isNone && decide (0 ≤ now) &&
          (Request.ingest freshId freshGroupId now event).fresh s.db then
        match ingestEvent rt freshId freshGroupId now event s.db with
        | .ok (d, db) =>
            some { s with db := db, pending := d.quietAtMs.map fun quietAtMs => (d.incidentId, quietAtMs) }
        | .error _ => some s
      else none
  | .schedule =>
      s.pending.map fun (incidentId, quietAtMs) =>
        match s.wheel.schedule incidentId quietAtMs with
        | .ok wheel => { s with wheel := wheel, pending := none }
        | .error _ => { s with pending := none }
  | .external freshEventId now action =>
      if s.pending.isNone then some { s with db := serve rt s.db (.external freshEventId now action) }
      else none
  | .sweep freshEventIds now moment =>
      if s.pending.isNone then some { s with db := serve rt s.db (.sweep freshEventIds now moment) }
      else none
  | .poll now =>
      if s.running && s.inHand.isEmpty then
        some { s with inHand := (s.wheel.popDue now).1, wheel := (s.wheel.popDue now).2 }
      else none
  | .persist freshEventId now =>
      if s.pending.isNone then
        match s.inHand with
        | [] => none
        | trigger :: rest =>
            match persistTrigger rt freshEventId now trigger s.db with
            | .ok (_, db) => some { s with db := db, inHand := rest }
            | .error _ => some { s with inHand := [], running := false }
      else none
  | .persistFails =>
      -- the database refuses the transaction; it leaves nothing behind
      if s.pending.isNone && !s.inHand.isEmpty then some { s with inHand := [], running := false }
      else none
  | .restart now =>
      if 0 ≤ now then
        match recoverPersistedDeadlines now s.db LazyQueue.empty with
        | .ok (_, wheel) =>
            some { db := s.db, wheel := wheel, inHand := [], pending := none, running := true }
        | .error _ => none
      else none

/-- **The runs of a process with its timers**, with their history. -/
def TimerRun : List (Transition (TimerState K) TimerTurn) → TimerState K → Prop :=
  Run (· = TimerState.start) fun s q s' => timerNext rt s q = some s'

/-! ## The steps -/

section Steps

variable {rt} {s s' : TimerState K}

/-- An ingest commits its decision and is about to schedule its deadline, or is rolled back. -/
theorem timerNext_ingest {freshId freshGroupId : String} {now : ℤ} {event : NormalizedEvent}
    (h : timerNext rt s (.ingest freshId freshGroupId now event) = some s') :
    s.pending = none ∧ 0 ≤ now ∧ (Request.ingest freshId freshGroupId now event).fresh s.db = true ∧
    ((∃ d db, ingestEvent rt freshId freshGroupId now event s.db = .ok (d, db) ∧
        s' = { s with db := db, pending := d.quietAtMs.map fun quietAtMs => (d.incidentId, quietAtMs) }) ∨
      (∃ e, ingestEvent rt freshId freshGroupId now event s.db = .error e) ∧ s' = s) := by
  rw [timerNext] at h
  split_ifs at h with hg
  simp only [Bool.and_eq_true, Option.isNone_iff_eq_none, decide_eq_true_eq] at hg
  refine ⟨hg.1.1, hg.1.2, hg.2, ?_⟩
  cases hr : ingestEvent rt freshId freshGroupId now event s.db with
  | ok r =>
      rw [hr] at h
      exact .inl ⟨r.1, r.2, rfl, (Option.some.inj h).symm⟩
  | error e =>
      rw [hr] at h
      exact .inr ⟨⟨e, rfl⟩, (Option.some.inj h).symm⟩

/-- A poll moves what is due from the wheel into the worker's hands. -/
theorem timerNext_poll {now : ℤ} (h : timerNext rt s (.poll now) = some s') :
    s.running = true ∧ s.inHand = [] ∧
      s' = { s with inHand := (s.wheel.popDue now).1, wheel := (s.wheel.popDue now).2 } := by
  rw [timerNext] at h
  split_ifs at h with hg
  obtain ⟨hrun, hempty⟩ := Bool.and_eq_true_iff.1 hg
  exact ⟨hrun, List.isEmpty_iff.1 hempty, (Option.some.inj h).symm⟩

/-- The worker persists the trigger it has in hand, or its task ends. -/
theorem timerNext_persist {freshEventId : String} {now : ℤ}
    (h : timerNext rt s (.persist freshEventId now) = some s') :
    s.pending = none ∧ ∃ trigger rest, s.inHand = trigger :: rest ∧
    ((∃ committed db, persistTrigger rt freshEventId now trigger s.db = .ok (committed, db) ∧
        s' = { s with db := db, inHand := rest }) ∨
      s' = { s with inHand := [], running := false }) := by
  rw [timerNext] at h
  split_ifs at h with hg
  refine ⟨Option.isNone_iff_eq_none.1 hg, ?_⟩
  split at h
  · simp at h
  · next trigger rest hhand =>
      refine ⟨trigger, rest, hhand, ?_⟩
      split at h
      · next committed db hp => exact .inl ⟨committed, db, hp, (Option.some.inj h).symm⟩
      · exact .inr (Option.some.inj h).symm

theorem timerNext_persistFails (h : timerNext rt s .persistFails = some s') :
    s.pending = none ∧ s' = { s with inHand := [], running := false } := by
  rw [timerNext] at h
  split_ifs at h with hg
  obtain ⟨hp, -⟩ := Bool.and_eq_true_iff.1 hg
  exact ⟨Option.isNone_iff_eq_none.1 hp, (Option.some.inj h).symm⟩

/-- An external action and a sweep are steps of the engine under the write lock. -/
theorem timerNext_external {freshEventId : String} {now : ℤ} {action : ExternalAction}
    (h : timerNext rt s (.external freshEventId now action) = some s') :
    s.pending = none ∧ s' = { s with db := serve rt s.db (.external freshEventId now action) } := by
  rw [timerNext] at h
  split_ifs at h with hg
  exact ⟨Option.isNone_iff_eq_none.1 hg, (Option.some.inj h).symm⟩

theorem timerNext_sweep {freshEventIds : ℕ → String} {now moment : ℤ}
    (h : timerNext rt s (.sweep freshEventIds now moment) = some s') :
    s.pending = none ∧ s' = { s with db := serve rt s.db (.sweep freshEventIds now moment) } := by
  rw [timerNext] at h
  split_ifs at h with hg
  exact ⟨Option.isNone_iff_eq_none.1 hg, (Option.some.inj h).symm⟩

/-- A restart leaves the database, and a wheel with the deadlines still ahead. -/
theorem timerNext_restart {now : ℤ} (h : timerNext rt s (.restart now) = some s') :
    ∃ wheel : TimerWheel, (∀ x, wheel.deadline x = (s.db.quietDeadline x).filter (now < ·)) ∧
      s' = { db := s.db, wheel := wheel, inHand := [], pending := none, running := true } := by
  rw [timerNext] at h
  split_ifs at h with hg
  obtain ⟨n, wheel, hrec, hd⟩ := deadline_recoverPersistedDeadlines s.db hg
  rw [hrec] at h
  exact ⟨wheel, hd, (Option.some.inj h).symm⟩

/-- The committed deadline is scheduled, unless it is negative. -/
theorem timerNext_schedule (h : timerNext rt s .schedule = some s') :
    ∃ x q wheel, s.pending = some (x, q) ∧ (0 ≤ q → s.wheel.schedule x q = .ok wheel) ∧
      s' = { s with wheel := wheel, pending := none } := by
  rw [timerNext] at h
  obtain ⟨⟨x, q⟩, hp, h⟩ := Option.map_eq_some_iff.1 h
  dsimp only at h
  split at h
  · next wheel hw => exact ⟨x, q, wheel, hp, fun _ => hw, h.symm⟩
  · next e hw =>
      refine ⟨x, q, s.wheel, hp, fun hq => ?_, h.symm⟩
      rw [TimerWheel.schedule_of_nonneg hq] at hw
      cases hw

end Steps

/-! ## The databases are the engine's -/

section Projection

variable {rt} {h : List (Transition (TimerState K) TimerTurn)} {s s' : TimerState K}

/-- **The database moves as the engine's does**, or stays. -/
theorem timerNext_db {q : TimerTurn} (htrig : ∀ t ∈ s.inHand, t.trigger = .QUIET_DEADLINE)
    (h : timerNext rt s q = some s') :
    s'.db = s.db ∨ ∃ q', engineNext rt s.db q' = some s'.db := by
  have hserve : ∀ q' : Request, q'.fresh s.db = true → engineNext rt s.db q' = some (serve rt s.db q') := by
    intro q' hf
    unfold engineNext
    rw [if_pos hf]
  cases q with
  | ingest freshId freshGroupId now event =>
      obtain ⟨-, -, hfresh, ⟨d, db, hd, rfl⟩ | ⟨-, rfl⟩⟩ := timerNext_ingest h
      · refine .inr ⟨.ingest freshId freshGroupId now event, (hserve _ hfresh).trans ?_⟩
        rw [serve, hd]
        rfl
      · exact .inl rfl
  | schedule =>
      obtain ⟨x, q, wheel, -, -, rfl⟩ := timerNext_schedule h
      exact .inl rfl
  | external freshEventId now action =>
      obtain ⟨-, rfl⟩ := timerNext_external h
      exact .inr ⟨_, hserve (.external freshEventId now action) rfl⟩
  | sweep freshEventIds now moment =>
      obtain ⟨-, rfl⟩ := timerNext_sweep h
      exact .inr ⟨_, hserve (.sweep freshEventIds now moment) rfl⟩
  | poll now =>
      obtain ⟨-, -, rfl⟩ := timerNext_poll h
      exact .inl rfl
  | persist freshEventId now =>
      obtain ⟨-, trigger, rest, hhand, ⟨committed, db, hp, rfl⟩ | rfl⟩ := timerNext_persist h
      · refine .inr ⟨.timer freshEventId now trigger.incidentId trigger.quietAtMs,
          (hserve _ rfl).trans ?_⟩
        have ht := htrig trigger (hhand ▸ List.mem_cons_self)
        have heq : ({ incidentId := trigger.incidentId, quietAtMs := trigger.quietAtMs } : TimerTrigger) =
            trigger := by rw [← ht]
        rw [serve, heq, hp]
        rfl
      · exact .inl rfl
  | persistFails =>
      obtain ⟨-, rfl⟩ := timerNext_persistFails h
      exact .inl rfl
  | restart now =>
      obtain ⟨wheel, -, rfl⟩ := timerNext_restart h
      exact .inl rfl

/-- What the worker has in hand are quiet deadlines. -/
theorem inHand_trigger (r : TimerRun rt h s) : ∀ t ∈ s.inHand, t.trigger = .QUIET_DEADLINE := by
  refine Run.induct (I := fun _ s => ∀ t ∈ s.inHand, t.trigger = .QUIET_DEADLINE) r ?_ ?_
  · rintro _ rfl t ht
    simp [TimerState.start] at ht
  · intro h s q s' _ ih hstep t ht
    cases q with
    | ingest freshId freshGroupId now event =>
        obtain ⟨-, -, -, ⟨d, db, -, rfl⟩ | ⟨-, rfl⟩⟩ := timerNext_ingest hstep
        · exact ih t ht
        · exact ih t ht
    | schedule =>
        obtain ⟨x, q, wheel, -, -, rfl⟩ := timerNext_schedule hstep
        exact ih t ht
    | external freshEventId now action =>
        obtain ⟨-, rfl⟩ := timerNext_external hstep
        exact ih t ht
    | sweep freshEventIds now moment =>
        obtain ⟨-, rfl⟩ := timerNext_sweep hstep
        exact ih t ht
    | poll now =>
        obtain ⟨-, -, rfl⟩ := timerNext_poll hstep
        exact (TimerWheel.mem_popDue.1 ht).2.2
    | persist freshEventId now =>
        obtain ⟨-, trigger, rest, hhand, ⟨committed, db, -, rfl⟩ | rfl⟩ := timerNext_persist hstep
        · exact ih t (hhand ▸ List.mem_cons_of_mem _ ht)
        · simp at ht
    | persistFails =>
        obtain ⟨-, rfl⟩ := timerNext_persistFails hstep
        simp at ht
    | restart now =>
        obtain ⟨wheel, -, rfl⟩ := timerNext_restart hstep
        simp at ht

/-- **The databases of a process with its timers are databases of the engine.** -/
theorem TimerRun.engineRun (r : TimerRun rt h s) : ∃ g, EngineRun rt g s.db := by
  refine Run.induct (I := fun _ s => ∃ g, EngineRun rt g s.db) r ?_ ?_
  · rintro _ rfl
    exact ⟨[], .start rfl⟩
  · rintro h s q s' r' ⟨g, hg⟩ hstep
    rcases timerNext_db (inHand_trigger r') hstep with hdb | ⟨q', hq'⟩
    · exact ⟨g, hdb ▸ hg⟩
    · exact ⟨_, hg.next hq'⟩

end Projection

/-! ## The acknowledged incidents -/

/-- An incident is acknowledged, and this is its persisted deadline. -/
def AcknowledgedAt (db : Database K) (x : String) (quietAtMs : Option ℤ) : Prop :=
  ∃ i, db.core x = some i ∧ i.status = .ACKNOWLEDGED ∧ i.quietAtMs = quietAtMs

section Acknowledged

variable {rt} {db db' : Database K} {x : String} {v : Option ℤ}

omit [Field K] [LinearOrder K]

theorem acknowledgedAt_iff : AcknowledgedAt db x v ↔
    ∃ i, db.incidents.find? x = some i ∧ i.status = .ACKNOWLEDGED ∧ i.quietAtMs = v := by
  constructor
  · rintro ⟨i, hi, hs, hq⟩
    obtain ⟨j, hj, rfl⟩ := exists_find?_of_core hi
    exact ⟨j, hj, hs, hq⟩
  · rintro ⟨i, hi, hs, hq⟩
    exact ⟨i.core, core_of_find? hi, hs, hq⟩

theorem AcknowledgedAt.known (h : AcknowledgedAt db x v) : db.core x ≠ none := by
  obtain ⟨i, hi, -⟩ := h
  rw [hi]
  simp

/-- Only an alert acknowledges an incident: the edge of an acknowledgement starts from `OPEN`. -/
theorem AcknowledgedAt.of_effect {trigger : Option Trigger} {targets : String → Prop}
    (heff : Effect trigger targets db db') (hopen : ∀ i, db.core x = some i → i.status ≠ .OPEN)
    (h : AcknowledgedAt db' x v) : AcknowledgedAt db x v := by
  obtain ⟨i', hi', hs, hq⟩ := h
  rcases heff.incidents x with ⟨hcore, -⟩ | ⟨-, i, i₁, row, hi, hi₁, -, hm⟩
  · exact ⟨i', hcore ▸ hi', hs, hq⟩
  · obtain rfl := Option.some.inj (hi₁.symm.trans hi')
    obtain ⟨t, ht, hedge⟩ := Option.bind_eq_some_iff.1 hm.edge
    rw [hs] at hedge
    have hne := hopen i hi
    cases hst : i.status <;> cases t <;> simp [hst, transitionState] at hedge hne

/-- A decision acknowledges its own incident or none. -/
theorem AcknowledgedAt.of_commits {now : ℤ} {d : EngineDecision} (hc : Commits rt now d db db')
    (h : AcknowledgedAt db' x v) :
    (x = d.incidentId ∧ d.state = .ACKNOWLEDGED ∧ d.quietAtMs = v) ∨
      x ≠ d.incidentId ∧ AcknowledgedAt db x v := by
  obtain ⟨i, hi, hs, hq⟩ := h
  by_cases hx : x = d.incidentId
  · subst hx
    obtain rfl := Option.some.inj (hc.core_self.symm.trans hi)
    rw [persistedIncident_status] at hs
    rw [persistedIncident_quietAtMs] at hq
    exact .inl ⟨rfl, hs, hq⟩
  · exact .inr ⟨hx, i, hc.core_of_ne hx ▸ hi, hs, hq⟩

/-- **A quiet deadline leaves its incident unacknowledged**, whether it is committed or
finds nothing to do. -/
theorem not_acknowledgedAt_of_persistTrigger {freshEventId : String} {now : ℤ} {trigger : TimerTrigger}
    {committed : Bool} (ht : trigger.trigger = .QUIET_DEADLINE)
    (h : persistTrigger rt freshEventId now trigger db = .ok (committed, db')) :
    ¬ AcknowledgedAt db' trigger.incidentId v := by
  rcases persistTrigger_commits h with ⟨hnone, rfl⟩ | ⟨d, hd, hp⟩
  · rintro ⟨i, hi, hs, -⟩
    obtain ⟨j, hj, rfl⟩ := exists_find?_of_core hi
    have hs : j.status = .ACKNOWLEDGED := hs
    unfold deadlineDecision at hnone
    rw [hj, Option.bind_some, ht, hs] at hnone
    simp [transitionState] at hnone
  · intro hack
    obtain ⟨i, next, hi, hn, hid, hst, -⟩ := deadlineDecision_eq_some hd
    rw [ht] at hn
    obtain ⟨-, rfl⟩ := transitionState_quietDeadline.1 hn
    rcases hack.of_commits (persistDecision_commits hp) with ⟨-, hs, -⟩ | ⟨hne, -⟩
    · rw [hst] at hs
      cases hs
    · exact hne hid.symm

end Acknowledged

section Runs

variable {rt} {h : List (Transition (TimerState K) TimerTurn)} {s s' : TimerState K} {x : String}
  {v : Option ℤ} {q : TimerTurn}

/-- Whether a turn is an ingest. -/
def TimerTurn.isIngest : TimerTurn → Bool
  | .ingest .. => true
  | _ => false

/-- No incident of a process with its timers is `OPEN`. -/
theorem TimerRun.core_ne_open (r : TimerRun rt h s) {i : Incident} (hi : s.db.core x = some i) :
    i.status ≠ .OPEN := by
  obtain ⟨g, hg⟩ := r.engineRun
  obtain ⟨j, hj, rfl⟩ := exists_find?_of_core hi
  exact @status_ne_open _ _ _ _ _ _ hg x j hj

/-- Every step but an ingest moves incidents without an alert. -/
theorem effect_of_timerNext (r : TimerRun rt h s) (hq : q.isIngest = false)
    (hstep : timerNext rt s q = some s') :
    ∃ trigger targets, Effect (K := K) trigger targets s.db s'.db := by
  have hsame : s'.db = s.db → ∃ trigger targets, Effect (K := K) trigger targets s.db s'.db := by
    intro heq
    rw [heq]
    exact ⟨none, fun _ => False, Effect.of_same (SameCore.refl s.db)⟩
  have hserve : ∀ q' : Request, q'.fresh s.db = true →
      (∀ freshId freshGroupId now event, q' ≠ .ingest freshId freshGroupId now event) →
      s'.db = serve rt s.db q' → ∃ trigger targets, Effect (K := K) trigger targets s.db s'.db := by
    intro q' hfresh hne hdb
    have hnext : engineNext rt s.db q' = some s'.db := by
      unfold engineNext
      rw [if_pos hfresh, hdb]
    rcases engineNext_cases hnext with ⟨a, b, c, e, -, rfl, -⟩ | ⟨-, heff⟩
    · exact absurd rfl (hne a b c e)
    · exact ⟨_, _, heff⟩
  cases q with
  | ingest freshId freshGroupId now event => cases hq
  | schedule =>
      obtain ⟨y, d, wheel, -, -, rfl⟩ := timerNext_schedule hstep
      exact hsame rfl
  | external freshEventId now action =>
      obtain ⟨-, rfl⟩ := timerNext_external hstep
      exact hserve (.external freshEventId now action) rfl (by simp) rfl
  | sweep freshEventIds now moment =>
      obtain ⟨-, rfl⟩ := timerNext_sweep hstep
      exact hserve (.sweep freshEventIds now moment) rfl (by simp) rfl
  | poll now =>
      obtain ⟨-, -, rfl⟩ := timerNext_poll hstep
      exact hsame rfl
  | persist freshEventId now =>
      obtain ⟨-, trigger, rest, hhand, ⟨committed, db, hp, rfl⟩ | rfl⟩ := timerNext_persist hstep
      · have ht := inHand_trigger r trigger (hhand ▸ List.mem_cons_self)
        have heq : trigger = { incidentId := trigger.incidentId, quietAtMs := trigger.quietAtMs } := by
          rw [← ht]
        rw [heq] at hp
        exact ⟨_, _, persistTrigger_effect hp⟩
      · exact hsame rfl
  | persistFails =>
      obtain ⟨-, rfl⟩ := timerNext_persistFails hstep
      exact hsame rfl
  | restart now =>
      obtain ⟨wheel, -, rfl⟩ := timerNext_restart hstep
      exact hsame rfl

/-- **Only an ingest acknowledges an incident**, or moves the deadline of one that is. -/
theorem AcknowledgedAt.of_timerNext (r : TimerRun rt h s) (hq : q.isIngest = false)
    (hstep : timerNext rt s q = some s') (ha : AcknowledgedAt s'.db x v) :
    AcknowledgedAt s.db x v := by
  obtain ⟨trigger, targets, heff⟩ := effect_of_timerNext r hq hstep
  exact ha.of_effect heff fun i hi => r.core_ne_open hi

/-- What an ingest that commits `d` and is about to schedule its deadline leaves acknowledged. -/
theorem AcknowledgedAt.of_ingest {freshId freshGroupId : String} {now : ℤ} {event : NormalizedEvent}
    {d : EngineDecision} {db' : Database K}
    (hfresh : (Request.ingest freshId freshGroupId now event).fresh s.db = true)
    (hd : ingestEvent rt freshId freshGroupId now event s.db = .ok (d, db'))
    (ha : AcknowledgedAt db' x v) :
    (x = d.incidentId ∧ d.state = .ACKNOWLEDGED ∧ d.quietAtMs = v) ∨
      x ≠ d.incidentId ∧ AcknowledgedAt s.db x v :=
  ha.of_commits (ingest_cases hfresh hd).1

/-- **The deadline an ingest is about to schedule is the persisted one**, and not negative. -/
theorem pending_persisted (r : TimerRun rt h s) {q : ℤ} (hp : s.pending = some (x, q)) :
    0 ≤ q ∧ ∀ v, AcknowledgedAt s.db x v → v = some q := by
  have hinv : ∀ x q, s.pending = some (x, q) → 0 ≤ q ∧ ∀ v, AcknowledgedAt s.db x v → v = some q := by
    refine Run.induct (I := fun _ s => ∀ x q, s.pending = some (x, q) →
      0 ≤ q ∧ ∀ v, AcknowledgedAt s.db x v → v = some q) r ?_ ?_
    · rintro _ rfl x q hp
      simp [TimerState.start] at hp
    · intro h s turn s' r ih hstep x q hp
      cases turn with
      | ingest freshId freshGroupId now event =>
          obtain ⟨hnone, hnow, hfresh, ⟨d, db, hd, rfl⟩ | ⟨-, rfl⟩⟩ := timerNext_ingest hstep
          · obtain ⟨q', hq', hx⟩ := Option.map_eq_some_iff.1 hp
            obtain ⟨rfl, rfl⟩ := Prod.mk.inj hx
            refine ⟨?_, fun v ha => ?_⟩
            · rcases processEvent_quietAtMs (ingestEvent_commits hd).1 with ⟨t, ht, hlt⟩ | ⟨hn, -⟩
              · obtain rfl := Option.some.inj (hq'.symm.trans ht)
                omega
              · rw [hn] at hq'
                cases hq'
            · rcases ha.of_ingest hfresh hd with ⟨-, -, hv⟩ | ⟨hne, -⟩
              · rw [← hv, hq']
              · exact absurd rfl hne
          · rw [hnone] at hp
            cases hp
      | schedule =>
          obtain ⟨y, d, wheel, -, -, rfl⟩ := timerNext_schedule hstep
          cases hp
      | external freshEventId now action =>
          obtain ⟨hnone, rfl⟩ := timerNext_external hstep
          exact absurd hp (by simp [hnone])
      | sweep freshEventIds now moment =>
          obtain ⟨hnone, rfl⟩ := timerNext_sweep hstep
          exact absurd hp (by simp [hnone])
      | poll now =>
          obtain ⟨-, -, rfl⟩ := timerNext_poll hstep
          exact ih x q hp
      | persist freshEventId now =>
          obtain ⟨hnone, trigger, rest, -, ⟨committed, db, -, rfl⟩ | rfl⟩ := timerNext_persist hstep
          · exact absurd hp (by simp [hnone])
          · exact absurd hp (by simp [hnone])
      | persistFails =>
          obtain ⟨hnone, rfl⟩ := timerNext_persistFails hstep
          exact absurd hp (by simp [hnone])
      | restart now =>
          obtain ⟨wheel, -, rfl⟩ := timerNext_restart hstep
          cases hp
  exact hinv x q hp

end Runs

/-! ## Processes to run -/

/-- What a replay from the start of a process computes is true of a run. -/
theorem TimerRun.of_replay {rt : Runtime K} {qs : List TimerTurn} {β : Type}
    {f : List (Transition (TimerState K) TimerTurn) × TimerState K → β} {b : β}
    (h : (Library.replay (timerNext rt) qs ([], TimerState.start)).map f = some b) :
    ∃ h s, TimerRun rt h s ∧ f (h, s) = b :=
  @Run.exists_of_replay _ _ (· = TimerState.start) _ _ _ _ _ _ rfl h

end PulseGraph
