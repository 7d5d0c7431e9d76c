/-
# The lifecycle over runs

New and reopened incidents are acknowledged by the engine itself, so no reachable
incident is `OPEN` (`status_ne_open`) while `ACKNOWLEDGE` has an edge from `OPEN`
alone: no human acknowledgement is ever applied (`acknowledgement_never_lands`).

`persist_decision` writes `reopen_count` from the decision, and the decisions of
timers, external actions and sweeps leave it at its default, zero.  It counts the
reopenings of an incident as long as these act only on incidents that have not
been reopened (`reopenCount_eq_reopens`).
-/

import PulseGraph.Engine.System

namespace PulseGraph

open Library (Table Run Transition replay)

variable {K : Type} [Field K] [LinearOrder K] (rt : Runtime K)

/-! ## No incident is open -/

/-- An event never leaves an incident `OPEN` that was not. -/
theorem nextState_ne_open {s : IncidentState} (event : NormalizedEvent) (h : s ≠ .OPEN) :
    nextState s event ≠ .OPEN := by
  unfold nextState
  cases s with
  | OPEN => exact absurd rfl h
  | ACKNOWLEDGED => split_ifs <;> decide
  | QUIESCENT => split_ifs <;> decide
  | RESOLVED => split_ifs <;> decide

/-- No edge but a reopening enters `OPEN`. -/
theorem transitionState_ne_open {s s' : IncidentState} {trigger : Trigger} (hne : trigger ≠ .REOPEN)
    (h : transitionState s trigger = some s') : s' ≠ .OPEN := by
  rintro rfl
  cases s <;> cases trigger <;> simp [transitionState] at h hne

variable {rt} {h : List (Transition (Database K) Request)} {db : Database K}

/-- A request leaves no incident `OPEN` that was not. -/
theorem engineNext_ne_open {db' : Database K} {q : Request} (hstep : engineNext rt db q = some db')
    (h : ∀ x i, db.core x = some i → i.status ≠ .OPEN) : ∀ x i, db'.core x = some i → i.status ≠ .OPEN := by
  intro x i' hi'
  rcases engineNext_cases hstep with ⟨_, _, _, _, d, rfl, hfresh, hd⟩ | ⟨-, heff⟩
  · obtain ⟨hc, hcases⟩ := ingest_cases hfresh hd
    by_cases hx : x = d.incidentId
    · subst hx
      obtain rfl := Option.some.inj (hc.core_self.symm.trans hi')
      rw [persistedIncident_status]
      rcases hcases with ho | ⟨i, hcont⟩
      · exact ho.state
      · rw [hcont.state]
        exact nextState_ne_open _ (h _ _ hcont.known)
    · exact h x i' (hc.core_of_ne hx ▸ hi')
  · rcases heff.incidents x with ⟨hcore, -⟩ | ⟨-, i, i₁, row, hi, hi₁, -, hm⟩
    · exact h x i' (hcore ▸ hi')
    · obtain rfl := Option.some.inj (hi₁.symm.trans hi')
      obtain ⟨trigger, htr, hedge⟩ := Option.bind_eq_some_iff.1 hm.edge
      exact transitionState_ne_open (fun he => hm.not_reopen (he ▸ htr)) hedge

/-- **No reachable incident is `OPEN`.** -/
theorem status_ne_open (r : EngineRun rt h db) {x : String} {i : Incident}
    (hi : db.incidents.find? x = some i) : i.status ≠ .OPEN := by
  have hinv : ∀ x i, db.core x = some i → i.status ≠ .OPEN := by
    refine Run.induct (I := fun _ db => ∀ x i, db.core x = some i → i.status ≠ .OPEN) r ?_ ?_
    · rintro _ rfl x i hi
      simp [Database.core, Database.empty] at hi
    · intro h db q db' _ ih hstep
      exact engineNext_ne_open hstep ih
  exact hinv x i.core (core_of_find? hi)

/-! ## Human acknowledgement -/

/-- The channel an acknowledgement is reported to. -/
def otherChannel : Provider → Channel
  | .slack => .pagerduty
  | .pagerduty => .slack
  | .system => .slack

/-- An action an on-call engineer takes on an active incident nobody has acknowledged. -/
structure Acknowledges (action : ExternalAction) (db : Database K) : Prop where
  unseen : alreadySeen action.inboundId db = false
  kind : action.kind = .acknowledge
  provider : action.provider ≠ .system
  actor : ∃ name ≠ "", action.actor = some name
  active : ∃ i, db.incidents.find? action.incidentId = some i ∧ i.status ≠ .RESOLVED ∧
    i.acknowledgedBy = none

/-- The acknowledgement is applied, recorded, and reported to the other channel. -/
def AcknowledgementLands (rt : Runtime K) (freshEventId : String) (now : ℤ) (action : ExternalAction)
    (db : Database K) : Prop :=
  ∃ result db', applyExternalAction rt freshEventId now action db = .ok (result, db') ∧
    result.status = .applied ∧
    (∃ i, db'.incidents.find? action.incidentId = some i ∧ i.acknowledgedBy = action.actor ∧
      i.acknowledgedVia = some action.provider) ∧
    ∃ k row, db.outbox.find? k = none ∧ db'.outbox.find? k = some row ∧
      row.channel = otherChannel action.provider ∧ row.action = .update

/-- An acknowledgement of an incident that is not `OPEN` is not applied. -/
theorem acknowledge_not_applied {freshEventId : String} {now : ℤ} {action : ExternalAction}
    {i : Incident} (hk : action.kind = .acknowledge)
    (hi : db.incidents.find? action.incidentId = some i) (hs : i.status ≠ .OPEN) :
    ¬ AcknowledgementLands rt freshEventId now action db := by
  rintro ⟨result, db', happly, happlied, -⟩
  rcases applyExternalAction_cases happly with ⟨hnot, -⟩ | ⟨-, j, next, -, -, ha, -⟩
  · exact hnot happlied
  · obtain rfl := Option.some.inj (hi.symm.trans ha.known)
    have hedge : transitionState i.status .ACKNOWLEDGE = some next := by
      have := ha.edge
      rw [hk] at this
      exact this
    exact hs (transitionState_acknowledge.1 hedge).1

/-- **No human acknowledgement ever lands**: in every reachable state, whatever the
active incident and whoever acknowledges it. -/
theorem acknowledgement_never_lands (r : EngineRun rt h db) {action : ExternalAction}
    (ha : Acknowledges action db) (freshEventId : String) (now : ℤ) :
    ¬ AcknowledgementLands rt freshEventId now action db := by
  obtain ⟨i, hi, -, -⟩ := ha.active
  exact acknowledge_not_applied ha.kind hi (status_ne_open r hi)

/-- One alert leaves an acknowledged incident nobody has acknowledged. -/
def oneAlert : List Request :=
  [.ingest "incident-1" "group-1" 1000 (sampleEvent "event-1" "warning" .firing 1000)]

/-- An engineer acknowledges it in Slack. -/
def slackAcknowledge : ExternalAction := slackAction "click-1" .acknowledge "incident-1"

/-- A state in which an acknowledgement is due. -/
theorem exists_acknowledges : ∃ h db, EngineRun Runtime.reference h db ∧
    Acknowledges slackAcknowledge db := by
  have hrun : (replay (engineNext Runtime.reference) oneAlert ([], Database.empty)).map
      (fun s => (alreadySeen "click-1" s.2, (s.2.incidents.find? "incident-1").map
        fun i => (i.status, i.acknowledgedBy))) = some (false, some (.ACKNOWLEDGED, none)) := by
    decide +kernel
  obtain ⟨h, db, r, hf⟩ := EngineRun.of_replay hrun
  obtain ⟨hseen, hi⟩ := Prod.mk.inj hf
  obtain ⟨i, hi, hrow⟩ := Option.map_eq_some_iff.1 hi
  obtain ⟨hstatus, hack⟩ := Prod.mk.inj hrow
  exact ⟨h, db, r, hseen, rfl, by decide, ⟨"ada", by decide, rfl⟩, i, hi, by rw [hstatus]; decide, hack⟩

/-- An acknowledgement that does not land. -/
theorem acknowledgement_never_lands_in_slack : ∃ h db, EngineRun Runtime.reference h db ∧
    ¬ AcknowledgementLands Runtime.reference "event-2" 2000 slackAcknowledge db := by
  obtain ⟨h, db, r, ha⟩ := exists_acknowledges
  exact ⟨h, db, r, acknowledgement_never_lands r ha "event-2" 2000⟩

/-- **Human acknowledgement does not always land**: after one alert, a click on
Acknowledge in Slack is ignored. -/
theorem not_acknowledgement_lands : ¬ ∀ h db, EngineRun Runtime.reference h db →
    ∀ action, Acknowledges action db → ∀ freshEventId now,
      AcknowledgementLands Runtime.reference freshEventId now action db := by
  intro hall
  obtain ⟨h, db, r, ha⟩ := exists_acknowledges
  obtain ⟨i, hi, hactive, -⟩ := ha.active
  exact acknowledge_not_applied ha.kind hi (status_ne_open r hi) (hall h db r _ ha "event-2" 2000)

/-! ## Reopenings -/

/-- Whether a transition takes an incident from `RESOLVED` to an active state. -/
def comesBack (t : Transition (Database K) Request) (x : String) : Bool :=
  ((t.source.incidents.find? x).any fun i => i.status = .RESOLVED) &&
    (t.target.incidents.find? x).any fun i => i.status.active

/-- How often an incident came back in a run. -/
def reopens (h : List (Transition (Database K) Request)) (x : String) : ℕ :=
  h.countP fun t => comesBack t x

/-- Every incident a timer, an external action or a sweep acts on has not been
reopened when it does. -/
def KeepsReopenCount (rt : Runtime K) (t : Transition (Database K) Request) : Prop :=
  ∀ x i, Targets rt t.source x t.label → t.source.incidents.find? x = some i → i.reopenCount = 0

omit [Field K] [LinearOrder K] in
/-- Coming back is read off the cores. -/
theorem comesBack_eq (t : Transition (Database K) Request) (x : String) : comesBack t x =
    (((t.source.core x).any fun i => i.status = .RESOLVED) &&
      (t.target.core x).any fun i => i.status.active) := by
  unfold comesBack Database.core
  rw [Option.any_map, Option.any_map]
  rfl

omit [Field K] [LinearOrder K] in
theorem comesBack_of_core_eq {t : Transition (Database K) Request} {x : String}
    (h : t.target.core x = t.source.core x) : comesBack t x = false := by
  rw [comesBack_eq, h]
  cases hc : t.source.core x with
  | none => rfl
  | some i =>
      rw [Option.any_some, Option.any_some]
      cases hs : i.status <;> decide

/-- A resolved incident comes back with every event that is not resolved. -/
theorem nextState_of_resolved (event : NormalizedEvent) : nextState .RESOLVED event =
    if event.status = .resolved then .RESOLVED else .ACKNOWLEDGED := rfl

/-- `reopen_count` of an incident, zero while there is none. -/
def Database.reopenCount (db : Database K) (x : String) : ℕ := ((db.core x).map (·.reopenCount)).getD 0

/-- **One request counts the reopening it makes**, unless it acts without an alert on an incident
that was reopened before. -/
theorem reopenCount_step {q : Request} {db' : Database K} {x : String} (hstep : engineNext rt db q = some db')
    (hkeep : ∀ i, Targets rt db x q → db.incidents.find? x = some i → i.reopenCount = 0) :
    db'.reopenCount x = db.reopenCount x + if comesBack ⟨db, q, db'⟩ x then 1 else 0 := by
  unfold Database.reopenCount
  have hsame : db'.core x = db.core x →
      ((db'.core x).map (·.reopenCount)).getD 0 =
        ((db.core x).map (·.reopenCount)).getD 0 + if comesBack ⟨db, q, db'⟩ x then 1 else 0 := by
    intro heq
    rw [comesBack_of_core_eq heq, heq]
    rfl
  rcases engineNext_cases hstep with ⟨_, _, now, event, d, rfl, hfresh, hd⟩ | ⟨-, heff⟩
  · obtain ⟨hcommit, hcases⟩ := ingest_cases hfresh hd
    by_cases hx : x = d.incidentId
    · subst hx
      rw [comesBack_eq, hcommit.core_self, Option.map_some, Option.getD_some,
        persistedIncident_reopenCount]
      rcases hcases with ho | ⟨i, hcont⟩
      · rw [ho.unknown, ho.reopenCount]
        rfl
      · rw [hcont.known, Option.any_some, Option.any_some, persistedIncident_status,
          hcont.reopenCount, hcont.state, Option.map_some, Option.getD_some]
        by_cases hres : i.status = .RESOLVED
        · by_cases hev : event.status = .resolved
          · simp [hres, hev, nextState_of_resolved]
          · simp [hres, hev, nextState_of_resolved]
        · simp [hres]
    · exact hsame (hcommit.core_of_ne hx)
  · rcases heff.incidents x with ⟨hcore, -⟩ | ⟨htarget, i, i', row, hi, hi', -, hm⟩
    · exact hsame hcore
    · obtain ⟨trigger, htr, hedge⟩ := Option.bind_eq_some_iff.1 hm.edge
      have hres : i.status ≠ .RESOLVED := by
        intro hs
        rw [hs] at hedge
        exact hm.not_reopen (transitionState_resolved hedge ▸ htr)
      obtain ⟨j, hj, rfl⟩ := exists_find?_of_core hi
      have hzero : j.core.reopenCount = 0 := hkeep j htarget hj
      have hback : comesBack ⟨db, q, db'⟩ x = false := by
        rw [comesBack_eq, hi, Option.any_some, decide_eq_false hres, Bool.false_and]
      rw [hi, hi', hback, Option.map_some, Option.map_some, Option.getD_some, Option.getD_some,
        hm.reopenCount, hzero]
      rfl

/-- **`reopen_count` counts the reopenings**, over every run whose timers, external
actions and sweeps act on incidents that were not reopened. -/
theorem reopenCount_eq_reopens (r : EngineRun rt h db) (hc : ∀ t ∈ h, KeepsReopenCount rt t)
    {x : String} {i : Incident} (hi : db.incidents.find? x = some i) :
    i.reopenCount = reopens h x := by
  have hinv : ∀ x, db.reopenCount x = reopens h x := by
    refine Run.induct_of_forall (C := KeepsReopenCount rt)
      (I := fun h db => ∀ x, db.reopenCount x = reopens h x) r hc ?_ ?_
    · rintro _ rfl x
      rfl
    · intro h db q db' _ _ ih hkeep hstep x
      rw [reopenCount_step hstep (fun i => hkeep x i), ih x, reopens, reopens, List.countP_cons]
  have := hinv x
  rw [Database.reopenCount, core_of_find? hi] at this
  exact this

/-- The states of a run in which an incident is resolved by an operator and comes back. -/
def comesBackOnce : List Request :=
  [.ingest "incident-1" "group-1" 1000 (sampleEvent "event-1" "warning" .firing 1000),
    .external "event-2" 2000 (slackAction "click-1" .resolve "incident-1"),
    .ingest "incident-2" "group-2" 3000 (sampleEvent "event-3" "warning" .firing 3000)]

omit [Field K] [LinearOrder K] in
/-- A step keeps the count where it has no trigger, or nothing has been reopened yet. -/
theorem keepsReopenCount_of_check {t : Transition (Database K) Request}
    (h : (t.label.trigger.isNone || t.source.incidents.rows.all fun r => r.2.reopenCount = 0) = true) :
    KeepsReopenCount rt t := by
  intro x i ht hi
  rcases Bool.or_eq_true_iff.1 h with hnone | hall
  · have hsome := ht.trigger_isSome
    rw [Option.isNone_iff_eq_none.1 hnone] at hsome
    exact absurd hsome (by simp)
  · simpa using List.all_eq_true.1 hall _ (Table.find?_eq_some_iff.1 hi)

/-- The count over a run in which an operator resolves an incident once and it comes
back: the resolution acts on an incident that was not reopened. -/
theorem reopenCount_eq_reopens_once : ∃ h db i, EngineRun Runtime.reference h db ∧
    db.incidents.find? "incident-1" = some i ∧ i.reopenCount = reopens h "incident-1" ∧
    reopens h "incident-1" = 1 := by
  have hrun : (replay (engineNext Runtime.reference) comesBackOnce ([], Database.empty)).map
      (fun s => (s.1.all fun t =>
          t.label.trigger.isNone || t.source.incidents.rows.all fun r => r.2.reopenCount = 0,
        (s.2.incidents.find? "incident-1").isSome, reopens s.1 "incident-1")) =
      some (true, true, 1) := by
    decide +kernel
  obtain ⟨h, db, r, hf⟩ := EngineRun.of_replay hrun
  obtain ⟨hkeep, hrest⟩ := Prod.mk.inj hf
  obtain ⟨hsome, hone⟩ := Prod.mk.inj hrest
  obtain ⟨i, hi⟩ := Option.isSome_iff_exists.1 hsome
  refine ⟨h, db, i, r, hi, reopenCount_eq_reopens r (fun t ht => ?_) hi, hone⟩
  exact keepsReopenCount_of_check (List.all_eq_true.1 hkeep t ht)

/-- **`reopen_count` does not count the reopenings**: an incident that came back is
resolved once more in Slack, and its count is zero again. -/
theorem not_reopenCount_eq_reopens : ¬ ∀ h db, EngineRun Runtime.reference h db →
    ∀ x i, db.incidents.find? x = some i → i.reopenCount = reopens h x := by
  intro hall
  have hrun : (replay (engineNext Runtime.reference) (comesBackOnce ++
      [.external "event-4" 4000 (slackAction "click-2" .resolve "incident-1")])
      ([], Database.empty)).map (fun s =>
        ((s.2.incidents.find? "incident-1").map (·.reopenCount), reopens s.1 "incident-1")) =
      some (some 0, 1) := by
    decide +kernel
  obtain ⟨h, db, r, hf⟩ := EngineRun.of_replay hrun
  obtain ⟨hcount, hreopens⟩ := Prod.mk.inj hf
  obtain ⟨i, hi, hzero⟩ := Option.map_eq_some_iff.1 hcount
  have hfalse := hall h db r _ i hi
  rw [hzero] at hfalse
  exact absurd (hfalse.trans hreopens) (by decide)

end PulseGraph
