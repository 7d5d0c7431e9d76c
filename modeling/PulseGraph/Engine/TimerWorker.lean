/-
# Quiet deadlines

`src/engine/timer_worker.py`: a due timer becomes a ledger-backed
`QUIET_DEADLINE` decision, for an acknowledged incident only, and is persisted
in a transaction of its own.  The decision leaves `reopen_count` and the flap
fields at their defaults.

At startup the wheel is filled from the acknowledged incidents whose deadline is
still ahead (`deadline_recoverPersistedDeadlines`).
-/

import PulseGraph.Engine.DbAdapter
import PulseGraph.Engine.TimerWheel

namespace PulseGraph

open Library (Json LazyQueue Table)

variable {K : Type} (rt : Runtime K)

/-- `value or default` of a text that may be missing. -/
def orDefault (value : Option String) (default : String) : String :=
  match value with
  | none => default
  | some s => if s = "" then default else s

theorem orDefault_of_ne {s default : String} (h : s ≠ "") : orDefault (some s) default = s := by
  unfold orDefault
  exact if_neg h

/-- The name of a trigger in a ledger payload. -/
def Trigger.text : Trigger → String
  | .ACKNOWLEDGE => "ACKNOWLEDGE"
  | .QUIET_TIMEOUT => "QUIET_TIMEOUT"
  | .QUIET_DEADLINE => "QUIET_DEADLINE"
  | .RESOLVE => "RESOLVE"
  | .REOPEN => "REOPEN"

/-- The synthetic event of a quiet deadline. -/
def deadlineEvent (freshEventId : String) (trigger : TimerTrigger) (i : Incident)
    (latest : Option RawEvent) : NormalizedEvent where
  eventId := freshEventId
  fingerprint := "lifecycle:" ++ trigger.incidentId ++ ":" ++ toString trigger.quietAtMs
  source := .generic
  service := orDefault (latest.map (·.service)) "pulsegraph-engine"
  alertname := orDefault (latest.map (·.alertname)) "QuietDeadline"
  severityRaw := orDefault (latest.map (·.severityRaw)) i.severity.text
  status := .firing
  labels := (latest.map (·.labels)).getD Labels.empty
  message := "Adaptive silence deadline reached for incident " ++ trigger.incidentId
  firedAt := DateTime.ofIsoMs i.lastAlertAt
  rawPayload := [("kind", .str "QUIET_DEADLINE"), ("incident_id", .str trigger.incidentId),
    ("quiet_at_ms", Json.int trigger.quietAtMs),
    ("source_event_id", Json.optStr (latest.map (·.eventId)))]

/-- `_deadline_decision`: a decision only for an incident the trigger has an edge from. -/
def deadlineDecision (freshEventId : String) (trigger : TimerTrigger) (db : Database K) :
    Option EngineDecision :=
  (db.incidents.find? trigger.incidentId).bind fun i =>
    (transitionState i.status trigger.trigger).map fun next =>
      { event := deadlineEvent freshEventId trigger i (db.latestEvent trigger.incidentId)
        incidentId := trigger.incidentId
        state := next
        isDuplicate := true
        severityFinal := i.severity
        alertCount := i.alertCount
        title := i.title
        summary := i.summary
        scopeKey := i.scopeKey
        stableFingerprint := i.stableFingerprint
        quietAtMs := none
        ewmaMeanGap := i.ewmaMeanGap
        ewmaVariance := i.ewmaVariance
        gapHistory := i.gapHistory
        cardChanges := ["STATE_ACKNOWLEDGED_TO_QUIESCENT"]
        decisionPayload := .obj [("event_id", .str freshEventId),
          ("incident_id", .str trigger.incidentId), ("trigger", .str trigger.trigger.text),
          ("quiet_at_ms", Json.int trigger.quietAtMs), ("state", .str next.text)]
        deliveryIntents :=
          [{ channel := .slack
             action := .update
             idempotencyKey := "quiet-deadline:" ++ trigger.incidentId ++ ":" ++
               toString trigger.quietAtMs ++ ":slack"
             payload := { incidentId := some trigger.incidentId, state := some next,
                          cardChange := some "STATE_ACKNOWLEDGED_TO_QUIESCENT" } }]
        rootCauseHint := i.rootCauseHint }

/-- `_persist_trigger`: whether a transition was committed, and the database after. -/
def persistTrigger (freshEventId : String) (now : ℤ) (trigger : TimerTrigger) (db : Database K) :
    Except EngineError (Bool × Database K) :=
  match deadlineDecision freshEventId trigger db with
  | none => .ok (false, db)
  | some d => do
      let db ← persistDecision rt now d db
      .ok (true, db)

/-! ## Recovery -/

/-- The deadline an acknowledged incident waits for. -/
def Database.quietDeadline (db : Database K) (x : String) : Option ℤ :=
  (db.incidents.find? x).bind fun i => if i.status = .ACKNOWLEDGED then i.quietAtMs else none

/-- The rows of `recover_persisted_deadlines`: the deadlines still ahead, the earliest first. -/
def persistedDeadlines (nowMs : ℤ) (db : Database K) : List (String × ℤ) :=
  let rows := db.incidents.select fun _ i =>
    i.status = .ACKNOWLEDGED && i.quietAtMs.any fun q => decide (nowMs < q)
  (rows.filterMap fun (incidentId, i) => i.quietAtMs.map (incidentId, ·)).insertionSort
    fun a b => a.2 ≤ b.2

/-- `recover_persisted_deadlines`: how many deadlines were scheduled, and the wheel after. -/
def recoverPersistedDeadlines (nowMs : ℤ) (db : Database K) (wheel : TimerWheel) :
    Except EngineError (ℕ × TimerWheel) := do
  let rows := persistedDeadlines nowMs db
  let wheel ← rows.foldlM (fun wheel row => wheel.schedule row.1 row.2) wheel
  .ok (rows.length, wheel)

section Recovery

variable {db : Database K} {x : String} {q now : ℤ}

theorem quietDeadline_eq_some : db.quietDeadline x = some q ↔
    ∃ i, db.incidents.find? x = some i ∧ i.status = .ACKNOWLEDGED ∧ i.quietAtMs = some q := by
  unfold Database.quietDeadline
  rw [Option.bind_eq_some_iff]
  refine exists_congr fun i => and_congr_right fun _ => ?_
  split_ifs with h <;> simp [h]

/-- The rows are the deadlines that are still ahead. -/
theorem mem_persistedDeadlines :
    (x, q) ∈ persistedDeadlines now db ↔ db.quietDeadline x = some q ∧ now < q := by
  unfold persistedDeadlines
  dsimp only
  rw [(List.perm_insertionSort _ _).mem_iff, List.mem_filterMap, quietDeadline_eq_some]
  constructor
  · rintro ⟨⟨y, i⟩, hmem, hq⟩
    obtain ⟨hi, hsel⟩ := Table.mem_select.1 hmem
    obtain ⟨q', hq', hxq⟩ := Option.map_eq_some_iff.1 hq
    obtain ⟨rfl, rfl⟩ := Prod.mk.inj hxq
    rw [hq'] at hsel
    simp only [Bool.and_eq_true, decide_eq_true_eq, Option.any_some] at hsel
    exact ⟨⟨i, hi, hsel.1, hq'⟩, hsel.2⟩
  · rintro ⟨⟨i, hi, hs, hq⟩, hlt⟩
    refine ⟨(x, i), Table.mem_select.2 ⟨hi, by simp [hs, hq, hlt]⟩, ?_⟩
    rw [hq]
    rfl

/-- Scheduling deadlines that are not negative gives a wheel in which each of their
incidents has one of them, and the others what they had. -/
theorem foldlM_schedule (rows : List (String × ℤ)) (wheel : TimerWheel)
    (hrows : ∀ row ∈ rows, 0 ≤ row.2) :
    ∃ wheel', rows.foldlM (fun wheel row => wheel.schedule row.1 row.2) wheel =
        (.ok wheel' : Except EngineError TimerWheel) ∧
      ∀ x, (∃ q, (x, q) ∈ rows ∧ wheel'.deadline x = some q) ∨
        (∀ q, (x, q) ∉ rows) ∧ wheel'.deadline x = wheel.deadline x := by
  induction rows generalizing wheel with
  | nil => exact ⟨wheel, rfl, fun x => .inr ⟨by simp, rfl⟩⟩
  | cons row rows ih =>
      have hrow : wheel.schedule row.1 row.2 = .ok (wheel.push row.1 row.2) :=
        TimerWheel.schedule_of_nonneg (hrows row List.mem_cons_self)
      obtain ⟨wheel', hw, hall⟩ := ih (wheel.push row.1 row.2)
        fun r hr => hrows r (List.mem_cons_of_mem _ hr)
      refine ⟨wheel', by rw [List.foldlM_cons, hrow]; exact hw, fun x => ?_⟩
      rcases hall x with ⟨q, hq, hd⟩ | ⟨hnot, hd⟩
      · exact .inl ⟨q, List.mem_cons_of_mem _ hq, hd⟩
      · rw [TimerWheel.deadline_schedule hrow] at hd
        by_cases hx : x = row.1
        · rw [if_pos hx] at hd
          exact .inl ⟨row.2, hx ▸ List.mem_cons_self, hd⟩
        · rw [if_neg hx] at hd
          refine .inr ⟨fun q hmem => ?_, hd⟩
          rcases List.mem_cons.1 hmem with heq | hmem
          · exact hx (congrArg Prod.fst heq)
          · exact hnot q hmem

/-- **Recovery always succeeds**, and an empty wheel then has the deadlines that are
still ahead, each as it is persisted, and no others. -/
theorem deadline_recoverPersistedDeadlines (db : Database K) (hnow : 0 ≤ now) :
    ∃ n wheel, recoverPersistedDeadlines now db LazyQueue.empty = .ok (n, wheel) ∧
      ∀ x, wheel.deadline x = (db.quietDeadline x).filter (now < ·) := by
  obtain ⟨wheel, hw, hall⟩ := foldlM_schedule (persistedDeadlines now db) LazyQueue.empty
    fun row hrow => hnow.trans (mem_persistedDeadlines.1 hrow).2.le
  refine ⟨_, wheel, by unfold recoverPersistedDeadlines; dsimp only; rw [hw]; rfl, fun x => ?_⟩
  rcases hall x with ⟨q, hq, hd⟩ | ⟨hnot, hd⟩
  · obtain ⟨hdb, hlt⟩ := mem_persistedDeadlines.1 hq
    rw [hd, hdb, Option.filter_some, if_pos (by simpa using hlt)]
  · rw [hd, LazyQueue.deadline_empty, eq_comm, Option.filter_eq_none_iff]
    intro q hq hlt
    exact hnot q (mem_persistedDeadlines.2 ⟨hq, by simpa using hlt⟩)

end Recovery

end PulseGraph
