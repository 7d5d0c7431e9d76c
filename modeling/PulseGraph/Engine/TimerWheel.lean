/-
# The timer wheel

`src/engine/timer_wheel.py`: the quiet deadlines a process holds in memory, one
for each incident.  The wheel is a deadline queue with lazy deletion, and
`TimerWheel.deadline` is what the rest of the engine may know of it:
`timerWheel_refines` says that every sequence of calls is answered as a map from
incidents to deadlines answers it.
-/

import PulseGraph.Contracts
import PulseGraph.Engine.IncidentMachine
import PulseGraph.Library.LazyQueue

namespace PulseGraph

open Library (LazyQueue)

/-- `TimerTrigger`. -/
structure TimerTrigger where
  incidentId : String
  quietAtMs : ℤ
  trigger : Trigger := .QUIET_DEADLINE

/-- `TimerWheel`. -/
abbrev TimerWheel : Type := LazyQueue String ℤ

namespace TimerWheel

/-- `schedule`: insert or replace one incident's dynamic quiet deadline. -/
def schedule (wheel : TimerWheel) (incidentId : String) (quietAtMs : ℤ) :
    Except EngineError TimerWheel :=
  if quietAtMs < 0 then .error (.valueError "quiet_at_ms must be non-negative")
  else .ok (wheel.push incidentId quietAtMs)

/-- `cancel`: whether there was a deadline to cancel, and the wheel without it. -/
def cancel (wheel : TimerWheel) (incidentId : String) : Bool × TimerWheel :=
  ((wheel.deadline incidentId).isSome, LazyQueue.cancel wheel incidentId)

/-- `pop_due`: the due, non-stale commands in deadline order, and the wheel without them. -/
def popDue (wheel : TimerWheel) (nowMs : ℤ) : List TimerTrigger × TimerWheel :=
  let (due, wheel) := LazyQueue.popDue wheel nowMs
  (due.map fun (incidentId, quietAtMs) => { incidentId, quietAtMs }, wheel)

variable {wheel wheel' : TimerWheel} {x y : String} {q now : ℤ}

/-- A deadline that is not negative is scheduled. -/
theorem schedule_of_nonneg (hq : 0 ≤ q) : wheel.schedule x q = .ok (wheel.push x q) :=
  if_neg (not_lt.2 hq)

/-- Scheduling one incident leaves the others alone. -/
theorem deadline_schedule (h : wheel.schedule x q = .ok wheel') (y : String) :
    wheel'.deadline y = if y = x then some q else wheel.deadline y := by
  unfold schedule at h
  split_ifs at h
  obtain rfl := Except.ok.inj h
  exact LazyQueue.deadline_push

/-- A cancelled deadline is gone, the others are not. -/
theorem deadline_cancel (wheel : TimerWheel) (x y : String) :
    (wheel.cancel x).2.deadline y = if y = x then none else wheel.deadline y :=
  LazyQueue.deadline_cancel

/-- **What is due is popped**, as a quiet deadline of its incident. -/
theorem mem_popDue {t : TimerTrigger} : t ∈ (wheel.popDue now).1 ↔
    wheel.deadline t.incidentId = some t.quietAtMs ∧ t.quietAtMs ≤ now ∧
      t.trigger = .QUIET_DEADLINE := by
  show t ∈ List.map _ _ ↔ _
  rw [List.mem_map]
  constructor
  · rintro ⟨⟨x, q⟩, hmem, rfl⟩
    obtain ⟨hd, hq⟩ := LazyQueue.mem_popDue.1 hmem
    exact ⟨hd, hq, rfl⟩
  · rintro ⟨hd, hq, ht⟩
    refine ⟨(t.incidentId, t.quietAtMs), LazyQueue.mem_popDue.2 ⟨hd, hq⟩, ?_⟩
    rw [← ht]

/-- **What is not due stays.** -/
theorem deadline_popDue (wheel : TimerWheel) (now : ℤ) (x : String) :
    (wheel.popDue now).2.deadline x = (wheel.deadline x).filter (now < ·) :=
  LazyQueue.deadline_popDue

/-- The commands come in deadline order. -/
theorem popDue_sorted (wheel : TimerWheel) (now : ℤ) :
    (wheel.popDue now).1.Pairwise fun a b => a.quietAtMs ≤ b.quietAtMs := by
  show (List.map _ _).Pairwise _
  rw [List.pairwise_map]
  exact LazyQueue.popDue_sorted wheel now

/-- `next_deadline_ms`: the next valid deadline, and the wheel without the obsolete entries above it. -/
def nextDeadlineMs (wheel : TimerWheel) : Option ℤ × TimerWheel := LazyQueue.next wheel

/-- `__len__`. -/
def len (wheel : TimerWheel) : ℕ := LazyQueue.size wheel

/-! ## The wheel as a map -/

/-- The calls. -/
inductive Call where
  | schedule (incidentId : String) (quietAtMs : ℤ)
  | cancel (incidentId : String)
  | popDue (nowMs : ℤ)
  | nextDeadlineMs
  | len

/-- What a call answers. -/
inductive Answer where
  | scheduled
  | raised (e : EngineError)
  | cancelled (found : Bool)
  | due (triggers : List TimerTrigger)
  | next (quietAtMs : Option ℤ)
  | length (n : ℕ)

/-- One call; one that raises leaves the wheel alone. -/
def call (wheel : TimerWheel) : Call → Answer × TimerWheel
  | .schedule incidentId quietAtMs => match wheel.schedule incidentId quietAtMs with
      | .ok wheel => (.scheduled, wheel)
      | .error e => (.raised e, wheel)
  | .cancel incidentId => (.cancelled (wheel.cancel incidentId).1, (wheel.cancel incidentId).2)
  | .popDue nowMs => (.due (wheel.popDue nowMs).1, (wheel.popDue nowMs).2)
  | .nextDeadlineMs => (.next wheel.nextDeadlineMs.1, wheel.nextDeadlineMs.2)
  | .len => (.length wheel.len, wheel)

/-- **What a map from incidents to deadlines answers**, and the map after it.  The order of triggers
with one deadline is left open. -/
inductive MapCall (m : String → Option ℤ) : Call → Answer → (String → Option ℤ) → Prop
  | schedule {x : String} {q : ℤ} : 0 ≤ q → MapCall m (.schedule x q) .scheduled (Function.update m x (some q))
  | reject {x : String} {q : ℤ} : q < 0 → MapCall m (.schedule x q)
      (.raised (.valueError "quiet_at_ms must be non-negative")) m
  | cancel {x : String} : MapCall m (.cancel x) (.cancelled (m x).isSome) (Function.update m x none)
  | popDue {now : ℤ} {triggers : List TimerTrigger} : (∀ t, t ∈ triggers ↔
        m t.incidentId = some t.quietAtMs ∧ t.quietAtMs ≤ now ∧ t.trigger = .QUIET_DEADLINE) →
      (triggers.map (·.incidentId)).Nodup → triggers.Pairwise (fun a b => a.quietAtMs ≤ b.quietAtMs) →
      MapCall m (.popDue now) (.due triggers) fun x => (m x).filter (now < ·)
  | next {q : ℤ} {x : String} : m x = some q → (∀ y q', m y = some q' → q ≤ q') →
      MapCall m .nextDeadlineMs (.next (some q)) m
  | nothing : (∀ x, m x = none) → MapCall m .nextDeadlineMs (.next none) m
  | len {keys : Finset String} : (∀ x, x ∈ keys ↔ (m x).isSome = true) →
      MapCall m .len (.length keys.card) m

/-- The calls of a sequence, one after the other. -/
def calls : List Call → TimerWheel → List Answer × TimerWheel
  | [], wheel => ([], wheel)
  | c :: cs, wheel => ((wheel.call c).1 :: (calls cs (wheel.call c).2).1, (calls cs (wheel.call c).2).2)

/-- The answers of a map to a sequence of calls. -/
inductive MapCalls : (String → Option ℤ) → List Call → List Answer → (String → Option ℤ) → Prop
  | nil {m} : MapCalls m [] [] m
  | cons {m m' m'' c cs a as} : MapCall m c a m' → MapCalls m' cs as m'' → MapCalls m (c :: cs) (a :: as) m''

/-- **One call** of a wheel is answered as its map answers it. -/
theorem mapCall_call (wheel : TimerWheel) (c : Call) :
    MapCall wheel.deadline c (wheel.call c).1 (wheel.call c).2.deadline := by
  cases c with
  | schedule x q =>
      unfold call
      dsimp only
      rcases lt_or_ge q 0 with hq | hq
      · have hraise : wheel.schedule x q = .error (.valueError "quiet_at_ms must be non-negative") := if_pos hq
        rw [hraise]
        exact .reject hq
      · have hok := @schedule_of_nonneg wheel x _ hq
        have hmap : (LazyQueue.push wheel x q).deadline = Function.update wheel.deadline x (some q) := by
          funext y
          rw [deadline_schedule hok, Function.update_apply]
        rw [hok]
        dsimp only
        rw [hmap]
        exact .schedule hq
  | cancel x =>
      have hmap : (wheel.cancel x).2.deadline = Function.update wheel.deadline x none := by
        funext y
        rw [deadline_cancel, Function.update_apply]
      unfold call
      dsimp only
      rw [hmap]
      exact .cancel
  | popDue now =>
      have hmap : (wheel.popDue now).2.deadline = fun x => (wheel.deadline x).filter (now < ·) :=
        funext fun x => deadline_popDue wheel now x
      unfold call
      dsimp only
      rw [hmap]
      refine .popDue (fun t => mem_popDue) ?_ (popDue_sorted wheel now)
      have hkeys := LazyQueue.popDue_nodup wheel now
      have hsame : (wheel.popDue now).1.map (·.incidentId) = (LazyQueue.popDue wheel now).1.map Prod.fst := by
        unfold popDue
        rw [List.map_map]
        rfl
      rw [hsame]
      exact hkeys
  | nextDeadlineMs =>
      unfold call
      dsimp only
      have hmap : wheel.nextDeadlineMs.2.deadline = wheel.deadline := rfl
      rw [hmap]
      cases hn : wheel.nextDeadlineMs.1 with
      | some q =>
          obtain ⟨⟨x, hx⟩, hle⟩ := LazyQueue.next_eq_some hn
          exact .next hx hle
      | none => exact .nothing (LazyQueue.next_eq_none hn)
  | len =>
      unfold call
      dsimp only
      obtain ⟨keys, hkeys, hcard⟩ := LazyQueue.size_eq_card wheel
      rw [len, hcard]
      exact .len hkeys

/-- A sequence of calls is. -/
theorem mapCalls_calls (cs : List Call) (wheel : TimerWheel) :
    MapCalls wheel.deadline cs (calls cs wheel).1 (calls cs wheel).2.deadline := by
  induction cs generalizing wheel with
  | nil => exact .nil
  | cons c cs ih => exact .cons (mapCall_call wheel c) (ih (wheel.call c).2)

/-- **The wheel refines a map**: every sequence of calls on a new wheel is answered as a map from
incidents to their latest deadlines answers it, whatever obsolete entries the heap still has. -/
theorem timerWheel_refines (cs : List Call) :
    MapCalls (fun _ => none) cs (calls cs LazyQueue.empty).1 (calls cs LazyQueue.empty).2.deadline :=
  mapCalls_calls cs LazyQueue.empty

end TimerWheel

end PulseGraph
