/-
# What the silence clock measures from

`silence_sweeper.py` measures silence from `last_ingested_at`, "how long since an alert
*arrived*".  The column is stamped by `persist_decision`, which alerts share with timers,
external actions and the sweeps themselves: it holds the instant of the latest decision
of any kind (`lastIngestedAt_eq`).  So it is the instant the latest alert arrived at
exactly when nothing but an alert has moved the incident since, or at that very instant
(`silenceClock_iff`).
-/

import PulseGraph.Engine.Decisions
import PulseGraph.Outbox.Deployment

namespace PulseGraph

open Library (Table Transition Run)

variable {K : Type} [Field K] [LinearOrder K] (rt : Runtime K)

/-! ## Two clocks of a history -/

/-- The instant at which a turn ingests an alert about the incident. -/
def arrivalAt (x : String) (t : Transition (Deployment K) Turn) : Option ℤ :=
  match t.label with
  | .request (.ingest freshId freshGroupId now event) =>
      match ingestEvent rt freshId freshGroupId now event t.source.db with
      | .ok (d, _) => if d.incidentId = x then some now else none
      | .error _ => none
  | _ => none

/-- The instant at which a turn moves the incident along its lifecycle. -/
def moveAt (x : String) (t : Transition (Deployment K) Turn) : Option ℤ :=
  match t.label with
  | .request q =>
      if (t.target.db.core x).map (·.status) = (t.source.db.core x).map (·.status) then none
      else some q.clock
  | .worker _ _ => none

/-- The instant at which the latest alert about the incident was ingested. -/
def lastArrival (x : String) : List (Transition (Deployment K) Turn) → Option ℤ
  | [] => none
  | t :: h => (arrivalAt rt x t).or (lastArrival x h)

/-- The instant of the latest timer, sweep or external action that has moved the incident since. -/
def movedSince (x : String) : List (Transition (Deployment K) Turn) → Option ℤ
  | [] => none
  | t :: h => if (arrivalAt rt x t).isSome then none else (moveAt x t).or (movedSince x h)

/-! ## What the column holds -/

section Clock

variable {rt} {s s' : Deployment K} {h : List (Transition (Deployment K) Turn)} {x : String}

omit [Field K] [LinearOrder K] in
/-- A decision is stamped with the instant it is persisted at. -/
theorem persistedIncident_lastIngestedAt {now : ℤ} {d : EngineDecision} {old : Option Incident} :
    (persistedIncident now d old).lastIngestedAt = some now := by
  have hstamp : ∀ i : Incident, (stampFlap now d i).lastIngestedAt = i.lastIngestedAt := by
    intro i
    unfold stampFlap
    dsimp only
    split_ifs <;> rfl
  cases old <;> exact hstamp _

omit [Field K] [LinearOrder K] in
theorem moveAt_of_same {q : Request} (h : s'.db.core x = s.db.core x) :
    moveAt x (⟨s, .request q, s'⟩ : Transition (Deployment K) Turn) = none := by
  unfold moveAt
  exact if_pos (by rw [h])

/-- What one turn does to the two clocks and the row of an incident. -/
theorem clocks_of_turn {turn : Turn} (hnext : deploymentNext rt s turn = some s') :
    (arrivalAt rt x ⟨s, turn, s'⟩ = none ∧
      moveAt x (⟨s, turn, s'⟩ : Transition (Deployment K) Turn) = none ∧ s'.db.core x = s.db.core x) ∨
    ∃ d now, s'.db.core x = some (persistedIncident now d (s.db.core x)) ∧
      (arrivalAt rt x ⟨s, turn, s'⟩ = some now ∨ arrivalAt rt x ⟨s, turn, s'⟩ = none ∧
        moveAt x (⟨s, turn, s'⟩ : Transition (Deployment K) Turn) = some now ∧
        (s.db.core x).isSome = true) := by
  cases turn with
  | worker w step =>
      have hframe := (deploymentNext_worker hnext).1.frame
      refine .inl ⟨rfl, rfl, ?_⟩
      rw [hframe]
      rfl
  | request q =>
      have hengine := (deploymentNext_request hnext).1
      rcases engineNext_decides hengine with ⟨freshId, freshGroupId, now, event, d, rfl, hr⟩ | ⟨hnot, hcore⟩
      · have hc := (ingestEvent_commits hr).2
        have harrives : arrivalAt rt x ⟨s, .request (.ingest freshId freshGroupId now event), s'⟩ =
            if d.incidentId = x then some now else none := by
          unfold arrivalAt
          dsimp only
          rw [hr]
        by_cases hx : d.incidentId = x
        · subst hx
          exact .inr ⟨d, now, hc.core_self, .inl (harrives.trans (if_pos rfl))⟩
        · have hsame := hc.core_of_ne (Ne.symm hx)
          exact .inl ⟨harrives.trans (if_neg hx), moveAt_of_same hsame, hsame⟩
      · -- no alert is committed
        have harrives : arrivalAt rt x ⟨s, .request q, s'⟩ = none := by
          unfold arrivalAt
          split
          · next freshId freshGroupId now event hlabel =>
              obtain rfl : q = .ingest freshId freshGroupId now event := by cases hlabel; rfl
              split
              · next d db' hok => exact absurd hok (hnot _ _ _ _ d db' rfl)
              · rfl
          · rfl
        rcases hcore x with hsame | ⟨i, d, hi, hd, hmoved⟩
        · exact .inl ⟨harrives, moveAt_of_same hsame, hsame⟩
        · refine .inr ⟨d, q.clock, hi ▸ hmoved, .inr ⟨harrives, ?_, by rw [hi]; rfl⟩⟩
          unfold moveAt
          refine if_neg ?_
          rw [hmoved, hi, Option.map_some, Option.map_some, persistedIncident_status, Option.some_inj]
          exact hd.state_ne

/-- **What `last_ingested_at` holds**: the instant of the latest decision about the incident,
whatever it came from; the first one was an alert's. -/
theorem lastIngestedAt_eq (r : DeploymentRun rt h s) {i : Incident} (hi : s.db.core x = some i) :
    i.lastIngestedAt = (movedSince rt x h).or (lastArrival rt x h) ∧ (lastArrival rt x h).isSome = true := by
  refine r.induct (I := fun h s => ∀ i, s.db.core x = some i →
    i.lastIngestedAt = (movedSince rt x h).or (lastArrival rt x h) ∧
      (lastArrival rt x h).isSome = true) ?_ ?_ i hi
  · rintro s rfl i hi
    simp [Deployment.initial, Database.core, Database.empty] at hi
  · intro h s turn s' _ ih hnext i hi
    rcases clocks_of_turn hnext with ⟨harrives, hmoves, hsame⟩ | ⟨d, now, hrow, hclock⟩
    · rw [movedSince, lastArrival, harrives, hmoves]
      exact ih i (hsame ▸ hi)
    · obtain rfl := Option.some.inj (hi.symm.trans hrow)
      rw [persistedIncident_lastIngestedAt]
      rcases hclock with harrives | ⟨harrives, hmoves, hknown⟩
      · rw [movedSince, lastArrival, harrives]
        exact ⟨rfl, rfl⟩
      · obtain ⟨i₀, hi₀⟩ := Option.isSome_iff_exists.1 hknown
        rw [movedSince, lastArrival, harrives, hmoves]
        exact ⟨rfl, (ih i₀ hi₀).2⟩

/-! ## What the sweeper reads -/

/-- Nothing but an alert has moved the incident since the latest one arrived, or only at that very
instant. -/
def Undisturbed (rt : Runtime K) (x : String) (h : List (Transition (Deployment K) Turn)) : Prop :=
  ∀ moved, movedSince rt x h = some moved → lastArrival rt x h = some moved

/-- **When silence is measured from the latest alert**: exactly when no timer, sweep or external
action has moved the incident since. -/
theorem silenceClock_iff (r : DeploymentRun rt h s) {i : Incident}
    (hi : s.db.incidents.find? x = some i) :
    ∃ arrived, lastArrival rt x h = some arrived ∧
      (i.lastIngestedAt = some arrived ↔ Undisturbed rt x h) ∧
      ∀ moment overdue, candidates rt moment s.db = .ok overdue → ∀ o ∈ overdue, o.incidentId = x →
        (o.silentFor = moment - arrived ↔ Undisturbed rt x h) := by
  obtain ⟨heq, hsome⟩ := lastIngestedAt_eq r (core_of_find? hi)
  obtain ⟨arrived, harrived⟩ := Option.isSome_iff_exists.1 hsome
  have hcol : i.lastIngestedAt = (movedSince rt x h).or (lastArrival rt x h) := heq
  have hiff : i.lastIngestedAt = some arrived ↔ Undisturbed rt x h := by
    rw [hcol, harrived, Undisturbed, harrived]
    cases movedSince rt x h with
    | none => simp
    | some moved => simp [eq_comm]
  refine ⟨arrived, harrived, hiff, fun moment overdue hover o ho hx => ?_⟩
  obtain ⟨j, hj, -, -, hsilent⟩ := mem_candidates hover ho
  obtain rfl := Option.some.inj ((hx ▸ hj).symm.trans hi)
  rw [← hiff, hsilent]
  -- the column is never empty
  obtain ⟨stamp, hstamp⟩ : ∃ stamp, j.lastIngestedAt = some stamp := by
    rw [hcol, harrived]
    cases movedSince rt x h <;> exact ⟨_, rfl⟩
  rw [hstamp, Option.getD_some, Option.some_inj]
  omega

end Clock

/-! ## Two runs -/

/-- An alert opens an incident, and its quiet deadline passes. -/
def quietens : List Turn :=
  [.request (.ingest "A" "unused" 1000 (alertOf "disk" "1")), .request (.timer "timer-1" 6000 "A" 6000)]

/-- With the next alert the column is right again. -/
theorem silenceClock_iff_again : ∃ h s i, DeploymentRun Runtime.reference h s ∧
    s.db.incidents.find? "A" = some i ∧ i.lastIngestedAt = some 9000 := by
  have hrun : (Library.replay (deploymentNext Runtime.reference)
      (quietens ++ [.request (.ingest "B" "unused" 9000 (alertOf "disk" "2"))])
      ([], Deployment.initial)).map (fun s => ((s.2.db.incidents.find? "A").isSome,
        lastArrival Runtime.reference "A" s.1, movedSince Runtime.reference "A" s.1)) =
      some (true, some 9000, none) := by decide +kernel
  obtain ⟨h, s, r, hs⟩ := DeploymentRun.of_replay hrun
  obtain ⟨hknown, hclocks⟩ := Prod.mk.inj hs
  obtain ⟨harrived, hmoved⟩ := Prod.mk.inj hclocks
  obtain ⟨i, hi⟩ := Option.isSome_iff_exists.1 hknown
  obtain ⟨arrived, heq, hiff, -⟩ := silenceClock_iff r hi
  obtain rfl := Option.some.inj (heq.symm.trans harrived)
  refine ⟨h, s, i, r, hi, hiff.2 fun moved hm => ?_⟩
  rw [hmoved] at hm
  cases hm

/-- **A quiet deadline restarts the silence clock** of an incident whose alert came long before. -/
theorem not_silenceClock : ¬ ∀ h s, DeploymentRun Runtime.reference h s → ∀ x i,
    s.db.incidents.find? x = some i → i.lastIngestedAt = lastArrival Runtime.reference x h := by
  intro hall
  have hrun : (Library.replay (deploymentNext Runtime.reference) quietens ([], Deployment.initial)).map
      (fun s => ((s.2.db.incidents.find? "A").map (·.lastIngestedAt),
        lastArrival Runtime.reference "A" s.1)) = some (some (some 6000), some 1000) := by decide +kernel
  obtain ⟨h, s, r, hs⟩ := DeploymentRun.of_replay hrun
  obtain ⟨hcolumn, harrived⟩ := Prod.mk.inj hs
  obtain ⟨i, hi, hstamp⟩ := Option.map_eq_some_iff.1 hcolumn
  have hsame := hall h s r "A" i hi
  rw [hstamp, harrived] at hsame
  exact absurd hsame (by decide)

end PulseGraph
