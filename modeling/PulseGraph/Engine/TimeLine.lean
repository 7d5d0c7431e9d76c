/-
# When an incident first and last fired

`schema.sql` keeps `first_alert_at` and `last_alert_at` in event time, "what the monitor
believes".  `persist_decision` sets the first once, from the alert that opens the incident, and
overwrites the second with every alert, whatever time the alert carries: the two columns are
the times of the alerts that *arrived* first and last.  Nothing else moves them, because a
timer, an external action or a sweep repeats the time it finds.

**Proved here.**  `timeLine_of_run`: in every run in which an identity takes no bypass, all its alerts
go to one incident, whose columns are the least and the greatest of their times if and only if
the first of them to arrive has the least time and the last to arrive the greatest.
`not_timeLine` is an alert that arrives late.
-/

import PulseGraph.Engine.Decisions

namespace PulseGraph

open Library (Run Transition)

variable {K : Type}

/-! ## What moves the two columns -/

/-- The first and the last time of an incident. -/
def Incident.times (i : Incident) : ℤ × ℤ := (i.firstAlertAt, i.lastAlertAt)

/-- The time of a decision's event, to the millisecond. -/
def EngineDecision.firedMs (d : EngineDecision) : ℤ := d.event.firedAt.isoMs

@[simp] theorem DateTime.isoMs_ofIsoMs (ms : ℤ) : (DateTime.ofIsoMs ms).isoMs = ms := by
  unfold DateTime.isoMs DateTime.ofIsoMs
  dsimp only
  omega

/-- A decision opens its incident at the time of its event, and moves the last time of a known one. -/
theorem times_persistedIncident (now : ℤ) (d : EngineDecision) (old : Option Incident) :
    (persistedIncident now d old).times = ((old.map (·.firstAlertAt)).getD d.firedMs, d.firedMs) := by
  have hstamp : ∀ i : Incident, (stampFlap now d i).times = i.times := by
    intro i
    unfold stampFlap
    dsimp only
    split_ifs <;> rfl
  cases old with
  | none => exact hstamp _
  | some i => exact hstamp _

section Requests

variable {rt : Runtime K} {db db' : Database K}

/-- A decision that repeats the last time of its incident leaves the times of all incidents alone. -/
theorem times_of_commits {now : ℤ} {d : EngineDecision} {i : Incident} (hc : Commits rt now d db db')
    (hi : db.core d.incidentId = some i) (hrepeat : d.firedMs = i.lastAlertAt) (x : String) :
    (db'.core x).map Incident.times = (db.core x).map Incident.times := by
  by_cases hx : x = d.incidentId
  · subst hx
    rw [hc.core_self, hi, Option.map_some, Option.map_some, times_persistedIncident, hrepeat]
    rfl
  · rw [hc.core_of_ne hx]

theorem persistTrigger_times {freshEventId : String} {now : ℤ} {trigger : TimerTrigger}
    {committed : Bool} (h : persistTrigger rt freshEventId now trigger db = .ok (committed, db'))
    (x : String) : (db'.core x).map Incident.times = (db.core x).map Incident.times := by
  rcases persistTrigger_commits h with ⟨-, rfl⟩ | ⟨d, hd, hp⟩
  · rfl
  obtain ⟨i, next, hi, -, hid, -, -, -, -, -, -, -, -, hev, -⟩ := deadlineDecision_eq_some hd
  refine times_of_commits (persistDecision_commits hp) (core_of_find? (hid ▸ hi)) ?_ x
  rw [EngineDecision.firedMs, hev]
  exact DateTime.isoMs_ofIsoMs _

variable [Field K] [LinearOrder K]

theorem applyExternalAction_times {freshEventId : String} {now : ℤ} {action : ExternalAction}
    {result : ReconcileResult} (h : applyExternalAction rt freshEventId now action db = .ok (result, db'))
    (x : String) : (db'.core x).map Incident.times = (db.core x).map Incident.times := by
  rcases applyExternalAction_cases h with ⟨-, -, hdb⟩ | ⟨-, i, next, d, db₁, ha, hd, hp, rfl⟩
  · rw [hdb]
    rfl
  obtain ⟨message, -, hid, -, -, -, -, -, -, -, -, hev, -⟩ := buildDecision_eq_ok hd
  have hc := (persistDecision_commits hp).trans_same (settleAction_sameCore now action i.status next)
  refine times_of_commits hc (core_of_find? (hid ▸ ha.known)) ?_ x
  rw [EngineDecision.firedMs, hev]
  exact DateTime.isoMs_ofIsoMs _

theorem sweepOnce_times {freshEventIds : ℕ → String} {now moment : ℤ} {n : ℕ}
    (h : sweepOnce rt freshEventIds now moment db = .ok (n, db')) (x : String) :
    (db'.core x).map Incident.times = (db.core x).map Incident.times := by
  refine sweepOnce_induct
    (P := fun a => (a.core x).map Incident.times = (db.core x).map Incident.times) h rfl ?_
  intro a b overdue o result k _ _ ha hstep
  exact (applyExternalAction_times hstep x).trans ha

/-- **A request without an alert** moves no times. -/
theorem serve_times {q : Request} (hno : ∀ freshId freshGroupId now event d db'',
      q = .ingest freshId freshGroupId now event →
      ingestEvent rt freshId freshGroupId now event db ≠ .ok (d, db'')) (x : String) :
    ((serve rt db q).core x).map Incident.times = (db.core x).map Incident.times := by
  cases q with
  | ingest freshId freshGroupId now event =>
      cases hr : ingestEvent rt freshId freshGroupId now event db with
      | ok r => exact absurd hr (hno _ _ _ _ r.1 r.2 rfl)
      | error e => rw [serve, hr]; rfl
  | timer freshEventId now incidentId quietAtMs =>
      cases hr : persistTrigger rt freshEventId now { incidentId, quietAtMs } db with
      | ok r => rw [serve, hr]; exact persistTrigger_times hr x
      | error e => rw [serve, hr]; rfl
  | external freshEventId now action =>
      cases hr : applyExternalAction rt freshEventId now action db with
      | ok r => rw [serve, hr]; exact applyExternalAction_times hr x
      | error e => rw [serve, hr]; rfl
  | sweep freshEventIds now moment =>
      cases hr : sweepOnce rt freshEventIds now moment db with
      | ok r => rw [serve, hr]; exact sweepOnce_times hr x
      | error e => rw [serve, hr]; rfl

end Requests

/-! ## The alerts of an identity -/

section Runs

variable [Field K] [LinearOrder K] (rt : Runtime K)

/-- The decision on an alert of the identity that a transition commits. -/
def arrivalOf (fingerprint scopeKey : String) (t : Transition (Database K) Request) :
    Option EngineDecision :=
  match t.label with
  | .ingest freshId freshGroupId now event =>
      match ingestEvent rt freshId freshGroupId now event t.source with
      | .ok (d, _) => if d.stableFingerprint = fingerprint ∧ d.scopeKey = scopeKey then some d else none
      | .error _ => none
  | _ => none

/-- The decisions on the alerts of the identity, the latest arrival first. -/
def arrivalsOf (fingerprint scopeKey : String) (h : List (Transition (Database K) Request)) :
    List EngineDecision :=
  h.filterMap (arrivalOf rt fingerprint scopeKey)

/-- The times of an incident, if it has the identity. -/
def timesOf (fingerprint scopeKey : String) (db : Database K) (x : String) : Option (ℤ × ℤ) :=
  (db.core x).bind fun i =>
    if i.stableFingerprint = fingerprint ∧ i.scopeKey = scopeKey then some i.times else none

/-- All alerts of the identity went to one incident, which opened at the time of the first arrival
and has the time of the latest; without one, no incident has the identity. -/
def OneTimeLine (fingerprint scopeKey : String) (alerts : List EngineDecision) (db : Database K) : Prop :=
  match alerts with
  | [] => ∀ x, timesOf fingerprint scopeKey db x = none
  | latest :: earlier => ∃ x, (∀ y, timesOf fingerprint scopeKey db y = if y = x then
      some (((latest :: earlier).getLast (List.cons_ne_nil _ _)).firedMs, latest.firedMs) else none)

variable {rt} {fingerprint scopeKey : String} {db db' : Database K}
  {h : List (Transition (Database K) Request)}

omit [Field K] [LinearOrder K] in
theorem OneTimeLine.of_same {alerts : List EngineDecision}
    (hsame : timesOf fingerprint scopeKey db' = timesOf fingerprint scopeKey db)
    (hI : OneTimeLine fingerprint scopeKey alerts db) : OneTimeLine fingerprint scopeKey alerts db' := by
  unfold OneTimeLine at *
  rwa [hsame]

omit [Field K] [LinearOrder K] in
/-- An alert of another identity. -/
theorem timesOf_of_other {now : ℤ} {freshId : String} {event : NormalizedEvent} {d : EngineDecision}
    (hc : Commits rt now d db db')
    (hcases : Opens rt freshId event d db ∨ ∃ i, Continues rt event d db i)
    (hother : ¬ (d.stableFingerprint = fingerprint ∧ d.scopeKey = scopeKey)) :
    timesOf fingerprint scopeKey db' = timesOf fingerprint scopeKey db := by
  funext x
  unfold timesOf
  by_cases hx : x = d.incidentId
  · subst hx
    rw [hc.core_self, Option.bind_some, persistedIncident_stableFingerprint, persistedIncident_scopeKey]
    rcases hcases with ho | ⟨i, hcont⟩
    · rw [ho.unknown]
      exact if_neg hother
    · rw [hcont.known, Option.bind_some]
      have hi : ¬ (i.stableFingerprint = fingerprint ∧ i.scopeKey = scopeKey) := by
        rwa [hcont.stableFingerprint, hcont.scopeKey]
      rw [if_neg hi]
      exact if_neg hi
  · rw [hc.core_of_ne hx]

omit [Field K] [LinearOrder K] in
/-- An alert of the identity that takes no bypass. -/
theorem OneTimeLine.alert {now : ℤ} {freshId : String} {event : NormalizedEvent} {d : EngineDecision}
    {alerts : List EngineDecision} (hc : Commits rt now d db db')
    (hcases : Opens rt freshId event d db ∨ ∃ i, Continues rt event d db i)
    (hid : d.stableFingerprint = fingerprint ∧ d.scopeKey = scopeKey)
    (hb : d.isCriticalBypass = false) (hI : OneTimeLine fingerprint scopeKey alerts db) :
    OneTimeLine fingerprint scopeKey (d :: alerts) db' := by
  refine ⟨d.incidentId, fun y => ?_⟩
  rcases hcases with ho | ⟨i, hcont⟩
  · -- it opens an incident, so it is the first
    have hnone : ∀ x, timesOf fingerprint scopeKey db x = none := by
      intro x
      cases hx : db.core x with
      | none => rw [timesOf, hx]; rfl
      | some i =>
          rw [timesOf, hx]
          exact if_neg fun hidi => ho.alone hb x i hx ⟨hidi.1.trans hid.1.symm, hidi.2.trans hid.2.symm⟩
    have hfirst : alerts = [] := by
      cases alerts with
      | nil => rfl
      | cons latest earlier =>
          obtain ⟨x, hx⟩ := hI
          have := hx x
          rw [hnone, if_pos rfl] at this
          cases this
    subst hfirst
    by_cases hy : y = d.incidentId
    · subst hy
      rw [if_pos rfl, timesOf, hc.core_self, Option.bind_some, persistedIncident_stableFingerprint,
        persistedIncident_scopeKey, times_persistedIncident, ho.unknown]
      exact if_pos hid
    · rw [if_neg hy, timesOf, hc.core_of_ne hy]
      exact hnone y
  · -- the incident has the identity already
    have hidi : i.stableFingerprint = fingerprint ∧ i.scopeKey = scopeKey :=
      ⟨hcont.stableFingerprint.trans hid.1, hcont.scopeKey.trans hid.2⟩
    have hhere : timesOf fingerprint scopeKey db d.incidentId = some i.times := by
      rw [timesOf, hcont.known]
      exact if_pos hidi
    cases alerts with
    | nil => exact absurd (hhere.symm.trans (hI _)) (by simp)
    | cons latest earlier =>
        obtain ⟨x, hx⟩ := hI
        have hxd : d.incidentId = x := by
          by_contra hne
          have := hx d.incidentId
          rw [hhere, if_neg hne] at this
          cases this
        subst hxd
        have htimes := hx d.incidentId
        rw [hhere, if_pos rfl, Option.some_inj] at htimes
        by_cases hy : y = d.incidentId
        · subst hy
          rw [if_pos rfl, timesOf, hc.core_self, Option.bind_some, persistedIncident_stableFingerprint,
            persistedIncident_scopeKey, times_persistedIncident, hcont.known]
          refine (if_pos hidi).trans ?_
          have hkeep : i.firstAlertAt = ((latest :: earlier).getLast (List.cons_ne_nil _ _)).firedMs :=
            congrArg Prod.fst htimes
          rw [List.getLast_cons (List.cons_ne_nil latest earlier), ← hkeep]
          rfl
        · have hrest := hx y
          rw [if_neg hy] at hrest ⊢
          rw [timesOf, hc.core_of_ne hy]
          exact hrest

/-- **Every run** whose alerts of the identity take no bypass has one time line. -/
theorem oneTimeLine_of_run (r : EngineRun rt h db) :
    (∀ d ∈ arrivalsOf rt fingerprint scopeKey h, d.isCriticalBypass = false) →
      OneTimeLine fingerprint scopeKey (arrivalsOf rt fingerprint scopeKey h) db := by
  refine Run.induct (I := fun h db => (∀ d ∈ arrivalsOf rt fingerprint scopeKey h,
    d.isCriticalBypass = false) → OneTimeLine fingerprint scopeKey (arrivalsOf rt fingerprint scopeKey h) db)
    r ?_ ?_
  · rintro db rfl -
    exact fun _ => rfl
  · intro h db q db' _ ih hstep hb
    have hcons : arrivalsOf rt fingerprint scopeKey (⟨db, q, db'⟩ :: h) =
        (arrivalOf rt fingerprint scopeKey ⟨db, q, db'⟩).toList ++ arrivalsOf rt fingerprint scopeKey h := by
      unfold arrivalsOf
      rw [List.filterMap_cons]
      cases arrivalOf rt fingerprint scopeKey ⟨db, q, db'⟩ <;> rfl
    rw [hcons] at hb ⊢
    have hI := ih fun d hd => hb d (List.mem_append_right _ hd)
    rcases engineNext_cases hstep with ⟨freshId, freshGroupId, now, event, d, rfl, hfresh, hr⟩ | ⟨hno, heffect⟩
    · obtain ⟨hc, hcases⟩ := ingest_cases hfresh hr
      by_cases hid : d.stableFingerprint = fingerprint ∧ d.scopeKey = scopeKey
      · have hlabel : arrivalOf rt fingerprint scopeKey
            ⟨db, .ingest freshId freshGroupId now event, db'⟩ = some d := by
          unfold arrivalOf
          dsimp only
          rw [hr]
          exact if_pos hid
        rw [hlabel] at hb ⊢
        exact hI.alert hc hcases hid (hb d (by simp))
      · have hlabel : arrivalOf rt fingerprint scopeKey
            ⟨db, .ingest freshId freshGroupId now event, db'⟩ = none := by
          unfold arrivalOf
          dsimp only
          rw [hr]
          exact if_neg hid
        rw [hlabel]
        exact hI.of_same (timesOf_of_other hc hcases hid)
    · have hlabel : arrivalOf rt fingerprint scopeKey ⟨db, q, db'⟩ = none := by
        unfold arrivalOf
        split
        · next freshId freshGroupId now event heq =>
            split
            · next d db'' hok => exact absurd hok (hno _ _ _ _ d db'' heq)
            · rfl
        · rfl
      rw [hlabel]
      refine hI.of_same (funext fun x => ?_)
      have htimes := serve_times hno x
      rw [serve_of_engineNext hstep] at htimes
      unfold timesOf
      rcases heffect.incidents x with ⟨hcore, -⟩ | ⟨-, i, i', row, hi, hi', -, hmoved⟩
      · rw [hcore]
      · rw [hi, hi', Option.bind_some, Option.bind_some, hmoved.stableFingerprint, hmoved.scopeKey]
        rw [hi, hi'] at htimes
        rw [Option.some.inj htimes]

end Runs

/-! ## Least and greatest -/

/-- The columns are the least and the greatest time of the alerts. -/
structure TimeLine (alerts : List EngineDecision) (i : Incident) : Prop where
  first : IsLeast {t | ∃ d ∈ alerts, d.firedMs = t} i.firstAlertAt
  last : IsGreatest {t | ∃ d ∈ alerts, d.firedMs = t} i.lastAlertAt

/-- No alert has an earlier time than the first to arrive, nor a later one than the last. -/
def ArrivesInOrder (alerts : List EngineDecision) : Prop :=
  ∀ d ∈ alerts, (∀ first ∈ alerts.getLast?, first.firedMs ≤ d.firedMs) ∧
    ∀ latest ∈ alerts.head?, d.firedMs ≤ latest.firedMs

theorem timeLine_iff {latest : EngineDecision} {earlier : List EngineDecision} {i : Incident}
    (htimes : i.times =
      (((latest :: earlier).getLast (List.cons_ne_nil _ _)).firedMs, latest.firedMs)) :
    TimeLine (latest :: earlier) i ↔ ArrivesInOrder (latest :: earlier) := by
  obtain ⟨hfirst, hlast⟩ := Prod.mk.inj htimes
  have hlastmem := List.getLast_mem (List.cons_ne_nil latest earlier)
  unfold ArrivesInOrder
  rw [List.getLast?_eq_some_getLast (List.cons_ne_nil latest earlier)]
  constructor
  · rintro ⟨⟨-, hleast⟩, -, hgreatest⟩ d hd
    refine ⟨fun first hf => ?_, fun l hl => ?_⟩
    · obtain rfl := Option.some.inj hf
      exact hfirst ▸ hleast ⟨d, hd, rfl⟩
    · obtain rfl := Option.some.inj hl
      exact hlast ▸ hgreatest ⟨d, hd, rfl⟩
  · intro h
    refine ⟨⟨⟨_, hlastmem, hfirst.symm⟩, ?_⟩, ⟨latest, List.mem_cons_self, hlast.symm⟩, ?_⟩
    · rintro t ⟨d, hd, rfl⟩
      exact hfirst ▸ (h d hd).1 _ rfl
    · rintro t ⟨d, hd, rfl⟩
      exact hlast ▸ (h d hd).2 _ rfl

/-- **The time line of an identity.**  In every run in which the alerts of an identity take no bypass,
they all go to one incident, the only one of the identity; its first and last times are the
least and the greatest among them if and only if the alert that arrived first has the least
time and the one that arrived last the greatest. -/
theorem timeLine_of_run [Field K] [LinearOrder K] {rt : Runtime K} {fingerprint scopeKey : String}
    {db : Database K} {h : List (Transition (Database K) Request)} (r : EngineRun rt h db)
    (hb : ∀ d ∈ arrivalsOf rt fingerprint scopeKey h, d.isCriticalBypass = false)
    (hne : arrivalsOf rt fingerprint scopeKey h ≠ []) :
    ∃ x i, db.core x = some i ∧ i.stableFingerprint = fingerprint ∧ i.scopeKey = scopeKey ∧
      (∀ y j, db.core y = some j → j.stableFingerprint = fingerprint → j.scopeKey = scopeKey → y = x) ∧
      (TimeLine (arrivalsOf rt fingerprint scopeKey h) i ↔
        ArrivesInOrder (arrivalsOf rt fingerprint scopeKey h)) := by
  have hI := oneTimeLine_of_run r hb
  obtain ⟨alerts, halerts⟩ : ∃ alerts, arrivalsOf rt fingerprint scopeKey h = alerts := ⟨_, rfl⟩
  rw [halerts] at hI hne ⊢
  cases alerts with
  | nil => exact absurd rfl hne
  | cons latest earlier =>
      obtain ⟨x, hx⟩ := hI
      have hself := hx x
      rw [if_pos rfl, timesOf, Option.bind_eq_some_iff] at hself
      obtain ⟨i, hi, hid⟩ := hself
      split_ifs at hid with hidentity
      refine ⟨x, i, hi, hidentity.1, hidentity.2, fun y j hj hfp hscope => ?_,
        timeLine_iff (Option.some.inj hid)⟩
      by_contra hne
      have hy := hx y
      rw [if_neg hne, timesOf, hj, Option.bind_some, if_pos ⟨hfp, hscope⟩] at hy
      cases hy

/-! ## A late alert -/

/-- Two alerts of one identity, the second with the given time. -/
def twoTimes (secondMs : ℤ) : List Request :=
  [.ingest "incident-1" "group-1" 5000 (sampleEvent "event-1" "high" .firing 2000),
    .ingest "incident-2" "group-2" 6000 (sampleEvent "event-2" "high" .firing secondMs)]

/-- The fingerprint of these alerts. -/
def diskFingerprint : String :=
  generateFingerprint Runtime.reference (eventPayload (sampleEvent "event-1" "high" .firing 0)
    (scopeKeyFor (sampleEvent "event-1" "high" .firing 0)))

/-- Their scope. -/
def diskScope : String := scopeKeyFor (sampleEvent "event-1" "high" .firing 0)

/-- What a replay of the two alerts shows: them, the latest arrival first, and their incident. -/
def timesAfter (secondMs : ℤ) : Option (List (ℤ × Bool × EventStatus) × Option (Bool × ℤ × ℤ)) :=
  (Library.replay (engineNext Runtime.reference) (twoTimes secondMs) ([], Database.empty)).map fun s =>
    ((arrivalsOf Runtime.reference diskFingerprint diskScope s.1).map fun d =>
        (d.firedMs, d.isCriticalBypass, d.event.status),
      (s.2.core "incident-1").map fun i =>
        (decide (i.stableFingerprint = diskFingerprint ∧ i.scopeKey = diskScope), i.times))

theorem firing_of_map {alerts : List EngineDecision} {a b : ℤ}
    (h : alerts.map (fun d => (d.firedMs, d.isCriticalBypass, d.event.status)) =
      [(a, false, .firing), (b, false, .firing)]) :
    ∀ d ∈ alerts, d.isCriticalBypass = false ∧ d.event.status = .firing := by
  intro d hd
  have hmem := List.mem_map_of_mem
    (f := fun d : EngineDecision => (d.firedMs, d.isCriticalBypass, d.event.status)) hd
  rw [h] at hmem
  simp only [List.mem_cons, Prod.mk.injEq, List.not_mem_nil, or_false] at hmem
  rcases hmem with ⟨-, hb, hs⟩ | ⟨-, hb, hs⟩
  · exact ⟨hb, hs⟩
  · exact ⟨hb, hs⟩

/-- Two alerts of which the second is no earlier. -/
theorem arrivesInOrder_of_map {alerts : List EngineDecision} {a b : ℤ} (hle : b ≤ a)
    (h : alerts.map (·.firedMs) = [a, b]) : ArrivesInOrder alerts := by
  obtain ⟨latest, rest, rfl, hlatest, hrest⟩ := List.map_eq_cons_iff.1 h
  obtain ⟨first, rest, rfl, hfirst, hrest⟩ := List.map_eq_cons_iff.1 hrest
  obtain rfl := List.map_eq_nil_iff.1 hrest
  intro d hd
  have htimes : d.firedMs = a ∨ d.firedMs = b := by
    rcases List.mem_cons.1 hd with rfl | hd
    · exact .inl hlatest
    · exact .inr (List.mem_singleton.1 hd ▸ hfirst)
  refine ⟨fun first' hf => ?_, fun latest' hl => ?_⟩
  · obtain rfl : first = first' := Option.some.inj hf
    omega
  · obtain rfl : latest = latest' := Option.some.inj hl
    omega

/-- Two alerts in order: the time line is theirs. -/
theorem timeLine_of_run_inOrder : ∃ h db, EngineRun Runtime.reference h db ∧
    (arrivalsOf Runtime.reference diskFingerprint diskScope h).map (·.firedMs) = [3000, 2000] ∧
    ArrivesInOrder (arrivalsOf Runtime.reference diskFingerprint diskScope h) ∧
    ∃ x i, db.core x = some i ∧ i.stableFingerprint = diskFingerprint ∧ i.scopeKey = diskScope ∧
      (∀ y j, db.core y = some j → j.stableFingerprint = diskFingerprint → j.scopeKey = diskScope →
        y = x) ∧
      TimeLine (arrivalsOf Runtime.reference diskFingerprint diskScope h) i := by
  have hrun : timesAfter 3000 =
      some ([(3000, false, .firing), (2000, false, .firing)], some (true, 2000, 3000)) := by
    decide +kernel
  obtain ⟨h, db, r, hf⟩ := EngineRun.of_replay hrun
  obtain ⟨halerts, -⟩ := Prod.mk.inj hf
  have htimes := congrArg (List.map Prod.fst) halerts
  rw [List.map_map] at htimes
  have hb := fun d hd => (firing_of_map halerts d hd).1
  have hne : arrivalsOf Runtime.reference diskFingerprint diskScope h ≠ [] := by
    intro hnil
    rw [hnil] at htimes
    cases htimes
  have horder : ArrivesInOrder (arrivalsOf Runtime.reference diskFingerprint diskScope h) :=
    arrivesInOrder_of_map (by decide) htimes
  obtain ⟨x, i, hi, hfp, hscope, honly, hiff⟩ := timeLine_of_run r hb hne
  exact ⟨h, db, r, htimes, horder, x, i, hi, hfp, hscope, honly, hiff.2 horder⟩

/-- **A late alert turns the time line around**: it moves the last time before the first. -/
theorem not_timeLine : ¬ ∀ h db, EngineRun Runtime.reference h db → ∀ fingerprint scopeKey,
    (∀ d ∈ arrivalsOf Runtime.reference fingerprint scopeKey h,
      d.isCriticalBypass = false ∧ d.event.status = .firing) →
    ∀ x i, db.core x = some i → i.stableFingerprint = fingerprint → i.scopeKey = scopeKey →
      TimeLine (arrivalsOf Runtime.reference fingerprint scopeKey h) i := by
  intro hall
  have hrun : timesAfter 1000 =
      some ([(1000, false, .firing), (2000, false, .firing)], some (true, 2000, 1000)) := by
    decide +kernel
  obtain ⟨h, db, r, hf⟩ := EngineRun.of_replay hrun
  obtain ⟨halerts, hincident⟩ := Prod.mk.inj hf
  obtain ⟨i, hi, hvalue⟩ := Option.map_eq_some_iff.1 hincident
  obtain ⟨hid, htimes⟩ := Prod.mk.inj hvalue
  obtain ⟨hfp, hscope⟩ := of_decide_eq_true hid
  obtain ⟨⟨-, hleast⟩, ⟨d, hd, hdlast⟩, -⟩ := hall h db r _ _ (firing_of_map halerts)
    "incident-1" i hi hfp hscope
  have hle : i.firstAlertAt ≤ i.lastAlertAt := hleast ⟨d, hd, hdlast⟩
  obtain ⟨hfirst, hlast⟩ := Prod.mk.inj htimes
  rw [hfirst, hlast] at hle
  omega

end PulseGraph
