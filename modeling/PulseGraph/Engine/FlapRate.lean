/-
# The digest interval of a flapping incident

`FLAP_DIGEST_INTERVAL_SECONDS`: "While flapping, at most one card update per this
interval."  `process_event` keeps to it by `last_flap_notified_at`, for the card of its
own decision.  The cards of timers, sweeps and external actions are enqueued without a
look at the stamp, with decisions that put `reopen_count` back to zero, and so is the
notice an alert adds when its incident turns out to be a member of a storm.

The bound holds in every run in which none of these meets a reopened incident
(`flapRate_of_run`), and a quiet deadline is enough to break it (`not_flapRate`).
-/

import PulseGraph.Engine.Decisions
import PulseGraph.Engine.Lifecycle
import PulseGraph.Outbox.Deployment

namespace PulseGraph

open Library (Table Transition Run bind_eq_ok)

variable {K : Type}

/-! ## The rows of a flapping incident -/

/-- Whether a turn takes an incident from `RESOLVED` to an active state. -/
def cameBack (x : String) (t : Transition (Deployment K) Turn) : Bool :=
  match t.label with
  | .request q => comesBack ⟨t.source.db, q, t.target.db⟩ x
  | .worker _ _ => false

/-- How often an incident was reopened in a run of a deployment. -/
def timesReopened (x : String) (h : List (Transition (Deployment K) Turn)) : ℕ := h.countP (cameBack x)

/-- The instant at which a turn serves a request that enqueues the Slack row `k` for the incident:
the row's payload names the incident, whatever storm's card it is redirected to. -/
def enqueuesAt (x : String) (k : ℕ) (t : Transition (Deployment K) Turn) : Option ℤ :=
  match t.label with
  | .request q =>
      if (t.source.db.outbox.find? k).isNone && (t.target.db.outbox.find? k).any fun r =>
        r.channel = .slack && r.payload.incidentId = some x then some q.clock else none
  | .worker _ _ => none

/-- The instant at which the Slack row `k` was enqueued for the incident, if it had been reopened
`FLAP_REOPEN_THRESHOLD` times by then. -/
def flapRowAt (rt : Runtime K) (x : String) (k : ℕ) : List (Transition (Deployment K) Turn) → Option ℤ
  | [] => none
  | t :: h => (if rt.settings.flapReopenThreshold ≤ timesReopened x (t :: h) then enqueuesAt x k t
      else none).or (flapRowAt rt x k h)

/-- Any two of these rows are a digest interval apart. -/
def FlapRate (rt : Runtime K) (x : String) (h : List (Transition (Deployment K) Turn)) : Prop :=
  ∀ k k' a a', k ≠ k' → flapRowAt rt x k h = some a → flapRowAt rt x k' h = some a' →
    rt.settings.flapDigestIntervalSeconds * 1000 ≤ |(a : ℚ) - a'|

/-- The incident has a card of its own: a Slack row that was delivered, with its handle. -/
def HasCard (db : Database K) (x : String) : Prop :=
  ∃ k r, db.outbox.find? k = some r ∧ r.incidentId = x ∧ r.channel = .slack ∧ r.status = .sent ∧
    r.externalRef.isSome = true

variable [Field K] [LinearOrder K]

/-- An alert about a flapping incident with a card finds it a member of the storm of another one. -/
def NoticeDue (rt : Runtime K) (db : Database K) (x : String) : Request → Prop
  | .ingest freshId freshGroupId now event => ∃ d db₁ db₂ a,
      processEvent rt freshId now event db = .ok d ∧ d.incidentId = x ∧ d.isFlapping = true ∧
      persistDecision rt now d db = .ok db₁ ∧
      observeIncident rt x (correlationNeighbourhood rt now d.scopeKey db₁) db₁ = .ok db₂ ∧
      (regroup freshGroupId now x d.scopeKey db₂).1 = some a ∧ a.isMultiMember ∧
      a.anchorIncidentId ≠ x ∧ HasCard db x
  | _ => False

/-- A turn that leaves the digest interval of an incident alone: no timer, sweep or external action
moves it once it was reopened, and no notice is due. -/
def SparesFlap (rt : Runtime K) (x : String) (t : Transition (Deployment K) Turn) : Prop :=
  ∀ q, t.label = .request q →
    (∀ i, Targets rt t.source.db x q → t.source.db.incidents.find? x = some i → i.reopenCount = 0) ∧
    ¬ NoticeDue rt t.source.db x q

/-! ## The decision on a flapping incident -/

section Decisions

variable {rt : Runtime K} {db db' : Database K} {freshId freshGroupId : String} {now : ℤ}
  {event : NormalizedEvent} {d : EngineDecision}

omit [Field K] [LinearOrder K] in
/-- The flap stamp of a written row. -/
theorem persistedIncident_lastFlapNotifiedAt {old : Option Incident} :
    (persistedIncident now d old).lastFlapNotifiedAt =
      if d.isFlapping && !d.deliveryIntents.isEmpty then some now
      else old.bind (·.lastFlapNotifiedAt) := by
  have hstamp : ∀ i : Incident, (stampFlap now d i).lastFlapNotifiedAt =
      if d.isFlapping && !d.deliveryIntents.isEmpty then some now else i.lastFlapNotifiedAt := by
    intro i
    unfold stampFlap
    dsimp only
    split_ifs <;> rfl
  cases old with
  | none => exact hstamp _
  | some i => exact hstamp _

omit [Field K] [LinearOrder K] in
/-- A decision on an event says whether its incident flaps, by the count it carries. -/
theorem processEvent_isFlapping (hpos : 0 < rt.settings.flapReopenThreshold)
    (h : processEvent rt freshId now event db = .ok d) : d.isFlapping = isFlappingAt rt d.reopenCount := by
  have hzero : isFlappingAt rt 0 = false := by
    unfold isFlappingAt
    rw [decide_eq_false (by simpa using hpos), Bool.and_false]
  rcases processEvent_cases h with ⟨-, rfl⟩ | ⟨-, -, ho⟩ | ⟨-, record, -, -, hd⟩
  · exact hzero.symm
  · unfold openDecision at ho
    obtain ⟨q, -, ho⟩ := bind_eq_ok.1 ho
    obtain rfl := Except.ok.inj ho
    exact hzero.symm
  · unfold duplicateDecision at hd
    obtain ⟨q, -, hd⟩ := bind_eq_ok.1 hd
    obtain rfl := Except.ok.inj hd
    rfl

omit [Field K] [LinearOrder K] in
/-- **The decision on a flapping incident** has one card at most, and one only when the digest
interval since the last has passed. -/
theorem processEvent_flaps (h : processEvent rt freshId now event db = .ok d) (hf : d.isFlapping = true) :
    d.isCriticalBypass = false ∧ (d.deliveryIntents = [] ∨ (∃ intent, d.deliveryIntents = [intent]) ∧
      ∃ i, db.core d.incidentId = some i ∧
        rt.settings.flapDigestIntervalSeconds * 1000 ≤ (now : ℚ) - i.lastFlapNotifiedAt.getD 0) := by
  rcases processEvent_cases h with ⟨-, rfl⟩ | ⟨-, -, ho⟩ | ⟨-, record, hl, -, hd⟩
  · cases hf
  · unfold openDecision at ho
    obtain ⟨q, -, ho⟩ := bind_eq_ok.1 ho
    obtain rfl := Except.ok.inj ho
    cases hf
  · unfold duplicateDecision at hd
    obtain ⟨q, -, hd⟩ := bind_eq_ok.1 hd
    obtain rfl := Except.ok.inj hd
    refine ⟨rfl, ?_⟩
    have hflap : isFlappingAt rt (nextReopenCount record event) = true := hf
    by_cases hn : notifies rt record (nextReopenCount record event) now = true
    swap
    · exact .inl (if_neg hn)
    refine .inr ⟨⟨_, if_pos hn⟩, ?_⟩
    obtain ⟨⟨y, i⟩, hrow, rfl⟩ := Option.map_eq_some_iff.1 hl
    obtain ⟨hi, -⟩ := Table.mem_select.1 (firstBy_mem hrow)
    refine ⟨i.core, core_of_find? hi, ?_⟩
    rw [notifies, hflap, Bool.not_true, Bool.false_or, decide_eq_true_eq] at hn
    exact_mod_cast hn

/-- **What an alert about a flapping incident enqueues**, when no notice is due: one row at most. -/
theorem ingestEvent_flaps (h : ingestEvent rt freshId freshGroupId now event db = .ok (d, db'))
    (hf : d.isFlapping = true)
    (hnot : ¬ NoticeDue rt db d.incidentId (.ingest freshId freshGroupId now event)) {k : ℕ}
    (hk : db.outbox.find? k = none) (hk' : (db'.outbox.find? k).isSome = true) :
    k = db.outbox.nextKey ∧ d.deliveryIntents ≠ [] := by
  obtain ⟨hd, db₁, hpersist, hrest⟩ := ingestEvent_parts h
  obtain ⟨hnb, hintents⟩ := processEvent_flaps hd hf
  obtain ⟨-, hpersisted⟩ := persistDecision_ok.1 hpersist
  have houtbox : db₁.outbox = db.outbox.pushAll (d.deliveryIntents.map (outboxRow now d)) := by
    rw [hpersisted]
    rfl
  -- the rows are those of the decision
  have hrows : (db₁.outbox.find? k).isSome = true := by
    rcases hrest with ⟨hb, rfl⟩ | ⟨-, db₂, hobs, rfl⟩
    · exact hk'
    · have hsame : (regroup freshGroupId now d.incidentId d.scopeKey db₂).2.outbox = db₁.outbox := by
        rw [regroup_outbox, observeIncident_frame hobs]
      unfold redirectFor at hk'
      split at hk'
      · rwa [hsame] at hk'
      · next a ha =>
          split_ifs at hk' with hcond
          swap
          · rwa [hsame] at hk'
          unfold redirectMemberDeliveries at hk'
          dsimp only at hk'
          rw [hsame] at hk'
          split_ifs at hk' with hposted
          · refine absurd ?_ hnot
            refine ⟨d, db₁, db₂, a, hd, rfl, hf, hpersist, hobs, ha, hcond.1, hcond.2, ?_⟩
            obtain ⟨⟨k₀, r⟩, hmem, hr⟩ := List.any_eq_true.1 hposted
            simp only [Bool.and_eq_true, decide_eq_true_eq] at hr
            obtain ⟨⟨⟨hid, hch⟩, hsent⟩, href⟩ := hr
            have hfind := Table.find?_eq_some_iff.2 hmem
            rw [houtbox] at hfind
            rcases Table.find?_pushAll hfind with hold | ⟨-, hpushed⟩
            · exact ⟨k₀, r, hold, hid, hch, hsent, href⟩
            · obtain ⟨intent, -, rfl⟩ := List.mem_map.1 hpushed
              cases hsent
          · rwa [Table.find?_update, Option.isSome_map] at hk'
  rw [houtbox] at hrows
  rcases hintents with hnil | ⟨⟨intent, hone⟩, -⟩
  · rw [hnil, List.map_nil, Table.pushAll_nil, hk] at hrows
    cases hrows
  · rw [hone, List.map_cons, List.map_nil, Table.pushAll_cons, Table.pushAll_nil, Table.find?_push, hk] at hrows
    split_ifs at hrows with hkey
    · exact ⟨hkey, by simp [hone]⟩
    · cases hrows

end Decisions

/-! ## Over runs -/

section Runs

variable {rt : Runtime K} {s s' : Deployment K} {h : List (Transition (Deployment K) Turn)} {x : String}

/-- What a turn does to an incident's flap rows: none is enqueued, and the stamp stays; or an alert
that finds it flapping enqueues one, a digest interval after the stamp that was there. -/
def FlapStep (rt : Runtime K) (x : String) (h : List (Transition (Deployment K) Turn))
    (t : Transition (Deployment K) Turn) : Prop :=
  ((rt.settings.flapReopenThreshold ≤ timesReopened x (t :: h) → ∀ k, enqueuesAt x k t = none) ∧
    (t.target.db.core x).bind (·.lastFlapNotifiedAt) = (t.source.db.core x).bind (·.lastFlapNotifiedAt)) ∨
  ∃ now : ℤ, rt.settings.flapDigestIntervalSeconds * 1000 ≤
      (now : ℚ) - ((t.source.db.core x).bind (·.lastFlapNotifiedAt)).getD 0 ∧
    (t.target.db.core x).bind (·.lastFlapNotifiedAt) = some now ∧
    ∀ k a, enqueuesAt x k t = some a → k = t.source.db.outbox.nextKey ∧ a = now

omit [Field K] [LinearOrder K] in
/-- What `enqueuesAt` reads. -/
theorem enqueuesAt_eq_some {q : Request} {k : ℕ} {a : ℤ} :
    enqueuesAt x k (⟨s, .request q, s'⟩ : Transition (Deployment K) Turn) = some a ↔
      s.db.outbox.find? k = none ∧ (∃ r, s'.db.outbox.find? k = some r ∧ r.channel = .slack ∧
        r.payload.incidentId = some x) ∧ a = q.clock := by
  unfold enqueuesAt
  dsimp only
  rw [Option.ite_none_right_eq_some, Bool.and_eq_true, Option.isNone_iff_eq_none, Option.any_eq_true,
    and_assoc, Option.some_inj, eq_comm (a := a)]
  simp only [Bool.and_eq_true, decide_eq_true_eq]

/-- A request enqueues rows for the incidents it writes of. -/
theorem raises_of_enqueuesAt {q : Request} {k : ℕ} {a : ℤ} (hnext : engineNext rt s.db q = some s'.db)
    (hk : enqueuesAt x k (⟨s, .request q, s'⟩ : Transition (Deployment K) Turn) = some a) :
    Raises rt s.db q x := by
  obtain ⟨hnone, ⟨r', hr', -, hx⟩, -⟩ := enqueuesAt_eq_some.1 hk
  obtain ⟨r, ⟨⟨⟨hnew, -⟩, -⟩, hraises⟩, hm⟩ := (engineNext_raises hnext).added k r' hnone hr'
  rw [hm.frame] at hx
  obtain rfl := Option.some.inj (hnew.about.symm.trans hx)
  exact hraises

/-- **One turn** of a deployment that leaves the digest interval alone. -/
theorem flapStep_of_turn {turn : Turn} (hdamp : rt.settings.flapDampingEnabled = true)
    (hpos : 0 < rt.settings.flapReopenThreshold) (hcount : s.db.reopenCount x = timesReopened x h)
    (hnext : deploymentNext rt s turn = some s') (hc : SparesFlap rt x ⟨s, turn, s'⟩) :
    s'.db.reopenCount x = timesReopened x (⟨s, turn, s'⟩ :: h) ∧ FlapStep rt x h ⟨s, turn, s'⟩ := by
  cases turn with
  | worker w step =>
      have hframe := (deploymentNext_worker hnext).1.frame
      have hcore : s'.db.core x = s.db.core x := by rw [hframe]; rfl
      refine ⟨?_, .inl ⟨fun _ _ => rfl, congrArg (Option.bind · _) hcore⟩⟩
      rw [Database.reopenCount, hcore]
      exact hcount
  | request q =>
      have hengine := (deploymentNext_request hnext).1
      obtain ⟨hkeep, hnot⟩ := hc q rfl
      have hcount' : s'.db.reopenCount x = timesReopened x (⟨s, .request q, s'⟩ :: h) := by
        rw [reopenCount_step hengine hkeep, hcount, timesReopened, timesReopened, List.countP_cons]
        rfl
      refine ⟨hcount', ?_⟩
      rcases engineNext_decides hengine with ⟨freshId, freshGroupId, now, event, d, rfl, hr⟩ | ⟨hno, hcore⟩
      · obtain ⟨hd, hcommit⟩ := ingestEvent_commits hr
        by_cases hx : x = d.incidentId
        swap
        · refine .inl ⟨fun _ k => ?_, congrArg (Option.bind · _) (hcommit.core_of_ne hx)⟩
          rw [Option.eq_none_iff_forall_ne_some]
          intro a ha
          obtain ⟨d', db', hr', hx'⟩ := raises_of_enqueuesAt hengine ha
          obtain ⟨rfl, -⟩ := Prod.mk.inj (Except.ok.inj (hr'.symm.trans hr))
          exact hx hx'
        subst hx
        have hstamp : (s'.db.core d.incidentId).bind (·.lastFlapNotifiedAt) =
            if d.isFlapping && !d.deliveryIntents.isEmpty then some now
            else (s.db.core d.incidentId).bind (·.lastFlapNotifiedAt) := by
          rw [hcommit.core_self]
          exact persistedIncident_lastFlapNotifiedAt
        have hflap : d.isFlapping =
            decide (rt.settings.flapReopenThreshold ≤ timesReopened d.incidentId (⟨s, .request
              (.ingest freshId freshGroupId now event), s'⟩ :: h)) := by
          rw [processEvent_isFlapping hpos hd, isFlappingAt, hdamp, Bool.true_and, ← hcount',
            Database.reopenCount, hcommit.core_self, Option.map_some, Option.getD_some,
            persistedIncident_reopenCount]
        cases hf : d.isFlapping with
        | false =>
            rw [hf] at hflap hstamp
            exact .inl ⟨fun hle => absurd hle (of_decide_eq_false hflap.symm), hstamp⟩
        | true =>
            rcases (processEvent_flaps hd hf).2 with hnil | ⟨⟨intent, hone⟩, i, hi, hinterval⟩
            · refine .inl ⟨fun _ k => ?_, by rw [hstamp, hnil]; simp⟩
              rw [Option.eq_none_iff_forall_ne_some]
              intro a ha
              obtain ⟨hk, ⟨r', hr', -⟩, -⟩ := enqueuesAt_eq_some.1 ha
              exact (ingestEvent_flaps hr hf hnot hk (by rw [hr']; rfl)).2 hnil
            · refine .inr ⟨now, ?_, by rw [hstamp, hf, hone]; rfl, fun k a ha => ?_⟩
              · rw [hi]
                exact hinterval
              · obtain ⟨hk, ⟨r', hr', -⟩, rfl⟩ := enqueuesAt_eq_some.1 ha
                exact ⟨(ingestEvent_flaps hr hf hnot hk (by rw [hr']; rfl)).1, rfl⟩
      · -- a decision without an alert: what it writes of was never reopened
        refine .inl ⟨fun hle k => ?_, ?_⟩
        · rw [Option.eq_none_iff_forall_ne_some]
          intro a ha
          have hraises := raises_of_enqueuesAt hengine ha
          have htarget : Targets rt s.db x q := by
            cases q with
            | ingest freshId freshGroupId now event =>
                obtain ⟨d, db', hr', -⟩ := hraises
                exact absurd hr' (hno _ _ _ _ d db' rfl)
            | timer _ _ _ _ => exact hraises
            | external _ _ _ => exact hraises
            | sweep _ _ _ => exact hraises
          have hzero : s'.db.reopenCount x = 0 := by
            rcases hcore x with hsame | ⟨i, d, -, hd, hmoved⟩
            · have hold : s'.db.reopenCount x = s.db.reopenCount x := by
                rw [Database.reopenCount, Database.reopenCount, hsame]
              rw [hold, Database.reopenCount]
              cases hi : s.db.core x with
              | none => rfl
              | some i =>
                  obtain ⟨j, hj, rfl⟩ := exists_find?_of_core hi
                  exact hkeep j htarget hj
            · rw [Database.reopenCount, hmoved, Option.map_some, Option.getD_some,
                persistedIncident_reopenCount, hd.reopenCount]
          rw [← hcount', hzero] at hle
          simp only [Nat.cast_zero] at hle
          omega
        · rcases hcore x with hsame | ⟨i, d, hi, hd, hmoved⟩
          · rw [hsame]
          · show (s'.db.core x).bind _ = (s.db.core x).bind _
            rw [hmoved, hi, Option.bind_some, persistedIncident_lastFlapNotifiedAt, hd.isFlapping]
            rfl

/-- **The digest interval of a flapping incident is kept** in every run whose timers, sweeps,
external actions and notices leave it alone. -/
theorem flapRate_of_run (r : DeploymentRun rt h s) (hdamp : rt.settings.flapDampingEnabled = true)
    (hpos : 0 < rt.settings.flapReopenThreshold) (hc : ∀ t ∈ h, SparesFlap rt x t) : FlapRate rt x h := by
  rcases le_or_gt (rt.settings.flapDigestIntervalSeconds * 1000) 0 with hneg | hinterval
  · exact fun k k' a a' _ _ _ => hneg.trans (abs_nonneg _)
  -- the stamp is not older than any of the rows
  have hinv : s.db.reopenCount x = timesReopened x h ∧ FlapRate rt x h ∧ ∀ k a, flapRowAt rt x k h = some a →
      ∃ stamp, (s.db.core x).bind (·.lastFlapNotifiedAt) = some stamp ∧ a ≤ stamp := by
    refine Run.induct_of_forall (C := SparesFlap rt x)
      (I := fun h s => s.db.reopenCount x = timesReopened x h ∧ FlapRate rt x h ∧
        ∀ k a, flapRowAt rt x k h = some a →
          ∃ stamp, (s.db.core x).bind (·.lastFlapNotifiedAt) = some stamp ∧ a ≤ stamp) r hc ?_ ?_
    · rintro _ rfl
      exact ⟨rfl, fun k k' a a' _ ha => by simp [flapRowAt] at ha, fun k a ha => by simp [flapRowAt] at ha⟩
    · rintro h s turn s' - - ⟨hcount, hrate, hold⟩ hspares hnext
      obtain ⟨hcount', hstep⟩ := flapStep_of_turn hdamp hpos hcount hnext hspares
      rcases hstep with ⟨hnone, hstamp⟩ | ⟨now, hsince, hstamp, hnew⟩
      · have hrows : ∀ k, flapRowAt rt x k (⟨s, turn, s'⟩ :: h) = flapRowAt rt x k h := by
          intro k
          rw [flapRowAt]
          split_ifs with hle
          · rw [hnone hle, Option.none_or]
          · rfl
        refine ⟨hcount', fun k k' a a' hne ha ha' => ?_, fun k a ha => ?_⟩
        · rw [hrows] at ha ha'
          exact hrate k k' a a' hne ha ha'
        · rw [hrows] at ha
          exact hstamp ▸ hold k a ha
      · -- one row is new at most, and the others are an interval behind it
        have hrows : ∀ k a, flapRowAt rt x k (⟨s, turn, s'⟩ :: h) = some a →
            (k = s.db.outbox.nextKey ∧ a = now) ∨ flapRowAt rt x k h = some a := by
          intro k a ha
          rw [flapRowAt] at ha
          rcases Option.or_eq_some_iff.1 ha with hfirst | ⟨-, hrest⟩
          · split_ifs at hfirst
            exact .inl (hnew k a hfirst)
          · exact .inr hrest
        have hbehind : ∀ k a, flapRowAt rt x k h = some a →
            rt.settings.flapDigestIntervalSeconds * 1000 ≤ (now : ℚ) - a := by
          intro k a ha
          obtain ⟨stamp, hs, hle⟩ := hold k a ha
          rw [hs, Option.getD_some] at hsince
          have hcast : (a : ℚ) ≤ stamp := by exact_mod_cast hle
          linarith
        refine ⟨hcount', fun k k' a a' hne ha ha' => ?_, fun k a ha => ⟨now, hstamp, ?_⟩⟩
        · rcases hrows k a ha with ⟨hk, rfl⟩ | ha
          · rcases hrows k' a' ha' with ⟨hk', rfl⟩ | ha'
            · exact absurd (hk.trans hk'.symm) hne
            · exact (hbehind k' a' ha').trans (le_abs_self _)
          · rcases hrows k' a' ha' with ⟨hk', rfl⟩ | ha'
            · rw [abs_sub_comm]
              exact (hbehind k a ha).trans (le_abs_self _)
            · exact hrate k k' a a' hne ha ha'
        · rcases hrows k a ha with ⟨-, rfl⟩ | ha
          · exact le_refl _
          · have hpast := hbehind k a ha
            have hcast : (a : ℚ) ≤ now := by linarith
            exact_mod_cast hcast
  exact hinv.2.1

end Runs

/-! ## Two runs -/

/-- An alert is resolved and fires again three times, a second apart. -/
def flaps : List Turn :=
  [("A", EventStatus.firing), ("B", .resolved), ("C", .firing), ("D", .resolved), ("E", .firing),
    ("F", .resolved), ("G", .firing)].zipIdx.map fun ((id, status), n) =>
      .request (.ingest id "unused" (2000000 + 1000 * n) (sampleEvent id "warning" status (2000000 + 1000 * n)))

/-- Settings under which an incident flaps from its first reopening on. -/
def Runtime.impatient : Runtime ℚ :=
  { Runtime.reference with settings := { Runtime.reference.settings with flapReopenThreshold := 1 } }

/-- An alert is resolved and fires again, twice within half an hour and once after. -/
def flapsOn : List Turn :=
  [("A", EventStatus.firing, 2000000), ("B", .resolved, 2001000), ("C", .firing, 2002000),
    ("D", .firing, 2003000), ("E", .firing, 3802000)].map fun (id, status, now) =>
      .request (.ingest id "unused" now (sampleEvent id "warning" status now))

/-- A request on an alert. -/
def Turn.isAlert : Turn → Bool
  | .request (.ingest _ _ _ _) => true
  | _ => false

/-- An alert leaves the interval alone while nothing was delivered. -/
theorem sparesFlap_of_check {rt : Runtime K} {x : String} {t : Transition (Deployment K) Turn}
    (h : (t.label.isAlert && t.source.db.outbox.rows.all fun r => r.2.status ≠ .sent) = true) :
    SparesFlap rt x t := by
  obtain ⟨halert, hall⟩ := Bool.and_eq_true_iff.1 h
  intro q hq
  rw [hq] at halert
  constructor
  · intro i htarget
    cases q with
    | ingest _ _ _ _ => exact htarget.elim
    | timer _ _ _ _ => cases halert
    | external _ _ _ => cases halert
    | sweep _ _ _ => cases halert
  · intro hdue
    have hcard : HasCard t.source.db x := by
      cases q with
      | ingest _ _ _ _ =>
          obtain ⟨d, db₁, db₂, a, -, -, -, -, -, -, -, -, hcard⟩ := hdue
          exact hcard
      | timer _ _ _ _ => exact hdue.elim
      | external _ _ _ => exact hdue.elim
      | sweep _ _ _ => exact hdue.elim
    obtain ⟨k, r, hr, -, -, hsent, -⟩ := hcard
    exact absurd hsent (of_decide_eq_true (List.all_eq_true.1 hall _ (Table.find?_eq_some_iff.1 hr)))

/-- The incident has a card when it starts to flap, none with the next alert, and one half an hour on. -/
theorem flapRate_of_run_alerts : ∃ h s, DeploymentRun Runtime.impatient h s ∧
    FlapRate Runtime.impatient "A" h ∧ flapRowAt Runtime.impatient "A" 3 h = some 2002000 ∧
    flapRowAt Runtime.impatient "A" 4 h = some 3802000 := by
  have hrun : (Library.replay (deploymentNext Runtime.impatient) flapsOn ([], Deployment.initial)).map
      (fun s => (s.1.all fun t => t.label.isAlert && t.source.db.outbox.rows.all fun r => r.2.status ≠ .sent,
        flapRowAt Runtime.impatient "A" 3 s.1, flapRowAt Runtime.impatient "A" 4 s.1)) =
      some (true, some 2002000, some 3802000) := by decide +kernel
  obtain ⟨h, s, r, hs⟩ := DeploymentRun.of_replay hrun
  obtain ⟨hall, hrows⟩ := Prod.mk.inj hs
  obtain ⟨hfirst, hsecond⟩ := Prod.mk.inj hrows
  refine ⟨h, s, r, flapRate_of_run r rfl (by decide) fun t ht => ?_, hfirst, hsecond⟩
  exact sparesFlap_of_check (List.all_eq_true.1 hall t ht)

/-- **The digest interval is not kept**: the quiet deadline of a flapping incident adds a card four
seconds after the last. -/
theorem not_flapRate : ¬ ∀ h s, DeploymentRun Runtime.reference h s → ∀ x, FlapRate Runtime.reference x h := by
  intro hall
  have hrun : (Library.replay (deploymentNext Runtime.reference)
      (flaps ++ [.request (.timer "timer-1" 2010000 "A" 2010000)]) ([], Deployment.initial)).map
      (fun s => (flapRowAt Runtime.reference "A" 7 s.1, flapRowAt Runtime.reference "A" 8 s.1)) =
      some (some 2006000, some 2010000) := by decide +kernel
  obtain ⟨h, s, r, hs⟩ := DeploymentRun.of_replay hrun
  obtain ⟨hfirst, hsecond⟩ := Prod.mk.inj hs
  have hfar := hall h s r "A" 7 8 _ _ (by decide) hfirst hsecond
  exact absurd hfar (by decide +kernel)

end PulseGraph
