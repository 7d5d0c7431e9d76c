/-
# What a transaction of the engine does

Every transaction either persists one decision or persists none, and the rest of
it writes the graph, the storms, the outbox and the inbound table.  `Commits`
states the first in terms of what no other write touches: the *core* of the
incidents (the fields `persist_decision` writes) and the ledger.  The lemmas of
this module say once, for each transaction, which decision it can persist:

* `processEvent_cases`: a bypass, an opened incident, or a known one;
* `ingestEvent_commits`, `persistTrigger_commits`, `applyExternalAction_commits`:
  what the transaction around the decision leaves behind;
* `sweepOnce_induct`: a sweep is a chain of external actions.
-/

import PulseGraph.Engine.ProcessEvent
import PulseGraph.Engine.SilenceSweeper

namespace PulseGraph

open Library (Table bind_eq_ok foldlM_induct)

variable {K : Type}

/-! ## The core of the incidents -/

/-- The fields of an incident that `persist_decision` writes: all but its storm and
who acted on it. -/
def Incident.core (i : Incident) : Incident :=
  { i with
    correlationGroupId := none
    acknowledgedAt := none
    acknowledgedBy := none
    acknowledgedVia := none
    resolvedAt := none
    resolvedVia := none
    resolutionSource := none
    resolutionDetail := none }

/-- The cores of all incidents. -/
def Database.core (db : Database K) (x : String) : Option Incident :=
  (db.incidents.find? x).map Incident.core

/-- The incident is resolved. -/
def Resolved (db : Database K) (x : String) : Prop :=
  (db.incidents.find? x).map (·.status) = some .RESOLVED

instance (db : Database K) (x : String) : Decidable (Resolved db x) :=
  inferInstanceAs (Decidable ((db.incidents.find? x).map (·.status) = some .RESOLVED))

/-- The status of an incident is part of its core. -/
theorem resolved_iff_core {db : Database K} {x : String} :
    Resolved db x ↔ (db.core x).map (·.status) = some .RESOLVED := by
  rw [Resolved, Database.core, Option.map_map]
  rfl

/-- Two databases with the same cores and the same ledger. -/
structure SameCore (db db' : Database K) : Prop where
  core : db'.core = db.core
  ledger : db'.rawEvents = db.rawEvents

theorem SameCore.refl (db : Database K) : SameCore db db := ⟨rfl, rfl⟩

theorem SameCore.trans {a b c : Database K} (h₁ : SameCore a b) (h₂ : SameCore b c) :
    SameCore a c := ⟨h₂.core.trans h₁.core, h₂.ledger.trans h₁.ledger⟩

/-- The newest ledger row of an incident is read from the ledger alone. -/
theorem SameCore.latestEvent {db db' : Database K} (h : SameCore db db') (x : String) :
    db'.latestEvent x = db.latestEvent x := by
  rw [Database.latestEvent, Database.latestEvent, h.ledger]

/-- A rewrite of the incidents that keeps what is read of each. -/
theorem map_find?_update {β : Type*} {t : Table String Incident} {f : String → Incident → Incident}
    {g : Incident → β} (h : ∀ k i, g (f k i) = g i) (x : String) :
    ((t.update f).find? x).map g = (t.find? x).map g := by
  rw [Table.find?_update, Option.map_map]
  exact congrArg (Option.map · _) (funext fun i => h x i)

/-- An incident without its storm. -/
def Incident.ungrouped (i : Incident) : Incident := { i with correlationGroupId := none }

/-- Two databases whose incidents differ in their storms at most, with the same ledger. -/
structure Regrouped (db db' : Database K) : Prop where
  incidents : ∀ x,
    (db'.incidents.find? x).map Incident.ungrouped = (db.incidents.find? x).map Incident.ungrouped
  ledger : db'.rawEvents = db.rawEvents

theorem Regrouped.refl (db : Database K) : Regrouped db db := ⟨fun _ => rfl, rfl⟩

theorem Regrouped.trans {a b c : Database K} (h₁ : Regrouped a b) (h₂ : Regrouped b c) :
    Regrouped a c := ⟨fun x => (h₂.incidents x).trans (h₁.incidents x), h₂.ledger.trans h₁.ledger⟩

/-- What is read of an incident without its storm stays. -/
theorem Regrouped.map {β : Type*} {db db' : Database K} (h : Regrouped db db') {g : Incident → β}
    (hg : ∀ i : Incident, g i.ungrouped = g i) (x : String) :
    (db'.incidents.find? x).map g = (db.incidents.find? x).map g := by
  have hmap := congrArg (Option.map g) (h.incidents x)
  rw [Option.map_map, Option.map_map] at hmap
  have hfun : g ∘ Incident.ungrouped = g := funext hg
  rwa [hfun] at hmap

theorem Regrouped.sameCore {db db' : Database K} (h : Regrouped db db') : SameCore db db' :=
  ⟨funext fun x => h.map (fun _ => rfl) x, h.ledger⟩

section Storms

variable {db : Database K}

theorem mergeGroups_regrouped (survivor : String) (absorbed : List String) :
    Regrouped db (mergeGroups survivor absorbed db) := by
  refine ⟨fun x => ?_, rfl⟩
  unfold mergeGroups
  dsimp only
  refine map_find?_update (fun k i => ?_) x
  split_ifs <;> rfl

theorem joinGroup_regrouped (groupId : String) (members : List String) :
    Regrouped db (joinGroup groupId members db) := by
  refine ⟨fun x => ?_, rfl⟩
  unfold joinGroup
  dsimp only
  refine map_find?_update (fun k i => ?_) x
  split_ifs <;> rfl

theorem redirectFor_regrouped (now : ℤ) (incidentId : String) (a : Option GroupAssignment) :
    Regrouped db (redirectFor now incidentId a db) := by
  rw [redirectFor_frame]
  exact ⟨fun _ => rfl, rfl⟩

theorem chooseGroup_regrouped (freshId : String) (now : ℤ) (members : List String)
    (scopeKey : String) : Regrouped db (chooseGroup freshId now members scopeKey db).2.2 := by
  unfold chooseGroup
  split
  · exact mergeGroups_regrouped _ _
  · exact ⟨fun _ => rfl, rfl⟩

variable [Field K] [LinearOrder K]

theorem refreshGroup_regrouped (now : ℤ) (groupId : String) :
    Regrouped db (refreshGroup now groupId db).2 := by
  rw [refreshGroup_frame]
  exact ⟨fun _ => rfl, rfl⟩

theorem assignGroup_regrouped (freshId : String) (now : ℤ) (incidentId scopeKey : String) :
    Regrouped db (assignGroup freshId now incidentId scopeKey db).2 := by
  unfold assignGroup
  split
  · exact Regrouped.refl db
  · exact ((chooseGroup_regrouped _ _ _ _).trans (joinGroup_regrouped _ _)).trans
      (refreshGroup_regrouped _ _)

theorem refreshGroupForMember_regrouped (now : ℤ) (incidentId : String) :
    Regrouped db (refreshGroupForMember now incidentId db).2 := by
  rw [refreshGroupForMember_frame]
  exact ⟨fun _ => rfl, rfl⟩

theorem regroup_regrouped (freshGroupId : String) (now : ℤ) (incidentId scopeKey : String) :
    Regrouped db (regroup freshGroupId now incidentId scopeKey db).2 := by
  have h : Regrouped db (assignGroup freshGroupId now incidentId scopeKey db).2 :=
    assignGroup_regrouped _ _ _ _
  unfold regroup
  split
  · next heq => rw [heq] at h; exact h
  · next heq =>
      rw [heq] at h
      exact h.trans (refreshGroupForMember_regrouped _ _)

/-- An action that is settled stamps its incident, and moves nothing else. -/
theorem settleAction_regrouped (now : ℤ) (action : ExternalAction) (current next : IncidentState) :
    Regrouped { db with incidents := db.incidents.modify action.incidentId (stampAction now action) }
      (settleAction now action current next db) := by
  unfold settleAction
  dsimp only
  have hgroup : Regrouped { db with
      incidents := db.incidents.modify action.incidentId (stampAction now action) } _ :=
    refreshGroupForMember_regrouped now action.incidentId
  exact (hgroup.trans (redirectFor_regrouped now action.incidentId _)).trans ⟨fun _ => rfl, rfl⟩

theorem settleAction_sameCore (now : ℤ) (action : ExternalAction) (current next : IncidentState) :
    SameCore db (settleAction now action current next db) := by
  have hstamp : SameCore db
      { db with incidents := db.incidents.modify action.incidentId (stampAction now action) } := by
    refine ⟨funext fun x => ?_, rfl⟩
    unfold Database.core Table.modify
    dsimp only
    refine map_find?_update (fun k i => ?_) x
    split_ifs
    · unfold stampAction
      split_ifs <;> rfl
    · rfl
  exact hstamp.trans (settleAction_regrouped now action current next).sameCore

end Storms

/-! ## Persisting one decision -/

variable (rt : Runtime K)

/-- The decision `d` was persisted over `db`, at the instant `now`: its event is new
to the ledger, its incident's core and one ledger row were written, and nothing
else happened to cores and ledger. -/
structure Commits (now : ℤ) (d : EngineDecision) (db db' : Database K) : Prop where
  fresh : ∀ r ∈ db.rawEvents, r.eventId ≠ d.event.eventId
  core : ∀ x, db'.core x =
    if x = d.incidentId then some (persistedIncident now d (db.core x)) else db.core x
  ledger : db'.rawEvents = ledgerRow rt now d db :: db.rawEvents

section Commits

variable {rt} {now : ℤ} {d : EngineDecision} {db db' db'' : Database K}

theorem core_persistedIncident (old : Option Incident) :
    (persistedIncident now d old).core = persistedIncident now d (old.map Incident.core) := by
  have hstamp : ∀ i : Incident, (stampFlap now d i).core = stampFlap now d i.core := by
    intro i
    unfold stampFlap
    dsimp only
    split_ifs <;> rfl
  cases old with
  | none => exact hstamp _
  | some i => exact hstamp _

/-- `persist_decision` persists its decision. -/
theorem persistDecision_commits (h : persistDecision rt now d db = .ok db') :
    Commits rt now d db db' := by
  obtain ⟨hfresh, rfl⟩ := persistDecision_ok.1 h
  refine ⟨hfresh, fun x => ?_, rfl⟩
  rw [Database.core, find?_persisted]
  split_ifs with hx
  · rw [Option.map_some, core_persistedIncident, hx, Database.core]
  · rfl

/-- What follows without touching cores and ledger does not matter. -/
theorem Commits.trans_same (h : Commits rt now d db db') (hs : SameCore db' db'') :
    Commits rt now d db db'' :=
  ⟨h.fresh, fun x => (congrFun hs.core x).trans (h.core x), hs.ledger.trans h.ledger⟩

theorem Commits.core_self (h : Commits rt now d db db') :
    db'.core d.incidentId = some (persistedIncident now d (db.core d.incidentId)) := by
  rw [h.core, if_pos rfl]

theorem Commits.core_of_ne (h : Commits rt now d db db') {x : String} (hx : x ≠ d.incidentId) :
    db'.core x = db.core x := by
  rw [h.core, if_neg hx]

theorem Commits.latestEvent (h : Commits rt now d db db') (x : String) : db'.latestEvent x =
    if x = d.incidentId then some (ledgerRow rt now d db) else db.latestEvent x := by
  have hp : (persisted rt now d db).latestEvent x = _ := latestEvent_persisted x
  rw [← hp, Database.latestEvent, Database.latestEvent, h.ledger, persisted_rawEvents]

end Commits

/-! ## The decision on an event -/

section Decisions

variable {rt} {freshId : String} {now : ℤ} {event : NormalizedEvent} {d : EngineDecision}
  {db : Database K}

/-- **The decision on an event** is a bypass, an opened incident, or a known one whose
newest ledger row is an exact duplicate of the event. -/
theorem processEvent_cases (h : processEvent rt freshId now event db = .ok d) :
    ((classifyProtectedCritical rt event).shouldBypass = true ∧
      d = bypassDecision rt freshId event (classifyProtectedCritical rt event).reason) ∨
    ((classifyProtectedCritical rt event).shouldBypass = false ∧
      lookupIncident (generateFingerprint rt (eventPayload event (scopeKeyFor event)))
        (scopeKeyFor event) db = none ∧
      openDecision rt freshId now event = .ok d) ∨
    ((classifyProtectedCritical rt event).shouldBypass = false ∧ ∃ record,
      lookupIncident (generateFingerprint rt (eventPayload event (scopeKeyFor event)))
        (scopeKeyFor event) db = some record ∧
      isExactDuplicate rt (eventPayload event (scopeKeyFor event)) record.lastEvent
        (scopeKeyFor event) = true ∧
      duplicateDecision rt now event record = .ok d) := by
  unfold processEvent at h
  dsimp only at h
  split_ifs at h with hb
  · exact .inl ⟨hb, (Except.ok.inj h).symm⟩
  · have hb : (classifyProtectedCritical rt event).shouldBypass = false := by simpa using hb
    split at h
    · next hl => exact .inr (.inl ⟨hb, hl, h⟩)
    · next record hl =>
        split_ifs at h with hdup
        exact .inr (.inr ⟨hb, record, hl, by simpa using hdup, h⟩)

/-- The row behind a looked-up record: the incident it is about has the identity asked for. -/
theorem lookupIncident_eq_some {fingerprint scopeKey : String} {record : IncidentRecord}
    (h : lookupIncident fingerprint scopeKey db = some record) :
    ∃ i, db.incidents.find? record.incidentId = some i ∧ i.stableFingerprint = fingerprint ∧
      i.scopeKey = scopeKey ∧ record.state = i.status ∧ record.alertCount = i.alertCount ∧
      record.reopenCount = i.reopenCount ∧ record.gapHistory = i.gapHistory ∧
      record.lastEvent = lastEventOf scopeKey (db.latestEvent record.incidentId) := by
  obtain ⟨⟨x, i⟩, hrow, rfl⟩ := Option.map_eq_some_iff.1 h
  obtain ⟨hfind, hsel⟩ := Table.mem_select.1 (firstBy_mem hrow)
  simp only [Bool.and_eq_true, decide_eq_true_eq] at hsel
  exact ⟨i, hfind, hsel.1, hsel.2, rfl, rfl, rfl, rfl, rfl⟩

/-- A lookup finds nothing exactly when no incident has the identity. -/
theorem lookupIncident_eq_none {fingerprint scopeKey : String} :
    lookupIncident fingerprint scopeKey db = none ↔
      ∀ x i, db.incidents.find? x = some i → ¬ (i.stableFingerprint = fingerprint ∧ i.scopeKey = scopeKey) := by
  unfold lookupIncident
  dsimp only
  rw [Option.map_eq_none_iff, firstBy_eq_none, List.eq_nil_iff_forall_not_mem]
  constructor
  · rintro h x i hi ⟨hf, hs⟩
    exact h (x, i) (Table.mem_select.2 ⟨hi, by simp [hf, hs]⟩)
  · rintro h ⟨x, i⟩ hmem
    obtain ⟨hi, hsel⟩ := Table.mem_select.1 hmem
    simp only [Bool.and_eq_true, decide_eq_true_eq] at hsel
    exact h x i hi hsel

/-- What an opened incident's decision says. -/
theorem openDecision_eq_ok (h : openDecision rt freshId now event = .ok d) :
    d.event = event ∧ d.incidentId = freshId ∧ d.state = newIncidentState event ∧
      d.alertCount = 1 ∧ d.reopenCount = 0 ∧ d.isCriticalBypass = false ∧
      d.scopeKey = scopeKeyFor event ∧
      d.stableFingerprint = generateFingerprint rt (eventPayload event (scopeKeyFor event)) ∧
      ∃ intent, d.deliveryIntents = [intent] ∧ intent.channel = .slack ∧ intent.action = .create := by
  unfold openDecision at h
  obtain ⟨q, -, h⟩ := bind_eq_ok.1 h
  obtain rfl := Except.ok.inj h
  exact ⟨rfl, rfl, rfl, rfl, rfl, rfl, rfl, rfl, _, rfl, rfl, rfl⟩

/-- What a known incident's decision says. -/
theorem duplicateDecision_eq_ok {record : IncidentRecord}
    (h : duplicateDecision rt now event record = .ok d) :
    d.event = event ∧ d.incidentId = record.incidentId ∧ d.state = nextState record.state event ∧
      d.alertCount = record.alertCount + 1 ∧ d.reopenCount = nextReopenCount record event ∧
      d.isCriticalBypass = false ∧ d.scopeKey = scopeKeyFor event ∧
      d.stableFingerprint = generateFingerprint rt (eventPayload event (scopeKeyFor event)) ∧
      ∀ intent ∈ d.deliveryIntents, intent.channel = .slack ∧ intent.action = .update := by
  unfold duplicateDecision at h
  obtain ⟨q, -, h⟩ := bind_eq_ok.1 h
  obtain rfl := Except.ok.inj h
  refine ⟨rfl, rfl, rfl, rfl, rfl, rfl, rfl, rfl, fun intent hi => ?_⟩
  simp only [decision] at hi
  split_ifs at hi
  · obtain rfl := List.mem_singleton.1 hi
    exact ⟨rfl, rfl⟩
  · simp at hi

/-- A deadline is predicted for every state but `RESOLVED`, later than now. -/
theorem quietFor_eq_ok {state : IncidentState} {gapHistory : List ℚ} {lastGap : ℚ} {q : QuietDeadline}
    (h : quietFor rt state gapHistory lastGap now = .ok q) :
    (state = .RESOLVED ∧ q.quietAtMs = none) ∨ ∃ t, q.quietAtMs = some t ∧ now < t := by
  unfold quietFor at h
  split_ifs at h with hs
  · exact .inr (calculateQuietDeadline_eq_ok h)
  · obtain rfl := Except.ok.inj h
    exact .inl ⟨not_not.1 hs, rfl⟩

/-- A bounded deadline is still later than now. -/
theorem boundedDeadline_some {t firstIngestedMs : ℤ} (ht : now < t) :
    ∃ t', boundedDeadline rt (some t) firstIngestedMs now = some t' ∧ now < t' := by
  refine ⟨_, rfl, ?_⟩
  dsimp only
  split_ifs
  · exact ht
  · omega

/-- **The deadline of a decision**, where it has one, is later than now; only a new
incident and a resolved one have none. -/
theorem processEvent_quietAtMs (h : processEvent rt freshId now event db = .ok d) :
    (∃ t, d.quietAtMs = some t ∧ now < t) ∨
      d.quietAtMs = none ∧ (d.incidentId = freshId ∨ d.state = .RESOLVED) := by
  rcases processEvent_cases h with ⟨-, rfl⟩ | ⟨-, -, h⟩ | ⟨-, record, -, -, h⟩
  · exact .inr ⟨rfl, .inl rfl⟩
  · unfold openDecision at h
    obtain ⟨q, hq, h⟩ := bind_eq_ok.1 h
    obtain rfl := Except.ok.inj h
    rcases quietFor_eq_ok hq with ⟨-, hnone⟩ | hsome
    · exact .inr ⟨hnone, .inl rfl⟩
    · exact .inl hsome
  · unfold duplicateDecision at h
    obtain ⟨q, hq, h⟩ := bind_eq_ok.1 h
    obtain rfl := Except.ok.inj h
    rcases quietFor_eq_ok hq with ⟨hres, hnone⟩ | ⟨t, ht, hlt⟩
    · exact .inr ⟨by simp [decision, boundedDeadline, hnone], .inr hres⟩
    · refine .inl ?_
      simp only [decision, ht]
      exact boundedDeadline_some hlt

/-- A decision is about the event it was made for. -/
theorem processEvent_event (h : processEvent rt freshId now event db = .ok d) : d.event = event := by
  rcases processEvent_cases h with ⟨-, rfl⟩ | ⟨-, -, h⟩ | ⟨-, record, -, -, h⟩
  · rfl
  · exact (openDecision_eq_ok h).1
  · exact (duplicateDecision_eq_ok h).1

end Decisions

/-! ## The transactions -/

section Transactions

variable {rt} {db db' : Database K}

/-- **A quiet deadline** commits its decision, or finds nothing to do. -/
theorem persistTrigger_commits {freshEventId : String} {now : ℤ} {trigger : TimerTrigger}
    {committed : Bool} (h : persistTrigger rt freshEventId now trigger db = .ok (committed, db')) :
    (deadlineDecision freshEventId trigger db = none ∧ db' = db) ∨
    ∃ d, deadlineDecision freshEventId trigger db = some d ∧ persistDecision rt now d db = .ok db' := by
  unfold persistTrigger at h
  split at h
  · next hd => exact .inl ⟨hd, (congrArg Prod.snd (Except.ok.inj h)).symm⟩
  · next d hd =>
      obtain ⟨db₁, hp, h⟩ := bind_eq_ok.1 h
      obtain ⟨-, rfl⟩ := Prod.mk.inj (Except.ok.inj h)
      exact .inr ⟨d, hd, hp⟩

/-- What a quiet deadline's decision says. -/
theorem deadlineDecision_eq_some {freshEventId : String} {trigger : TimerTrigger}
    {d : EngineDecision} (h : deadlineDecision freshEventId trigger db = some d) :
    ∃ i next, db.incidents.find? trigger.incidentId = some i ∧
      transitionState i.status trigger.trigger = some next ∧ d.incidentId = trigger.incidentId ∧
      d.state = next ∧ d.alertCount = i.alertCount ∧ d.severityFinal = i.severity ∧
      d.reopenCount = 0 ∧ d.isCriticalBypass = false ∧ d.scopeKey = i.scopeKey ∧
      d.stableFingerprint = i.stableFingerprint ∧ d.event.eventId = freshEventId ∧
      d.event = deadlineEvent freshEventId trigger i (db.latestEvent trigger.incidentId) ∧
      ∀ intent ∈ d.deliveryIntents, intent.channel = .slack ∧ intent.action = .update := by
  obtain ⟨i, hi, h⟩ := Option.bind_eq_some_iff.1 h
  obtain ⟨next, hn, rfl⟩ := Option.map_eq_some_iff.1 h
  refine ⟨i, next, hi, hn, rfl, rfl, rfl, rfl, rfl, rfl, rfl, rfl, rfl, rfl, fun intent hx => ?_⟩
  obtain rfl := List.mem_singleton.1 hx
  exact ⟨rfl, rfl⟩

/-- What an external action's decision says. -/
theorem buildDecision_eq_ok {freshEventId : String} {i : Incident} {latest : Option RawEvent}
    {action : ExternalAction} {next : IncidentState} {d : EngineDecision}
    (h : buildDecision freshEventId i latest action next = .ok d) :
    ∃ message, externalMessage action = .ok message ∧ d.incidentId = action.incidentId ∧
      d.state = next ∧ d.alertCount = i.alertCount ∧ d.severityFinal = i.severity ∧
      d.reopenCount = 0 ∧ d.isCriticalBypass = false ∧ d.scopeKey = i.scopeKey ∧
      d.stableFingerprint = i.stableFingerprint ∧ d.event.eventId = freshEventId ∧
      d.event = externalEvent freshEventId i latest action message ∧
      d.deliveryIntents = externalIntents action next := by
  unfold buildDecision at h
  obtain ⟨message, hm, h⟩ := bind_eq_ok.1 h
  obtain rfl := Except.ok.inj h
  exact ⟨message, hm, rfl, rfl, rfl, rfl, rfl, rfl, rfl, rfl, rfl, rfl, rfl⟩

variable [Field K] [LinearOrder K]

/-- **What an ingest is made of**: the decision on its event, the writes of the decision, and, but
for a bypass, an observation, a grouping and a redirection. -/
theorem ingestEvent_parts {freshId freshGroupId : String} {now : ℤ} {event : NormalizedEvent}
    {d : EngineDecision} (h : ingestEvent rt freshId freshGroupId now event db = .ok (d, db')) :
    processEvent rt freshId now event db = .ok d ∧ ∃ db₁, persistDecision rt now d db = .ok db₁ ∧
      (d.isCriticalBypass = true ∧ db' = db₁ ∨ d.isCriticalBypass = false ∧ ∃ db₂,
        observeIncident rt d.incidentId (correlationNeighbourhood rt now d.scopeKey db₁) db₁ = .ok db₂ ∧
        db' = redirectFor now d.incidentId (regroup freshGroupId now d.incidentId d.scopeKey db₂).1
          (regroup freshGroupId now d.incidentId d.scopeKey db₂).2) := by
  unfold ingestEvent at h
  obtain ⟨d₁, hd, h⟩ := bind_eq_ok.1 h
  obtain ⟨db₀, hp, h⟩ := bind_eq_ok.1 h
  obtain ⟨rfl, rfl⟩ := Prod.mk.inj (Except.ok.inj h)
  unfold persistAndObserve at hp
  obtain ⟨db₁, hpersist, hp⟩ := bind_eq_ok.1 hp
  refine ⟨hd, db₁, hpersist, ?_⟩
  split_ifs at hp with hb
  · exact .inl ⟨hb, (Except.ok.inj hp).symm⟩
  · obtain ⟨db₂, hobs, hp⟩ := bind_eq_ok.1 hp
    exact .inr ⟨by simpa using hb, db₂, hobs, (Except.ok.inj hp).symm⟩

/-- **An ingest** persists the decision on its event; what follows moves incidents between storms
at most. -/
theorem ingestEvent_persists {freshId freshGroupId : String} {now : ℤ} {event : NormalizedEvent}
    {d : EngineDecision} (h : ingestEvent rt freshId freshGroupId now event db = .ok (d, db')) :
    processEvent rt freshId now event db = .ok d ∧
      ∃ db₁, persistDecision rt now d db = .ok db₁ ∧ Regrouped db₁ db' := by
  obtain ⟨hd, db₁, hpersist, hrest⟩ := ingestEvent_parts h
  refine ⟨hd, db₁, hpersist, ?_⟩
  rcases hrest with ⟨-, rfl⟩ | ⟨-, db₂, hobs, rfl⟩
  · exact Regrouped.refl _
  · have hobs := observeIncident_frame hobs
    have h₁ : Regrouped db₁ db₂ := by rw [hobs]; exact ⟨fun _ => rfl, rfl⟩
    exact (h₁.trans (regroup_regrouped _ _ _ _)).trans (redirectFor_regrouped _ _ _)

/-- So it commits that decision. -/
theorem ingestEvent_commits {freshId freshGroupId : String} {now : ℤ} {event : NormalizedEvent}
    {d : EngineDecision} (h : ingestEvent rt freshId freshGroupId now event db = .ok (d, db')) :
    processEvent rt freshId now event db = .ok d ∧ Commits rt now d db db' := by
  obtain ⟨hd, db₁, hpersist, hrest⟩ := ingestEvent_persists h
  exact ⟨hd, (persistDecision_commits hpersist).trans_same hrest.sameCore⟩

/-- The state of an external action that is going to be applied: it is new, its
incident is there, and the lifecycle has an edge for it. -/
structure Applies (action : ExternalAction) (db : Database K) (i : Incident)
    (next : IncidentState) : Prop where
  unseen : alreadySeen action.inboundId db = false
  known : db.incidents.find? action.incidentId = some i
  edge : (triggerForKind action.kind).bind (transitionState i.status) = some next

/-- **An external action** commits its decision and reports `applied`, or only
records itself. -/
theorem applyExternalAction_cases {freshEventId : String} {now : ℤ} {action : ExternalAction}
    {result : ReconcileResult}
    (h : applyExternalAction rt freshEventId now action db = .ok (result, db')) :
    (result.status ≠ .applied ∧ (∀ i next, ¬ Applies action db i next) ∧
      db' = { db with inboundEvents := db'.inboundEvents }) ∨
    (result.status = .applied ∧ ∃ i next d db₁, Applies action db i next ∧
      buildDecision freshEventId i (db.latestEvent action.incidentId) action next = .ok d ∧
      persistDecision rt now d db = .ok db₁ ∧ db' = settleAction now action i.status next db₁) := by
  unfold applyExternalAction at h
  split_ifs at h with hseen
  · obtain ⟨rfl, rfl⟩ := Prod.mk.inj (Except.ok.inj h)
    exact .inl ⟨by simp, fun i next ha => by simp [ha.unseen] at hseen, rfl⟩
  split at h
  · next hk =>
      obtain ⟨rfl, rfl⟩ := Prod.mk.inj (Except.ok.inj h)
      exact .inl ⟨by simp, fun i next ha => by simpa [hk] using ha.edge, rfl⟩
  next trigger hk =>
  split at h
  · next hl =>
      obtain ⟨rfl, rfl⟩ := Prod.mk.inj (Except.ok.inj h)
      refine .inl ⟨by simp, fun i next ha => ?_, rfl⟩
      simp [loadIncident, ha.known] at hl
  next i latest hl =>
  obtain ⟨i', hi, hrow⟩ := Option.map_eq_some_iff.1 hl
  obtain ⟨rfl, rfl⟩ := Prod.mk.inj hrow
  split at h
  · next hn =>
      obtain ⟨rfl, rfl⟩ := Prod.mk.inj (Except.ok.inj h)
      refine .inl ⟨by simp, fun i next ha => ?_, rfl⟩
      obtain rfl := Option.some.inj (hi.symm.trans ha.known)
      have := ha.edge
      simp [hk, hn] at this
  · next next hn =>
      obtain ⟨d, hd, h⟩ := bind_eq_ok.1 h
      obtain ⟨db₁, hp, h⟩ := bind_eq_ok.1 h
      obtain ⟨rfl, rfl⟩ := Prod.mk.inj (Except.ok.inj h)
      exact .inr ⟨rfl, i', next, d, db₁, ⟨by simpa using hseen, hi, by simp [hk, hn]⟩, hd, hp, rfl⟩

/-- **The receipt of an external action**: it was there, and nothing is done, or it is left with
whatever is done. -/
theorem applyExternalAction_receipt {freshEventId : String} {now : ℤ} {action : ExternalAction}
    {result : ReconcileResult}
    (h : applyExternalAction rt freshEventId now action db = .ok (result, db')) :
    (alreadySeen action.inboundId db = true ∧ result.status = .duplicate ∧ db' = db) ∨
    (alreadySeen action.inboundId db = false ∧ ∃ status detail,
      db'.inboundEvents = (recordInbound now action status detail db).inboundEvents) := by
  unfold applyExternalAction at h
  split_ifs at h with hseen
  · obtain ⟨rfl, rfl⟩ := Prod.mk.inj (Except.ok.inj h)
    exact .inl ⟨hseen, rfl, rfl⟩
  refine .inr ⟨Bool.eq_false_iff.2 hseen, ?_⟩
  split at h
  · obtain ⟨-, rfl⟩ := Prod.mk.inj (Except.ok.inj h)
    exact ⟨_, _, rfl⟩
  split at h
  · obtain ⟨-, rfl⟩ := Prod.mk.inj (Except.ok.inj h)
    exact ⟨_, _, rfl⟩
  split at h
  · obtain ⟨-, rfl⟩ := Prod.mk.inj (Except.ok.inj h)
    exact ⟨_, _, rfl⟩
  · obtain ⟨d, -, h⟩ := bind_eq_ok.1 h
    obtain ⟨db₁, hp, h⟩ := bind_eq_ok.1 h
    obtain ⟨-, rfl⟩ := Prod.mk.inj (Except.ok.inj h)
    obtain ⟨-, rfl⟩ := persistDecision_ok.1 hp
    unfold settleAction
    dsimp only
    rw [redirectFor_frame, refreshGroupForMember_frame]
    exact ⟨_, _, rfl⟩

/-- The callbacks that are seen after an external action: those that were, and its own. -/
theorem applyExternalAction_seen_iff {freshEventId : String} {now : ℤ} {action : ExternalAction}
    {result : ReconcileResult} {inboundId : String}
    (h : applyExternalAction rt freshEventId now action db = .ok (result, db')) :
    alreadySeen inboundId db' = true ↔ inboundId = action.inboundId ∨ alreadySeen inboundId db = true := by
  rcases applyExternalAction_receipt h with ⟨hseen, -, rfl⟩ | ⟨hunseen, status, detail, hreceipt⟩
  · refine ⟨.inr, ?_⟩
    rintro (rfl | hid)
    · exact hseen
    · exact hid
  · unfold alreadySeen at *
    rw [hreceipt, recordInbound]
    dsimp only
    rw [Table.find?_insert]
    by_cases hid : inboundId = action.inboundId
    · subst hid
      rw [if_pos rfl]
      exact iff_of_true rfl (.inl rfl)
    · rw [if_neg hid]
      exact (or_iff_right hid).symm

/-- The callbacks that are seen stay seen. -/
theorem applyExternalAction_seen {freshEventId : String} {now : ℤ} {action : ExternalAction}
    {result : ReconcileResult} {inboundId : String}
    (h : applyExternalAction rt freshEventId now action db = .ok (result, db'))
    (hseen : alreadySeen inboundId db = true) : alreadySeen inboundId db' = true :=
  (applyExternalAction_seen_iff h).2 (.inr hseen)

/-- **A sweep is a chain of external actions**, one for each overdue incident: what
holds before it and is kept by each of them holds after it. -/
theorem sweepOnce_induct {P : Database K → Prop} {freshEventId : ℕ → String} {now moment : ℤ}
    {n : ℕ} (h : sweepOnce rt freshEventId now moment db = .ok (n, db')) (h0 : P db)
    (hs : ∀ a b overdue o result k, candidates rt moment db = .ok overdue → o ∈ overdue → P a →
      applyExternalAction rt (freshEventId k) now (sweepAction moment o) a = .ok (result, b) → P b) :
    P db' := by
  unfold sweepOnce at h
  obtain ⟨overdue, hc, h⟩ := bind_eq_ok.1 h
  unfold sweepActions at h
  refine foldlM_induct (P := fun s => P s.2) h h0 fun s w s' hw hP hstep => ?_
  obtain ⟨⟨result, b⟩, ha, hstep⟩ := bind_eq_ok.1 hstep
  obtain rfl := Except.ok.inj hstep
  obtain ⟨k, hk, rfl⟩ := List.mem_mapIdx.1 hw
  exact hs s.2 b overdue _ result k hc (List.getElem_mem hk) hP ha

end Transactions

end PulseGraph
