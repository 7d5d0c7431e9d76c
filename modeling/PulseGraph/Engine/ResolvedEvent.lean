/-
# What a resolved event does

An event with status `resolved` should close an incident or do nothing.  It does
unless it is classified as protected-critical: the classification does not see
the status, so such an event opens an acknowledged incident and pages
(`bypass_pages`), while the sibling branches, `_new_incident_state` and
`_next_state`, both ask for the status first.  `resolvesQuietly_iff` says exactly
when it does: when no bypass is committed, and the incident the lookup returns,
if it is active, passes `is_exact_duplicate`.
-/

import PulseGraph.Engine.System

namespace PulseGraph

open Library (Table bind_eq_ok)

variable {K : Type} (rt : Runtime K)

/-- `process_event` followed by `persist_decision`, in one transaction. -/
def processAndPersist (freshId : String) (now : ℤ) (event : NormalizedEvent) (db : Database K) :
    Database K :=
  afterTransaction db do
    let d ← processEvent rt freshId now event db
    let db ← persistDecision rt now d db
    .ok (d, db)

/-- The number of active incidents in a scope. -/
def activeIncidents (scopeKey : String) (db : Database K) : ℕ :=
  db.incidents.count fun _ i => i.scopeKey = scopeKey && i.status.active

/-- What `lookup_incident` returns for an event. -/
def lookupFor (event : NormalizedEvent) (db : Database K) : Option IncidentRecord :=
  lookupIncident (generateFingerprint rt (eventPayload event (scopeKeyFor event))) (scopeKeyFor event) db

/-- A resolved event neither opens nor pages, and resolves the active incident the
lookup returns. -/
structure ResolvesQuietly (event : NormalizedEvent) (db db' : Database K) : Prop where
  active_le : activeIncidents (scopeKeyFor event) db' ≤ activeIncidents (scopeKeyFor event) db
  no_page : ∀ k row, db'.outbox.find? k = some row → db.outbox.find? k = none →
    ¬ (row.channel = .pagerduty ∧ row.action = .create)
  resolved : ∀ record, lookupFor rt event db = some record → record.state ≠ .RESOLVED →
    ∃ i, db'.incidents.find? record.incidentId = some i ∧ i.status = .RESOLVED

/-- No bypass is committed for the event (it is not protected-critical, or its id is
already in the ledger), and an active incident the lookup returns can be continued. -/
structure ClosesOnly (event : NormalizedEvent) (db : Database K) : Prop where
  no_bypass : (classifyProtectedCritical rt event).shouldBypass = true →
    ∃ r ∈ db.rawEvents, r.eventId = event.eventId
  continues : ∀ record, lookupFor rt event db = some record → record.state ≠ .RESOLVED →
    (classifyProtectedCritical rt event).shouldBypass = false ∧
    (∀ r ∈ db.rawEvents, r.eventId ≠ event.eventId) ∧
    isExactDuplicate rt (eventPayload event (scopeKeyFor event)) record.lastEvent
      (scopeKeyFor event) = true

section

variable {rt} {freshId : String} {now : ℤ} {event : NormalizedEvent} {d : EngineDecision}
  {db db' : Database K}

/-- A transaction commits a decision, or leaves the database as it was. -/
theorem processAndPersist_cases :
    (∃ d, processEvent rt freshId now event db = .ok d ∧ (∀ r ∈ db.rawEvents, r.eventId ≠ d.event.eventId) ∧
      processAndPersist rt freshId now event db = persisted rt now d db) ∨
    ((∀ d, processEvent rt freshId now event db = .ok d → ∃ r ∈ db.rawEvents, r.eventId = d.event.eventId) ∧
      processAndPersist rt freshId now event db = db) := by
  unfold processAndPersist
  cases hd : processEvent rt freshId now event db with
  | error e => exact .inr ⟨by simp, rfl⟩
  | ok d =>
      by_cases hfresh : ∀ r ∈ db.rawEvents, r.eventId ≠ d.event.eventId
      · have hp : persistDecision rt now d db = .ok (persisted rt now d db) :=
          persistDecision_ok.2 ⟨hfresh, rfl⟩
        refine .inl ⟨d, rfl, hfresh, ?_⟩
        simp [bind, Except.bind, hp, afterTransaction]
      · push Not at hfresh
        refine .inr ⟨fun d' hd' => Except.ok.inj hd' ▸ hfresh, ?_⟩
        simp [bind, Except.bind, persistDecision_of_seen hfresh, afterTransaction]

/-- **A committed bypass pages**, whatever the status of the event. -/
theorem bypass_pages (hb : (classifyProtectedCritical rt event).shouldBypass = true)
    (hfresh : ∀ r ∈ db.rawEvents, r.eventId ≠ event.eventId) :
    ∃ k row, (processAndPersist rt freshId now event db).outbox.find? k = some row ∧
      db.outbox.find? k = none ∧ row.channel = .pagerduty ∧ row.action = .create := by
  have hd : processEvent rt freshId now event db =
      .ok (bypassDecision rt freshId event (classifyProtectedCritical rt event).reason) := by
    unfold processEvent
    rw [if_pos hb]
  rcases @processAndPersist_cases K rt freshId now event db with ⟨d, hd', -, hp⟩ | ⟨hno, -⟩
  · obtain rfl := Except.ok.inj (hd.symm.trans hd')
    rw [hp, persisted_outbox]
    obtain ⟨k, hk, hrow⟩ := Table.exists_find?_pushAll (t := db.outbox) List.mem_cons_self
    exact ⟨k, _, hrow, hk, rfl, rfl⟩
  · obtain ⟨r, hr, he⟩ := hno _ hd
    exact absurd he (hfresh r hr)

/-- Both other branches resolve. -/
theorem newIncidentState_resolved (h : event.status = .resolved) :
    newIncidentState event = .RESOLVED := by
  unfold newIncidentState
  rw [if_pos h]

theorem nextState_resolved (h : event.status = .resolved) (s : IncidentState) :
    nextState s event = .RESOLVED := by
  unfold nextState
  rw [if_pos h]
  cases s <;> rfl

/-- A resolved event on a known incident always has a decision: no deadline is computed. -/
theorem duplicateDecision_resolved (h : event.status = .resolved) (record : IncidentRecord) :
    ∃ d, duplicateDecision rt now event record = .ok d := by
  unfold duplicateDecision quietFor
  rw [nextState_resolved h]
  exact ⟨_, rfl⟩

/-- A persisted resolving decision adds no active incident. -/
theorem activeIncidents_persisted_le (hs : d.state = .RESOLVED) (scopeKey : String) :
    activeIncidents scopeKey (persisted rt now d db) ≤ activeIncidents scopeKey db := by
  refine Table.count_le fun k i hi hp => ?_
  rw [find?_persisted] at hi
  split_ifs at hi with hk
  · obtain rfl := Option.some.inj hi
    simp [hs] at hp
  · exact ⟨i, hi, hp⟩

/-- A decision that only posts to Slack enqueues no page. -/
theorem no_page_persisted (hslack : ∀ intent ∈ d.deliveryIntents, intent.channel = .slack)
    {k : ℕ} {row : OutboxRow} (hrow : (persisted rt now d db).outbox.find? k = some row)
    (hold : db.outbox.find? k = none) : ¬ (row.channel = .pagerduty ∧ row.action = .create) := by
  rw [persisted_outbox] at hrow
  rcases Table.find?_pushAll hrow with h | ⟨-, h⟩
  · simp [hold] at h
  · obtain ⟨intent, hi, rfl⟩ := List.mem_map.1 h
    rintro ⟨hpd, -⟩
    have : intent.channel = .pagerduty := hpd
    simp [hslack intent hi] at this

/-- **Exactly when a resolved event neither opens nor pages.** -/
theorem resolvesQuietly_iff (h : event.status = .resolved) :
    ResolvesQuietly rt event db (processAndPersist rt freshId now event db) ↔
      ClosesOnly rt event db := by
  have hcases := @processAndPersist_cases K rt freshId now event db
  constructor
  · intro hq
    have hno : (classifyProtectedCritical rt event).shouldBypass = true →
        ∃ r ∈ db.rawEvents, r.eventId = event.eventId := by
      intro hb
      by_contra hfresh
      push Not at hfresh
      obtain ⟨k, row, hrow, hold, hpage⟩ := @bypass_pages K rt freshId now event db hb hfresh
      exact hq.no_page k row hrow hold hpage
    refine ⟨hno, fun record hl hactive => ?_⟩
    obtain ⟨i, hi, hres⟩ := hq.resolved record hl hactive
    rcases hcases with ⟨d, hd, hfresh, -⟩ | ⟨-, hsame⟩
    · rw [processEvent_event hd] at hfresh
      rcases processEvent_cases hd with ⟨hb, -⟩ | ⟨-, hnone, -⟩ | ⟨hb, record', hl', hdup, -⟩
      · obtain ⟨r, hr, he⟩ := hno hb
        exact absurd he (hfresh r hr)
      · rw [lookupFor, hnone] at hl
        exact absurd hl (by simp)
      · obtain rfl := Option.some.inj (hl'.symm.trans hl)
        exact ⟨hb, hfresh, hdup⟩
    · -- rolled back: the incident is as the lookup found it
      obtain ⟨i', hi', -, -, hstate, -⟩ := lookupIncident_eq_some hl
      rw [hsame] at hi
      obtain rfl := Option.some.inj (hi'.symm.trans hi)
      exact absurd (hstate.trans hres) hactive
  · intro hc
    rcases hcases with ⟨d, hd, hfresh, hp⟩ | ⟨hfail, hsame⟩
    · rw [hp]
      rw [processEvent_event hd] at hfresh
      rcases processEvent_cases hd with ⟨hb, -⟩ | ⟨-, hnone, hopen⟩ | ⟨-, record, hl, -, hdup⟩
      · obtain ⟨r, hr, he⟩ := hc.no_bypass hb
        exact absurd he (hfresh r hr)
      · obtain ⟨-, -, hst, -, -, -, -, -, intent, hint, hslack, -⟩ := openDecision_eq_ok hopen
        rw [newIncidentState_resolved h] at hst
        refine ⟨activeIncidents_persisted_le hst _, fun k row => no_page_persisted ?_, ?_⟩
        · intro x hx
          rw [hint] at hx
          exact List.mem_singleton.1 hx ▸ hslack
        · intro record hl
          rw [lookupFor, hnone] at hl
          exact absurd hl (by simp)
      · obtain ⟨-, hid, hst, -, -, -, -, -, hslack⟩ := duplicateDecision_eq_ok hdup
        rw [nextState_resolved h] at hst
        refine ⟨activeIncidents_persisted_le hst _,
          fun k row => no_page_persisted fun x hx => (hslack x hx).1, fun record' hl' _ => ?_⟩
        obtain rfl := Option.some.inj (hl.symm.trans hl')
        exact ⟨_, hid ▸ find?_persisted_self, by rw [persistedIncident_status, hst]⟩
    · rw [hsame]
      refine ⟨le_rfl, fun k row hk hn => by simp [hn] at hk, fun record hl hactive => ?_⟩
      -- the condition lets the transaction commit, so it was not rolled back
      obtain ⟨hb, hfresh, hdup⟩ := hc.continues record hl hactive
      obtain ⟨d, hd⟩ := @duplicateDecision_resolved K rt now event h record
      have hproc : processEvent rt freshId now event db = .ok d := by
        unfold processEvent
        unfold lookupFor at hl
        simp [hb, hl, hdup, hd]
      obtain ⟨r, hr, he⟩ := hfail d hproc
      rw [processEvent_event hproc] at he
      exact absurd he (hfresh r hr)

end

/-! ## A resolved critical event -/

/-- The end of a critical alert, as a monitor reports it. -/
def resolvedCritical : NormalizedEvent :=
  sampleEvent "event-1" "critical" .resolved 1700000000000

/-- The iff at a resolved critical event on an empty database. -/
theorem resolvesQuietly_iff_resolvedCritical :
    ResolvesQuietly Runtime.reference resolvedCritical Database.empty
      (processAndPersist Runtime.reference "incident-1" 1700000000500 resolvedCritical Database.empty) ↔
    ClosesOnly Runtime.reference resolvedCritical Database.empty :=
  resolvesQuietly_iff rfl

/-- **The end of a critical alert pages**: on an empty database it opens an incident
and enqueues a PagerDuty trigger. -/
theorem resolvedCritical_pages :
    ¬ ResolvesQuietly Runtime.reference resolvedCritical Database.empty
      (processAndPersist Runtime.reference "incident-1" 1700000000500 resolvedCritical Database.empty) := by
  intro h
  have hb : (classifyProtectedCritical Runtime.reference resolvedCritical).shouldBypass = true := by
    decide +kernel
  have hnew : ∀ r ∈ (Database.empty : Database ℚ).rawEvents, r.eventId ≠ resolvedCritical.eventId :=
    fun r hr => absurd hr List.not_mem_nil
  obtain ⟨k, row, hrow, hold, hpage⟩ := bypass_pages hb hnew
  exact h.no_page k row hrow hold hpage

end PulseGraph
