/-
# Identity of alerts over runs

Two questions about the rows of the ledger and the incidents they belong to.

*Are alerts conserved?*  Every ingested event adds one to the `alert_count` of one
incident, and nothing else does; an identity none of whose events took the bypass
has one incident (`alerts_conserved`).

*Does an incident recognise its own alerts?*  `lookup_incident` compares an event
with the newest ledger row of the incident it finds.  The rows of timers, external
actions and sweeps repeat the row before them with a default in place of an empty
service, alert name or raw severity; as long as these three are not empty, the
comparison never fails (`never_nonIdentical`).
-/

import PulseGraph.Engine.System

namespace PulseGraph

open Library (Table Run Transition bind_eq_error mapM_eq_error)

variable {K : Type} [Field K] [LinearOrder K] (rt : Runtime K)

/-! ## Conservation -/

/-- The event an ingest committed. -/
def committedEvent (t : Transition (Database K) Request) : Option NormalizedEvent :=
  match t.label with
  | .ingest freshId freshGroupId now event =>
      (ingestEvent rt freshId freshGroupId now event t.source).toOption.map fun _ => event
  | _ => none

theorem committedEvent_ingest {db db' : Database K} {freshId freshGroupId : String} {now : ℤ}
    {event : NormalizedEvent} :
    committedEvent rt ⟨db, .ingest freshId freshGroupId now event, db'⟩ =
      (ingestEvent rt freshId freshGroupId now event db).toOption.map fun _ => event := rfl

/-- The ids of the events a run has ingested, newest first. -/
def ingested (h : List (Transition (Database K) Request)) : List String :=
  h.filterMap fun t => (committedEvent rt t).map (·.eventId)

/-- The ledger rows of an incident that ingest appended. -/
def ingestedRows (h : List (Transition (Database K) Request)) (db : Database K) (x : String) : ℕ :=
  db.rawEvents.countP fun r => r.incidentId = x && (ingested rt h).contains r.eventId

/-- Alerts are neither lost nor counted twice, and an identity without a bypass has
one incident. -/
structure AlertsConserved (h : List (Transition (Database K) Request)) (db : Database K) : Prop where
  total : db.incidents.sum (fun _ i => i.alertCount) = (ingested rt h).length
  each : ∀ x i, db.incidents.find? x = some i → i.alertCount = ingestedRows rt h db x
  one_incident : ∀ scopeKey fingerprint,
    (∀ r ∈ db.rawEvents, r.scopeKey = scopeKey → r.stableFingerprint = fingerprint → r.bypassed = false) →
    ∀ r ∈ db.rawEvents, ∀ r' ∈ db.rawEvents,
      r.scopeKey = scopeKey ∧ r.stableFingerprint = fingerprint →
      r'.scopeKey = scopeKey ∧ r'.stableFingerprint = fingerprint → r.incidentId = r'.incidentId

/-- The invariant behind `AlertsConserved`: ingested events are in the ledger, every
ledger row belongs to an incident of its own identity, and two incidents of one
identity are told apart by a bypass. -/
structure LedgerInvariant (h : List (Transition (Database K) Request)) (db : Database K) : Prop where
  total : db.incidents.sum (fun _ i => i.alertCount) = (ingested rt h).length
  each : ∀ x, ((db.core x).map (·.alertCount)).getD 0 = ingestedRows rt h db x
  in_ledger : ∀ id ∈ ingested rt h, ∃ r ∈ db.rawEvents, r.eventId = id
  owner : ∀ r ∈ db.rawEvents, ∃ i, db.core r.incidentId = some i ∧ r.scopeKey = i.scopeKey ∧
    r.stableFingerprint = i.stableFingerprint
  one_incident : ∀ scopeKey fingerprint,
    (∀ r ∈ db.rawEvents, r.scopeKey = scopeKey → r.stableFingerprint = fingerprint → r.bypassed = false) →
    ∀ x y i j, db.core x = some i → db.core y = some j →
      i.scopeKey = scopeKey ∧ i.stableFingerprint = fingerprint →
      j.scopeKey = scopeKey ∧ j.stableFingerprint = fingerprint → x = y

section Conservation

variable {rt} {h : List (Transition (Database K) Request)} {db db' : Database K}

omit [Field K] [LinearOrder K] in
/-- Alert counts are read off the cores. -/
theorem map_alertCount_core (x : String) :
    (db.incidents.find? x).map (·.alertCount) = (db.core x).map (·.alertCount) := by
  rw [Database.core, Option.map_map]
  rfl

omit [Field K] [LinearOrder K] in
/-- The total over the incidents, when one core changes. -/
theorem sum_alertCount_commits {now : ℤ} {d : EngineDecision} (hc : Commits rt now d db db') :
    db'.incidents.sum (fun _ i => i.alertCount) + ((db.core d.incidentId).map (·.alertCount)).getD 0 =
      db.incidents.sum (fun _ i => i.alertCount) + d.alertCount := by
  obtain ⟨i', hi', hcore'⟩ := exists_find?_of_core hc.core_self
  have halert : i'.alertCount = d.alertCount :=
    (congrArg Incident.alertCount hcore').trans persistedIncident_alertCount
  have hne : ∀ k ≠ d.incidentId, (db'.incidents.find? k).map (·.alertCount) =
      (db.incidents.find? k).map (·.alertCount) := by
    intro k hk
    rw [map_alertCount_core, map_alertCount_core, hc.core_of_ne hk]
  cases hold : db.incidents.find? d.incidentId with
  | none =>
      rw [Table.sum_of_new (g := fun _ i => i.alertCount) hold hi' hne, halert, Database.core, hold]
      rfl
  | some i =>
      rw [Database.core, hold, ← halert]
      exact Table.sum_of_changed (g := fun _ i => i.alertCount) hold hi' hne

/-- An ingest keeps the invariant. -/
theorem LedgerInvariant.ingest {freshId freshGroupId : String} {now : ℤ} {event : NormalizedEvent}
    {d : EngineDecision} (hI : LedgerInvariant rt h db)
    (hfresh : (Request.ingest freshId freshGroupId now event).fresh db = true)
    (hd : ingestEvent rt freshId freshGroupId now event db = .ok (d, db')) :
    LedgerInvariant rt (⟨db, .ingest freshId freshGroupId now event, db'⟩ :: h) db' := by
  obtain ⟨hc, hcases⟩ := ingest_cases hfresh hd
  have hevent : d.event = event := by
    rcases hcases with ho | ⟨i, hcont⟩
    · exact ho.event_eq
    · exact hcont.event_eq
  have hids : ingested rt (⟨db, .ingest freshId freshGroupId now event, db'⟩ :: h) =
      event.eventId :: ingested rt h := by
    rw [ingested, List.filterMap_cons, committedEvent_ingest, hd]
    rfl
  have hrowId : (ledgerRow rt now d db).eventId = event.eventId := by rw [← hevent]; rfl
  -- the decision adds one alert to its incident
  have hone : d.alertCount = ((db.core d.incidentId).map (·.alertCount)).getD 0 + 1 := by
    rcases hcases with ho | ⟨i, hcont⟩
    · rw [ho.unknown, ho.alertCount]; rfl
    · rw [hcont.known, hcont.alertCount]; rfl
  refine ⟨?_, fun x => ?_, fun id hid => ?_, fun r hr => ?_, ?_⟩
  · have hsum := sum_alertCount_commits hc
    rw [hids, List.length_cons, ← hI.total]
    omega
  · have hold : db.rawEvents.countP (fun r => r.incidentId = x &&
        (event.eventId :: ingested rt h).contains r.eventId) = ingestedRows rt h db x := by
      refine List.countP_congr fun r hr => ?_
      have hne : r.eventId ≠ event.eventId := hevent ▸ hc.fresh r hr
      simp [hne]
    rw [ingestedRows, hids, hc.ledger, List.countP_cons, hold, ← hI.each x, hrowId]
    by_cases hx : x = d.incidentId
    · subst hx
      rw [hc.core_self, Option.map_some, Option.getD_some, persistedIncident_alertCount, hone]
      simp [ledgerRow]
    · have hx' : (ledgerRow rt now d db).incidentId ≠ x := fun he => hx he.symm
      rw [hc.core_of_ne hx]
      simp [hx']
  · rw [hids] at hid
    rcases List.mem_cons.1 hid with rfl | hid
    · exact ⟨_, hc.ledger ▸ List.mem_cons_self, hrowId⟩
    · obtain ⟨r, hr, he⟩ := hI.in_ledger id hid
      exact ⟨r, hc.ledger ▸ List.mem_cons_of_mem _ hr, he⟩
  · rw [hc.ledger] at hr
    have hkeep : ∀ {x : String} {i : Incident}, db.core x = some i →
        ∃ i', db'.core x = some i' ∧ i'.scopeKey = i.scopeKey ∧
          i'.stableFingerprint = i.stableFingerprint := by
      intro x i hi
      by_cases hx : x = d.incidentId
      · subst hx
        refine ⟨_, hc.core_self, ?_, ?_⟩
        · rw [persistedIncident_scopeKey, hi]; rfl
        · rw [persistedIncident_stableFingerprint, hi]; rfl
      · exact ⟨i, hc.core_of_ne hx ▸ hi, rfl, rfl⟩
    rcases List.mem_cons.1 hr with rfl | hr
    · refine ⟨_, hc.core_self, ?_, ?_⟩
      · rw [persistedIncident_scopeKey]
        rcases hcases with ho | ⟨i, hcont⟩
        · rw [ho.unknown]; rfl
        · rw [hcont.known]; exact hcont.scopeKey.symm
      · rw [persistedIncident_stableFingerprint]
        rcases hcases with ho | ⟨i, hcont⟩
        · rw [ho.unknown]; rfl
        · rw [hcont.known]; exact hcont.stableFingerprint.symm
    · obtain ⟨i, hi, hsc, hfp⟩ := hI.owner r hr
      obtain ⟨i', hi', hsc', hfp'⟩ := hkeep hi
      exact ⟨i', hi', hsc.trans hsc'.symm, hfp.trans hfp'.symm⟩
  · intro scopeKey fingerprint hbypass x y i j hi hj hik hjk
    have hbypass₀ : ∀ r ∈ db.rawEvents, r.scopeKey = scopeKey → r.stableFingerprint = fingerprint →
        r.bypassed = false := fun r hr => hbypass r (hc.ledger ▸ List.mem_cons_of_mem _ hr)
    rcases hcases with ho | ⟨i₀, hcont⟩
    · -- a new incident: only a bypass can share its identity
      have hself : ∀ {z : String} {k : Incident}, z ≠ d.incidentId → db'.core z = some k →
          db'.core d.incidentId = some i ∨ db'.core d.incidentId = some j →
          k.scopeKey = scopeKey ∧ k.stableFingerprint = fingerprint → False := by
        intro z k hz hk hwho hkk
        have hidd : d.scopeKey = scopeKey ∧ d.stableFingerprint = fingerprint := by
          rcases hwho with hw | hw
          · obtain rfl := Option.some.inj (hc.core_self.symm.trans hw)
            rw [persistedIncident_scopeKey, persistedIncident_stableFingerprint, ho.unknown] at hik
            exact hik
          · obtain rfl := Option.some.inj (hc.core_self.symm.trans hw)
            rw [persistedIncident_scopeKey, persistedIncident_stableFingerprint, ho.unknown] at hjk
            exact hjk
        have hby : d.isCriticalBypass = false :=
          hbypass (ledgerRow rt now d db) (hc.ledger ▸ List.mem_cons_self) hidd.1 hidd.2
        refine ho.alone hby z k (hc.core_of_ne hz ▸ hk) ⟨?_, ?_⟩
        · exact hkk.2.trans hidd.2.symm
        · exact hkk.1.trans hidd.1.symm
      by_cases hx : x = d.incidentId
      · by_cases hy : y = d.incidentId
        · rw [hx, hy]
        · exact (hself hy hj (.inl (hx ▸ hi)) hjk).elim
      · by_cases hy : y = d.incidentId
        · exact (hself hx hi (.inr (hy ▸ hj)) hik).elim
        · exact hI.one_incident scopeKey fingerprint hbypass₀ x y i j (hc.core_of_ne hx ▸ hi)
            (hc.core_of_ne hy ▸ hj) hik hjk
    · -- a known incident keeps its identity
      have hback : ∀ {z : String} {k : Incident}, db'.core z = some k →
          k.scopeKey = scopeKey ∧ k.stableFingerprint = fingerprint →
          ∃ k₀, db.core z = some k₀ ∧ k₀.scopeKey = scopeKey ∧ k₀.stableFingerprint = fingerprint := by
        intro z k hk hkk
        by_cases hz : z = d.incidentId
        · subst hz
          obtain rfl := Option.some.inj (hc.core_self.symm.trans hk)
          rw [persistedIncident_scopeKey, persistedIncident_stableFingerprint, hcont.known] at hkk
          exact ⟨i₀, hcont.known, hkk⟩
        · exact ⟨k, hc.core_of_ne hz ▸ hk, hkk⟩
      obtain ⟨i', hi', hik'⟩ := hback hi hik
      obtain ⟨j', hj', hjk'⟩ := hback hj hjk
      exact hI.one_incident scopeKey fingerprint hbypass₀ x y i' j' hi' hj' hik' hjk'

/-- A request that commits no event keeps the invariant. -/
theorem LedgerInvariant.effect {q : Request} {trigger : Option Trigger} {targets : String → Prop}
    (hI : LedgerInvariant rt h db) (hnone : committedEvent rt ⟨db, q, db'⟩ = none)
    (heff : Effect trigger targets db db') : LedgerInvariant rt (⟨db, q, db'⟩ :: h) db' := by
  have hids : ingested rt (⟨db, q, db'⟩ :: h) = ingested rt h := by
    rw [ingested, List.filterMap_cons, hnone]
    rfl
  obtain ⟨rows, hrows, hnew⟩ := heff.ledger
  have hidentity : ∀ x, (db'.core x).map (fun i => (i.alertCount, i.scopeKey, i.stableFingerprint)) =
      (db.core x).map fun i => (i.alertCount, i.scopeKey, i.stableFingerprint) := by
    intro x
    rcases heff.incidents x with ⟨hcore, -⟩ | ⟨-, i, i', row, hi, hi', -, hm⟩
    · rw [hcore]
    · rw [hi, hi', Option.map_some, Option.map_some, hm.alertCount, hm.scopeKey, hm.stableFingerprint]
  have halert : ∀ x, (db'.core x).map (·.alertCount) = (db.core x).map (·.alertCount) := by
    intro x
    have := congrArg (Option.map Prod.fst) (hidentity x)
    rwa [Option.map_map, Option.map_map] at this
  have hkeep : ∀ {x : String} {i : Incident}, db'.core x = some i →
      ∃ i₀, db.core x = some i₀ ∧ i₀.scopeKey = i.scopeKey ∧
        i₀.stableFingerprint = i.stableFingerprint := by
    intro x i hi
    have := hidentity x
    rw [hi, Option.map_some, eq_comm] at this
    obtain ⟨i₀, hi₀, heq⟩ := Option.map_eq_some_iff.1 this
    simp only [Prod.mk.injEq] at heq
    exact ⟨i₀, hi₀, heq.2⟩
  have hforth : ∀ {x : String} {i : Incident}, db.core x = some i →
      ∃ i', db'.core x = some i' ∧ i'.scopeKey = i.scopeKey ∧
        i'.stableFingerprint = i.stableFingerprint := by
    intro x i hi
    have := hidentity x
    rw [hi, Option.map_some] at this
    obtain ⟨i', hi', heq⟩ := Option.map_eq_some_iff.1 this
    simp only [Prod.mk.injEq] at heq
    exact ⟨i', hi', heq.2⟩
  refine ⟨?_, fun x => ?_, fun id hid => ?_, fun r hr => ?_, ?_⟩
  · rw [hids, ← hI.total]
    refine Table.sum_congr fun k => ?_
    rw [map_alertCount_core, map_alertCount_core, halert]
  · -- the new rows carry event ids that were never ingested
    have hzero : rows.countP (fun r => r.incidentId = x && (ingested rt h).contains r.eventId) = 0 := by
      rw [List.countP_eq_zero]
      intro r hr hsel
      obtain ⟨-, hfresh, -⟩ := hnew r hr
      simp only [Bool.and_eq_true, List.contains_iff_mem] at hsel
      obtain ⟨r', hr', he⟩ := hI.in_ledger _ hsel.2
      exact hfresh r' hr' he
    rw [halert, hI.each x, ingestedRows, ingestedRows, hids, hrows, List.countP_append, hzero, Nat.zero_add]
  · obtain ⟨r, hr, he⟩ := hI.in_ledger id (hids ▸ hid)
    exact ⟨r, hrows ▸ List.mem_append_right _ hr, he⟩
  · rw [hrows] at hr
    have hold : ∃ i, db.core r.incidentId = some i ∧ r.scopeKey = i.scopeKey ∧
        r.stableFingerprint = i.stableFingerprint := by
      rcases List.mem_append.1 hr with hr | hr
      · exact (hnew r hr).2.2
      · exact hI.owner r hr
    obtain ⟨i, hi, hsc, hfp⟩ := hold
    obtain ⟨i', hi', hsc', hfp'⟩ := hforth hi
    exact ⟨i', hi', hsc.trans hsc'.symm, hfp.trans hfp'.symm⟩
  · intro scopeKey fingerprint hbypass x y i j hi hj hik hjk
    obtain ⟨i₀, hi₀, hi₁, hi₂⟩ := hkeep hi
    obtain ⟨j₀, hj₀, hj₁, hj₂⟩ := hkeep hj
    exact hI.one_incident scopeKey fingerprint
      (fun r hr => hbypass r (hrows ▸ List.mem_append_right _ hr)) x y i₀ j₀ hi₀ hj₀
      ⟨hi₁.trans hik.1, hi₂.trans hik.2⟩ ⟨hj₁.trans hjk.1, hj₂.trans hjk.2⟩

/-- The invariant holds of every run. -/
theorem ledgerInvariant_of_run (r : EngineRun rt h db) : LedgerInvariant rt h db := by
  refine Run.induct (I := LedgerInvariant rt) r ?_ ?_
  · rintro _ rfl
    exact ⟨rfl, fun x => rfl, by simp [ingested], by simp [Database.empty],
      fun _ _ _ x _ i _ hi => by simp [Database.core, Database.empty] at hi⟩
  · intro h db q db' _ hI hstep
    rcases engineNext_cases hstep with ⟨_, _, _, _, d, rfl, hfresh, hd⟩ | ⟨hno, heff⟩
    · exact hI.ingest hfresh hd
    · refine hI.effect ?_ heff
      cases q with
      | ingest freshId freshGroupId now event =>
          cases hr : ingestEvent rt freshId freshGroupId now event db with
          | ok s => exact absurd hr (hno _ _ _ _ s.1 s.2 rfl)
          | error e =>
              rw [committedEvent_ingest, hr]
              rfl
      | timer _ _ _ _ => rfl
      | external _ _ _ => rfl
      | sweep _ _ _ => rfl

/-- **Alerts are conserved over every run.** -/
theorem alerts_conserved (r : EngineRun rt h db) : AlertsConserved rt h db := by
  have hI := ledgerInvariant_of_run r
  refine ⟨hI.total, fun x i hi => ?_, ?_⟩
  · have := hI.each x
    rw [core_of_find? hi] at this
    exact this
  · intro scopeKey fingerprint hbypass r hr r' hr' hk hk'
    obtain ⟨i, hi, hsc, hfp⟩ := hI.owner r hr
    obtain ⟨i', hi', hsc', hfp'⟩ := hI.owner r' hr'
    exact hI.one_incident scopeKey fingerprint hbypass _ _ i i' hi hi'
      ⟨hsc.symm.trans hk.1, hfp.symm.trans hk.2⟩ ⟨hsc'.symm.trans hk'.1, hfp'.symm.trans hk'.2⟩

end Conservation

/-- Two alerts of one identity. -/
def twoAlerts : List Request :=
  [.ingest "incident-1" "group-1" 1000 (sampleEvent "event-1" "warning" .firing 1000),
    .ingest "incident-2" "group-2" 3000 (sampleEvent "event-2" "warning" .firing 3000)]

/-- Both are counted on one incident. -/
theorem alerts_conserved_twoAlerts : ∃ h db, EngineRun Runtime.reference h db ∧
    AlertsConserved Runtime.reference h db ∧ (ingested Runtime.reference h).length = 2 := by
  have hrun : (Library.replay (engineNext Runtime.reference) twoAlerts ([], Database.empty)).map
      (fun s => (ingested Runtime.reference s.1).length) = some 2 := by
    decide +kernel
  obtain ⟨h, db, r, hf⟩ := EngineRun.of_replay hrun
  exact ⟨h, db, r, alerts_conserved r, hf⟩

/-! ## Recognition -/

/-- Every incident a timer, an external action or a sweep acts on has a newest ledger
row with a service, an alert name and a raw severity. -/
def KeepsIdentity (rt : Runtime K) (t : Transition (Database K) Request) : Prop :=
  ∀ x row, Targets rt t.source x t.label → t.source.latestEvent x = some row →
    row.service ≠ "" ∧ row.alertname ≠ "" ∧ row.severityRaw ≠ ""

/-- The newest ledger row of every incident has the incident's fingerprint. -/
def Recognised (rt : Runtime K) (db : Database K) : Prop :=
  ∀ x i, db.core x = some i → ∃ row, db.latestEvent x = some row ∧
    generateFingerprint rt (lastEventOf i.scopeKey (some row)) = i.stableFingerprint

section Recognition

variable {rt} {h : List (Transition (Database K) Request)} {db db' : Database K}

omit [Field K] [LinearOrder K] in
/-- The row of a decision reads back with the fingerprint of its event. -/
theorem generateFingerprint_ledgerRow {now : ℤ} {d : EngineDecision} (scopeKey scopeKey' : String) :
    generateFingerprint rt (lastEventOf scopeKey (some (ledgerRow rt now d db))) =
      generateFingerprint rt (eventPayload d.event scopeKey') :=
  generateFingerprint_congr rt rfl rfl rfl (Labels.sorted_perm d.event.labels)

/-- A committed ingest leaves its incident recognised. -/
theorem Recognised.ingest {freshId freshGroupId : String} {now : ℤ} {event : NormalizedEvent}
    {d : EngineDecision} (hI : Recognised rt db)
    (hfresh : (Request.ingest freshId freshGroupId now event).fresh db = true)
    (hd : ingestEvent rt freshId freshGroupId now event db = .ok (d, db')) : Recognised rt db' := by
  obtain ⟨hc, hcases⟩ := ingest_cases hfresh hd
  intro x i' hi'
  by_cases hx : x = d.incidentId
  · subst hx
    obtain rfl := Option.some.inj (hc.core_self.symm.trans hi')
    refine ⟨_, (hc.latestEvent d.incidentId).trans (if_pos rfl), ?_⟩
    rw [generateFingerprint_ledgerRow _ (scopeKeyFor event), persistedIncident_stableFingerprint]
    rcases hcases with ho | ⟨i, hcont⟩
    · rw [ho.unknown, ho.event_eq]
      exact ho.identity.2.symm
    · rw [hcont.known, hcont.event_eq]
      exact (hcont.stableFingerprint.trans hcont.identity.2).symm
  · rw [hc.core_of_ne hx] at hi'
    rw [hc.latestEvent, if_neg hx]
    exact hI x i' hi'

omit [Field K] [LinearOrder K] in
/-- So does a synthetic decision over a row without empty fields. -/
theorem Recognised.effect {trigger : Option Trigger} {targets : String → Prop} (hI : Recognised rt db)
    (heff : Effect trigger targets db db')
    (hrows : ∀ x row, targets x → db.latestEvent x = some row →
      row.service ≠ "" ∧ row.alertname ≠ "" ∧ row.severityRaw ≠ "") : Recognised rt db' := by
  intro x i' hi'
  rcases heff.incidents x with ⟨hcore, hlatest⟩ | ⟨ht, i, i₁, row', hi, hi₁, hrow', hm⟩
  · rw [hlatest]
    exact hI x i' (hcore ▸ hi')
  obtain rfl := Option.some.inj (hi₁.symm.trans hi')
  obtain ⟨row, hrow, hfp⟩ := hI x i hi
  obtain ⟨hservice, halertname, hraw⟩ := hrows x row ht hrow
  refine ⟨row', hrow', ?_⟩
  rw [hrow] at hm
  obtain ⟨d₁, -, hs⟩ := hm.service
  obtain ⟨d₂, -, hn⟩ := hm.alertname
  rw [hm.stableFingerprint, ← hfp]
  refine generateFingerprint_congr rt ?_ ?_ ?_ ?_
  · exact hs.trans (orDefault_of_ne hservice)
  · exact hn.trans (orDefault_of_ne halertname)
  · exact hm.severityRaw.trans (orDefault_of_ne hraw)
  · show row'.labels.items.Perm row.labels.items
    rw [hm.labels]
    exact Labels.sorted_perm row.labels

/-- Every incident is recognised along a run that keeps identities. -/
theorem recognised_of_run (r : EngineRun rt h db) (hc : ∀ t ∈ h, KeepsIdentity rt t) :
    Recognised rt db := by
  refine Run.induct_of_forall (C := KeepsIdentity rt) (I := fun _ db => Recognised rt db) r hc ?_ ?_
  · rintro _ rfl x i hi
    simp [Database.core, Database.empty] at hi
  · intro h db q db' _ _ hI hkeep hstep
    rcases engineNext_cases hstep with ⟨_, _, _, _, d, rfl, hfresh, hd⟩ | ⟨-, heff⟩
    · exact hI.ingest hfresh hd
    · exact hI.effect heff hkeep

omit [Field K] [LinearOrder K] in
/-- In a recognised database, what the lookup reconstructs is an exact duplicate. -/
theorem Recognised.isExactDuplicate (hI : Recognised rt db) {event : NormalizedEvent}
    {record : IncidentRecord}
    (hl : lookupIncident (generateFingerprint rt (eventPayload event (scopeKeyFor event)))
      (scopeKeyFor event) db = some record) :
    isExactDuplicate rt (eventPayload event (scopeKeyFor event)) record.lastEvent
      (scopeKeyFor event) = true := by
  obtain ⟨i, hi, hfp, hsc, -, -, -, -, hlast⟩ := lookupIncident_eq_some hl
  obtain ⟨row, hrow, hgen⟩ := hI _ _ (core_of_find? hi)
  have hgen : generateFingerprint rt (lastEventOf i.scopeKey (some row)) = i.stableFingerprint := hgen
  refine (isExactDuplicate_eq_true rt (scopeKeyFor_ne_empty event) rfl (by rw [hlast]; rfl)).2 ?_
  rw [hlast, hrow, ← hsc, hgen, hfp, hsc]

omit [Field K] [LinearOrder K] in
/-- The other errors of `process_event` are about values. -/
theorem quietFor_error {s : IncidentState} {gaps : List ℚ} {lastGap : ℚ} {now : ℤ} {e : EngineError}
    (he : quietFor rt s gaps lastGap now = .error e) : ∃ text, e = .valueError text := by
  have hvalidate : ∀ {g : ℚ}, validateGap g = .error e → ∃ text, e = .valueError text := by
    intro g hg
    unfold validateGap at hg
    split_ifs at hg
    exact ⟨_, (Except.error.inj hg).symm⟩
  unfold quietFor at he
  split_ifs at he
  unfold calculateQuietDeadline at he
  rcases bind_eq_error.1 he with he | ⟨gs, -, he⟩
  · obtain ⟨g, -, hg⟩ := mapM_eq_error he
    exact hvalidate hg
  rcases bind_eq_error.1 he with he | ⟨g, -, he⟩
  · exact hvalidate he
  dsimp only at he
  split_ifs at he
  · exact ⟨_, (Except.error.inj he).symm⟩
  · split at he <;> cases he

/-- **The engine recognises its own alerts**, over every run whose timers, external
actions and sweeps act on incidents whose newest row has no empty field. -/
theorem never_nonIdentical (r : EngineRun rt h db) (hc : ∀ t ∈ h, KeepsIdentity rt t)
    (freshId : String) (now : ℤ) (event : NormalizedEvent) :
    processEvent rt freshId now event db ≠ .error nonIdenticalIncident ∧
    ∀ record, lookupIncident (generateFingerprint rt (eventPayload event (scopeKeyFor event)))
        (scopeKeyFor event) db = some record →
      isExactDuplicate rt (eventPayload event (scopeKeyFor event)) record.lastEvent
        (scopeKeyFor event) = true := by
  have hI := recognised_of_run r hc
  refine ⟨fun herr => ?_, fun record hl => hI.isExactDuplicate hl⟩
  unfold processEvent at herr
  dsimp only at herr
  split_ifs at herr
  split at herr
  · rcases bind_eq_error.1 herr with hq | ⟨q, -, hq⟩
    · obtain ⟨text, htext⟩ := quietFor_error hq
      cases htext
    · cases hq
  · next record hl =>
      rw [hI.isExactDuplicate hl] at herr
      rcases bind_eq_error.1 herr with hq | ⟨q, -, hq⟩
      · obtain ⟨text, htext⟩ := quietFor_error hq
        cases htext
      · cases hq

omit [Field K] [LinearOrder K] in
/-- A step keeps identities where it has no trigger, or no ledger row has an empty field. -/
theorem keepsIdentity_of_check {t : Transition (Database K) Request}
    (h : (t.label.trigger.isNone || t.source.rawEvents.all fun r =>
      decide (r.service ≠ "" ∧ r.alertname ≠ "" ∧ r.severityRaw ≠ "")) = true) :
    KeepsIdentity rt t := by
  intro x row ht hrow
  rcases Bool.or_eq_true_iff.1 h with hnone | hall
  · have hsome := ht.trigger_isSome
    rw [Option.isNone_iff_eq_none.1 hnone] at hsome
    exact absurd hsome (by simp)
  · simpa using List.all_eq_true.1 hall _ (List.mem_of_find?_eq_some hrow)

end Recognition

/-- An alert, and the quiet deadline of its incident. -/
def alertThenDeadline (severityRaw : String) : List Request :=
  [.ingest "incident-1" "group-1" 1000 (sampleEvent "event-1" severityRaw .firing 1000),
    .timer "event-2" 6000 "incident-1" 6000]

/-- A warning is recognised again after its quiet deadline. -/
theorem never_nonIdentical_warning : ∃ h db, EngineRun Runtime.reference h db ∧
    (db.incidents.find? "incident-1").map (·.status) = some .QUIESCENT ∧
    processEvent Runtime.reference "incident-2" 7000 (sampleEvent "event-3" "warning" .firing 7000) db ≠
      .error nonIdenticalIncident := by
  have hrun : (Library.replay (engineNext Runtime.reference) (alertThenDeadline "warning")
      ([], Database.empty)).map (fun s => (s.1.all fun t => t.label.trigger.isNone ||
          t.source.rawEvents.all fun r =>
            decide (r.service ≠ "" ∧ r.alertname ≠ "" ∧ r.severityRaw ≠ ""),
        (s.2.incidents.find? "incident-1").map (·.status))) = some (true, some .QUIESCENT) := by
    decide +kernel
  obtain ⟨h, db, r, hf⟩ := EngineRun.of_replay hrun
  obtain ⟨hkeep, hstatus⟩ := Prod.mk.inj hf
  exact ⟨h, db, r, hstatus, (never_nonIdentical r (fun t ht => keepsIdentity_of_check
    (List.all_eq_true.1 hkeep t ht)) "incident-2" 7000 (sampleEvent "event-3" "warning" .firing 7000)).1⟩

/-- **Ingest does not accept every event**: an alert with an empty severity is not
recognised any more once its quiet deadline has passed, for the row of the deadline
names a severity. -/
theorem not_never_nonIdentical : ¬ ∀ h db, EngineRun Runtime.reference h db →
    ∀ freshId now event, processEvent Runtime.reference freshId now event db ≠
      .error nonIdenticalIncident := by
  intro hall
  have hrun : (Library.replay (engineNext Runtime.reference) (alertThenDeadline "")
      ([], Database.empty)).map (fun s =>
        match processEvent Runtime.reference "incident-2" 7000
          (sampleEvent "event-3" "" .firing 7000) s.2 with
        | .error e => decide (e = nonIdenticalIncident)
        | .ok _ => false) = some true := by
    decide +kernel
  obtain ⟨h, db, r, hf⟩ := EngineRun.of_replay hrun
  refine hall h db r "incident-2" 7000 (sampleEvent "event-3" "" .firing 7000) ?_
  dsimp only at hf
  split at hf
  · next e he => rw [he, of_decide_eq_true hf]
  · exact absurd hf (by decide)

end PulseGraph
