/-
# How much correlation an alert costs

`persist_and_observe`: "Two bounds make it O(K): correlation is only meaningful over a recent
window, and past the most recent K neighbours the extra edges add cost without adding
evidence."  The candidates are bounded so, but only their fingerprints are passed on, and
`observe_incident` takes every active incident that carries one of them.  Bypassed alerts
open an incident each, and those of one identity carry one fingerprint.

**Proved here.**  An incident that carries such a fingerprint and is no candidate itself is a
stray.  `correlationBounded_iff_fewStrays`: in every reachable state, the edges an alert
upserts stay within both bounds exactly when every stray is recent and of the scope, and
there is at most one, in the place the alert's own incident takes among the candidates.
`not_correlationBounded` is an edge to an incident that left the window.
-/

import PulseGraph.Engine.AlertRound
import PulseGraph.Engine.Frames

namespace PulseGraph

open Library (Run Table Transition toOption_eq_some)

variable {K : Type} (rt : Runtime K)

/-! ## Strays -/

/-- The companions of an alert that are no candidates. -/
def strays (now : ℤ) (d : EngineDecision) (db : Database K) : List (String × Incident) :=
  (companions rt now d db).filter fun r => !(near rt now d db).any fun c => c.1 = r.1

/-- **Few strays**, before the decision is persisted: each is a recent incident of the scope, and there
is at most one, and none where the incident of the alert takes no place among the candidates. -/
structure FewStrays (now : ℤ) (d : EngineDecision) (db : Database K) : Prop where
  limit : 0 ≤ rt.settings.correlationMaxNeighbours
  recent : ∀ r ∈ strays rt now d db, inWindow rt now d.scopeKey r.2 = true
  few : (strays rt now d db).length ≤ if takesPlace rt now d db then 1 else 0

/-- Both bounds: at most so many edges, each to a recent incident of the scope. -/
structure CorrelationBounded (now : ℤ) (d : EngineDecision) (db : Database K)
    (edges : List (String × String)) : Prop where
  few : (edges.length : ℤ) ≤ rt.settings.correlationMaxNeighbours
  recent : ∀ e ∈ edges, ∃ x i, x ≠ d.incidentId ∧ (e = (x, d.incidentId) ∨ e = (d.incidentId, x)) ∧
    db.incidents.find? x = some i ∧ inWindow rt now d.scopeKey i = true

section Bounds

variable {rt} {now : ℤ} {d : EngineDecision} {db : Database K}

theorem mem_others {r : String × Incident} : r ∈ others rt now d db ↔
    db.incidents.find? r.1 = some r.2 ∧ r.1 ≠ d.incidentId ∧ inWindow rt now d.scopeKey r.2 = true := by
  rw [others, List.mem_insertionSort, Table.mem_select, Bool.and_eq_true, decide_eq_true_eq]

/-- A candidate is one of the others. -/
theorem near_subset : near rt now d db ⊆ others rt now d db := (sqlLimit_sublist _ _).subset

theorem nodup_near : ((near rt now d db).map Prod.fst).Nodup := by
  refine List.Nodup.sublist ((sqlLimit_sublist _ _).map _) ?_
  exact ((List.perm_insertionSort _ _).map Prod.fst).nodup_iff.2 (Table.nodup_select _ _)

theorem mem_companions {r : String × Incident} (h : r ∈ companions rt now d db) :
    db.incidents.find? r.1 = some r.2 ∧ r.1 ≠ d.incidentId := by
  unfold companions at h
  split_ifs at h
  · obtain ⟨hfind, hsel⟩ := Table.mem_select.1 h
    simp only [Bool.and_eq_true, decide_eq_true_eq] at hsel
    exact ⟨hfind, hsel.1⟩
  · simp at h

theorem nodup_companions : ((companions rt now d db).map Prod.fst).Nodup := by
  unfold companions
  split_ifs
  · exact Table.nodup_select _ _
  · exact List.nodup_nil

/-- The other candidates take at most the places that are left. -/
theorem length_near_le (h : 0 ≤ rt.settings.correlationMaxNeighbours) :
    ((near rt now d db).length : ℤ) ≤
      rt.settings.correlationMaxNeighbours - if takesPlace rt now d db then 1 else 0 := by
  have hplaces : 0 ≤ rt.settings.correlationMaxNeighbours - if takesPlace rt now d db then 1 else 0 := by
    split_ifs with hplace
    · unfold takesPlace at hplace
      simp only [Bool.and_eq_true, decide_eq_true_eq] at hplace
      omega
    · omega
  unfold near sqlLimit
  rw [if_neg (not_lt.2 hplaces), List.length_take]
  omega

/-- They take all of them where one of the others is left out. -/
theorem near_full {r : String × Incident} (hr : r ∈ others rt now d db) (hno : r ∉ near rt now d db) :
    ((near rt now d db).length : ℤ) =
      rt.settings.correlationMaxNeighbours - if takesPlace rt now d db then 1 else 0 := by
  unfold near at hno ⊢
  generalize rt.settings.correlationMaxNeighbours - (if takesPlace rt now d db then 1 else 0) = n at hno ⊢
  unfold sqlLimit at hno ⊢
  by_cases hneg : n < 0
  · rw [if_pos hneg] at hno
    exact absurd hr hno
  · rw [if_neg hneg] at hno ⊢
    have hlt : n.toNat < (others rt now d db).length := by
      by_contra hle
      rw [List.take_of_length_le (not_lt.1 hle)] at hno
      exact hno hr
    rw [List.length_take]
    omega

/-- A companion under the key of a candidate is that candidate. -/
theorem mem_near_of_key {r : String × Incident} (hr : r ∈ companions rt now d db)
    (h : ((near rt now d db).any fun c => c.1 = r.1) = true) : r ∈ near rt now d db := by
  obtain ⟨c, hc, hkey⟩ := List.any_eq_true.1 h
  have hkey : c.1 = r.1 := of_decide_eq_true hkey
  have hvalue : c.2 = r.2 :=
    Option.some.inj ((mem_others.1 (near_subset hc)).1.symm.trans (hkey ▸ (mem_companions hr).1))
  exact Prod.ext hkey hvalue ▸ hc

theorem mem_strays {r : String × Incident} :
    r ∈ strays rt now d db ↔ r ∈ companions rt now d db ∧ r ∉ near rt now d db := by
  unfold strays
  rw [List.mem_filter, Bool.not_eq_true']
  refine and_congr_right fun hr => ?_
  constructor
  · intro hkey hnear
    rw [List.any_eq_false] at hkey
    exact hkey r hnear (by simp)
  · intro hno
    rw [← Bool.not_eq_true]
    exact fun hkey => hno (mem_near_of_key hr hkey)

/-- The companions that are candidates, with the strays, are all of them. -/
theorem length_companions_le :
    (companions rt now d db).length ≤ (near rt now d db).length + (strays rt now d db).length := by
  rw [List.length_eq_length_filter_add (l := companions rt now d db)
    (fun r => (near rt now d db).any fun c => c.1 = r.1)]
  refine Nat.add_le_add_right ?_ _
  have hnodup := (List.Nodup.of_map _ (@nodup_companions _ rt now d db)).filter
    fun r => (near rt now d db).any fun c => c.1 = r.1
  refine (hnodup.subperm fun r hr => ?_).length_le
  obtain ⟨hr, hkey⟩ := List.mem_filter.1 hr
  exact mem_near_of_key hr hkey

/-- Every candidate that carries a fingerprint is a companion, where there is one. -/
theorem near_subset_companions (hnonempty : ∀ k i, db.incidents.find? k = some i → i.stableFingerprint ≠ "")
    (hsome : companions rt now d db ≠ []) : near rt now d db ⊆ companions rt now d db := by
  intro r hr
  obtain ⟨hfind, hne, hwindow⟩ := mem_others.1 (near_subset hr)
  unfold companions at hsome ⊢
  split_ifs at hsome ⊢ with hround
  · refine Table.mem_select.2 ⟨hfind, ?_⟩
    have hactive : r.2.status.active = true := by
      unfold inWindow at hwindow
      simp only [Bool.and_eq_true] at hwindow
      exact hwindow.1.2
    have hcorrelates : correlates rt now d db r.2.stableFingerprint = true := by
      unfold correlates
      simp only [Bool.and_eq_true, Bool.or_eq_true, decide_eq_true_eq, List.any_eq_true]
      exact ⟨hnonempty _ _ hfind, .inr ⟨r, hr, rfl⟩⟩
    simp [hne, hactive, hcorrelates]
  · exact absurd rfl hsome

/-- So with the strays the candidates are no more than the companions. -/
theorem length_companions_ge (hnonempty : ∀ k i, db.incidents.find? k = some i → i.stableFingerprint ≠ "")
    (hsome : companions rt now d db ≠ []) :
    (near rt now d db).length + (strays rt now d db).length ≤ (companions rt now d db).length := by
  rw [List.length_eq_length_filter_add (l := companions rt now d db)
    (fun r => (near rt now d db).any fun c => c.1 = r.1)]
  refine Nat.add_le_add_right ?_ _
  refine ((List.Nodup.of_map _ (@nodup_near _ rt now d db)).subperm fun r hr => ?_).length_le
  exact List.mem_filter.2 ⟨near_subset_companions hnonempty hsome hr,
    List.any_eq_true.2 ⟨r, hr, decide_eq_true rfl⟩⟩

/-- The end of a companion's edge that is not the incident of the alert. -/
theorem edgeKey_other {x y : String} {t : ℤ} {r : String × Incident} (hr : r.1 ≠ x)
    (h : edgeKey x t r = (y, x) ∨ edgeKey x t r = (x, y)) : y = r.1 := by
  unfold edgeKey at h
  split_ifs at h
  · rcases h with h | h
    · exact (Prod.mk.inj h).1.symm
    · exact absurd (Prod.mk.inj h).1 hr
  · rcases h with h | h
    · exact absurd (Prod.mk.inj h).2 hr
    · exact (Prod.mk.inj h).2.symm

/-- **Both bounds hold of the edges if and only if there are few strays.** -/
theorem bounded_iff (hb : d.isCriticalBypass = false) (hfits : d.Fits db)
    (hnonempty : ∀ k i, db.incidents.find? k = some i → i.stableFingerprint ≠ "") :
    CorrelationBounded rt now d (persisted rt now d db) (upsertedEdges rt now d (persisted rt now d db)) ↔
      FewStrays rt now d db := by
  rw [upsertedEdges_eq hb hfits]
  constructor
  · rintro ⟨hfew, hrecent⟩
    rw [List.length_map] at hfew
    have hstray : ∀ r ∈ strays rt now d db, inWindow rt now d.scopeKey r.2 = true := by
      intro r hr
      have hcompanion := (mem_strays.1 hr).1
      obtain ⟨hfind, hne⟩ := mem_companions hcompanion
      obtain ⟨y, i, -, hedge, hi, hwindow⟩ := hrecent _ (List.mem_map_of_mem hcompanion)
      obtain rfl : y = r.1 := edgeKey_other hne hedge
      rw [find?_persisted_of_ne hne, hfind] at hi
      exact Option.some.inj hi ▸ hwindow
    refine ⟨by omega, hstray, ?_⟩
    cases hstrays : strays rt now d db with
    | nil => exact Nat.zero_le _
    | cons r rest =>
        -- a stray in the window was left out, so the places are all taken
        have hr : r ∈ strays rt now d db := hstrays ▸ List.mem_cons_self
        obtain ⟨hcompanion, hno⟩ := mem_strays.1 hr
        obtain ⟨hfind, hne⟩ := mem_companions hcompanion
        have hfull := near_full (mem_others.2 ⟨hfind, hne, hstray r hr⟩) hno
        have hlength := length_companions_ge hnonempty (List.ne_nil_of_mem hcompanion)
        rw [← hstrays]
        split_ifs at hfull ⊢ <;> omega
  · rintro ⟨hlimit, hrecent, hfew⟩
    refine ⟨?_, fun e he => ?_⟩
    · have hlength := @length_companions_le _ rt now d db
      have hplaces := @length_near_le _ rt now d db hlimit
      rw [List.length_map]
      split_ifs at hfew hplaces <;> omega
    · obtain ⟨r, hr, rfl⟩ := List.mem_map.1 he
      obtain ⟨hfind, hne⟩ := mem_companions hr
      refine ⟨r.1, r.2, hne, ?_, (find?_persisted_of_ne hne).trans hfind, ?_⟩
      · unfold edgeKey
        split_ifs
        · exact .inl rfl
        · exact .inr rfl
      · by_cases hnear : r ∈ near rt now d db
        · exact (mem_others.1 (near_subset hnear)).2.2
        · exact hrecent r (mem_strays.2 ⟨hr, hnear⟩)

/-- An edge to nobody recent breaks the bounds. -/
theorem not_bounded_of_stray {edges : List (String × String)}
    (h : (edges.any fun e => [e.1, e.2].all fun x => decide (x = d.incidentId) ||
      !(db.incidents.find? x).any (inWindow rt now d.scopeKey)) = true) :
    ¬ CorrelationBounded rt now d db edges := by
  rintro ⟨-, hrecent⟩
  obtain ⟨e, he, hboth⟩ := List.any_eq_true.1 h
  obtain ⟨x, i, hx, hedge, hi, hwindow⟩ := hrecent e he
  have hend : x ∈ [e.1, e.2] := by
    rcases hedge with rfl | rfl
    · simp
    · simp
  have hstray := List.all_eq_true.1 hboth x hend
  rw [hi, Option.any_some, hwindow] at hstray
  simp [hx] at hstray

end Bounds

/-! ## The fingerprints of a run -/

section Fingerprints

variable [Field K] [LinearOrder K] {rt} {db : Database K}

omit [Field K] [LinearOrder K] in
/-- A fingerprint is a digest of some text. -/
theorem generateFingerprint_ne (hdigest : ∀ text, text ≠ "" → rt.sha256 text ≠ "") (event : EventPayload) :
    generateFingerprint rt event ≠ "" := by
  refine hdigest _ fun hempty => ?_
  have hlength := congrArg String.length hempty
  unfold fingerprintMaterial Library.Json.dumps at hlength
  simp at hlength

/-- **No incident is without a fingerprint.** -/
theorem EngineRun.fingerprint_ne (hdigest : ∀ text, text ≠ "" → rt.sha256 text ≠ "")
    {h : List (Transition (Database K) Request)} (r : EngineRun rt h db) :
    ∀ x i, db.core x = some i → i.stableFingerprint ≠ "" := by
  refine r.induct (I := fun _ db => ∀ x i, db.core x = some i → i.stableFingerprint ≠ "") ?_ ?_
  · rintro _ rfl x i hi
    simp [Database.core, Database.empty] at hi
  · intro _ db q db' _ hI hstep x i hi
    rcases engineNext_cases hstep with ⟨freshId, freshGroupId, now, event, d, rfl, hfresh, hok⟩ | ⟨-, heffect⟩
    · obtain ⟨hcommits, hcases⟩ := ingest_cases hfresh hok
      rw [hcommits.core] at hi
      split_ifs at hi with hx
      · subst hx
        obtain rfl := Option.some.inj hi
        rw [persistedIncident_stableFingerprint]
        cases hold : db.core d.incidentId with
        | some j => exact hI _ _ hold
        | none =>
            have hidentity : d.stableFingerprint =
                generateFingerprint rt (eventPayload event (scopeKeyFor event)) := by
              rcases hcases with hopens | ⟨j, hcontinues⟩
              · exact hopens.identity.2
              · exact hcontinues.identity.2
            exact hidentity ▸ generateFingerprint_ne hdigest _
      · exact hI x i hi
    · rcases heffect.incidents x with ⟨hsame, -⟩ | ⟨-, j, j', _, hj, hj', -, hmoved⟩
      · exact hI x i (hsame ▸ hi)
      · obtain rfl := Option.some.inj (hj'.symm.trans hi)
        exact hmoved.stableFingerprint ▸ hI x j hj

end Fingerprints

/-! ## An alert -/

section Alert

variable [Field K] [LinearOrder K] {rt} {now : ℤ} {d : EngineDecision} {db db' : Database K}

/-- **What an alert upserts, and when it is bounded.**  In every reachable state, an alert that takes no
bypass observes each of the listed edges once more and leaves every other edge alone; these
edges are at most the limit, and lead to recent incidents of the scope, if and only if there
are few strays. -/
theorem correlationBounded_iff_fewStrays {h : List (Transition (Database K) Request)} (hrun : EngineRun rt h db)
    (hdigest : ∀ text, text ≠ "" → rt.sha256 text ≠ "") {freshId freshGroupId : String}
    {event : NormalizedEvent} (hfresh : (Request.ingest freshId freshGroupId now event).fresh db = true)
    (hok : ingestEvent rt freshId freshGroupId now event db = .ok (d, db'))
    (hb : d.isCriticalBypass = false) : ∃ db₁, persistDecision rt now d db = .ok db₁ ∧
      (∀ k ∉ upsertedEdges rt now d db₁, db'.edges.find? k = db.edges.find? k) ∧
      (∃ t, ∀ k ∈ upsertedEdges rt now d db₁, ∃ weight, nextWeight rt (db.edges.find? k) t = .ok weight ∧
        db'.edges.find? k = some ⟨weight, t⟩) ∧
      (CorrelationBounded rt now d db₁ (upsertedEdges rt now d db₁) ↔ FewStrays rt now d db) := by
  have hfits := EngineDecision.fits_of_ingest hfresh hok
  have hnonempty : ∀ k i, db.incidents.find? k = some i → i.stableFingerprint ≠ "" := fun k i hi =>
    hrun.fingerprint_ne hdigest k i.core (core_of_find? hi)
  obtain ⟨-, db₁, hpersist, hrest⟩ := ingestEvent_parts hok
  rcases hrest with ⟨hbypass, -⟩ | ⟨-, db₂, hobs, rfl⟩
  · exact absurd (hbypass.symm.trans hb) (by simp)
  refine ⟨db₁, hpersist, ?_⟩
  have hbounded : CorrelationBounded rt now d db₁ (upsertedEdges rt now d db₁) ↔ FewStrays rt now d db := by
    obtain ⟨-, rfl⟩ := persistDecision_ok.1 hpersist
    exact bounded_iff hb hfits hnonempty
  have hbefore : db₁.edges = db.edges := (persistDecision_frame hpersist).edges
  have hafter := ((@regroup_engine _ db₂ _ _ freshGroupId now d.incidentId d.scopeKey).trans
    (redirectFor_engine now d.incidentId (regroup freshGroupId now d.incidentId d.scopeKey db₂).1)).edges
  rw [hafter, ← hbefore]
  rcases observeIncident_cases hobs with ⟨hnone, rfl⟩ | ⟨r, hr, hrecorded⟩
  · have hedges : upsertedEdges rt now d db₂ = [] := by
      unfold upsertedEdges
      rw [hb, hnone]
      rfl
    exact ⟨fun _ _ => rfl, ⟨0, by simp [hedges]⟩, hbounded⟩
  · have hedges : upsertedEdges rt now d db₁ = r.edges := by
      unfold upsertedEdges
      rw [hb, hr]
      rfl
    exact ⟨fun k hk => hrecorded.other_edges k (hedges ▸ hk),
      ⟨r.observedAt, fun k hk => hrecorded.edges k (hedges ▸ hk)⟩, hbounded⟩

end Alert

/-! ## Two bypasses of one identity -/

/-- An alert of another identity. -/
def latencyEvent (eventId : String) (firedAtMs : ℤ) : NormalizedEvent :=
  { sampleEvent eventId "high" .firing firedAtMs with fingerprint := "api", alertname := "LatencyHigh" }

/-- A bypassed alert. -/
def page (incidentId eventId : String) (now : ℤ) : Request :=
  .ingest incidentId ("group-" ++ incidentId) now (sampleEvent eventId "critical" .firing now)

/-- The same alert twice, half an hour apart. -/
def bypassedTwice : List Request := [page "incident-1" "event-1" 1000, page "incident-2" "event-2" 1801000]

/-- An alert of the same scope a second later. -/
def latencyAlert (db : Database ℚ) : Except EngineError (EngineDecision × Database ℚ) :=
  ingestEvent Runtime.reference "incident-3" "group-3" 1802000 (latencyEvent "event-3" 1802000) db

/-- A runtime with two places among the candidates. -/
def Runtime.narrow : Runtime ℚ := { Runtime.reference with settings := { correlationMaxNeighbours := 2 } }

/-- The same alert twice within a second, and one of another identity. -/
def bypassedAtOnce : List Request := [page "incident-1" "event-1" 1000, page "incident-2" "event-2" 1500]

/-- After two bypasses at once there is one stray: the second takes the place that the alert leaves, and
the first carries the same fingerprint.  Both edges are within the bounds. -/
theorem correlationBounded_iff_fewStrays_twice : ∃ h db d db' db₁, EngineRun Runtime.narrow h db ∧
    ingestEvent Runtime.narrow "incident-3" "group-3" 2000 (latencyEvent "event-3" 2000) db = .ok (d, db') ∧
    persistDecision Runtime.narrow 2000 d db = .ok db₁ ∧
    (strays Runtime.narrow 2000 d db).map Prod.fst = ["incident-1"] ∧ FewStrays Runtime.narrow 2000 d db ∧
    upsertedEdges Runtime.narrow 2000 d db₁ = [("incident-1", "incident-3"), ("incident-2", "incident-3")] ∧
    CorrelationBounded Runtime.narrow 2000 d db₁ (upsertedEdges Runtime.narrow 2000 d db₁) := by
  have hcheck : (Library.replay (engineNext Runtime.narrow) bypassedAtOnce ([], Database.empty)).map
      (fun s => ((Request.ingest "incident-3" "group-3" 2000 (latencyEvent "event-3" 2000)).fresh s.2,
        (ingestEvent Runtime.narrow "incident-3" "group-3" 2000 (latencyEvent "event-3" 2000) s.2).toOption.map
          fun r => !r.1.isCriticalBypass && takesPlace Runtime.narrow 2000 r.1 s.2 &&
            ((strays Runtime.narrow 2000 r.1 s.2).all fun k => inWindow Runtime.narrow 2000 r.1.scopeKey k.2) &&
            decide ((strays Runtime.narrow 2000 r.1 s.2).map Prod.fst = ["incident-1"]) &&
            decide (upsertedEdges Runtime.narrow 2000 r.1 (persisted Runtime.narrow 2000 r.1 s.2) =
              [("incident-1", "incident-3"), ("incident-2", "incident-3")]))) = some (true, some true) := by
    decide +kernel
  obtain ⟨h, db, hrun, hvalue⟩ := EngineRun.of_replay hcheck
  obtain ⟨hfresh, hvalue⟩ := Prod.mk.inj hvalue
  obtain ⟨⟨d, db'⟩, hok, hvalue⟩ := Option.map_eq_some_iff.1 hvalue
  simp only [Bool.and_eq_true, Bool.not_eq_true', decide_eq_true_eq] at hvalue
  obtain ⟨⟨⟨⟨hb, hplace⟩, hrecent⟩, hstrays⟩, hedges⟩ := hvalue
  have hok := toOption_eq_some.1 hok
  have hlength : (strays Runtime.narrow 2000 d db).length = 1 := by
    rw [← List.length_map (f := Prod.fst), hstrays]
    rfl
  have hfew : FewStrays Runtime.narrow 2000 d db :=
    ⟨by decide, fun r hr => List.all_eq_true.1 hrecent r hr, by rw [hlength, if_pos hplace]⟩
  obtain ⟨db₁, hpersist, -, -, hiff⟩ :=
    correlationBounded_iff_fewStrays hrun (fun _ h => h) hfresh hok hb
  have hedges : upsertedEdges Runtime.narrow 2000 d db₁ =
      [("incident-1", "incident-3"), ("incident-2", "incident-3")] :=
    (persistDecision_ok.1 hpersist).2 ▸ hedges
  exact ⟨h, db, d, db', db₁, hrun, hok, hpersist, hstrays, hfew, hedges, hiff.2 hfew⟩

/-- **Correlation is not bounded**: the first bypassed incident left the window long ago, and the alert
still observes an edge to it, because the second one carries the same fingerprint. -/
theorem not_correlationBounded : ¬ ∀ h db, EngineRun Runtime.reference h db →
    ∀ freshId freshGroupId now event d db' db₁,
      (Request.ingest freshId freshGroupId now event).fresh db = true →
      ingestEvent Runtime.reference freshId freshGroupId now event db = .ok (d, db') →
      d.isCriticalBypass = false → persistDecision Runtime.reference now d db = .ok db₁ →
      CorrelationBounded Runtime.reference now d db₁ (upsertedEdges Runtime.reference now d db₁) := by
  intro hall
  have hrun : (Library.replay (engineNext Runtime.reference) bypassedTwice ([], Database.empty)).map
      (fun s => ((Request.ingest "incident-3" "group-3" 1802000 (latencyEvent "event-3" 1802000)).fresh s.2,
        (latencyAlert s.2).toOption.map fun r => (r.1.isCriticalBypass,
          (persistDecision Runtime.reference 1802000 r.1 s.2).toOption.map fun db₁ =>
            (upsertedEdges Runtime.reference 1802000 r.1 db₁).any fun e => [e.1, e.2].all fun x =>
              decide (x = r.1.incidentId) ||
                !(db₁.incidents.find? x).any (inWindow Runtime.reference 1802000 r.1.scopeKey)))) =
      some (true, some (false, some true)) := by
    decide +kernel
  obtain ⟨h, db, r, hf⟩ := EngineRun.of_replay hrun
  obtain ⟨hfresh, hvalue⟩ := Prod.mk.inj hf
  obtain ⟨⟨d, db'⟩, hok, hvalue⟩ := Option.map_eq_some_iff.1 hvalue
  obtain ⟨hb, hstray⟩ := Prod.mk.inj hvalue
  obtain ⟨db₁, hpersist, hstray⟩ := Option.map_eq_some_iff.1 hstray
  exact not_bounded_of_stray hstray (hall h db r _ _ _ _ d db' db₁ hfresh (toOption_eq_some.1 hok) hb
    (toOption_eq_some.1 hpersist))

end PulseGraph
