/-
# Hints that are withdrawn

`rank_scope`: "every incident in the neighbourhood carries the same answer - including `None`,
which is how a hint that no longer holds gets withdrawn rather than lingering as a stale claim."
The neighbourhood is a window and a cap, and the hints of active incidents outside it are left
as they are; `persist_decision` carries a hint forward as long as nothing overwrites it.

**Proved here.**  `rankDirty_hints` says what a sweep does to every hint.  In every run of a
deployment with the worker whose sweeps find a hint only on candidates, among the active
incidents of the scopes they rank, each of these incidents carries no hint or the hint of the
pass right after the sweep (`hintsHold_of_run`).  `not_hintsHold` lets one incident of a cascade
leave the window.
-/

import PulseGraph.Graph.RootCause
import PulseGraph.Engine.Storms
import PulseGraph.Outbox.Deployment

namespace PulseGraph

open Library (Table Run Transition bind_eq_ok)

variable {K : Type} [Field K] [LinearOrder K] {rt : Runtime K} {percent : K → String}

/-! ## What a pass reads -/

/-- The database differs from another in hints and in the revisions that were ranked at most. -/
def HintsOnly (db b : Database K) : Prop :=
  ∃ (hints : String → Incident → Option String) (revisions : String → ScopeStats K → ℕ),
    b = { db with
      incidents := db.incidents.update fun k i => { i with rootCauseHint := hints k i }
      scopeStats := db.scopeStats.update fun k s => { s with rankedRevision := revisions k s } }

section HintsOnly

variable {db b c : Database K} {nowMs : ℤ} {scopeKey : String}

omit [Field K] [LinearOrder K] in
theorem HintsOnly.refl (db : Database K) : HintsOnly db db := by
  refine ⟨fun _ i => i.rootCauseHint, fun _ s => s.rankedRevision, ?_⟩
  rw [Table.update_id, Table.update_id]

omit [Field K] [LinearOrder K] in
theorem HintsOnly.trans (h₁ : HintsOnly db b) (h₂ : HintsOnly b c) : HintsOnly db c := by
  obtain ⟨hints₁, revisions₁, rfl⟩ := h₁
  obtain ⟨hints₂, revisions₂, rfl⟩ := h₂
  refine ⟨fun k i => hints₂ k { i with rootCauseHint := hints₁ k i },
    fun k s => revisions₂ k { s with rankedRevision := revisions₁ k s }, ?_⟩
  rw [Table.update_update, Table.update_update]

omit [Field K] [LinearOrder K] in
theorem hintsOnly_writeHint (candidates : List String) (hint : Option String) (revision : ℕ) :
    HintsOnly db (writeHint candidates hint scopeKey revision db) := by
  refine ⟨fun k i => if candidates.contains k then hint else i.rootCauseHint,
    fun k s => if k = scopeKey then revision else s.rankedRevision, ?_⟩
  unfold writeHint
  congr 2
  · funext k i
    dsimp only
    split_ifs <;> rfl
  · funext k s
    dsimp only
    split_ifs <;> rfl

omit [Field K] [LinearOrder K] in
/-- A pass has the same candidates whatever the hints are. -/
theorem HintsOnly.candidates (h : HintsOnly db b) :
    rankCandidates rt nowMs scopeKey b = rankCandidates rt nowMs scopeKey db := by
  obtain ⟨hints, revisions, rfl⟩ := h
  unfold rankCandidates
  dsimp only
  rw [Table.select_update]
  dsimp only
  generalize db.incidents.select _ = rows
  have hsort := List.map_insertionSort (r := fun a b : String × Incident =>
    b.2.lastIngestedAt.getD b.2.lastAlertAt ≤ a.2.lastIngestedAt.getD a.2.lastAlertAt)
    (s := fun a b : String × Incident =>
    b.2.lastIngestedAt.getD b.2.lastAlertAt ≤ a.2.lastIngestedAt.getD a.2.lastAlertAt)
    (fun r => (r.1, { r.2 with rootCauseHint := hints r.1 r.2 })) rows fun a _ b _ => Iff.rfl
  rw [← hsort]
  unfold sqlLimit
  split_ifs
  · rw [List.map_map]
    rfl
  · rw [← List.map_take, List.map_map]
    rfl

omit [Field K] [LinearOrder K] in
/-- The scope of a candidate. -/
theorem mem_rankCandidates {x : String} (hx : x ∈ rankCandidates rt nowMs scopeKey db) :
    ∃ i, db.incidents.find? x = some i ∧ i.scopeKey = scopeKey ∧ i.status.active = true := by
  unfold rankCandidates at hx
  obtain ⟨⟨x, i⟩, hrow, rfl⟩ := List.mem_map.1 hx
  have hmem := (sqlLimit_sublist _ _).subset hrow
  rw [List.mem_insertionSort] at hmem
  obtain ⟨hi, hsel⟩ := Table.mem_select.1 hmem
  simp only [Bool.and_eq_true, decide_eq_true_eq] at hsel
  exact ⟨i, hi, hsel.1.1, hsel.1.2⟩

/-- Nor does its verdict depend on them. -/
theorem HintsOnly.scoreRootCause (h : HintsOnly db b) (ids : List String) :
    PulseGraph.scoreRootCause rt ids b = PulseGraph.scoreRootCause rt ids db := by
  have hmarginals : ∀ ids, marginals ids b = marginals ids db := by
    intro ids
    obtain ⟨hints, revisions, rfl⟩ := h
    unfold marginals
    dsimp only
    simp only [Table.find?_update, Option.map_map, Function.comp_def]
  have hedges : b.edges = db.edges := by
    obtain ⟨hints, revisions, rfl⟩ := h
    rfl
  unfold PulseGraph.scoreRootCause
  simp only [hmarginals, hedges]

/-- **The hint of a pass** depends on no hint. -/
theorem HintsOnly.scopeHint (h : HintsOnly db b) :
    PulseGraph.scopeHint rt percent nowMs scopeKey b = PulseGraph.scopeHint rt percent nowMs scopeKey db := by
  have hdescribe : ∀ verdict, describeVerdict percent verdict b = describeVerdict percent verdict db := by
    intro verdict
    obtain ⟨hints, revisions, rfl⟩ := h
    unfold describeVerdict
    dsimp only
    rw [Table.find?_update, Option.map_map]
    rfl
  unfold PulseGraph.scopeHint
  rw [h.candidates, h.scoreRootCause]
  simp only [hdescribe]

end HintsOnly

/-! ## A sweep -/

section Sweep

variable {db db' : Database K} {nowMs : ℤ} {n : ℕ}

/-- The hint of an incident. -/
def hintIn (db : Database K) (x : String) : Option (Option String) := (db.incidents.find? x).map (·.rootCauseHint)

omit [Field K] [LinearOrder K] in
theorem hintIn_writeHint {candidates : List String} {hint : Option String} {scopeKey x : String}
    {revision : ℕ} : hintIn (writeHint candidates hint scopeKey revision db) x =
      if x ∈ candidates then (hintIn db x).map fun _ => hint else hintIn db x := by
  unfold hintIn writeHint
  dsimp only
  rw [Table.find?_update]
  by_cases hx : x ∈ candidates
  · simp only [List.contains_iff_mem, hx, if_true, Option.map_map, Function.comp_def]
  · simp only [List.contains_iff_mem, hx, if_false, Option.map_map, Function.comp_def]

/-- One pass of a sweep. -/
theorem rankScope_hints {b b' : Database K} {scope : String × ℕ} (hsame : HintsOnly db b)
    (h : rankScope rt percent nowMs scope b = .ok (n, b')) : HintsOnly db b' ∧
      ∃ hint, scopeHint rt percent nowMs scope.1 db = .ok hint ∧ ∀ x, hintIn b' x =
        if x ∈ rankCandidates rt nowMs scope.1 db then some hint else hintIn b x := by
  unfold rankScope at h
  rw [hsame.candidates, hsame.scopeHint] at h
  obtain ⟨hint, hhint, h⟩ := bind_eq_ok.1 h
  obtain ⟨-, rfl⟩ := Prod.mk.inj (Except.ok.inj h)
  refine ⟨hsame.trans (hintsOnly_writeHint _ _ _), hint, hhint, fun x => ?_⟩
  rw [hintIn_writeHint]
  split_ifs with hx
  · -- a candidate is an incident
    rw [← hsame.candidates] at hx
    obtain ⟨i, hi, -⟩ := mem_rankCandidates hx
    rw [hintIn, hi]
    rfl
  · rfl

/-- The loop of a sweep: each candidate gets the hint of its scope's pass, and the others keep
theirs. -/
theorem rankScopes_hints {scopes : List (String × ℕ)} (hn : (scopes.map Prod.fst).Nodup) {s : ℕ × Database K}
    (hsame : HintsOnly db s.2)
    (h : scopes.foldlM (fun s scope => do
      let (updated, db) ← rankScope rt percent nowMs scope s.2
      .ok (s.1 + updated, db)) s = Except.ok (n, db')) :
    HintsOnly db db' ∧
      (∀ scope ∈ scopes, ∃ hint, scopeHint rt percent nowMs scope.1 db = .ok hint ∧
        ∀ x ∈ rankCandidates rt nowMs scope.1 db, hintIn db' x = some hint) ∧
      ∀ x, (∀ scope ∈ scopes, x ∉ rankCandidates rt nowMs scope.1 db) → hintIn db' x = hintIn s.2 x := by
  induction scopes generalizing s with
  | nil =>
      obtain rfl := Except.ok.inj h
      exact ⟨hsame, fun _ hscope => absurd hscope List.not_mem_nil, fun _ _ => rfl⟩
  | cons scope scopes ih =>
      rw [List.foldlM_cons] at h
      obtain ⟨s₁, hstep, hrest⟩ := bind_eq_ok.1 h
      obtain ⟨⟨updated, b⟩, hscope, hstep⟩ := bind_eq_ok.1 hstep
      obtain rfl := Except.ok.inj hstep
      rw [List.map_cons, List.nodup_cons] at hn
      obtain ⟨hsame₁, hint, hhint, hwritten⟩ := rankScope_hints hsame hscope
      obtain ⟨hfinal, hcandidates, hothers⟩ := ih hn.2 hsame₁ hrest
      -- a candidate has one scope, so no later pass has it
      have honce : ∀ x ∈ rankCandidates rt nowMs scope.1 db, ∀ scope' ∈ scopes,
          x ∉ rankCandidates rt nowMs scope'.1 db := by
        intro x hx scope' hscope' hx'
        obtain ⟨i, hi, hkey, -⟩ := mem_rankCandidates hx
        obtain ⟨i', hi', hkey', -⟩ := mem_rankCandidates hx'
        obtain rfl := Option.some.inj (hi.symm.trans hi')
        exact hn.1 (List.mem_map.2 ⟨scope', hscope', hkey'.symm.trans hkey⟩)
      refine ⟨hfinal, fun scope' hmem => ?_, fun x hx => ?_⟩
      · rcases List.mem_cons.1 hmem with rfl | hmem
        · refine ⟨hint, hhint, fun x hx => ?_⟩
          rw [hothers x (honce x hx), hwritten, if_pos hx]
        · exact hcandidates scope' hmem
      · rw [hothers x fun scope' hmem => hx scope' (List.mem_cons_of_mem _ hmem), hwritten,
          if_neg (hx scope List.mem_cons_self)]

/-- **What a sweep does to the hints**: every candidate of a scope that it ranks has the hint of the
scope's pass, and the other incidents keep theirs. -/
theorem rankDirty_hints (h : rankDirty rt percent nowMs db = .ok (n, db')) : HintsOnly db db' ∧
    (∀ scope ∈ dirtyScopes db, ∃ hint, scopeHint rt percent nowMs scope.1 db = .ok hint ∧
      ∀ x ∈ rankCandidates rt nowMs scope.1 db, hintIn db' x = some hint) ∧
    ∀ x, (∀ scope ∈ dirtyScopes db, x ∉ rankCandidates rt nowMs scope.1 db) → hintIn db' x = hintIn db x := by
  refine rankScopes_hints ?_ (HintsOnly.refl db) h
  have hkeys := Table.nodup_select db.scopeStats fun _ s => decide (s.rankedRevision < s.observedRevision)
  unfold dirtyScopes
  rw [List.map_map]
  exact hkeys

end Sweep

/-! ## Every run -/

/-- A turn of the deployment, or a sweep of the root-cause worker. -/
inductive RankTurn where
  | turn (t : Turn)
  | sweep (nowMs : ℤ)

variable (rt percent) in
/-- One turn; a sweep that raises is rolled back. -/
def rankNext (s : Deployment K) : RankTurn → Option (Deployment K)
  | .turn t => deploymentNext rt s t
  | .sweep nowMs => some (match rankDirty rt percent nowMs s.db with
      | .ok (_, db) => { s with db := db }
      | .error _ => s)

variable (rt percent) in
/-- **The runs of a deployment with the root-cause worker.** -/
def RankRun : List (Transition (Deployment K) RankTurn) → Deployment K → Prop :=
  Run (· = Deployment.initial) fun s turn s' => rankNext rt percent s turn = some s'

variable (rt percent) in
/-- **Hints hold after a sweep**: every active incident of a scope that the sweep ranked has no hint,
or the one of the pass. -/
def HintsHold (t : Transition (Deployment K) RankTurn) : Prop :=
  ∀ nowMs n db', t.label = .sweep nowMs → rankDirty rt percent nowMs t.source.db = .ok (n, db') →
    ∀ scope ∈ dirtyScopes t.source.db, ∃ hint, scopeHint rt percent nowMs scope.1 t.source.db = .ok hint ∧
      ∀ x i, t.target.db.incidents.find? x = some i → i.scopeKey = scope.1 → i.status.active = true →
        i.rootCauseHint = none ∨ i.rootCauseHint = hint

variable (rt) in
/-- The sweep finds hints on candidates only, among the active incidents of the scopes it ranks. -/
def HintsInReach (t : Transition (Deployment K) RankTurn) : Prop :=
  ∀ nowMs, t.label = .sweep nowMs → ∀ scope ∈ dirtyScopes t.source.db,
    ∀ x i, t.source.db.incidents.find? x = some i → i.scopeKey = scope.1 → i.status.active = true →
      x ∉ rankCandidates rt nowMs scope.1 t.source.db → i.rootCauseHint = none

/-- A sweep that finds hints in reach alone leaves hints that hold. -/
theorem hintsHold_of_sweep {t : Transition (Deployment K) RankTurn} (hreach : HintsInReach rt t)
    (hnext : rankNext rt percent t.source t.label = some t.target) : HintsHold rt percent t := by
  intro nowMs n db' hlabel hsweep scope hscope
  obtain ⟨hsame, hranked, hothers⟩ := rankDirty_hints hsweep
  have htarget : t.target.db = db' := by
    rw [hlabel, rankNext, hsweep] at hnext
    rw [← Option.some.inj hnext]
  obtain ⟨hint, hhint, hwritten⟩ := hranked scope hscope
  refine ⟨hint, hhint, fun x i hi hkey hactive => ?_⟩
  rw [htarget] at hi
  have hafter : hintIn db' x = some i.rootCauseHint := by
    rw [hintIn, hi]
    rfl
  by_cases hx : x ∈ rankCandidates rt nowMs scope.1 t.source.db
  · rw [hwritten x hx] at hafter
    exact .inr (Option.some.inj hafter).symm
  · -- the incident was there with its scope and state
    obtain ⟨hints, revisions, rfl⟩ := hsame
    dsimp only at hi
    rw [Table.find?_update] at hi
    obtain ⟨i₀, hi₀, rfl⟩ := Option.map_eq_some_iff.1 hi
    have hnone := hreach nowMs hlabel scope hscope x i₀ hi₀ hkey hactive hx
    have hout : ∀ scope' ∈ dirtyScopes t.source.db, x ∉ rankCandidates rt nowMs scope'.1 t.source.db := by
      intro scope' _ hx'
      obtain ⟨i₁, hi₁, hkey', -⟩ := mem_rankCandidates hx'
      obtain rfl := Option.some.inj (hi₁.symm.trans hi₀)
      rw [show scope'.1 = scope.1 from hkey'.symm.trans hkey] at hx'
      exact hx hx'
    have hkept := hothers x hout
    rw [hafter, hintIn, hi₀, Option.map_some, hnone] at hkept
    exact .inl (Option.some.inj hkept)

/-- **Hints are withdrawn when they stop holding**, in every run whose sweeps find hints in reach
alone. -/
theorem hintsHold_of_run {h : List (Transition (Deployment K) RankTurn)} {s : Deployment K}
    (r : RankRun rt percent h s) (hc : ∀ t ∈ h, HintsInReach rt t) : ∀ t ∈ h, HintsHold rt percent t := by
  intro t ht
  obtain ⟨g, -, hnext⟩ := Run.source_run r ht
  exact hintsHold_of_sweep (hc t ht) hnext

/-! ## Two runs -/

/-- A percentage without decimals, the nearest one. -/
def percentText (q : ℚ) : String := toString ⌊q * 100 + 1 / 2⌋ ++ "%"

/-- A database failure and what it causes, three times, and a sweep. -/
def cascadeTurns : List RankTurn :=
  ([.ingest "A" "unused" 1000 (alertOf "disk" "1"), .ingest "B" "unused" 1000 (alertOf "api" "2"),
    .ingest "C" "storm" 1000 (alertOf "api" "3"), .ingest "D" "unused" 1000 (alertOf "api" "4")].map
      fun q => .turn (.request q)) ++ [.sweep 2000]

/-- Both incidents name the cause. -/
theorem hintsHold_of_run_cascade : ∃ h s, RankRun Runtime.reference percentText h s ∧
    s.db.incidents.rows.map (fun r => (r.1, r.2.rootCauseHint)) =
      [("A", some "disk — DiskFull (confidence 50%)"), ("B", some "disk — DiskFull (confidence 50%)")] ∧
    ∀ t ∈ h, HintsHold Runtime.reference percentText t := by
  have hreplay : (Library.replay (rankNext Runtime.reference percentText) cascadeTurns
      ([], Deployment.initial)).map (fun s =>
        (s.2.db.incidents.rows.map fun r => (r.1, r.2.rootCauseHint),
          s.1.all fun t => t.source.db.incidents.rows.all fun r => r.2.rootCauseHint.isNone)) =
      some ([("A", some "disk — DiskFull (confidence 50%)"),
        ("B", some "disk — DiskFull (confidence 50%)")], true) := by decide +kernel
  obtain ⟨h, s, r, heq⟩ := @Run.exists_of_replay _ _ (· = Deployment.initial) _ _ _ _ _ _ rfl hreplay
  obtain ⟨hrows, hnone⟩ := Prod.mk.inj heq
  have r : RankRun Runtime.reference percentText h s := r
  refine ⟨h, s, r, hrows, hintsHold_of_run r fun t ht nowMs _ scope _ x i hi _ _ _ => ?_⟩
  have hrow := List.all_eq_true.1 (List.all_eq_true.1 hnone t ht) (x, i) (Table.find?_eq_some_iff.1 hi)
  exact Option.isNone_iff_eq_none.1 hrow

/-- **A hint that lingers**: `disk` falls silent, and a later sweep finds no cause for `api` alone. -/
theorem not_hintsHold : ¬ ∀ h s, RankRun Runtime.reference percentText h s →
    ∀ t ∈ h, HintsHold Runtime.reference percentText t := by
  intro hclaim
  have hreplay : (Library.replay (rankNext Runtime.reference percentText)
      (cascadeTurns ++ [.turn (.request (.ingest "E" "unused" 2000000 (alertOf "api" "5"))), .sweep 2001000])
      ([], Deployment.initial)).map (fun s => s.1.head?.map fun t =>
        ((match t.label with
            | .sweep nowMs => decide (nowMs = 2001000)
            | .turn _ => false) && (rankDirty Runtime.reference percentText 2001000 t.source.db).isOk,
          decide ((dirtyScopes t.source.db).map (fun scope =>
            (scopeHint Runtime.reference percentText 2001000 scope.1 t.source.db).toOption.map
              fun hint => (scope.1, hint.isNone)) = [some ("default/default", true)]),
          decide ((t.target.db.incidents.find? "A").map (fun i =>
            (i.scopeKey, i.status.active, i.rootCauseHint.isSome)) = some ("default/default", true, true)))) =
      some (some (true, true, true)) := by decide +kernel
  obtain ⟨h, s, r, heq⟩ := @Run.exists_of_replay _ _ (· = Deployment.initial) _ _ _ _ _ _ rfl hreplay
  obtain ⟨t, ht, heq⟩ := Option.map_eq_some_iff.1 heq
  simp only [Prod.mk.injEq, Bool.and_eq_true, decide_eq_true_eq] at heq
  obtain ⟨⟨hlabel, hok⟩, hscopes, hrow⟩ := heq
  have hlabel : t.label = .sweep 2001000 := by
    cases hl : t.label with
    | sweep nowMs =>
        rw [hl] at hlabel
        dsimp only at hlabel
        rw [of_decide_eq_true hlabel]
    | turn _ =>
        rw [hl] at hlabel
        cases hlabel
  obtain ⟨i, hi, hfields⟩ := Option.map_eq_some_iff.1 hrow
  simp only [Prod.mk.injEq] at hfields
  obtain ⟨hkey, hactive, hsome⟩ := hfields
  obtain ⟨scope, hscope, hnone⟩ : ∃ scope ∈ dirtyScopes t.source.db,
      (scopeHint Runtime.reference percentText 2001000 scope.1 t.source.db).toOption.map
        (fun hint => (scope.1, hint.isNone)) = some ("default/default", true) := by
    refine List.mem_map.1 ?_
    rw [hscopes]
    exact List.mem_singleton.2 rfl
  cases hsweep : rankDirty Runtime.reference percentText 2001000 t.source.db with
  | error e =>
      rw [hsweep] at hok
      cases hok
  | ok result =>
      obtain ⟨hint, hhint, hall⟩ := hclaim h s r t (List.mem_of_head? ht) 2001000 result.1 result.2 hlabel
        hsweep scope hscope
      rw [hhint] at hnone
      obtain ⟨hscopeKey, hisNone⟩ := Prod.mk.inj (Option.some.inj hnone)
      have hhintNone : hint = none := Option.isNone_iff_eq_none.1 hisNone
      rcases hall "A" i hi (hkey.trans hscopeKey.symm) hactive with hempty | hempty
      · rw [hempty] at hsome
        cases hsome
      · rw [hempty, hhintNone] at hsome
        cases hsome

end PulseGraph
