/-
# Which tables a request writes

No request writes the two tables of the breakers (`engineNext_breakers`), and only an ingest
writes the graph (`engineNext_graph`).
-/

import PulseGraph.Engine.System

namespace PulseGraph

variable {K : Type} {rt : Runtime K} {db db' : Database K}

/-- Two databases with the same graph and the same breakers. -/
def SameButEngine (db db' : Database K) : Prop :=
  db' = { db' with
    edges := db.edges
    nodeStats := db.nodeStats
    scopeStats := db.scopeStats
    channelHealth := db.channelHealth
    channelOutages := db.channelOutages }

namespace SameButEngine

theorem refl (db : Database K) : SameButEngine db db := rfl

theorem trans {a b c : Database K} (h₁ : SameButEngine a b) (h₂ : SameButEngine b c) :
    SameButEngine a c := by
  unfold SameButEngine at *
  rw [h₂, h₁]

theorem edges (h : SameButEngine db db') : db'.edges = db.edges := by rw [h]

theorem nodeStats (h : SameButEngine db db') : db'.nodeStats = db.nodeStats := by rw [h]

theorem scopeStats (h : SameButEngine db db') : db'.scopeStats = db.scopeStats := by rw [h]

theorem channelHealth (h : SameButEngine db db') : db'.channelHealth = db.channelHealth := by rw [h]

theorem channelOutages (h : SameButEngine db db') : db'.channelOutages = db.channelOutages := by rw [h]

end SameButEngine

theorem persistDecision_frame {now : ℤ} {d : EngineDecision}
    (h : persistDecision rt now d db = .ok db') : SameButEngine db db' := by
  obtain ⟨-, rfl⟩ := persistDecision_ok.1 h
  rfl

theorem redirectFor_engine (now : ℤ) (x : String) (a : Option GroupAssignment) :
    SameButEngine db (redirectFor now x a db) := by
  rw [redirectFor_frame]
  rfl

theorem persistTrigger_frame {freshEventId : String} {now : ℤ} {trigger : TimerTrigger}
    {committed : Bool} (h : persistTrigger rt freshEventId now trigger db = .ok (committed, db')) :
    SameButEngine db db' := by
  rcases persistTrigger_commits h with ⟨-, rfl⟩ | ⟨d, -, hp⟩
  · exact SameButEngine.refl _
  · exact persistDecision_frame hp

variable [Field K] [LinearOrder K]

theorem refreshGroupForMember_engine (now : ℤ) (x : String) :
    SameButEngine db (refreshGroupForMember now x db).2 := by
  rw [refreshGroupForMember_frame]
  rfl

theorem regroup_engine (freshGroupId : String) (now : ℤ) (x scopeKey : String) :
    SameButEngine db (regroup freshGroupId now x scopeKey db).2 := by
  have hassign : SameButEngine db (assignGroup freshGroupId now x scopeKey db).2 := by
    rw [assignGroup_frame]
    rfl
  unfold regroup
  split
  · next heq => rw [heq] at hassign; exact hassign
  · next heq =>
      rw [heq] at hassign
      exact hassign.trans (refreshGroupForMember_engine _ _)

theorem settleAction_engine (now : ℤ) (action : ExternalAction) (current next : IncidentState) :
    SameButEngine db (settleAction now action current next db) := by
  unfold settleAction recordInbound
  dsimp only
  have hstamp : SameButEngine db
      { db with incidents := db.incidents.modify action.incidentId (stampAction now action) } := rfl
  exact hstamp.trans (((refreshGroupForMember_engine now action.incidentId).trans
    (redirectFor_engine now action.incidentId _)).trans rfl)

theorem applyExternalAction_frame {freshEventId : String} {now : ℤ} {action : ExternalAction}
    {result : ReconcileResult}
    (h : applyExternalAction rt freshEventId now action db = .ok (result, db')) :
    SameButEngine db db' := by
  rcases applyExternalAction_cases h with ⟨-, -, hdb⟩ | ⟨-, i, next, d, db₁, -, -, hp, rfl⟩
  · rw [hdb]
    rfl
  · exact (persistDecision_frame hp).trans (settleAction_engine _ _ _ _)

theorem sweepOnce_frame {freshEventIds : ℕ → String} {now moment : ℤ} {n : ℕ}
    (h : sweepOnce rt freshEventIds now moment db = .ok (n, db')) : SameButEngine db db' :=
  sweepOnce_induct (P := SameButEngine db) h (SameButEngine.refl db)
    fun _ _ _ _ _ _ _ _ ha hstep => ha.trans (applyExternalAction_frame hstep)

/-- **Only an ingest that commits writes the graph.** -/
theorem engineNext_graph {q : Request} (h : engineNext rt db q = some db')
    (hno : ∀ freshId freshGroupId now event d db'', q = .ingest freshId freshGroupId now event →
      ingestEvent rt freshId freshGroupId now event db ≠ .ok (d, db'')) : SameButEngine db db' := by
  have hafter : ∀ {α : Type} {r : Except EngineError (α × Database K)},
      (∀ a db', r = .ok (a, db') → SameButEngine db db') → SameButEngine db (afterTransaction db r) := by
    intro α r h
    cases r with
    | ok p => exact h p.1 p.2 rfl
    | error e => exact SameButEngine.refl db
  unfold engineNext at h
  split_ifs at h
  obtain rfl := Option.some.inj h
  cases q with
  | ingest freshId freshGroupId now event => exact hafter fun d db'' h => absurd h (hno _ _ _ _ d db'' rfl)
  | timer freshEventId now incidentId quietAtMs => exact hafter fun _ _ h => persistTrigger_frame h
  | external freshEventId now action => exact hafter fun _ _ h => applyExternalAction_frame h
  | sweep freshEventIds now moment => exact hafter fun _ _ h => sweepOnce_frame h

/-- An ingest writes the graph, and leaves the breakers alone. -/
theorem ingestEvent_breakers {freshId freshGroupId : String} {now : ℤ} {event : NormalizedEvent}
    {d : EngineDecision} (h : ingestEvent rt freshId freshGroupId now event db = .ok (d, db')) :
    db'.channelHealth = db.channelHealth ∧ db'.channelOutages = db.channelOutages := by
  obtain ⟨-, db₁, hp, hrest⟩ := ingestEvent_parts h
  have hp := persistDecision_frame hp
  rcases hrest with ⟨-, rfl⟩ | ⟨-, db₂, ho, rfl⟩
  · exact ⟨hp.channelHealth, hp.channelOutages⟩
  · have ho := observeIncident_frame ho
    have hrest := (@regroup_engine _ db₂ _ _ freshGroupId now d.incidentId d.scopeKey).trans
      (redirectFor_engine now d.incidentId (regroup freshGroupId now d.incidentId d.scopeKey db₂).1)
    have hhealth : db₂.channelHealth = db₁.channelHealth := by rw [ho]
    have houtages : db₂.channelOutages = db₁.channelOutages := by rw [ho]
    exact ⟨hrest.channelHealth.trans (hhealth.trans hp.channelHealth),
      hrest.channelOutages.trans (houtages.trans hp.channelOutages)⟩

/-- **No request writes a breaker.** -/
theorem engineNext_breakers {q : Request} (h : engineNext rt db q = some db') :
    db'.channelHealth = db.channelHealth ∧ db'.channelOutages = db.channelOutages := by
  rcases engineNext_cases h with ⟨_, _, _, _, d, rfl, -, hok⟩ | ⟨hno, -⟩
  · exact ingestEvent_breakers hok
  · have hframe := engineNext_graph h hno
    exact ⟨hframe.channelHealth, hframe.channelOutages⟩

end PulseGraph
