/-
# Exact duplicates

`is_exact_duplicate` of `src/engine/dedupe.py` on any two mappings.  A mapping of a normalized event
may carry a `scope_key` or none, and one that carries none is taken to be of the caller's scope.
Two events are told apart by their service, alert name and raw severity, and by the labels that are
not volatile, each a map (`SameIdentity`).
-/

import PulseGraph.Engine.Fingerprint
import PulseGraph.Engine.System

namespace PulseGraph

variable {K : Type} (rt : Runtime K)

/-- The mapping of a normalized event, with its `scope_key` if it has one. -/
structure EventMapping where
  event : NormalizedEvent
  scopeKey : Option String := none

/-- `_event_scope`. -/
def eventScope (a : EventMapping) (fallbackScope : String) : String := a.scopeKey.getD fallbackScope

/-- `generate_fingerprint` of a mapping, which never reads its scope. -/
def EventMapping.fingerprint (a : EventMapping) : String := generateFingerprint rt (eventPayload a.event "")

/-- `is_exact_duplicate`. -/
def exactDuplicate (a b : EventMapping) (scopeKey : String) : Bool :=
  if scopeKey = "" then false
  else if eventScope a scopeKey ≠ scopeKey then false
  else if eventScope b scopeKey ≠ scopeKey then false
  else decide (a.fingerprint rt = b.fingerprint rt)

/-- The payloads of the engine carry their scope. -/
theorem isExactDuplicate_eventPayload (a b : NormalizedEvent) (s t scopeKey : String) :
    isExactDuplicate rt (eventPayload a s) (eventPayload b t) scopeKey =
      exactDuplicate rt ⟨a, some s⟩ ⟨b, some t⟩ scopeKey := rfl

/-! ## Identity -/

/-- **One identity**: the three texts, and every label that is not volatile. -/
structure SameIdentity (a b : NormalizedEvent) : Prop where
  service : a.service = b.service
  alertname : a.alertname = b.alertname
  severityRaw : a.severityRaw = b.severityRaw
  labels : ∀ key, isVolatileKey rt key = false → a.labels.get? key = b.labels.get? key

/-- The mapping belongs to the scope, or carries none. -/
def InScopeOrNone (scopeKey : String) (a : EventMapping) : Prop := ∀ s, a.scopeKey = some s → s = scopeKey

variable {rt}

theorem eventScope_eq_iff {a : EventMapping} {scopeKey : String} :
    eventScope a scopeKey = scopeKey ↔ InScopeOrNone scopeKey a := by
  unfold eventScope InScopeOrNone
  cases a.scopeKey with
  | none => simp
  | some s => simp

theorem mem_stableLabels {labels : Labels} {key value : String} :
    (key, value) ∈ stableLabels rt labels ↔ isVolatileKey rt key = false ∧ labels.get? key = some value := by
  have hget : labels.get? key = some value ↔ (key, value) ∈ labels.items :=
    Library.Table.find?_eq_some_iff (t := ⟨labels.items, labels.nodup⟩)
  unfold stableLabels
  rw [List.mem_filter, hget, Bool.not_eq_true', and_comm]

/-- The labels that are hashed agree up to their order exactly when they are one map. -/
theorem stableLabels_perm_iff {a b : Labels} : (stableLabels rt a).Perm (stableLabels rt b) ↔
    ∀ key, isVolatileKey rt key = false → a.get? key = b.get? key := by
  constructor
  · exact fun h key hkey => get?_eq_of_stable hkey h
  · intro h
    have hnodup : ∀ l : Labels, (stableLabels rt l).Nodup := fun l => (nodup_stableLabels l).of_map
    rw [List.perm_ext_iff_of_nodup (hnodup a) (hnodup b)]
    rintro ⟨key, value⟩
    rw [mem_stableLabels, mem_stableLabels]
    exact and_congr_right fun hkey => by rw [h key hkey]

/-- **A fingerprint is an identity.** -/
theorem fingerprint_eq_iff (hsha : Function.Injective rt.sha256) {a b : EventMapping} :
    a.fingerprint rt = b.fingerprint rt ↔ SameIdentity rt a.event b.event := by
  unfold EventMapping.fingerprint
  rw [generateFingerprint_eq_iff hsha]
  constructor
  · rintro ⟨hservice, halertname, hseverity, hlabels⟩
    exact ⟨hservice, halertname, hseverity, stableLabels_perm_iff.1 hlabels⟩
  · rintro ⟨hservice, halertname, hseverity, hlabels⟩
    exact ⟨hservice, halertname, hseverity, stableLabels_perm_iff.2 hlabels⟩

/-- **What is an exact duplicate**, and that one identity has one scope. -/
theorem exactDuplicate_laws (hsha : Function.Injective rt.sha256)
    (hlower : ∀ key ∈ scopeLabels, rt.lower (rt.strip key) = key) (a b : EventMapping) (scopeKey : String) :
    (a.fingerprint rt = b.fingerprint rt ↔ SameIdentity rt a.event b.event) ∧
    (exactDuplicate rt a b scopeKey = true ↔ SameIdentity rt a.event b.event ∧ scopeKey ≠ "" ∧
      InScopeOrNone scopeKey a ∧ InScopeOrNone scopeKey b) ∧
    (a.fingerprint rt = b.fingerprint rt → scopeKeyFor a.event = scopeKeyFor b.event) := by
  refine ⟨fingerprint_eq_iff hsha, ?_, scopeKeyFor_congr hsha (isVolatileKey_scopeLabels hlower)⟩
  rw [← fingerprint_eq_iff hsha, ← eventScope_eq_iff, ← eventScope_eq_iff]
  unfold exactDuplicate
  split_ifs with hempty ha hb
  · simp [hempty]
  · simp [ha]
  · simp [hb]
  · rw [decide_eq_true_eq]
    exact ⟨fun h => ⟨h, hempty, not_not.1 ha, not_not.1 hb⟩, And.left⟩

/-- The laws of an alert and its retry from another pod. -/
theorem exactDuplicate_laws_retry : let a : EventMapping := ⟨sampleEvent "1" "high" .firing 1000,
    some "default/default"⟩
    let b : EventMapping :=
      ⟨{ sampleEvent "2" "high" .firing 2000 with labels := ⟨[(" Pod-UID", "7")], by decide⟩ }, some "default/default"⟩
    exactDuplicate Runtime.reference a b "default/default" = true ∧
    (a.fingerprint Runtime.reference = b.fingerprint Runtime.reference ↔
      SameIdentity Runtime.reference a.event b.event) ∧
    (exactDuplicate Runtime.reference a b "default/default" = true ↔
      SameIdentity Runtime.reference a.event b.event ∧ "default/default" ≠ "" ∧
        InScopeOrNone "default/default" a ∧ InScopeOrNone "default/default" b) ∧
    (a.fingerprint Runtime.reference = b.fingerprint Runtime.reference →
      scopeKeyFor a.event = scopeKeyFor b.event) :=
  ⟨by decide +kernel, exactDuplicate_laws Function.injective_id (by decide +kernel) _ _ _⟩

/-- **A mapping without a scope** is a duplicate in every scope. -/
theorem not_bothCarryScope : ¬ ∀ (a b : EventMapping) (scopeKey : String),
    exactDuplicate Runtime.reference a b scopeKey = true ↔
      SameIdentity Runtime.reference a.event b.event ∧ scopeKey ≠ "" ∧
        a.scopeKey = some scopeKey ∧ b.scopeKey = some scopeKey := by
  intro h
  have hdup : exactDuplicate Runtime.reference ⟨sampleEvent "1" "high" .firing 1000, none⟩
    ⟨sampleEvent "1" "high" .firing 1000, none⟩ "prod" = true := by
    decide +kernel
  obtain ⟨-, -, hcarries, -⟩ := (h _ _ _).1 hdup
  cases hcarries

end PulseGraph
