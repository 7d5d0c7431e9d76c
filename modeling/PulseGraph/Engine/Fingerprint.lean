/-
# What a fingerprint tells apart

`generate_fingerprint` hashes the canonical text of four fields.  A hash without collisions
therefore tells two events apart exactly when one of the four differs, the labels being taken
without the volatile ones and in any order (`generateFingerprint_eq_iff`).  The three labels a
scope is made of are not volatile, so one fingerprint is never shared by two scopes
(`scopeKeyFor_congr`).
-/

import PulseGraph.Engine.Dedupe
import PulseGraph.Library.JsonLoads
import PulseGraph.Library.Table

namespace PulseGraph

open Library (Json)
open Library.Json (WellFormed)

variable {K : Type} {rt : Runtime K}

/-- The labels a fingerprint sees, as the JSON object that is hashed. -/
def stableObject (rt : Runtime K) (labels : Labels) : List (String × Json) :=
  (Json.sortFields (stableLabels rt labels)).map fun kv => (kv.1, .str kv.2)

theorem nodup_stableLabels (labels : Labels) : ((stableLabels rt labels).map Prod.fst).Nodup :=
  (List.filter_sublist.map Prod.fst).nodup labels.nodup

theorem wellFormed_stableObject (labels : Labels) : WellFormed (.obj (stableObject rt labels)) := by
  refine .obj ?_ ?_
  · have hperm : (Json.sortFields (stableLabels rt labels)).Perm (stableLabels rt labels) :=
      List.perm_insertionSort _ _
    rw [stableObject, List.map_map]
    exact (hperm.map Prod.fst).nodup_iff.2 (nodup_stableLabels labels)
  · intro f hf
    obtain ⟨kv, -, rfl⟩ := List.mem_map.1 hf
    exact .str kv.2

/-- The four fields of `_fingerprint_material`. -/
def fingerprintFields (rt : Runtime K) (event : EventPayload) : List (String × Json) :=
  [("service", .str event.service), ("alertname", .str event.alertname),
    ("severity", .str event.severityRaw), ("labels", .obj (stableObject rt event.labels))]

theorem nodup_fingerprintFields (event : EventPayload) :
    ((fingerprintFields rt event).map Prod.fst).Nodup :=
  show ["service", "alertname", "severity", "labels"].Nodup by decide

theorem wellFormed_fingerprintMaterial (event : EventPayload) :
    WellFormed (.obj (fingerprintFields rt event)) := by
  refine .obj (nodup_fingerprintFields event) ?_
  intro f hf
  simp only [fingerprintFields, List.mem_cons, List.not_mem_nil, or_false] at hf
  rcases hf with rfl | rfl | rfl | rfl
  · exact .str _
  · exact .str _
  · exact .str _
  · exact wellFormed_stableObject event.labels

/-- The hashed objects of labels are equal up to the order of keys when the stable labels are. -/
theorem stableLabels_perm {a b : Labels}
    (h : (Json.obj (stableObject rt a)).sorted = (Json.obj (stableObject rt b)).sorted) :
    (stableLabels rt a).Perm (stableLabels rt b) := by
  have hsorted : ∀ l : Labels, (Json.obj (stableObject rt l)).sorted = .obj (stableObject rt l) := by
    intro l
    rw [Json.sorted, Json.sortedFields_eq_map, stableObject, List.map_map]
    have hstr : ((fun f : String × Json => (f.1, f.2.sorted)) ∘ fun kv : String × String =>
        (kv.1, Json.str kv.2)) = fun kv => (kv.1, Json.str kv.2) := rfl
    rw [hstr, Json.sortFields_map, Json.sortFields_sortFields]
  rw [hsorted, hsorted, Json.obj.injEq, stableObject, stableObject] at h
  have hinj : Function.Injective fun kv : String × String => (kv.1, Json.str kv.2) := by
    intro x y hxy
    obtain ⟨hk, hv⟩ := Prod.mk.inj hxy
    exact Prod.ext hk (Json.str.inj hv)
  have hlists := List.map_injective_iff.2 hinj h
  have hperm : ∀ l : List (String × String), (Json.sortFields l).Perm l := fun l =>
    List.perm_insertionSort _ l
  exact (hperm _).symm.trans (hlists ▸ hperm _)

/-- **What a fingerprint tells apart**: the service, the alert name, the raw severity, and the
stable labels up to their order. -/
theorem generateFingerprint_eq_iff (hsha : Function.Injective rt.sha256) {a b : EventPayload} :
    generateFingerprint rt a = generateFingerprint rt b ↔
      a.service = b.service ∧ a.alertname = b.alertname ∧ a.severityRaw = b.severityRaw ∧
        (stableLabels rt a.labels).Perm (stableLabels rt b.labels) := by
  have hmaterial : ∀ event, generateFingerprint rt event =
      rt.sha256 ((Json.obj (fingerprintFields rt event)).dumps true) := fun _ => rfl
  constructor
  · intro h
    rw [hmaterial, hmaterial] at h
    have hsorted := Json.dumps_injective (wellFormed_fingerprintMaterial a)
      (wellFormed_fingerprintMaterial b) (hsha h)
    have hfield : ∀ key (v w : Json), (key, v) ∈ fingerprintFields rt a →
        (key, w) ∈ fingerprintFields rt b → v.sorted = w.sorted := fun _ _ _ hv hw =>
      Json.field_eq_of_sorted_eq hsorted (nodup_fingerprintFields b) hv hw
    refine ⟨?_, ?_, ?_, ?_⟩
    · exact Json.str.inj (hfield "service" _ _ (.head _) (.head _))
    · exact Json.str.inj (hfield "alertname" _ _ (.tail _ (.head _)) (.tail _ (.head _)))
    · exact Json.str.inj (hfield "severity" _ _ (.tail _ (.tail _ (.head _))) (.tail _ (.tail _ (.head _))))
    · exact stableLabels_perm (hfield "labels" _ _ (.tail _ (.tail _ (.tail _ (.head _))))
        (.tail _ (.tail _ (.tail _ (.head _)))))
  · rintro ⟨hservice, halertname, hseverity, hlabels⟩
    rw [hmaterial, hmaterial, fingerprintFields, fingerprintFields, hservice, halertname, hseverity,
      stableObject, stableObject, sortFields_perm hlabels (nodup_stableLabels a.labels)]

/-! ## Scopes -/

/-- A label that is not volatile is read off the stable labels. -/
theorem get?_eq_of_stable {a b : Labels} {key : String} (hkey : isVolatileKey rt key = false)
    (h : (stableLabels rt a).Perm (stableLabels rt b)) : a.get? key = b.get? key := by
  have hmem : ∀ {l l' : Labels} {v : String}, (stableLabels rt l).Perm (stableLabels rt l') →
      (key, v) ∈ l.items → (key, v) ∈ l'.items := by
    intro l l' v hperm hv
    have hstable : (key, v) ∈ stableLabels rt l := List.mem_filter.2 ⟨hv, by simp [hkey]⟩
    exact (List.mem_filter.1 (hperm.subset hstable)).1
  have hget : ∀ {l : Labels} {v : String}, l.get? key = some v ↔ (key, v) ∈ l.items := by
    intro l v
    exact Library.Table.find?_eq_some_iff (t := ⟨l.items, l.nodup⟩)
  ext v
  rw [hget, hget]
  exact ⟨hmem h, hmem h.symm⟩

/-- The labels a scope is made of. -/
def scopeLabels : List String := ["environment", "cluster", "namespace"]

/-- **One fingerprint is never shared by two scopes**, where the three labels a scope is made of
are not volatile. -/
theorem scopeKeyFor_congr (hsha : Function.Injective rt.sha256)
    (hscope : ∀ key ∈ scopeLabels, isVolatileKey rt key = false) {a b : NormalizedEvent} {s t : String}
    (h : generateFingerprint rt (eventPayload a s) = generateFingerprint rt (eventPayload b t)) :
    scopeKeyFor a = scopeKeyFor b := by
  obtain ⟨-, -, -, hlabels⟩ := (generateFingerprint_eq_iff hsha).1 h
  have hget : ∀ key ∈ scopeLabels, a.labels.get? key = b.labels.get? key := fun key hkey =>
    get?_eq_of_stable (hscope key hkey) hlabels
  rw [scopeKeyFor, scopeKeyFor, hget "environment" (by decide), hget "cluster" (by decide),
    hget "namespace" (by decide)]

/-- Lower-case words are not volatile where `lower` and `strip` leave them alone. -/
theorem isVolatileKey_scopeLabels (hlower : ∀ key ∈ scopeLabels, rt.lower (rt.strip key) = key) :
    ∀ key ∈ scopeLabels, isVolatileKey rt key = false := by
  intro key hkey
  have hnormal : normaliseKey rt key = String.ofList (key.toList.map fun c => if c = '-' then '_' else c) := by
    rw [normaliseKey, hlower key hkey]
  simp only [scopeLabels, List.mem_cons, List.not_mem_nil, or_false] at hkey
  unfold isVolatileKey
  dsimp only
  rw [hnormal]
  rcases hkey with rfl | rfl | rfl <;> decide +kernel

end PulseGraph
