/-
# Stable identity

`src/engine/dedupe.py`: which labels are volatile, the material that is hashed,
`generate_fingerprint` and `is_exact_duplicate`; and `scope_key_for`, the
isolation boundary of an event (`src/engine/process_event.py`).

The fingerprint of an event depends on its service, alert name, raw severity and
stable labels alone, and not on the order the labels come in
(`generateFingerprint_congr`).
-/

import PulseGraph.Config
import PulseGraph.Contracts

namespace PulseGraph

open Library (Json)

variable {K : Type} (rt : Runtime K)

/-- `_VOLATILE_FIELD_NAMES`. -/
def volatileFieldNames : List String :=
  ["timestamp", "fired_at", "starts_at", "ends_at", "event_id", "source_event_id", "pod",
    "pod_name", "pod_uid", "uid", "instance", "container_id", "containerid"]

/-- `_normalise_key`. -/
def normaliseKey (key : String) : String :=
  String.ofList ((rt.lower (rt.strip key)).toList.map fun c => if c = '-' then '_' else c)

/-- `_is_volatile_key`. -/
def isVolatileKey (key : String) : Bool :=
  let normalized := normaliseKey rt key
  volatileFieldNames.contains normalized ||
    decide ("_timestamp".toList <:+ normalized.toList) ||
    decide ("_pod_uid".toList <:+ normalized.toList)

/-- The mapping `_event_payload` builds and `lookup_incident` reads back. -/
structure EventPayload where
  scopeKey : String
  service : String
  alertname : String
  severityRaw : String
  status : Option EventStatus
  labels : Labels

/-- `_stable_labels`, as the items the canonical text sorts. -/
def stableLabels (labels : Labels) : List (String × String) :=
  labels.items.filter fun kv => !isVolatileKey rt kv.1

/-- `_fingerprint_material`, as the JSON object that is hashed. -/
def fingerprintMaterial (event : EventPayload) : Json :=
  .obj [("service", .str event.service), ("alertname", .str event.alertname),
    ("severity", .str event.severityRaw),
    ("labels", .obj ((Json.sortFields (stableLabels rt event.labels)).map
      fun kv => (kv.1, .str kv.2)))]

/-- `generate_fingerprint`: a deterministic hash of stable alert identity fields only. -/
def generateFingerprint (event : EventPayload) : String :=
  rt.sha256 ((fingerprintMaterial rt event).dumps true)

/-- `is_exact_duplicate`; both mappings carry a `scope_key`. -/
def isExactDuplicate (a b : EventPayload) (scopeKey : String) : Bool :=
  if scopeKey = "" then false
  else if a.scopeKey ≠ scopeKey then false
  else if b.scopeKey ≠ scopeKey then false
  else decide (generateFingerprint rt a = generateFingerprint rt b)

/-- `scope_key_for`. -/
def scopeKeyFor (event : NormalizedEvent) : String :=
  let environment := (event.labels.get? "environment").getD "default"
  let cluster := (event.labels.get? "cluster").getD ((event.labels.get? "namespace").getD "default")
  environment ++ "/" ++ cluster

/-- `_event_payload`. -/
def eventPayload (event : NormalizedEvent) (scopeKey : String) : EventPayload where
  scopeKey := scopeKey
  service := event.service
  alertname := event.alertname
  severityRaw := event.severityRaw
  status := some event.status
  labels := event.labels

/-! ## What the fingerprint depends on -/

/-- A scope key holds a slash, so it is never empty. -/
theorem scopeKeyFor_ne_empty (event : NormalizedEvent) : scopeKeyFor event ≠ "" := by
  intro h
  have hl := congrArg (fun s => s.toList.length) h
  simp [scopeKeyFor] at hl

/-- Sorting by key gives one list for every order of distinct keys. -/
theorem sortFields_perm {xs ys : List (String × String)} (h : xs.Perm ys)
    (hnd : (xs.map Prod.fst).Nodup) : Json.sortFields xs = Json.sortFields ys := by
  have hx : (Json.sortFields xs).Perm xs := List.perm_insertionSort _ xs
  have hy : (Json.sortFields ys).Perm ys := List.perm_insertionSort _ ys
  have hperm : (Json.sortFields xs).Perm (Json.sortFields ys) := hx.trans (h.trans hy.symm)
  refine hperm.eq_of_pairwise ?_ (List.pairwise_insertionSort _ xs) (List.pairwise_insertionSort _ ys)
  -- two items under one key are one item, since the keys are distinct
  intro a b ha hb hab hba
  exact List.inj_on_of_nodup_map hnd (hx.subset ha) (h.symm.subset (hy.subset hb))
    (le_antisymm hab hba)

/-- **The fingerprint sees the four identity fields only**, and the stable labels
up to their order. -/
theorem generateFingerprint_congr {a b : EventPayload} (hs : a.service = b.service)
    (hn : a.alertname = b.alertname) (hr : a.severityRaw = b.severityRaw)
    (hl : a.labels.items.Perm b.labels.items) :
    generateFingerprint rt a = generateFingerprint rt b := by
  have hp : (stableLabels rt a.labels).Perm (stableLabels rt b.labels) := hl.filter _
  have hnd : ((stableLabels rt a.labels).map Prod.fst).Nodup :=
    (List.filter_sublist.map Prod.fst).nodup a.labels.nodup
  rw [generateFingerprint, generateFingerprint, fingerprintMaterial, fingerprintMaterial, hs, hn,
    hr, sortFields_perm hp hnd]

/-- In one nonempty scope, being an exact duplicate is having the same fingerprint. -/
theorem isExactDuplicate_eq_true {a b : EventPayload} {scopeKey : String} (hk : scopeKey ≠ "")
    (ha : a.scopeKey = scopeKey) (hb : b.scopeKey = scopeKey) :
    isExactDuplicate rt a b scopeKey = true ↔
      generateFingerprint rt a = generateFingerprint rt b := by
  simp [isExactDuplicate, hk, ha, hb]

end PulseGraph
