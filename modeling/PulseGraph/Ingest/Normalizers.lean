/-
# What the monitors send

`src/ingest/prometheus.py`, `src/ingest/normalize_grafana.py` and `src/ingest/normalize_datadog.py`:
a provider's payload, as `json.loads` gives it, becomes a list of `NormalizedEvent`, or the
normalizer raises.  What an exception says goes into the text of a refusal alone, so `none` stands
for each of them.

**Proved here.**  `providers_agree_iff`: an alert that Prometheus and Grafana both send has one
identity and one scope exactly when no label `env` stands in for a missing `environment`, which the
Grafana adapter alone lets it do.
-/

import PulseGraph.Db.IsoText
import PulseGraph.Engine.ExactDuplicates
import PulseGraph.Library.JsonValues
import PulseGraph.Outbox.FailurePolicy

namespace PulseGraph

open Library (Json forall₂_of_mapM_some)

variable {K : Type}

/-- A deployment, with what the normalizers use of Python's standard library besides. -/
structure ProviderRuntime (K : Type) extends Runtime K where
  /-- `str(value)` of what `json.loads` gives. -/
  str : Json → String
  str_text : ∀ s, str (.str s) = s
  /-- `datetime.fromisoformat`; `none` where it raises. -/
  fromIsoFormat : String → Option DateTime
  /-- `float(text)`; `none` where it raises. -/
  float : String → Option Seconds
  /-- `numeric / 1000`, in floats. -/
  thousandth : ℚ → ℚ
  /-- `datetime.fromtimestamp(numeric, tz=timezone.utc)`; `none` where it raises. -/
  fromtimestamp : ℚ → Option DateTime

/-- A runtime to compute with, which reads the timestamps `fromIsoFormat` does, and no float off a text. -/
def ProviderRuntime.reference : ProviderRuntime ℚ where
  toRuntime := Runtime.reference
  str
    | .str s => s
    | v => v.dumps false
  str_text _ := rfl
  fromIsoFormat := PulseGraph.fromIsoFormat
  float _ := none
  thousandth q := q / 1000
  fromtimestamp q :=
    let us := roundHalfEven (q * 1000000)
    if minInstant * 1000 ≤ us ∧ us < endOfTime * 1000 then some ⟨us, some 0⟩ else none

/-! ## Mappings -/

namespace Labels

/-- `labels[key] = value`: a key that is there keeps its place. -/
def set (l : Labels) (key value : String) : Labels where
  items := if key ∈ l.items.map Prod.fst then l.items.map fun kv => if kv.1 = key then (key, value) else kv
    else l.items ++ [(key, value)]
  nodup := by
    have hkeys : (l.items.map fun kv => if kv.1 = key then (key, value) else kv).map Prod.fst =
        l.items.map Prod.fst := by
      rw [List.map_map]
      refine List.map_congr_left fun kv _ => ?_
      rw [Function.comp_apply]
      split_ifs with h
      · exact h.symm
      · rfl
    split_ifs with h
    · rw [hkeys]
      exact l.nodup
    · rw [List.map_append, List.nodup_append]
      refine ⟨l.nodup, List.nodup_singleton _, fun a ha b hb heq => h ?_⟩
      obtain rfl := List.mem_singleton.1 hb
      exact heq ▸ ha

/-- `labels[key] = value` is read back, and no other key changes. -/
theorem get?_set (l : Labels) (key value k : String) :
    (l.set key value).get? k = if k = key then some value else l.get? k := by
  have hmem : ∀ {l : Labels} {k v : String}, l.get? k = some v ↔ (k, v) ∈ l.items := by
    intro l k v
    exact Library.Table.find?_eq_some_iff (t := ⟨l.items, l.nodup⟩)
  have hitems : (l.set key value).items =
      if key ∈ l.items.map Prod.fst then l.items.map fun kv => if kv.1 = key then (key, value) else kv
      else l.items ++ [(key, value)] := rfl
  ext v
  rw [hmem, hitems]
  by_cases hin : key ∈ l.items.map Prod.fst
  · rw [if_pos hin, List.mem_map]
    by_cases hk : k = key
    · subst hk
      rw [if_pos rfl, Option.some.injEq]
      constructor
      · rintro ⟨kv, -, heq⟩
        split_ifs at heq with hkv
        · exact (Prod.mk.inj heq).2
        · exact absurd (congrArg Prod.fst heq) hkv
      · rintro rfl
        obtain ⟨kv, hkv, hkey⟩ := List.mem_map.1 hin
        exact ⟨kv, hkv, if_pos hkey⟩
    · rw [if_neg hk, hmem]
      constructor
      · rintro ⟨kv, hkv, heq⟩
        split_ifs at heq with hkey
        · exact absurd (congrArg Prod.fst heq).symm hk
        · exact heq ▸ hkv
      · exact fun h => ⟨(k, v), h, if_neg hk⟩
  · rw [if_neg hin, List.mem_append, List.mem_singleton]
    by_cases hk : k = key
    · subst hk
      rw [if_pos rfl, Option.some.injEq]
      constructor
      · rintro (h | h)
        · exact absurd (List.mem_map_of_mem (f := Prod.fst) h) hin
        · exact (Prod.mk.inj h).2.symm
      · rintro rfl
        exact .inr rfl
    · rw [if_neg hk, hmem]
      exact ⟨fun h => h.elim id fun h => absurd (Prod.mk.inj h).1 hk, .inl⟩

/-- A mapping with the items of a list, the last of two under one key. -/
def ofItems (items : List (String × String)) : Labels := items.foldl (fun l kv => l.set kv.1 kv.2) empty

end Labels

/-- `value.get(key, default)`; only a mapping has the attribute. -/
def getOr (key : String) (default : Json) : Json → Option Json
  | .obj fields => some ((fields.lookup key).getD default)
  | _ => none

/-- The items of a mapping. -/
def items? : Json → Option (List (String × Json))
  | .obj fields => some fields
  | _ => none

/-- The items of a list. -/
def list? : Json → Option (List Json)
  | .arr xs => some xs
  | _ => none

/-- A text that is one. -/
def text? : Json → Option String
  | .str s => some s
  | _ => none

/-- `mapping[key] = value`. -/
def setField (key : String) (value : Json) (fields : List (String × Json)) : List (String × Json) :=
  if key ∈ fields.map Prod.fst then fields.map fun f => if f.1 = key then (key, value) else f
  else fields ++ [(key, value)]

/-- What `for item in value` goes through. -/
def iterated : Json → Option (List Json)
  | .arr xs => some xs
  | .obj fields => some (fields.map fun f => .str f.1)
  | .str s => some (s.toList.map fun c => .str c.toString)
  | _ => none

variable (rt : ProviderRuntime K)

/-- `{str(key): str(value)}`. -/
def strItems (fields : List (String × Json)) : Labels := .ofItems (fields.map fun f => (f.1, rt.str f.2))

/-- `labels.get(first) or labels.get(second) or "unknown"`. -/
def serviceOf (first second : String) (labels : Labels) : String :=
  (((labels.get? first).filter (· ≠ "")).or ((labels.get? second).filter (· ≠ ""))).getD "unknown"

/-- `parsed.replace(tzinfo=parsed.tzinfo or timezone.utc)`. -/
def DateTime.orUtc (t : DateTime) : DateTime := { t with utcOffset := some (t.utcOffset.getD 0) }

/-- `compute_fingerprint`. -/
def computeFingerprint (service alertname : String) (labels : Labels) : String :=
  let labelPart := ",".intercalate ((Json.sortFields labels.items).map fun kv => kv.1 ++ "=" ++ kv.2)
  rt.sha256 (service ++ "|" ++ alertname ++ "|" ++ labelPart)

/-! ## Prometheus -/

/-- One alert of `normalize_prometheus`. -/
def prometheusEvent (eventId : String) (alert : Json) : Option NormalizedEvent := do
  let fields ← items? alert
  let labels ← (getOr "labels" (.obj []) alert).bind items?
  let annotations ← (getOr "annotations" (.obj []) alert).bind items?
  let labels := strItems rt labels
  let service := serviceOf "service" "job" labels
  let alertname := (labels.get? "alertname").getD "unknown"
  let status := if (fields.lookup "status").bind text? = some "resolved" then .resolved else .firing
  let summary := (annotations.lookup "summary").getD .null
  let description := (annotations.lookup "description").getD .null
  let startsAt ← (fields.lookup "startsAt").bind text?
  let firedAt ← rt.fromIsoFormat (offsetSuffix startsAt)
  let message ← text? (summary.orElse (description.orElse (.str alertname)))
  some {
    eventId := eventId
    fingerprint := computeFingerprint rt service alertname labels
    source := .prometheus
    service := service
    alertname := alertname
    severityRaw := (labels.get? "severity").getD "info"
    status := status
    labels := labels
    message := message
    firedAt := firedAt
    rawPayload := fields }

/-- `normalize_prometheus`, with the values of `uuid4` it draws. -/
def normalizePrometheus (eventIds : ℕ → String) (payload : Json) : Option (List NormalizedEvent) := do
  let alerts ← (getOr "alerts" (.arr []) payload).bind iterated
  alerts.zipIdx.mapM fun alert => prometheusEvent rt (eventIds alert.2) alert.1

/-! ## Grafana -/

/-- `environment`, from the label `env` where there is none. -/
def withEnvironment (labels : Labels) : Labels :=
  match labels.get? "environment", (labels.get? "env").filter (· ≠ "") with
  | none, some env => labels.set "environment" env
  | _, _ => labels

/-- The label `env` stands in for `environment`. -/
def StandsIn (labels : Labels) : Prop := labels.get? "environment" = none ∧ (labels.get? "env").getD "" ≠ ""

/-- **What the adapter adds** is there to be read. -/
theorem get?_withEnvironment (labels : Labels) (key : String) : (withEnvironment labels).get? key =
    if key = "environment" then (labels.get? "environment").or ((labels.get? "env").filter (· ≠ ""))
    else labels.get? key := by
  unfold withEnvironment
  split
  · next env henvironment henv =>
      rw [Labels.get?_set, henvironment, Option.none_or, henv]
  · next hno =>
      split_ifs with hkey
      · subst hkey
        cases henvironment : labels.get? "environment" with
        | some v => rfl
        | none =>
            rw [Option.none_or]
            exact (Option.eq_none_iff_forall_ne_some.2 fun env henv => hno env henvironment henv).symm
      · rfl

/-- **It changes no label** that was there, and adds one exactly when `env` stands in. -/
theorem withEnvironment_agrees_iff (labels : Labels) :
    (withEnvironment labels).get? "environment" = labels.get? "environment" ↔ ¬ StandsIn labels := by
  rw [get?_withEnvironment, if_pos rfl, StandsIn]
  cases labels.get? "environment" with
  | some v => simp
  | none => cases labels.get? "env" with
    | none => simp
    | some env => by_cases henv : env = "" <;> simp [henv]

/-- `_STATE_TO_STATUS`. -/
def stateToStatus (state : String) : Option EventStatus :=
  [("alerting", EventStatus.firing), ("firing", .firing), ("ok", .resolved), ("resolved", .resolved)].lookup state

/-- A text that is not blank. -/
def nonBlank? (value : Json) : Option String := (text? value).filter fun s => rt.strip s ≠ ""

/-- `str(source_event_id)`, where it is there and not blank. -/
def sourceEventId? (value : Json) : Option String :=
  if value matches .null then none else some (rt.str value) |>.filter fun s => rt.strip s ≠ ""

/-- `_message`. -/
def grafanaMessage (fields : List (String × Json)) (alertname : String) : String :=
  let value := fun (fields : List (String × Json)) key => (fields.lookup key).bind (nonBlank? rt)
  let annotations := ((fields.lookup "annotations").bind items?).getD []
  ((value fields "message").or ((value annotations "summary").or
    ((value annotations "description").or (value annotations "message")))).getD alertname

/-- One alert of `normalize_grafana`. -/
def grafanaEvent (payload : List (String × Json)) (eventId : String) (alert : Json) : Option NormalizedEvent := do
  let fields ← items? alert
  let labels ← (fields.lookup "labels").bind items?
  let labels := withEnvironment (strItems rt labels)
  let alertname ← (labels.get? "alertname").filter (· ≠ "")
  let state ← text? ((fields.lookup "state").getD ((fields.lookup "status").getD .null))
  let status ← stateToStatus (rt.lower state)
  let sourceEventId ← sourceEventId? rt ((fields.lookup "fingerprint").getD .null)
  let service := serviceOf "service" "job" labels
  let startsAt ← (fields.lookup "startsAt").bind (nonBlank? rt)
  let firedAt ← rt.fromIsoFormat (offsetSuffix startsAt)
  some {
    eventId := eventId
    fingerprint := computeFingerprint rt service alertname labels
    source := .grafana
    service := service
    alertname := alertname
    severityRaw := (labels.get? "severity").getD "info"
    status := status
    labels := labels
    message := grafanaMessage rt fields alertname
    firedAt := firedAt.orUtc
    rawPayload := setField "source_event_id" (.str sourceEventId) payload }

/-- `normalize_grafana`. -/
def normalizeGrafana (eventIds : ℕ → String) (payload : Json) : Option (List NormalizedEvent) := do
  let fields ← items? payload
  let alerts ← (fields.lookup "alerts").bind list?
  if alerts = [] then none
  else alerts.zipIdx.mapM fun alert => grafanaEvent rt fields (eventIds alert.2) alert.1

/-! ## Datadog -/

/-- `_TRANSITION_TO_STATUS`. -/
def transitionToStatus (transition : String) : Option EventStatus :=
  [("triggered", EventStatus.firing), ("recovered", .resolved)].lookup transition

/-- `_PRIORITY_TO_SEVERITY`. -/
def priorityToSeverity (priority : String) : Option String :=
  [("p1", "critical"), ("p2", "high"), ("p3", "medium"), ("p4", "low")].lookup priority

/-- Epoch seconds, or milliseconds; neither infinity nor `nan` is an instant. -/
def fromEpoch : Seconds → Option DateTime
  | .finite numeric => rt.fromtimestamp (if 100000000000 ≤ |numeric| then rt.thousandth numeric else numeric)
  | _ => none

/-- `_parse_timestamp`. -/
def parseTimestamp (value : Json) : Option DateTime :=
  match value with
  | .num text => (rt.float text).bind (fromEpoch rt)
  | .str s => match rt.float s with
    | some numeric => fromEpoch rt numeric
    | none => (rt.fromIsoFormat (offsetSuffix s)).map DateTime.orUtc
  | _ => none

/-- `_tags_to_labels`: a tag without a colon has no value, and one without a key is left out. -/
def tagsToLabels (tags : List String) : Labels :=
  withEnvironment (tags.foldl (fun labels tag =>
    let key := rt.strip (String.ofList (tag.toList.takeWhile (· ≠ ':')))
    let value := if ':' ∈ tag.toList then rt.strip (String.ofList ((tag.toList.dropWhile (· ≠ ':')).drop 1)) else ""
    if key = "" then labels else labels.set key value) .empty)

/-- `normalize_datadog`. -/
def normalizeDatadog (eventIds : ℕ → String) (payload : Json) : Option (List NormalizedEvent) := do
  let payload ← items? payload
  let event ← (payload.lookup "event").bind items?
  let requiredText := fun key => (event.lookup key).bind (nonBlank? rt)
  let title ← requiredText "title"
  let message ← requiredText "text"
  let transition ← requiredText "alert_transition"
  let status ← transitionToStatus (rt.lower transition)
  let priority ← requiredText "priority"
  let tags ← ((event.lookup "tags").bind list?).bind fun tags => tags.mapM text?
  let labels := tagsToLabels rt tags
  let sourceEventId ← sourceEventId? rt ((event.lookup "id").getD .null)
  let service := serviceOf "service" "service_name" labels
  let firedAt ← parseTimestamp rt ((event.lookup "timestamp").getD .null)
  some [{
    eventId := eventIds 0
    fingerprint := computeFingerprint rt service title labels
    source := .datadog
    service := service
    alertname := title
    severityRaw := (priorityToSeverity (rt.lower priority)).getD (rt.lower priority)
    status := status
    labels := labels
    message := message
    firedAt := firedAt
    rawPayload := setField "source_event_id" (.str sourceEventId) payload }]

/-! ## Two monitors of one alert -/

/-- `alert.get("labels", {})`, as an object. -/
def alertLabels (alert : Json) : Option (List (String × Json)) := (getOr "labels" (.obj []) alert).bind items?

/-- What an event takes from its labels. -/
structure OfLabels (l : Labels) (event : NormalizedEvent) : Prop where
  labels : event.labels = l
  service : event.service = serviceOf "service" "job" l
  alertname : event.alertname = (l.get? "alertname").getD "unknown"
  severityRaw : event.severityRaw = (l.get? "severity").getD "info"

variable {rt}

theorem prometheusEvent_labels {id : String} {alert : Json} {event : NormalizedEvent}
    (h : prometheusEvent rt id alert = some event) :
    ∃ fields, alertLabels alert = some fields ∧ OfLabels (strItems rt fields) event := by
  unfold prometheusEvent at h
  simp only [bind, Option.bind_eq_some_iff, Option.some.injEq] at h
  obtain ⟨_, -, fields, hlabels, _, -, _, -, _, -, _, -, rfl⟩ := h
  exact ⟨fields, Option.bind_eq_some_iff.2 hlabels, rfl, rfl, rfl, rfl⟩

theorem grafanaEvent_labels {payload : List (String × Json)} {id : String} {alert : Json} {event : NormalizedEvent}
    (h : grafanaEvent rt payload id alert = some event) :
    ∃ fields, alertLabels alert = some fields ∧ OfLabels (withEnvironment (strItems rt fields)) event := by
  unfold grafanaEvent at h
  simp only [bind, Option.bind_eq_some_iff, Option.some.injEq] at h
  obtain ⟨_, hfields, fields, ⟨labels, hlookup, hlabels⟩, alertname, hname, _, -, _, -, _, -, _, -, _, -, rfl⟩ := h
  refine ⟨fields, ?_, rfl, rfl, ?_, rfl⟩
  · cases alert with
    | obj alertFields =>
        obtain rfl := Option.some.inj hfields
        rw [alertLabels, getOr, hlookup]
        exact hlabels
    | _ => cases hfields
  · rw [(Option.filter_eq_some_iff.1 hname).1]
    rfl

/-- **One identity for two monitors**: the labels they read differ by the stand-in alone. -/
theorem sameIdentity_iff (hlower : ∀ key ∈ scopeLabels, rt.lower (rt.strip key) = key) {labels : Labels}
    {a b : NormalizedEvent} (ha : OfLabels labels a) (hb : OfLabels (withEnvironment labels) b) :
    SameIdentity rt.toRuntime a b ↔ ¬ StandsIn labels := by
  have hget : ∀ key, key ≠ "environment" → (withEnvironment labels).get? key = labels.get? key := fun key hkey => by
    rw [get?_withEnvironment, if_neg hkey]
  rw [← withEnvironment_agrees_iff]
  constructor
  · intro h
    have henvironment := h.labels "environment" (isVolatileKey_scopeLabels hlower _ (by decide))
    rw [ha.labels, hb.labels] at henvironment
    exact henvironment.symm
  · intro h
    refine ⟨?_, ?_, ?_, fun key _ => ?_⟩
    · rw [ha.service, hb.service, serviceOf, serviceOf, hget _ (by decide), hget _ (by decide)]
    · rw [ha.alertname, hb.alertname, hget _ (by decide)]
    · rw [ha.severityRaw, hb.severityRaw, hget _ (by decide)]
    · rw [ha.labels, hb.labels]
      by_cases hkey : key = "environment"
      · rw [hkey, h]
      · rw [hget key hkey]

/-- The alerts of a Prometheus payload, and the event of each. -/
theorem normalizePrometheus_labels {ids : ℕ → String} {payload : Json} {alerts : List Json}
    {events : List NormalizedEvent} (halerts : getOr "alerts" (.arr []) payload = some (.arr alerts))
    (h : normalizePrometheus rt ids payload = some events) :
    List.Forall₂ (fun alert event => ∃ fields, alertLabels alert = some fields ∧ OfLabels (strItems rt fields) event)
      alerts events := by
  unfold normalizePrometheus at h
  rw [halerts] at h
  have hall := (forall₂_of_mapM_some h).imp fun _ _ => prometheusEvent_labels
  rw [← List.zipIdx_map_fst 0 alerts, List.forall₂_map_left_iff]
  exact hall

/-- The alerts of a Grafana payload, and the event of each. -/
theorem normalizeGrafana_labels {ids : ℕ → String} {payload : Json} {alerts : List Json}
    {events : List NormalizedEvent} (halerts : getOr "alerts" .null payload = some (.arr alerts))
    (h : normalizeGrafana rt ids payload = some events) :
    List.Forall₂ (fun alert event => ∃ fields, alertLabels alert = some fields ∧
      OfLabels (withEnvironment (strItems rt fields)) event) alerts events := by
  obtain ⟨fields, rfl, hfields⟩ : ∃ fields, payload = .obj fields ∧ (fields.lookup "alerts").getD .null = .arr alerts := by
    cases payload with
    | obj fields => exact ⟨fields, rfl, Option.some.inj halerts⟩
    | _ => cases halerts
  unfold normalizeGrafana at h
  simp only [items?, bind, Option.bind_eq_some_iff, Option.some.injEq] at h
  obtain ⟨_, rfl, found, ⟨value, hlookup, hvalue⟩, h⟩ := h
  obtain rfl : value = .arr alerts := by
    rw [hlookup] at hfields
    exact hfields
  obtain rfl : alerts = found := Option.some.inj hvalue
  split_ifs at h
  have hall := (forall₂_of_mapM_some h).imp fun _ _ => grafanaEvent_labels
  rw [← List.zipIdx_map_fst 0 alerts, List.forall₂_map_left_iff]
  exact hall

/-- **Two monitors of one alert.**  Prometheus and Grafana report alerts with the same labels, in two
payloads that both normalizers take: an alert has one fingerprint, and one scope, whichever reports it
exactly when no label `env` stands in for a missing `environment`. -/
theorem providers_agree_iff (hsha : Function.Injective rt.sha256)
    (hlower : ∀ key ∈ scopeLabels, rt.lower (rt.strip key) = key) {ids ids' : ℕ → String} {payload payload' : Json}
    {alerts alerts' : List Json} {events events' : List NormalizedEvent}
    (halerts : getOr "alerts" (.arr []) payload = some (.arr alerts))
    (halerts' : getOr "alerts" .null payload' = some (.arr alerts'))
    (hsame : List.Forall₂ (fun a a' => alertLabels a = alertLabels a') alerts alerts')
    (h : normalizePrometheus rt ids payload = some events)
    (h' : normalizeGrafana rt ids' payload' = some events') :
    List.Forall₂ (fun e e' => generateFingerprint rt.toRuntime (eventPayload e (scopeKeyFor e)) =
        generateFingerprint rt.toRuntime (eventPayload e' (scopeKeyFor e')) ∧ scopeKeyFor e = scopeKeyFor e' ↔
      ¬ StandsIn e.labels) events events' := by
  have hp := normalizePrometheus_labels halerts h
  have hg := normalizeGrafana_labels halerts' h'
  clear halerts halerts' h h'
  induction hsame generalizing events events' with
  | nil =>
      cases hp
      cases hg
      exact .nil
  | @cons a a' _ _ heq _ ih =>
      cases hp with | cons ha hp =>
      cases hg with | cons hb hg =>
      obtain ⟨fields, hfields, ha⟩ := ha
      obtain ⟨fields', hfields', hb⟩ := hb
      obtain rfl : fields = fields' := Option.some.inj (hfields.symm.trans (heq.trans hfields'))
      refine .cons ?_ (ih hp hg)
      rw [ha.labels, ← sameIdentity_iff hlower ha hb, ← fingerprint_eq_iff hsha (a := ⟨_, none⟩) (b := ⟨_, none⟩)]
      -- one fingerprint is never shared by two scopes
      exact ⟨And.left, fun h => ⟨h, scopeKeyFor_congr hsha (isVolatileKey_scopeLabels hlower) h⟩⟩

/-- An alert of the staging environment, which says so in its label `env`. -/
def stagingLabels : Json := .obj [("alertname", .str "latency"), ("service", .str "api"), ("env", .str "staging")]

/-- The alert as Prometheus posts it. -/
def prometheusPayload : Json := .obj [("alerts", .arr [.obj [("status", .str "firing"), ("labels", stagingLabels),
  ("startsAt", .str "2024-05-01T10:00:00Z")]])]

/-- The alert as Grafana posts it. -/
def grafanaPayload : Json := .obj [("alerts", .arr [.obj [("status", .str "firing"), ("labels", stagingLabels),
  ("startsAt", .str "2024-05-01T10:00:00Z"), ("fingerprint", .str "c5c4e2f4")]])]

/-- An alert with `env` alone is two incidents, in two scopes. -/
theorem providers_agree_iff_staging : ∃ e e', normalizePrometheus ProviderRuntime.reference (fun _ => "1")
      prometheusPayload = some [e] ∧
    normalizeGrafana ProviderRuntime.reference (fun _ => "2") grafanaPayload = some [e'] ∧
    scopeKeyFor e = "default/default" ∧ scopeKeyFor e' = "staging/default" ∧
    ¬ (generateFingerprint Runtime.reference (eventPayload e (scopeKeyFor e)) =
      generateFingerprint Runtime.reference (eventPayload e' (scopeKeyFor e')) ∧ scopeKeyFor e = scopeKeyFor e') := by
  have hp : ∃ e, normalizePrometheus ProviderRuntime.reference (fun _ => "1") prometheusPayload = some [e] ∧
      scopeKeyFor e = "default/default" ∧ e.labels.get? "environment" = none ∧
      (e.labels.get? "env").getD "" = "staging" := ⟨_, rfl, by decide +kernel⟩
  have hg : ∃ e, normalizeGrafana ProviderRuntime.reference (fun _ => "2") grafanaPayload = some [e] ∧
      scopeKeyFor e = "staging/default" := ⟨_, rfl, by decide +kernel⟩
  obtain ⟨e, he, hscope, hnone, henv⟩ := hp
  obtain ⟨e', he', hscope'⟩ := hg
  refine ⟨e, e', he, he', hscope, hscope', fun h => ?_⟩
  have hlabels : ∀ fields fields', fields.lookup "labels" = some stagingLabels →
      fields'.lookup "labels" = some stagingLabels → alertLabels (.obj fields) = alertLabels (.obj fields') := by
    intro fields fields' hf hf'
    rw [alertLabels, alertLabels, getOr, getOr, hf, hf']
  have hsame := @providers_agree_iff _ ProviderRuntime.reference Function.injective_id (by decide +kernel) _ _ _ _ _ _
    _ _ rfl rfl (.cons (hlabels _ _ rfl rfl) .nil) he he'
  exact (List.forall₂_cons.1 hsame).1.1 h ⟨hnone, by rw [henv]; decide⟩

end PulseGraph
