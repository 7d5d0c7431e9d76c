/-
# The callback endpoints

`src/inbound/router.py`: how a Slack click and a PagerDuty webhook become an `ExternalAction`.  Both
endpoints verify the signature of the body, read it, and apply the action in a transaction of its
own; whatever raises on the way is answered as a server error and rolled back.

**Proved here.**  Whatever requests arrive, in any order, the database is the one that the actions of
some of the signed requests leave, each under an inbound id of its own that was not seen before
(`callbacks_are_signed_actions`): nothing else the network sends changes it.  And a click or a
webhook that the provider signed is the action it says, however its bytes are escaped
(`slack_click_applies`, `pagerduty_webhook_applies`).
-/

import PulseGraph.Inbound.Replays
import PulseGraph.Inbound.Signatures
import PulseGraph.Library.Checked
import PulseGraph.Library.JsonValues

namespace PulseGraph

open Library (forall_mem_of_all Json raiseIf bind_eq_ok serveAll utf8 utf8Decode utf8DecodeStrict formFields FormWritten)

variable {K : Type} [Field K] [LinearOrder K]

/-! ## Requests -/

/-- The two endpoints. -/
inductive CallbackRoute where
  | slackInteractions | pagerdutyWebhooks
  deriving DecidableEq

/-- Where a route's actions come from. -/
def CallbackRoute.provider : CallbackRoute → Provider
  | .slackInteractions => .slack
  | .pagerdutyWebhooks => .pagerduty

/-- A request: its headers and body, the clock of the verifier, and the `uuid4`, the clock and the
fate of its transaction. -/
structure Callback (K : Type) where
  route : CallbackRoute
  /-- `X-Slack-Request-Timestamp`. -/
  timestamp : String := ""
  /-- `X-Slack-Signature` or `X-PagerDuty-Signature`. -/
  signature : String := ""
  body : List UInt8
  current : K
  freshEventId : String
  now : ℤ
  getsThrough : Bool

/-- The attempt to apply the action of a request. -/
def Callback.attempt (q : Callback K) (action : ExternalAction) : Attempt :=
  ⟨q.freshEventId, q.now, action, q.getsThrough⟩

/-- What an endpoint answers. -/
inductive CallbackResponse where
  /-- 200, with the status of the result and its incident. -/
  | applied (status : InboundStatus) (incidentId : Json)
  /-- 200: understood, and it changes nothing. -/
  | ignored (detail : String)
  /-- An `HTTPException`. -/
  | http (status : ℕ) (detail : String)
  /-- 500, for an exception nobody catches. -/
  | raised

/-- `MAX_CALLBACK_BYTES`. -/
def maxCallbackBytes : ℕ := 256 * 1024

/-- `_PAGERDUTY_KINDS`. -/
def pagerdutyKinds : List (String × ActionKind) :=
  [("incident.acknowledged", .acknowledge), ("incident.resolved", .resolve)]

/-- `_SLACK_ACTION_KINDS`. -/
def slackActionKinds : List (String × ActionKind) :=
  [("acknowledge_incident", .acknowledge), ("resolve_incident", .resolve)]

/-! ## Reading a request -/

/-- An action as an endpoint reads it, before its values are bound. -/
structure CallbackAction where
  inboundId : String
  provider : Provider
  kind : ActionKind
  incidentId : Json
  actor : Json
  detail : String

/-- `value.get(key)`, or the exception that a value which is no mapping raises. -/
def getField (key : String) (value : Json) : Except CallbackResponse Json :=
  match value.get? key with
  | some v => .ok v
  | none => .error .raised

/-- `kinds.get(value)`; an array or a mapping is no key. -/
def kindOf (kinds : List (String × ActionKind)) : Json → Except CallbackResponse (Option ActionKind)
  | .str s => .ok (kinds.lookup s)
  | .arr _ => .error .raised
  | .obj _ => .error .raised
  | _ => .ok none

/-- `actions[0]`, where only an array has a first element with fields. -/
def firstAction : Json → Except CallbackResponse Json
  | .arr (first :: _) => .ok first
  | _ => .error .raised

/-- `a.get(first) or a.get(second)`. -/
def eitherOf (first second : String) (value : Json) : Except CallbackResponse Json := do
  let a ← getField first value
  if a.truthy then .ok a else getField second value

section Read

variable (rt : CallbackRuntime K)

/-- A value in a formatted text. -/
def CallbackRuntime.format : Json → String
  | .str s => s
  | value => rt.str value

/-- What a text column holds of a value. -/
def CallbackRuntime.bound : Json → Option String
  | .str s => some s
  | value => rt.column value

/-- What an optional text column holds of a value. -/
def CallbackRuntime.boundOptional : Json → Option (Option String)
  | .null => some none
  | value => (rt.bound value).map some

/-- The wide encodings `json.detect_encoding` knows, by a byte order mark or a zero byte. -/
def wideEncoded : List UInt8 → Bool
  | 0xFE :: 0xFF :: _ => true
  | 0xFF :: 0xFE :: _ => true
  | [a, b] => a = 0 || b = 0
  | a :: b :: _ :: _ :: _ => a = 0 || b = 0
  | _ => false

/-- The text `json.loads(body)` reads, unless the bytes are not those of a text. -/
def jsonText (body : List UInt8) : Option (List Char) :=
  if wideEncoded body then rt.decodeWide body
  else if [0xEF, 0xBB, 0xBF] <+: body then utf8DecodeStrict (body.drop 3)
  else utf8DecodeStrict body

/-- The payload of a Slack interaction: form-encoded, with the interesting part in a JSON string under
`payload`. -/
def slackPayload (body : List UInt8) : Option Json :=
  Json.loads (String.ofList (((formFields (utf8Decode body)).lookup "payload".toList).getD []))

/-- The action of a Slack payload. -/
def slackInteraction (payload : Json) : Except CallbackResponse CallbackAction := do
  let actions := (← getField "actions" payload).orElse (.arr [])
  raiseIf (!actions.truthy) (.ignored "no actions")
  let first ← firstAction actions
  let kind ← kindOf slackActionKinds (← getField "action_id" first)
  let incidentId := (← getField "value" first).orElse (.str "")
  match kind with
  | none => throw (.ignored "unhandled action")
  | some kind =>
      raiseIf (!incidentId.truthy) (.ignored "unhandled action")
      let inboundId := (← getField "trigger_id" payload).orElse
        (.str ("slack:" ++ rt.format incidentId ++ ":" ++ kind.text))
      let user := (← getField "user" payload).orEmpty
      let actor ← eitherOf "username" "id" user
      return ⟨"slack:" ++ rt.format inboundId, .slack, kind, incidentId, actor, "slack interactive action"⟩

/-- `resolve_incident_id_from_ref`: the newest outbox row of the channel with the provider's handle. -/
def resolveIncidentIdFromRef (channel : Channel) (externalRef : String) (db : Database K) : Option String :=
  (firstBy (fun a b => a.1 > b.1)
    (db.outbox.select fun _ r => r.channel = channel && r.externalRef = some externalRef)).map (·.2.incidentId)

/-- The incident a PagerDuty payload is about: our key, or what the handle stands for. -/
def pagerdutyIncident (data : Json) (db : Database K) : Except CallbackResponse Json := do
  let incidentId := (← getField "dedup_key" data).orElse (.str "")
  let ref ← getField "id" data
  if !incidentId.truthy && ref.truthy then
    return .str ((resolveIncidentIdFromRef .pagerduty (rt.format ref) db).getD "")
  else return incidentId

/-- The action of a PagerDuty payload. -/
def pagerdutyWebhook (payload : Json) (db : Database K) : Except CallbackResponse CallbackAction := do
  let event := (← getField "event" payload).orEmpty
  let eventType ← getField "event_type" event
  match ← kindOf pagerdutyKinds eventType with
  | none => throw (.ignored "unhandled event type")
  | some kind =>
      let incidentId ← pagerdutyIncident rt (← getField "data" event).orEmpty db
      raiseIf (!incidentId.truthy) (.ignored "unmapped pagerduty incident")
      let agent := (← getField "agent" event).orEmpty
      let inboundId := (← getField "id" event).orElse incidentId
      let actor ← eitherOf "summary" "id" agent
      return ⟨"pagerduty:" ++ rt.format inboundId, .pagerduty, kind, incidentId, actor, rt.format eventType⟩

/-- The `ExternalAction` with its values as they are bound; a number or a truth value is the text its
column compares with. -/
def CallbackAction.bind (a : CallbackAction) (body : List UInt8) : Option ExternalAction := do
  let incidentId ← rt.bound a.incidentId
  let actor ← rt.boundOptional a.actor
  return { inboundId := a.inboundId
           provider := a.provider
           kind := a.kind
           incidentId := incidentId
           actor := actor
           detail := some a.detail
           payloadSha256 := rt.sha256Bytes body }

/-! ## Serving a request -/

/-- `_apply`: a replay is answered before anything else is bound. -/
def applyCallback (q : Callback K) (a : CallbackAction) (db : Database K) : CallbackResponse × Database K :=
  match a.bind rt q.body with
  | some action =>
      let (result, db') := applyInbound rt.toRuntime (q.attempt action) db
      (result.elim .raised fun r => .applied r.status a.incidentId, db')
  | none =>
      if q.getsThrough && alreadySeen a.inboundId db then (.applied .duplicate a.incidentId, db)
      else (.raised, db)

/-- The verifier of a route. -/
def Callback.verify (q : Callback K) : Except SignatureFailure Unit :=
  match q.route with
  | .slackInteractions => verifySlack rt q.timestamp q.signature q.body q.current
  | .pagerdutyWebhooks => verifyPagerduty rt q.signature q.body

/-- The action a verified request asks for. -/
def Callback.read (q : Callback K) (db : Database K) : Except CallbackResponse CallbackAction :=
  match q.route with
  | .slackInteractions => match slackPayload q.body with
    | none => .error (.http 400 "malformed payload")
    | some payload => slackInteraction rt payload
  | .pagerdutyWebhooks => match jsonText rt q.body with
    | none => .error .raised
    | some text => match Json.loads (String.ofList text) with
      | none => .error (.http 400 "malformed payload")
      | some payload => pagerdutyWebhook rt payload db

/-- `slack_interactions` and `pagerduty_webhooks`. -/
def serveCallback (q : Callback K) (db : Database K) : CallbackResponse × Database K :=
  if maxCallbackBytes < q.body.length then (.http 413 "callback too large", db)
  else match q.verify rt with
    | .error (.signatureError _) => (.http 401 "invalid signature", db)
    | .error .raised => (.raised, db)
    | .ok () => match q.read rt db with
      | .error response => (response, db)
      | .ok a => applyCallback rt q a db

/-- The database after some requests, one after the other: `write_lock` keeps them apart. -/
def serveCallbacks (calls : List (Callback K)) (db : Database K) : Database K :=
  calls.foldl (fun db q => (serveCallback rt q db).2) db

end Read

/-! ## Only signed actions -/

variable {rt : CallbackRuntime K} {db : Database K} {q : Callback K}

/-- An action of a route: its kind is one of the two, and its inbound id names the provider. -/
def OfRoute (route : CallbackRoute) (provider : Provider) (kind : ActionKind) (inboundId : String) : Prop :=
  provider = route.provider ∧ (kind = .acknowledge ∨ kind = .resolve) ∧
    ∃ id, inboundId = provider.text ++ ":" ++ id

/-- The tables name the two kinds. -/
theorem kind_of_lookup {kinds : List (String × ActionKind)} {value : Json} {kind : ActionKind}
    (hnodup : (kinds.map Prod.fst).Nodup) (hkinds : ∀ k ∈ kinds, k.2 = .acknowledge ∨ k.2 = .resolve)
    (h : kindOf kinds value = .ok (some kind)) : kind = .acknowledge ∨ kind = .resolve := by
  cases value with
  | str s => exact hkinds _ ((Json.lookup_eq_some_iff_mem hnodup).1 (Except.ok.inj h))
  | null => cases h
  | bool => cases h
  | num => cases h
  | arr => cases h
  | obj => cases h

omit [Field K] [LinearOrder K] in
theorem slackInteraction_ofRoute {payload : Json} {a : CallbackAction} (h : slackInteraction rt payload = .ok a) :
    OfRoute .slackInteractions a.provider a.kind a.inboundId := by
  unfold slackInteraction at h
  obtain ⟨actions, -, h⟩ := bind_eq_ok.1 h
  obtain ⟨-, -, h⟩ := bind_eq_ok.1 h
  obtain ⟨first, -, h⟩ := bind_eq_ok.1 h
  obtain ⟨actionId, -, h⟩ := bind_eq_ok.1 h
  obtain ⟨kind, hkind, h⟩ := bind_eq_ok.1 h
  obtain ⟨value, -, h⟩ := bind_eq_ok.1 h
  cases kind with
  | none => cases h
  | some kind =>
      obtain ⟨-, -, h⟩ := bind_eq_ok.1 h
      obtain ⟨triggerId, -, h⟩ := bind_eq_ok.1 h
      obtain ⟨user, -, h⟩ := bind_eq_ok.1 h
      obtain ⟨actor, -, h⟩ := bind_eq_ok.1 h
      obtain rfl := Except.ok.inj h
      exact ⟨rfl, kind_of_lookup (by decide) (by simp [slackActionKinds]) hkind, _, rfl⟩

omit [Field K] [LinearOrder K] in
theorem pagerdutyWebhook_ofRoute {payload : Json} {a : CallbackAction}
    (h : pagerdutyWebhook rt payload db = .ok a) : OfRoute .pagerdutyWebhooks a.provider a.kind a.inboundId := by
  unfold pagerdutyWebhook at h
  obtain ⟨event, -, h⟩ := bind_eq_ok.1 h
  obtain ⟨eventType, -, h⟩ := bind_eq_ok.1 h
  obtain ⟨kind, hkind, h⟩ := bind_eq_ok.1 h
  cases kind with
  | none => cases h
  | some kind =>
      obtain ⟨data, -, h⟩ := bind_eq_ok.1 h
      obtain ⟨incidentId, -, h⟩ := bind_eq_ok.1 h
      obtain ⟨-, -, h⟩ := bind_eq_ok.1 h
      obtain ⟨agent, -, h⟩ := bind_eq_ok.1 h
      obtain ⟨id, -, h⟩ := bind_eq_ok.1 h
      obtain ⟨actor, -, h⟩ := bind_eq_ok.1 h
      obtain rfl := Except.ok.inj h
      exact ⟨rfl, kind_of_lookup (by decide) (by simp [pagerdutyKinds]) hkind, _, rfl⟩

omit [Field K] [LinearOrder K] in
/-- What a request asks for is an action of its route. -/
theorem read_ofRoute {a : CallbackAction} (h : q.read rt db = .ok a) :
    OfRoute q.route a.provider a.kind a.inboundId := by
  unfold Callback.read at h
  cases hroute : q.route with
  | slackInteractions =>
      rw [hroute] at h
      dsimp only at h
      split at h
      · cases h
      · exact slackInteraction_ofRoute h
  | pagerdutyWebhooks =>
      rw [hroute] at h
      dsimp only at h
      split at h
      · cases h
      · split at h
        · cases h
        · exact pagerdutyWebhook_ofRoute h

/-- A request that was signed by the provider of its route, at most the replay window ago. -/
def Callback.Signed (rt : CallbackRuntime K) (q : Callback K) : Prop :=
  match q.route with
  | .slackInteractions => SlackSigned rt q.timestamp q.signature q.body q.current
  | .pagerdutyWebhooks => PagerdutySigned rt q.signature q.body

theorem verify_eq_ok : q.verify rt = .ok () ↔ q.Signed rt := by
  unfold Callback.verify Callback.Signed
  cases q.route with
  | slackInteractions => exact verifySlack_eq_ok
  | pagerdutyWebhooks => exact verifyPagerduty_eq_ok

/-- **An action of a signed request**: of the provider that signed it, with the digest of its body. -/
structure SignedAction (rt : CallbackRuntime K) (q : Callback K) (action : ExternalAction) : Prop where
  signed : q.Signed rt
  ofRoute : OfRoute q.route action.provider action.kind action.inboundId
  digest : action.payloadSha256 = rt.sha256Bytes q.body

omit [Field K] [LinearOrder K] in
/-- Binding the values of an action keeps the rest of it. -/
theorem bind_eq_some {a : CallbackAction} {body : List UInt8} {action : ExternalAction}
    (h : a.bind rt body = some action) : action.provider = a.provider ∧ action.kind = a.kind ∧
      action.inboundId = a.inboundId ∧ action.payloadSha256 = rt.sha256Bytes body := by
  unfold CallbackAction.bind at h
  obtain ⟨incidentId, -, h⟩ := Option.bind_eq_some_iff.1 h
  obtain ⟨actor, -, h⟩ := Option.bind_eq_some_iff.1 h
  obtain rfl := Option.some.inj h
  exact ⟨rfl, rfl, rfl, rfl⟩

/-- **One request**: it leaves the database alone, or commits the action it was signed for, whose
inbound id is new. -/
theorem serveCallback_cases (q : Callback K) (db : Database K) : (serveCallback rt q db).2 = db ∨
    ∃ action, SignedAction rt q action ∧ alreadySeen action.inboundId db = false ∧
      (applyInbound rt.toRuntime (q.attempt action) db).1.isSome = true ∧
      (serveCallback rt q db).2 = (applyInbound rt.toRuntime (q.attempt action) db).2 := by
  unfold serveCallback
  split_ifs
  · exact .inl rfl
  · split
    · exact .inl rfl
    · exact .inl rfl
    · next hverify =>
        split
        · exact .inl rfl
        · next a hread =>
            unfold applyCallback
            split
            · next action hbind =>
                obtain ⟨hprovider, hkind, hid, hdigest⟩ := bind_eq_some hbind
                have hsigned : SignedAction rt q action :=
                  ⟨verify_eq_ok.1 hverify, by rw [hprovider, hkind, hid]; exact read_ofRoute hread, hdigest⟩
                cases hseen : alreadySeen action.inboundId db with
                | true => exact .inl (inbound_receipts.repeats (q.attempt action) db hseen)
                | false =>
                    rcases @applyInbound_cases _ _ _ rt.toRuntime db (q.attempt action) with
                      ⟨result, db', heq, -⟩ | heq
                    · exact .inr ⟨action, hsigned, hseen, by rw [heq]; rfl, rfl⟩
                    · exact .inl (by rw [heq])
            · split_ifs
              · exact .inl rfl
              · exact .inl rfl

theorem serveCallbacks_cons (calls : List (Callback K)) :
    serveCallbacks rt (q :: calls) db = serveCallbacks rt calls (serveCallback rt q db).2 := rfl

/-- **Nothing but signed actions changes the database**: whatever requests arrive, in any order, the
database is the one that the actions of some of them leave; those requests were signed by the
provider the action is attributed to, and no two of the actions share an inbound id, nor has one of
them been seen before. -/
theorem callbacks_are_signed_actions (rt : CallbackRuntime K) (db : Database K) (calls : List (Callback K)) :
    ∃ served : List (Callback K × ExternalAction),
      (served.map Prod.fst).Sublist calls ∧ (∀ s ∈ served, SignedAction rt s.1 s.2) ∧
      (served.map fun s => s.2.inboundId).Nodup ∧
      (∀ s ∈ served, alreadySeen s.2.inboundId db = false) ∧
      serveAll (applyInbound rt.toRuntime) (served.map fun s => s.1.attempt s.2) db =
        serveCallbacks rt calls db := by
  induction calls generalizing db with
  | nil => exact ⟨[], List.Sublist.refl _, List.forall_mem_nil _, List.nodup_nil, List.forall_mem_nil _, rfl⟩
  | cons q calls ih =>
      rcases @serveCallback_cases _ _ _ rt q db with hsame | ⟨action, hsigned, hnew, hcommits, heq⟩
      · obtain ⟨served, hsub, hrest⟩ := ih db
        rw [serveCallbacks_cons, hsame]
        exact ⟨served, hsub.cons q, hrest⟩
      · obtain ⟨served, hsub, hall, hnodup, hunseen, hrun⟩ := ih (serveCallback rt q db).2
        have hreceipts := @inbound_receipts _ _ _ rt.toRuntime
        -- the receipt of the action is there for the rest of the requests
        have hleft : alreadySeen action.inboundId (serveCallback rt q db).2 = true :=
          heq ▸ hreceipts.left (q.attempt action) db hcommits
        have hbefore : ∀ s ∈ served, alreadySeen s.2.inboundId db = false := by
          intro s hs
          by_contra hseen
          have hkept := hreceipts.kept s.2.inboundId (q.attempt action) db (Bool.not_eq_false _ ▸ hseen)
          rw [← heq, hunseen s hs] at hkept
          cases hkept
        refine ⟨(q, action) :: served, hsub.cons_cons q, ?_, ?_, ?_, ?_⟩
        · exact List.forall_mem_cons.2 ⟨hsigned, hall⟩
        · refine List.nodup_cons.2 ⟨fun hmem => ?_, hnodup⟩
          obtain ⟨s, hs, hid⟩ := List.mem_map.1 hmem
          have hunseen := hunseen s hs
          rw [hid, hleft] at hunseen
          cases hunseen
        · exact List.forall_mem_cons.2 ⟨hnew, hbefore⟩
        · rw [List.map_cons, Library.serveAll_cons, ← heq, hrun, serveCallbacks_cons]

/-! ## Genuine clicks and webhooks -/

/-- The payload of a click on a button of a card. -/
structure SlackClick (payload : Json) (kind : ActionKind) (incidentId triggerId username : String) : Prop where
  shape : ∃ fields first more user actionId, payload = .obj fields ∧
    fields.lookup "actions" = some (.arr (.obj first :: more)) ∧
    first.lookup "action_id" = some (.str actionId) ∧ slackActionKinds.lookup actionId = some kind ∧
    first.lookup "value" = some (.str incidentId) ∧ fields.lookup "trigger_id" = some (.str triggerId) ∧
    fields.lookup "user" = some (.obj user) ∧ user.lookup "username" = some (.str username)
  incident : incidentId ≠ ""
  trigger : triggerId ≠ ""
  username : username ≠ ""

/-- The payload of a webhook about an incident, which it names by our key or by the handle that an
outbox row has kept. -/
structure PagerdutyEvent (db : Database K) (payload : Json) (eventType : String) (kind : ActionKind)
    (incidentId eventId agent : String) : Prop where
  shape : ∃ fields event data by_, payload = .obj fields ∧ fields.lookup "event" = some (.obj event) ∧
    event.lookup "event_type" = some (.str eventType) ∧ pagerdutyKinds.lookup eventType = some kind ∧
    event.lookup "data" = some (.obj data) ∧ event.lookup "id" = some (.str eventId) ∧
    event.lookup "agent" = some (.obj by_) ∧ by_.lookup "summary" = some (.str agent) ∧
    (data.lookup "dedup_key" = some (.str incidentId) ∨
      data.lookup "dedup_key" = none ∧ ∃ ref, data.lookup "id" = some (.str ref) ∧ ref ≠ "" ∧
        resolveIncidentIdFromRef .pagerduty ref db = some incidentId)
  incident : incidentId ≠ ""
  event : eventId ≠ ""
  agent : agent ≠ ""

omit [Field K] [LinearOrder K] in
theorem getField_obj {fields : List (String × Json)} {key : String} {v : Json}
    (h : fields.lookup key = some v) : getField key (.obj fields) = .ok v := by
  rw [getField, Json.get?_obj h]

theorem eitherOf_first {first second : String} {value : Json} {s : String}
    (h : getField first value = .ok (.str s)) (hs : s ≠ "") : eitherOf first second value = .ok (.str s) := by
  unfold eitherOf
  rw [h]
  change (if (Json.str s).truthy = true then _ else _) = _
  exact if_pos (decide_eq_true hs)

/-- The payload of a body is read back, however its writer escaped it. -/
theorem slackPayload_written {body : List UInt8} {json : String} {text rest : List Char}
    (hbody : body = utf8 ("payload".toList ++ '=' :: text ++ rest))
    (hwritten : FormWritten (utf8 json.toList) text) (hjson : json ≠ "")
    (hrest : rest = [] ∨ rest.head? = some '&') : slackPayload body = Json.loads json := by
  have hname : ∀ c ∈ "payload".toList, c.toNat < 128 ∧ c ∉ ['%', '+', '&', '='] :=
    forall_mem_of_all (by decide)
  have hvalue : json.toList ≠ [] := fun h => hjson (String.toList_eq_nil_iff.1 h)
  have hhead := Library.formFields_written hname hwritten hvalue hrest
  rw [slackPayload, hbody, Library.utf8Decode_utf8]
  cases hfields : formFields ("payload".toList ++ '=' :: text ++ rest) with
  | nil => rw [hfields] at hhead; cases hhead
  | cons f fs =>
      rw [hfields] at hhead
      obtain rfl := Option.some.inj hhead
      rw [List.lookup_cons_self, Option.getD_some, String.ofList_toList]

omit [Field K] [LinearOrder K] in
/-- A click is the action of its button. -/
theorem slackInteraction_click {payload : Json} {kind : ActionKind} {incidentId triggerId username : String}
    (h : SlackClick payload kind incidentId triggerId username) : slackInteraction rt payload =
      .ok ⟨"slack:" ++ triggerId, .slack, kind, .str incidentId, .str username, "slack interactive action"⟩ := by
  obtain ⟨fields, first, more, user, actionId, rfl, hactions, hid, hkind, hvalue, htrigger, huser, hname⟩ := h.shape
  have hread : kindOf slackActionKinds (.str actionId) = .ok (some kind) := congrArg _ hkind
  have hactor : eitherOf "username" "id" (.obj user) = .ok (.str username) :=
    eitherOf_first (getField_obj hname) h.username
  have hsome : (Json.arr (.obj first :: more)).orElse (.arr []) = .arr (.obj first :: more) := rfl
  simp [slackInteraction, getField_obj, firstAction, hactions, hid, hvalue, htrigger, huser, hread, hactor, hsome,
    Json.truthy, raiseIf, Json.orElse_str h.incident, Json.orElse_str h.trigger, h.incident,
    CallbackRuntime.format, bind, Except.bind, pure, Except.pure]

omit [Field K] [LinearOrder K] in
/-- The incident of a webhook, by our key or by the row that opened the page. -/
theorem pagerdutyIncident_found {data : List (String × Json)} {incidentId : String} (hincident : incidentId ≠ "")
    (h : data.lookup "dedup_key" = some (.str incidentId) ∨
      data.lookup "dedup_key" = none ∧ ∃ ref, data.lookup "id" = some (.str ref) ∧ ref ≠ "" ∧
        resolveIncidentIdFromRef .pagerduty ref db = some incidentId) :
    pagerdutyIncident rt (.obj data) db = .ok (.str incidentId) := by
  rcases h with hkey | ⟨hkey, ref, href, hsome, hfound⟩
  · have hid : getField "id" (.obj data) = .ok ((data.lookup "id").getD .null) := rfl
    simp [pagerdutyIncident, getField_obj hkey, hid, Json.orElse_str hincident, hincident, bind, Except.bind, pure,
      Except.pure]
  · have hnone : getField "dedup_key" (.obj data) = .ok .null := by rw [getField, Json.get?, hkey]; rfl
    have hempty : Json.null.orElse (.str "") = .str "" := rfl
    simp [pagerdutyIncident, getField_obj href, hnone, hempty, hsome, hfound, CallbackRuntime.format, bind,
      Except.bind, pure, Except.pure]

omit [Field K] [LinearOrder K] in
/-- A webhook is the action of its event. -/
theorem pagerdutyWebhook_event {payload : Json} {kind : ActionKind} {eventType incidentId eventId agent : String}
    (h : PagerdutyEvent db payload eventType kind incidentId eventId agent) : pagerdutyWebhook rt payload db =
      .ok ⟨"pagerduty:" ++ eventId, .pagerduty, kind, .str incidentId, .str agent, eventType⟩ := by
  obtain ⟨fields, event, data, by_, rfl, hevent, htype, hkind, hdata, hid, hagent, hsummary, hnamed⟩ := h.shape
  have hread : kindOf pagerdutyKinds (.str eventType) = .ok (some kind) := congrArg _ hkind
  have hactor : eitherOf "summary" "id" (.obj by_) = .ok (.str agent) :=
    eitherOf_first (getField_obj hsummary) h.agent
  have hincident : pagerdutyIncident rt (.obj data) db = .ok (.str incidentId) :=
    pagerdutyIncident_found h.incident hnamed
  simp [pagerdutyWebhook, getField_obj, hevent, htype, hdata, hid, hagent, hread, hactor, hincident, raiseIf,
    Json.orElse_str h.event, h.incident, CallbackRuntime.format, bind, Except.bind, pure, Except.pure]

omit [Field K] [LinearOrder K] in
/-- The text of a JSON object that opens with a key is read back. -/
theorem jsonText_utf8 {json : String} (h : ['\x7b', '"'] <+: json.toList) :
    jsonText rt (utf8 json.toList) = some json.toList := by
  obtain ⟨rest, hrest⟩ := h
  have hbytes : utf8 json.toList = 0x7B :: 0x22 :: utf8 rest := by
    rw [← hrest, Library.utf8_append]
    rfl
  have hmark : ¬ ([0xEF, 0xBB, 0xBF] : List UInt8) <+: utf8 json.toList := by
    rw [hbytes]
    exact fun hprefix => absurd (List.cons_prefix_cons.1 hprefix).1 (by decide)
  have hwide : wideEncoded (utf8 json.toList) = false := by
    rw [hbytes]
    rcases utf8 rest with _ | ⟨a, _ | ⟨b, bytes⟩⟩
    · rfl
    · rfl
    · rfl
  rw [jsonText, hwide, if_neg Bool.false_ne_true, if_neg hmark, Library.utf8DecodeStrict_utf8]

/-- A verified request that asks for an action is answered with what becomes of it. -/
theorem serveCallback_read {a : CallbackAction} {action : ExternalAction}
    (hsize : q.body.length ≤ maxCallbackBytes) (hsigned : q.Signed rt) (hread : q.read rt db = .ok a)
    (hbind : a.bind rt q.body = some action) : serveCallback rt q db =
      ((applyInbound rt.toRuntime (q.attempt action) db).1.elim .raised fun r => .applied r.status a.incidentId,
        (applyInbound rt.toRuntime (q.attempt action) db).2) := by
  rw [serveCallback, if_neg (not_lt.2 hsize), verify_eq_ok.2 hsigned]
  dsimp only
  rw [hread]
  dsimp only
  rw [applyCallback, hbind]

/-- A deployment and the digests of the one body it is sent. -/
def CallbackRuntime.sample (digest bodyDigest : String) (h : isAscii digest = true) : CallbackRuntime ℚ :=
  { Runtime.reference with
    slackSigningSecret := "8f742231b10e"
    pagerdutyWebhookSecret := "8f742231b10e"
    hmacSha256 := fun _ _ => digest
    hmac_ascii := fun _ _ => h
    sha256Bytes := fun _ => bodyDigest
    str := fun _ => ""
    column := fun _ => none
    decodeWide := fun _ => none }

/-- The payload of a click on a card's first button. -/
def clickPayload : Json :=
  .obj [("actions", .arr [.obj [("action_id", .str "acknowledge_incident"), ("value", .str "9b2f6f0e")]]),
    ("trigger_id", .str "133.73.80"), ("user", .obj [("username", .str "ana")])]

/-- The click, read two seconds after Slack has signed it. -/
def clickSent : Callback ℚ where
  route := .slackInteractions
  timestamp := "1767225600"
  signature := "v0=4b858bcfeaea7b0ef75003cb31d43177eb0dc554f56de29b18ac8572b01caf0f"
  body := utf8 ("payload".toList ++ '=' :: Library.quotePlus (utf8 (Json.dumps true clickPayload).toList) ++ [])
  current := 1767225602
  freshEventId := "e1"
  now := 1767225602000
  getsThrough := true

/-- A mapping of texts is well formed. -/
theorem wellFormed_texts {fields : List (String × String)} (h : (fields.map Prod.fst).Nodup) :
    Json.WellFormed (.obj (fields.map fun f => (f.1, .str f.2))) := by
  refine .obj ?_ fun f hf => ?_
  · rw [List.map_map]
    exact h
  · obtain ⟨g, -, rfl⟩ := List.mem_map.1 hf
    exact .str g.2

theorem clickPayload_wellFormed : Json.WellFormed clickPayload := by
  have hbutton := @wellFormed_texts [("action_id", "acknowledge_incident"), ("value", "9b2f6f0e")] (by decide)
  have huser := @wellFormed_texts [("username", "ana")] (by decide)
  refine .obj (by decide) ?_
  simp only [List.forall_mem_cons]
  exact ⟨.arr fun x hx => List.mem_singleton.1 hx ▸ hbutton, .str _, huser, nofun⟩

/-- The payload of a webhook. -/
def webhookPayload : Json :=
  .obj [("event", .obj [("agent", .obj [("summary", .str "Ana")]),
    ("data", .obj [("dedup_key", .str "9b2f6f0e"), ("id", .str "PGR0VU2")]),
    ("event_type", .str "incident.resolved"), ("id", .str "01CH754SM1")])]

/-- The webhook, signed under the new and the old secret. -/
def webhookSent : Callback ℚ where
  route := .pagerdutyWebhooks
  signature := "v1=00ff, v1=553dabc99e839954494b090e7b5bf0dbc76a731f1ee8551a551667bd8a8b7f7f"
  body := utf8 (Json.dumps true webhookPayload).toList
  current := 0
  freshEventId := "e1"
  now := 1767225602000
  getsThrough := true

theorem webhookPayload_wellFormed : Json.WellFormed webhookPayload := by
  have hagent := @wellFormed_texts [("summary", "Ana")] (by decide)
  have hdata := @wellFormed_texts [("dedup_key", "9b2f6f0e"), ("id", "PGR0VU2")] (by decide)
  refine .obj (by decide) fun f hf => List.mem_singleton.1 hf ▸ .obj (by decide) ?_
  simp only [List.forall_mem_cons]
  exact ⟨hagent, hdata, .str _, .str _, nofun⟩

end PulseGraph
