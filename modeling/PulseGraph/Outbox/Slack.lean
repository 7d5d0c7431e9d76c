/-
# The Slack channel

`src/outbox/slack.py`: the request an outbox row makes to Slack.  A `create` and a recovery
digest post a message of their own; an `update` or a `resolve` edits the message it has the
`ts` of, and posts one where it has none.  The blocks are kept as what they are rendered from.
-/

import PulseGraph.Contracts
import PulseGraph.Outbox.FailurePolicy
import PulseGraph.Outbox.Recovery

namespace PulseGraph

/-- The method of the Web API a request is for. -/
inductive SlackMethod where
  | postMessage | update
  deriving DecidableEq, Repr

/-- What the blocks of a message are rendered from. -/
inductive SlackBlocks where
  /-- `_build_digest_blocks` -/
  | digest (payload : Payload)
  /-- `_build_blocks` -/
  | card (payload : Payload) (resolved : Bool)

/-- The body of a request, without the channel's id. -/
structure SlackRequest where
  method : SlackMethod
  ts : Option String := none
  blocks : SlackBlocks
  text : String

/-- `send`, up to the request it posts. -/
def slackRequest (action : Action) (payload : Payload) (externalRef : Option String) :
    Except Exc SlackRequest :=
  if payload.digest.isSome then
    .ok { method := .postMessage, blocks := .digest payload, text := "Slack delivery restored" }
  else
    match action with
    | .create => .ok
        { method := .postMessage
          blocks := .card payload false
          text := payload.title.getD "New incident" }
    | .trigger => .error (.other "ValueError")
    | _ =>
        let blocks := SlackBlocks.card payload (action = .resolve)
        let text := payload.title.getD "Incident update"
        match truthy externalRef with
        | none => .ok { method := .postMessage, blocks := blocks, text := text }
        | some ts => .ok { method := .update, ts := some ts, blocks := blocks, text := text }

/-- **What a Slack request does**: it posts a message, or edits the one its row has the `ts` of. -/
theorem slackRequest_cases {action : Action} {payload : Payload} {externalRef : Option String}
    {req : SlackRequest} (h : slackRequest action payload externalRef = .ok req) :
    (req.method = .postMessage ∧ req.ts = none) ∨
      (req.method = .update ∧ req.ts = truthy externalRef ∧ ∃ ts, externalRef = some ts ∧ req.ts = some ts) := by
  have hedit : ∀ {blocks : SlackBlocks} {text : String},
      (match truthy externalRef with
        | none => Except.ok { method := .postMessage, blocks := blocks, text := text }
        | some ts => .ok { method := .update, ts := some ts, blocks := blocks, text := text } :
          Except Exc SlackRequest) = .ok req →
      (req.method = .postMessage ∧ req.ts = none) ∨
        (req.method = .update ∧ req.ts = truthy externalRef ∧ ∃ ts, externalRef = some ts ∧ req.ts = some ts) := by
    intro blocks text h
    split at h
    · obtain rfl := Except.ok.inj h
      exact .inl ⟨rfl, rfl⟩
    · next ts hts =>
        obtain rfl := Except.ok.inj h
        exact .inr ⟨rfl, hts.symm, ts, (Option.filter_eq_some_iff.1 hts).1, rfl⟩
  unfold slackRequest at h
  split_ifs at h
  · obtain rfl := Except.ok.inj h
    exact .inl ⟨rfl, rfl⟩
  · cases action with
    | create =>
        obtain rfl := Except.ok.inj h
        exact .inl ⟨rfl, rfl⟩
    | trigger => cases h
    | update => exact hedit h
    | resolve => exact hedit h

/-- A request that is no `create` edits the message it is given. -/
theorem slackRequest_edits {action : Action} {payload : Payload} {e : String} {req : SlackRequest}
    (h : slackRequest action payload (some e) = .ok req) (hd : payload.digest = none)
    (ha : action ≠ .create) (he : e ≠ "") : req.method = .update ∧ req.ts = some e := by
  have hts : truthy (some e) = some e := by simp [truthy, he]
  unfold slackRequest at h
  rw [if_neg (by simp [hd]), hts] at h
  cases action with
  | create => exact absurd rfl ha
  | trigger => cases h
  | update =>
      obtain rfl := Except.ok.inj h
      exact ⟨rfl, rfl⟩
  | resolve =>
      obtain rfl := Except.ok.inj h
      exact ⟨rfl, rfl⟩

end PulseGraph
