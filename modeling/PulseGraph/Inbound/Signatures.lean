/-
# Signatures of the callbacks

`src/inbound/signatures.py`: the callback endpoints are public, so a request is read only when it
carries a digest of its body under the provider's secret, and for Slack the instant it was signed
at, at most `SLACK_REPLAY_WINDOW_SECONDS` from now.  The digests are parameters: what is used of
them is that a hexadecimal digest is an ASCII text, which `compare_digest` needs.

**Proved here.**  The verifiers accept exactly the signed requests (`verifySlack_eq_ok`,
`verifyPagerduty_eq_ok`).
-/

import PulseGraph.GitHub.Payload
import PulseGraph.Ingest.Auth
import PulseGraph.Library.FormText

namespace PulseGraph

open Library (Json utf8)

variable {K : Type} [Field K] [LinearOrder K]

/-- A deployment whose callback endpoints are reachable: the secrets, the digests over bytes, and
what Python and SQLite make of a JSON value that is no text. -/
structure CallbackRuntime (K : Type) extends Runtime K where
  slackSigningSecret : String := ""
  pagerdutyWebhookSecret : String := ""
  /-- `hmac.new(key, message, hashlib.sha256).hexdigest()`. -/
  hmacSha256 : List UInt8 → List UInt8 → String
  hmac_ascii : ∀ key message, isAscii (hmacSha256 key message) = true
  /-- `hashlib.sha256(data).hexdigest()`. -/
  sha256Bytes : List UInt8 → String
  /-- `str(value)` of a value that is no text. -/
  str : Json → String
  /-- What a text column holds of a value that is no text; an array or a mapping cannot be bound. -/
  column : Json → Option String
  /-- The text of a JSON document in UTF-16 or UTF-32. -/
  decodeWide : List UInt8 → Option (List Char)

/-- `SignatureError`, or the `TypeError` and `OverflowError` nobody catches. -/
inductive SignatureFailure where
  | signatureError (reason : String)
  | raised
  deriving DecidableEq

/-- `hmac.compare_digest` of two texts: they have to be ASCII. -/
def compareDigest (a b : String) : Except SignatureFailure Bool :=
  if isAscii a && isAscii b then .ok (a = b) else .error .raised

/-- `SLACK_REPLAY_WINDOW_SECONDS`. -/
def slackReplayWindowSeconds : ℕ := 300

/-- The least integer that is no `float`. -/
def floatLimit : ℤ := 2 ^ 1024 - 2 ^ 970

section Verify

variable (rt : CallbackRuntime K)

/-- What Slack signs: `v0:{timestamp}:{body}`. -/
def slackBasestring (timestamp : String) (body : List UInt8) : List UInt8 :=
  utf8 ("v0:" ++ timestamp ++ ":").toList ++ body

/-- The signature Slack sends. -/
def slackSignature (timestamp : String) (body : List UInt8) : String :=
  "v0=" ++ rt.hmacSha256 (utf8 rt.slackSigningSecret.toList) (slackBasestring timestamp body)

/-- The digest PagerDuty sends. -/
def pagerdutyDigest (body : List UInt8) : String :=
  rt.hmacSha256 (utf8 rt.pagerdutyWebhookSecret.toList) body

/-- `verify_slack`, at the instant `current` in seconds. -/
def verifySlack (timestamp signature : String) (body : List UInt8) (current : K) :
    Except SignatureFailure Unit :=
  if rt.slackSigningSecret = "" then .error (.signatureError "slack signing secret is not configured")
  else if timestamp = "" ∨ signature = "" then .error (.signatureError "missing slack signature headers")
  else match GitHub.int? rt.toRuntime (.str timestamp) with
    | none => .error (.signatureError "malformed slack timestamp")
    | some sentAt =>
        if floatLimit ≤ |sentAt| then .error .raised
        else if (slackReplayWindowSeconds : K) < |current - sentAt| then
          .error (.signatureError "slack timestamp outside replay window")
        else do
          if ← compareDigest (slackSignature rt timestamp body) signature then .ok ()
          else .error (.signatureError "slack signature mismatch")

/-- The candidates of a PagerDuty header, of which any may match. -/
def anyCandidate (expected : String) : List String → Except SignatureFailure Unit
  | [] => .error (.signatureError "pagerduty signature mismatch")
  | candidate :: rest =>
      if !(['v', '1', '='].isPrefixOf candidate.toList) then anyCandidate expected rest
      else do
        if ← compareDigest (String.ofList (candidate.toList.drop 3)) expected then .ok ()
        else anyCandidate expected rest

/-- The signatures a PagerDuty header lists. -/
def signatureCandidates (header : String) : List String :=
  (header.toList.splitOn ',').map fun candidate => rt.strip (String.ofList candidate)

/-- `verify_pagerduty`. -/
def verifyPagerduty (header : String) (body : List UInt8) : Except SignatureFailure Unit :=
  if rt.pagerdutyWebhookSecret = "" then
    .error (.signatureError "pagerduty webhook secret is not configured")
  else if header = "" then .error (.signatureError "missing pagerduty signature header")
  else anyCandidate (pagerdutyDigest rt body) (signatureCandidates rt header)

/-- A request Slack has signed within the replay window. -/
def SlackSigned (timestamp signature : String) (body : List UInt8) (current : K) : Prop :=
  rt.slackSigningSecret ≠ "" ∧ timestamp ≠ "" ∧ signature = slackSignature rt timestamp body ∧
    ∃ sentAt, GitHub.int? rt.toRuntime (.str timestamp) = some sentAt ∧ |sentAt| < floatLimit ∧
      |current - sentAt| ≤ slackReplayWindowSeconds

/-- One of the candidates is the digest, and none before it keeps the comparison from being made. -/
def Lists (expected : String) (listed : List String) : Prop :=
  ∃ before after, listed = before ++ ("v1=" ++ expected) :: after ∧
    ∀ candidate ∈ before, ['v', '1', '='] <+: candidate.toList → isAscii candidate = true

/-- A request PagerDuty has signed. -/
def PagerdutySigned (header : String) (body : List UInt8) : Prop :=
  rt.pagerdutyWebhookSecret ≠ "" ∧ header ≠ "" ∧
    Lists (pagerdutyDigest rt body) (signatureCandidates rt header)

end Verify

variable {rt : CallbackRuntime K}

theorem isAscii_append {s t : String} : isAscii (s ++ t) = (isAscii s && isAscii t) := by
  unfold isAscii
  rw [String.toList_append, List.all_append]

omit [Field K] [LinearOrder K] in
theorem slackSignature_ascii {timestamp : String} {body : List UInt8} :
    isAscii (slackSignature rt timestamp body) = true := by
  rw [slackSignature, isAscii_append, rt.hmac_ascii]
  rfl

/-- What is accepted after a comparison was compared equal, or is accepted otherwise. -/
theorem compareDigest_accepts {a b : String} {after : Except SignatureFailure Unit}
    (h : (do if ← compareDigest a b then .ok () else after) = Except.ok ()) (hafter : after ≠ .ok ()) :
    a = b := by
  unfold compareDigest at h
  split_ifs at h
  · by_contra hne
    rw [decide_eq_false hne] at h
    exact hafter h
  · cases h

/-- A comparison that is made lets equal digests pass, and goes on otherwise. -/
theorem compareDigest_eq_ok {a b : String} {after : Except SignatureFailure Unit} (hb : isAscii b = true) :
    (do if ← compareDigest a b then .ok () else after) = Except.ok () ↔
      a = b ∨ isAscii a = true ∧ after = .ok () := by
  unfold compareDigest
  rw [hb, Bool.and_true]
  cases ha : isAscii a with
  | false =>
      refine ⟨fun h => ?_, ?_⟩
      · cases h
      rintro (rfl | ⟨h, -⟩)
      · exact absurd (ha.symm.trans hb) Bool.false_ne_true
      · exact absurd h Bool.false_ne_true
  | true =>
      by_cases hsame : a = b
      · exact ⟨fun _ => .inl hsame, fun _ => by rw [decide_eq_true hsame]; rfl⟩
      · rw [decide_eq_false hsame]
        exact ⟨fun h => .inr ⟨rfl, h⟩, fun h => (h.resolve_left hsame).2⟩

/-- **`verify_slack` accepts exactly what Slack has signed within the window.** -/
theorem verifySlack_eq_ok {timestamp signature : String} {body : List UInt8} {current : K} :
    verifySlack rt timestamp signature body current = .ok () ↔
      SlackSigned rt timestamp signature body current := by
  unfold verifySlack SlackSigned
  constructor
  · intro h
    split_ifs at h with hsecret hheaders
    split at h
    · cases h
    · next sentAt hsentAt =>
        split_ifs at h with hfloat hwindow
        rw [not_or] at hheaders
        refine ⟨hsecret, hheaders.1, ?_, sentAt, hsentAt, not_le.1 hfloat, not_lt.1 hwindow⟩
        exact (compareDigest_accepts h (by simp)).symm
  · rintro ⟨hsecret, htimestamp, rfl, sentAt, hsentAt, hfloat, hwindow⟩
    have hsome : slackSignature rt timestamp body ≠ "" := by
      intro hempty
      have hlen := congrArg (fun s : String => s.toList.length) hempty
      simp [slackSignature, String.toList_append] at hlen
    rw [if_neg hsecret, if_neg (not_or.2 ⟨htimestamp, hsome⟩), hsentAt]
    dsimp only
    rw [if_neg (not_le.2 hfloat), if_neg (not_lt.2 hwindow), compareDigest_eq_ok slackSignature_ascii]
    exact .inl rfl

/-- The candidate that is the digest is the first one, or stands behind one that can be compared. -/
theorem lists_cons {expected candidate : String} {rest : List String} : Lists expected (candidate :: rest) ↔
    candidate = "v1=" ++ expected ∨
      (['v', '1', '='] <+: candidate.toList → isAscii candidate = true) ∧ Lists expected rest := by
  constructor
  · rintro ⟨before, after, heq, hbefore⟩
    rcases before with _ | ⟨first, before⟩
    · exact .inl (List.cons.inj heq).1
    · obtain ⟨rfl, rfl⟩ := List.cons.inj heq
      exact .inr ⟨hbefore _ List.mem_cons_self,
        before, after, rfl, fun c hc => hbefore c (List.mem_cons_of_mem _ hc)⟩
  · rintro (rfl | ⟨hfirst, before, after, rfl, hbefore⟩)
    · exact ⟨[], rest, rfl, fun c hc => absurd hc List.not_mem_nil⟩
    · refine ⟨candidate :: before, after, rfl, fun c hc => ?_⟩
      rcases List.mem_cons.1 hc with rfl | hc
      · exact hfirst
      · exact hbefore c hc

/-- A signature of another version is passed over. -/
theorem anyCandidate_other {expected candidate : String} {rest : List String}
    (h : ¬ ['v', '1', '='] <+: candidate.toList) :
    anyCandidate expected (candidate :: rest) = anyCandidate expected rest := by
  have hfalse : ['v', '1', '='].isPrefixOf candidate.toList = false := by
    rw [← Bool.not_eq_true, List.isPrefixOf_iff_prefix]
    exact h
  rw [anyCandidate, hfalse]
  rfl

/-- A signature of the version is compared. -/
theorem anyCandidate_version {expected digest : String} {rest : List String} :
    anyCandidate expected (("v1=" ++ digest) :: rest) =
      (do if ← compareDigest digest expected then .ok () else anyCandidate expected rest) := by
  have htext : ("v1=" ++ digest).toList = ['v', '1', '='] ++ digest.toList := String.toList_append
  have hdrop : (['v', '1', '='] ++ digest.toList).drop 3 = digest.toList := rfl
  rw [anyCandidate, htext, hdrop, String.ofList_toList, List.isPrefixOf_iff_prefix.2 (List.prefix_append _ _)]
  rfl

/-- **A list of candidates is accepted** if one of them is the digest and the comparison is reached. -/
theorem anyCandidate_eq_ok {expected : String} (hexpected : isAscii expected = true) {listed : List String} :
    anyCandidate expected listed = .ok () ↔ Lists expected listed := by
  induction listed with
  | nil => simp [anyCandidate, Lists]
  | cons candidate rest ih =>
      rw [lists_cons]
      by_cases hversion : ['v', '1', '='] <+: candidate.toList
      · obtain ⟨digest, hdigest⟩ := hversion
        obtain rfl : candidate = "v1=" ++ String.ofList digest := by
          rw [← @String.ofList_toList candidate, ← hdigest, String.ofList_append]
        have hsame : "v1=" ++ String.ofList digest = "v1=" ++ expected ↔ String.ofList digest = expected := by
          rw [← String.toList_inj, String.toList_append, String.toList_append, List.append_cancel_left_eq,
            String.toList_inj]
        have hascii : isAscii ("v1=" ++ String.ofList digest) = isAscii (String.ofList digest) := isAscii_append
        rw [anyCandidate_version, compareDigest_eq_ok hexpected, ih, hsame, hascii, ← hdigest]
        simp
      · have hne : candidate ≠ "v1=" ++ expected := by
          rintro rfl
          exact hversion (String.toList_append ▸ List.prefix_append _ _)
        rw [anyCandidate_other hversion, ih]
        simp [hversion, hne]

omit [Field K] [LinearOrder K] in
/-- **`verify_pagerduty` accepts exactly what PagerDuty has signed.** -/
theorem verifyPagerduty_eq_ok {header : String} {body : List UInt8} :
    verifyPagerduty rt header body = .ok () ↔ PagerdutySigned rt header body := by
  unfold verifyPagerduty PagerdutySigned
  split_ifs with hsecret hheader
  · simp [hsecret]
  · simp [hheader]
  · have hascii : isAscii (pagerdutyDigest rt body) = true := rt.hmac_ascii _ _
    rw [anyCandidate_eq_ok hascii]
    simp [hsecret, hheader]

end PulseGraph
