/-
# Grounded diagnoses

`DiagnosisService` and `safe_fallback` of `src/github_integration/diagnosis.py`.  The provider is any
function at all: it returns a `DiagnosisResult`, however that object was built, or some other object,
it raises, or it is cancelled.  What `model_dump` and the coercions of `model_validate` make of an
object is a function `dumped`, which may refuse it; the validators run on what it returns.

**Proved here.**  The service's check of grounding and the one of the local model accept a diagnosis
in the same case (`validateGrounding_eq_ok_iff`, `DiagnosisService.validateGrounding_eq_ok_iff`).
Unless it is cancelled the service returns a fallback or a grounded diagnosis (`diagnose_laws`).
-/

import PulseGraph.GitHub.PatchProposal

namespace PulseGraph
namespace GitHub

open Library (raiseIf raiseIf_eq_ok raiseIf_eq_error bind_eq_ok bind_eq_error forM_eq_ok forM_eq_error mapError_eq_ok
  mapError_ne)

variable {K : Type} {rt : Runtime K}

/-! ## Fallbacks -/

/-- The table `messages` of `safe_fallback`. -/
def fallbackMessages : FallbackReason → String × List String
  | .noSourceExcerpts =>
      ("No bounded source excerpts are available for this incident, so PulseGraph cannot ground a code diagnosis.",
        ["Create or select a pinned repository snapshot and bounded relevant excerpts.",
          "Review the incident timeline and logs before proposing a code change."])
  | .providerUnavailable =>
      ("A diagnosis provider is unavailable, so PulseGraph is withholding an unverified root-cause claim.",
        ["Retry diagnosis after the provider is healthy.",
          "Review the pinned source excerpts and incident evidence manually."])
  | .invalidProviderResult =>
      ("The diagnosis result was not grounded in the supplied snapshot, so PulseGraph did not surface it.",
        ["Retry with a provider that cites only the supplied excerpts.",
          "Ask an engineer to review the incident and pinned snapshot manually."])
  | .insufficientEvidence =>
      ("The supplied evidence is insufficient for a safe root-cause hypothesis.",
        ["Add bounded excerpts that cover the failing code path.",
          "Review logs, metrics, and the pinned snapshot with an engineer."])

/-- The `SafeFallback` of a reason. -/
def fallbackFor (reason : FallbackReason) : SafeFallback :=
  { reason := reason, message := (fallbackMessages reason).1, nextSteps := (fallbackMessages reason).2 }

/-- `safe_fallback`.  The validators that run when it is built leave it as it is
(`validate_safeFallback`). -/
def safeFallback (reason : FallbackReason) : DiagnosisResult :=
  { status := .fallback, provider := "safe-fallback", confidence := 0, fallback := some (fallbackFor reason) }

/-- The texts of a fallback have nothing to strip, and the name of its provider is in lower case. -/
structure LeavesFallbacks (rt : Runtime K) : Prop where
  strip : ∀ reason, ∀ text ∈ (fallbackMessages reason).1 :: (fallbackMessages reason).2, rt.strip text = text
  provider : rt.strip "safe-fallback" = "safe-fallback" ∧ rt.lower "safe-fallback" = "safe-fallback"

/-- The texts of a fallback are there, and within their bounds. -/
theorem fallbackMessages_fit (reason : FallbackReason) :
    ∀ text ∈ (fallbackMessages reason).1 :: (fallbackMessages reason).2,
      text ≠ "" ∧ text.length ≤ 1000 := by
  cases reason <;> decide +kernel

/-- **Every fallback passes its own validators**, unchanged. -/
theorem validate_safeFallback (laws : LeavesFallbacks rt) (reason : FallbackReason) :
    (safeFallback reason).validate rt = .ok (safeFallback reason) := by
  have hfit := fallbackMessages_fit reason
  have hmessage := hfit _ List.mem_cons_self
  have htext : ∀ text ∈ (fallbackMessages reason).2, requiredText rt text "fallback next step" 1000 = .ok text := by
    intro text htext
    have hmem := List.mem_cons_of_mem (fallbackMessages reason).1 htext
    exact requiredText_eq_ok.2 ⟨(laws.strip reason text hmem).symm, hfit text hmem⟩
  have hfallback : (fallbackFor reason).validate rt = .ok (fallbackFor reason) := by
    have hlength : (fallbackFor reason).message.length ≤ 2000 := hmessage.2.trans (by decide)
    refine SafeFallback.validate_eq_ok_iff.2 ⟨rfl, hlength, requiredText_eq_ok.2 ⟨?_, hmessage.1, hlength⟩, ?_, ?_,
      rfl, rfl⟩
    · exact (laws.strip reason _ List.mem_cons_self).symm
    · cases reason <;> decide
    · exact (Library.mapM_eq_pure htext).trans (congrArg Except.ok (List.map_id _))
  have hprovider : providerLabel rt "safe-fallback" = .ok "safe-fallback" := by
    refine bind_eq_ok.2 ⟨"safe-fallback", requiredText_eq_ok.2 ⟨laws.provider.1.symm, by decide, by decide⟩, ?_⟩
    rw [laws.provider.2]
    exact bind_eq_ok.2 ⟨(), by decide +kernel, rfl⟩
  have hlabel : "safe-fallback".length ≤ 64 := by decide
  refine DiagnosisResult.validate_eq_ok_iff.2 ⟨hlabel, hprovider, rfl, Nat.zero_le _, rfl, rfl, ⟨le_rfl, zero_le_one⟩,
    ?_, ⟨rfl, rfl⟩, rfl⟩
  exact bind_eq_ok.2 ⟨_, hfallback, rfl⟩

/-! ## What grounding means -/

/-- The evidence names a range of lines of the excerpt. -/
structure DiagnosisEvidence.Within (evidence : DiagnosisEvidence) (excerpt : DiagnosisSourceExcerpt) : Prop where
  filePath : evidence.filePath = some excerpt.filePath
  blobSha : evidence.blobSha = some excerpt.blobSha
  lines : ∃ startLine endLine, evidence.startLine = some startLine ∧ evidence.endLine = some endLine ∧
    excerpt.startLine ≤ startLine ∧ startLine ≤ endLine ∧ endLine ≤ excerpt.endLine

/-- **A grounded diagnosis**: it cites source, it cites only what was supplied, and it proposes to
change only files that were supplied. -/
structure Grounded (request : DiagnosisRequest) (result : DiagnosisResult) : Prop where
  status : result.status = .diagnosed
  cites : ∃ evidence ∈ result.evidence, evidence.kind = .sourceExcerpt
  within : ∀ evidence ∈ result.evidence, evidence.kind = .sourceExcerpt →
    ∃ excerpt ∈ request.excerpts, evidence.Within excerpt
  proposes : result.proposedFix.isSome = true
  paths : ∀ path ∈ result.affectedPaths, ∃ excerpt ∈ request.excerpts, path = excerpt.filePath

section Checks

variable {request : DiagnosisRequest} {result : DiagnosisResult} {evidence : DiagnosisEvidence}
  {excerpt : DiagnosisSourceExcerpt}

theorem evidenceWithinExcerpt_iff : evidenceWithinExcerpt evidence excerpt = true ↔ evidence.Within excerpt := by
  unfold evidenceWithinExcerpt
  constructor
  · intro h
    split at h
    · next startLine endLine hstart hend =>
        simp only [Bool.and_eq_true, beq_iff_eq, decide_eq_true_eq] at h
        obtain ⟨⟨hpath, hsha⟩, hlines⟩ := h
        exact ⟨hpath, hsha, startLine, endLine, hstart, hend, hlines⟩
    · cases h
  · rintro ⟨hpath, hsha, startLine, endLine, hstart, hend, hlines⟩
    simp only [hstart, hend, hpath, hsha, beq_self_eq_true, Bool.and_self, decide_eq_true hlines]

/-- What both checks ask of a result that is diagnosed. -/
theorem grounded_iff (hstatus : result.status = .diagnosed) : Grounded request result ↔
    (¬ (result.evidence.filter fun evidence => evidence.kind = .sourceExcerpt).isEmpty = true) ∧
    (∀ evidence ∈ result.evidence.filter fun evidence => evidence.kind = .sourceExcerpt,
      ∃ excerpt ∈ request.excerpts, evidence.Within excerpt) ∧
    (¬ result.proposedFix.isNone = true) ∧
    (¬ ∃ path ∈ result.affectedPaths, path ∉ request.excerpts.map (·.filePath)) := by
  have hcites : (¬ (result.evidence.filter fun evidence => evidence.kind = .sourceExcerpt).isEmpty = true) ↔
      ∃ evidence ∈ result.evidence, evidence.kind = .sourceExcerpt := by
    simp
  have hproposes : (¬ result.proposedFix.isNone = true) ↔ result.proposedFix.isSome = true := by
    cases result.proposedFix <;> simp
  have hpaths : (¬ ∃ path ∈ result.affectedPaths, path ∉ request.excerpts.map (·.filePath)) ↔
      ∀ path ∈ result.affectedPaths, ∃ excerpt ∈ request.excerpts, path = excerpt.filePath := by
    push Not
    simp only [List.mem_map, eq_comm]
  rw [hcites, hproposes, hpaths]
  simp only [List.mem_filter, decide_eq_true_eq]
  constructor
  · intro h
    exact ⟨h.cites, fun evidence hmem => h.within evidence hmem.1 hmem.2, h.proposes, h.paths⟩
  · rintro ⟨cites, within, proposes, paths⟩
    exact ⟨hstatus, cites, fun evidence hmem hkind => within evidence ⟨hmem, hkind⟩, proposes, paths⟩

/-- **The check of the local model** accepts exactly the grounded diagnoses. -/
theorem validateGrounding_eq_ok_iff : validateGrounding request result = .ok () ↔ Grounded request result := by
  by_cases hstatus : result.status = .diagnosed
  · have hwithin : ∀ evidence, request.excerpts.any (evidenceWithinExcerpt evidence) = true ↔
        ∃ excerpt ∈ request.excerpts, evidence.Within excerpt := by
      intro evidence
      simp only [List.any_eq_true, evidenceWithinExcerpt_iff]
    rw [grounded_iff hstatus]
    simp only [validateGrounding, bind_eq_ok, raiseIf_eq_ok, forM_eq_ok, hwithin, not_not, hstatus, exists_and_left,
      exists_const, true_and, ne_eq]
  · refine iff_of_false (fun h => ?_) fun h => hstatus h.status
    obtain ⟨_, hraise, -⟩ := bind_eq_ok.1 h
    exact raiseIf_eq_ok.1 hraise hstatus

end Checks

/-! ## The service -/

/-- `_evidence_within_excerpt` of `diagnosis.py`, which asserts what the local model's asks. -/
def DiagnosisService.evidenceWithinExcerpt (evidence : DiagnosisEvidence) (excerpt : DiagnosisSourceExcerpt) :
    Except GroundingError Bool :=
  match evidence.filePath, evidence.blobSha, evidence.startLine, evidence.endLine with
  | some filePath, some blobSha, some startLine, some endLine =>
      .ok (filePath == excerpt.filePath && blobSha == excerpt.blobSha &&
        decide (excerpt.startLine ≤ startLine ∧ startLine ≤ endLine ∧ endLine ≤ excerpt.endLine))
  | _, _, _, _ => .error .assertion

/-- `any(_evidence_within_excerpt(evidence, excerpt) for excerpt in excerpts)`, up to the first that is
true. -/
def DiagnosisService.anyWithin (evidence : DiagnosisEvidence) :
    List DiagnosisSourceExcerpt → Except GroundingError Bool
  | [] => .ok false
  | excerpt :: rest => do
      if ← DiagnosisService.evidenceWithinExcerpt evidence excerpt then return true
      DiagnosisService.anyWithin evidence rest

/-- `DiagnosisService._validate_grounding`; the type of a status leaves no third one. -/
def DiagnosisService.validateGrounding (request : DiagnosisRequest) (result : DiagnosisResult) :
    Except GroundingError Unit :=
  match result.status with
  | .fallback => return ()
  | .diagnosed => do
      let sourceEvidence := result.evidence.filter fun evidence => evidence.kind = .sourceExcerpt
      raiseIf (sourceEvidence.isEmpty = true) (.contract "diagnosed result must cite a source excerpt")
      sourceEvidence.forM fun evidence => do
        let within ← DiagnosisService.anyWithin evidence request.excerpts
        raiseIf (within = false) (.contract "source evidence does not belong to a supplied excerpt")
      raiseIf (result.proposedFix.isNone = true) .assertion
      raiseIf (∃ path ∈ result.affectedPaths, path ∉ request.excerpts.map (·.filePath))
        (.contract "proposed fix references a path outside supplied excerpts")

/-- What a provider hands back: an object of the class `DiagnosisResult`, or another one. -/
inductive ProviderValue (α : Type) where
  | result (object : α)
  | other

/-- How the call of a provider ends. -/
inductive ProviderOutcome (α : Type) where
  | returned (value : ProviderValue α)
  /-- An `Exception`. -/
  | raised
  /-- `asyncio.CancelledError`, which is no `Exception`. -/
  | cancelled

/-- What can escape `DiagnosisService.diagnose`. -/
inductive ServiceError where
  | cancelled
  | assertion
  deriving DecidableEq, Repr

/-- `DiagnosisService` as it is built: the name of its provider, if it has one, passed `_provider_label`. -/
structure DiagnosisService (rt : Runtime K) where
  providerName : Option String
  labelled : ∀ name, providerName = some name → ∃ value, providerLabel rt value = .ok name

/-- `DiagnosisService.__init__`. -/
def DiagnosisService.new (rt : Runtime K) (provider : Option String) : Except String (DiagnosisService rt) :=
  match provider with
  | none => .ok ⟨none, nofun⟩
  | some value =>
      match h : providerLabel rt value with
      | .error e => .error e
      | .ok name => .ok ⟨some name, fun _ heq => ⟨value, Option.some.inj heq ▸ h⟩⟩

namespace DiagnosisService

variable {α : Type}

/-- The second `try` of `diagnose`. -/
def accept (rt : Runtime K) (dumped : α → Except String DiagnosisResult) (request : DiagnosisRequest) (object : α) :
    Except GroundingError DiagnosisResult := do
  let read ← (dumped object).mapError .contract
  let validatedResult ← (read.validate rt).mapError .contract
  DiagnosisService.validateGrounding request validatedResult
  return validatedResult

/-- `DiagnosisService.diagnose`. -/
def diagnose (service : DiagnosisService rt) (dumped : α → Except String DiagnosisResult)
    (provider : DiagnosisRequest → ProviderOutcome α) (request : DiagnosisRequest) :
    Except ServiceError DiagnosisResult :=
  if request.excerpts.isEmpty then .ok (safeFallback .noSourceExcerpts)
  else match service.providerName with
    | none => .ok (safeFallback .providerUnavailable)
    | some name =>
        match provider request with
        | .cancelled => .error .cancelled
        | .raised => .ok (safeFallback .providerUnavailable)
        | .returned .other => .ok (safeFallback .invalidProviderResult)
        | .returned (.result object) =>
            match accept rt dumped request object with
            | .ok validatedResult => .ok { validatedResult with provider := name }
            | .error (.contract _) => .ok (safeFallback .invalidProviderResult)
            | .error .assertion => .error .assertion

variable {request : DiagnosisRequest} {result : DiagnosisResult} {evidence : DiagnosisEvidence}
  {excerpts : List DiagnosisSourceExcerpt}

/-- Evidence with a complete location is asked after as the local model does. -/
theorem anyWithin_of_located {filePath blobSha : String} {startLine endLine : ℤ}
    (hpath : evidence.filePath = some filePath) (hsha : evidence.blobSha = some blobSha)
    (hstart : evidence.startLine = some startLine) (hend : evidence.endLine = some endLine) :
    anyWithin evidence excerpts = .ok (excerpts.any (GitHub.evidenceWithinExcerpt evidence)) := by
  have hone : ∀ excerpt, DiagnosisService.evidenceWithinExcerpt evidence excerpt =
      .ok (GitHub.evidenceWithinExcerpt evidence excerpt) := by
    intro excerpt
    simp only [DiagnosisService.evidenceWithinExcerpt, GitHub.evidenceWithinExcerpt, hpath, hsha, hstart, hend,
      Option.some_beq_some]
  induction excerpts with
  | nil => rfl
  | cons excerpt rest ih =>
      rw [anyWithin, hone, List.any_cons]
      cases GitHub.evidenceWithinExcerpt evidence excerpt with
      | true => rfl
      | false => exact ih

/-- Evidence that is found to lie within an excerpt has a complete location. -/
theorem located_of_evidenceWithinExcerpt {excerpt : DiagnosisSourceExcerpt} {within : Bool}
    (h : DiagnosisService.evidenceWithinExcerpt evidence excerpt = .ok within) :
    ∃ filePath blobSha startLine endLine, evidence.filePath = some filePath ∧ evidence.blobSha = some blobSha ∧
      evidence.startLine = some startLine ∧ evidence.endLine = some endLine := by
  unfold DiagnosisService.evidenceWithinExcerpt at h
  split at h
  · next filePath blobSha startLine endLine hpath hsha hstart hend =>
      exact ⟨filePath, blobSha, startLine, endLine, hpath, hsha, hstart, hend⟩
  · cases h

/-- **Some excerpt is found** exactly when one holds the evidence; an assertion that fails says that
none does. -/
theorem anyWithin_eq_true_iff :
    anyWithin evidence excerpts = .ok true ↔ ∃ excerpt ∈ excerpts, evidence.Within excerpt := by
  constructor
  · intro h
    cases excerpts with
    | nil => cases h
    | cons excerpt rest =>
        obtain ⟨within, hwithin, -⟩ := bind_eq_ok.1 h
        obtain ⟨p, sha, first, last, hpath, hsha, hstart, hend⟩ := located_of_evidenceWithinExcerpt hwithin
        rw [anyWithin_of_located hpath hsha hstart hend] at h
        obtain ⟨excerpt, hmem, hfound⟩ := List.any_eq_true.1 (Except.ok.inj h)
        exact ⟨excerpt, hmem, evidenceWithinExcerpt_iff.1 hfound⟩
  · rintro ⟨excerpt, hmem, hwithin⟩
    obtain ⟨first, last, hstart, hend, -⟩ := hwithin.lines
    rw [anyWithin_of_located hwithin.filePath hwithin.blobSha hstart hend]
    exact congrArg Except.ok (List.any_eq_true.2 ⟨excerpt, hmem, evidenceWithinExcerpt_iff.2 hwithin⟩)

/-- **The check of the service** accepts exactly the grounded diagnoses. -/
theorem validateGrounding_eq_ok_iff (hstatus : result.status = .diagnosed) :
    DiagnosisService.validateGrounding request result = .ok () ↔ Grounded request result := by
  have hwithin : ∀ evidence, (do
      let within ← anyWithin evidence request.excerpts
      raiseIf (within = false) (.contract "source evidence does not belong to a supplied excerpt")) =
        (Except.ok () : Except GroundingError Unit) ↔ ∃ excerpt ∈ request.excerpts, evidence.Within excerpt := by
    intro evidence
    rw [← anyWithin_eq_true_iff]
    simp only [bind_eq_ok, raiseIf_eq_ok, Bool.not_eq_false, exists_eq_right]
  rw [grounded_iff hstatus]
  simp only [DiagnosisService.validateGrounding, hstatus]
  simp only [bind_eq_ok (x := raiseIf _ _), bind_eq_ok (x := List.forM _ _), raiseIf_eq_ok, forM_eq_ok, hwithin,
    exists_and_left, exists_const]

/-- **No assertion fails** on a result that was validated. -/
theorem validateGrounding_ne_assertion {read : DiagnosisResult} (h : read.Accepts rt result) :
    DiagnosisService.validateGrounding request result ≠ .error .assertion := by
  intro herror
  rcases DiagnosisResult.validateShape_eq_ok_iff.1 h.shape with ⟨hstatus, -, -, hfix, -⟩ | ⟨hstatus, -⟩
  · simp only [DiagnosisService.validateGrounding, hstatus] at herror
    rcases bind_eq_error.1 herror with hcites | ⟨_, -, herror⟩
    · cases (raiseIf_eq_error.1 hcites).2
    rcases bind_eq_error.1 herror with hloop | ⟨_, -, herror⟩
    · -- the evidence that is looked up is at a place, so every excerpt can be asked
      obtain ⟨evidence, hmem, hone⟩ := forM_eq_error hloop
      obtain ⟨hmem, hkind⟩ := List.mem_filter.1 hmem
      rcases h.located evidence hmem with ⟨hincident, -⟩ | ⟨-, p, sha, first, last, hpath, hsha, hstart, hend, -⟩
      · exact absurd (hincident.symm.trans (of_decide_eq_true hkind)) (by decide)
      · rw [anyWithin_of_located hpath hsha hstart hend] at hone
        rcases bind_eq_error.1 hone with hany | ⟨within, -, hraise⟩
        · cases hany
        · cases (raiseIf_eq_error.1 hraise).2
    rcases bind_eq_error.1 herror with hassert | ⟨_, -, hpaths⟩
    · obtain ⟨hnone, -⟩ := raiseIf_eq_error.1 hassert
      rw [Option.isNone_iff_eq_none.1 hnone] at hfix
      cases hfix
    · cases (raiseIf_eq_error.1 hpaths).2
  · simp only [DiagnosisService.validateGrounding, hstatus] at herror
    cases herror

end DiagnosisService

/-! ## Fail closed -/

/-- A result that withholds a diagnosis. -/
structure Withholds (result : DiagnosisResult) : Prop where
  status : result.status = .fallback
  rootCauseHypothesis : result.rootCauseHypothesis = none
  evidence : result.evidence = []
  proposedFix : result.proposedFix = none
  fallback : result.fallback.isSome = true

theorem withholds_safeFallback (reason : FallbackReason) : Withholds (safeFallback reason) := ⟨rfl, rfl, rfl, rfl, rfl⟩

/-- Who is named as the provider is no part of what is cited. -/
theorem Grounded.withProvider {request : DiagnosisRequest} {result : DiagnosisResult} (h : Grounded request result)
    (name : String) : Grounded request { result with provider := name } :=
  ⟨h.status, h.cites, h.within, h.proposes, h.paths⟩

namespace DiagnosisService

variable {α : Type} {dumped : α → Except String DiagnosisResult} {request : DiagnosisRequest} {object : α}

/-- **What the service accepts** withholds a diagnosis or is a grounded one. -/
theorem accept_eq_ok {result : DiagnosisResult} (h : accept rt dumped request object = .ok result) :
    Withholds result ∨ Grounded request result := by
  obtain ⟨read, -, h⟩ := bind_eq_ok.1 h
  obtain ⟨validated, hvalidated, h⟩ := bind_eq_ok.1 h
  obtain ⟨_, hgrounding, h⟩ := bind_eq_ok.1 h
  obtain rfl := Except.ok.inj h
  have kept := DiagnosisResult.validate_eq_ok_iff.1 (mapError_eq_ok.1 hvalidated)
  rcases DiagnosisResult.validateShape_eq_ok_iff.1 kept.shape with ⟨hstatus, -⟩ | ⟨hstatus, hroot, hfix, hevidence,
    hfall, -⟩
  · exact .inr ((validateGrounding_eq_ok_iff hstatus).1 hgrounding)
  · exact .inl ⟨hstatus, hroot, hevidence, hfix, hfall⟩

/-- What it refuses it refuses with an error that is caught. -/
theorem accept_ne_assertion : accept rt dumped request object ≠ .error .assertion := by
  intro h
  rcases bind_eq_error.1 h with hread | ⟨read, -, h⟩
  · exact absurd hread (mapError_ne fun _ => nofun)
  rcases bind_eq_error.1 h with hvalidated | ⟨validated, hvalidated, h⟩
  · exact absurd hvalidated (mapError_ne fun _ => nofun)
  rcases bind_eq_error.1 h with hgrounding | ⟨_, -, h⟩
  · exact validateGrounding_ne_assertion (DiagnosisResult.validate_eq_ok_iff.1 (mapError_eq_ok.1 hvalidated)) hgrounding
  · cases h

/-- Nothing but a cancellation escapes the service. -/
theorem cancelled_of_error {service : DiagnosisService rt} {provider : DiagnosisRequest → ProviderOutcome α}
    {e : ServiceError} (h : service.diagnose dumped provider request = .error e) : provider request = .cancelled := by
  unfold diagnose at h
  split at h
  · cases h
  split at h
  · cases h
  split at h
  · assumption
  · cases h
  · cases h
  · split at h
    · cases h
    · cases h
    · next hassertion => exact absurd hassertion accept_ne_assertion

/-- What the service returns. -/
theorem withholds_or_grounded {service : DiagnosisService rt} {provider : DiagnosisRequest → ProviderOutcome α}
    {result : DiagnosisResult} (h : service.diagnose dumped provider request = .ok result) :
    Withholds result ∨ Grounded request result := by
  unfold diagnose at h
  split at h
  · exact .inl (Except.ok.inj h ▸ withholds_safeFallback _)
  split at h
  · exact .inl (Except.ok.inj h ▸ withholds_safeFallback _)
  split at h
  · cases h
  · exact .inl (Except.ok.inj h ▸ withholds_safeFallback _)
  · exact .inl (Except.ok.inj h ▸ withholds_safeFallback _)
  · split at h
    · next haccept =>
        obtain rfl := Except.ok.inj h
        rcases accept_eq_ok haccept with hw | hg
        · exact .inl ⟨hw.status, hw.rootCauseHypothesis, hw.evidence, hw.proposedFix, hw.fallback⟩
        · exact .inr (hg.withProvider _)
    · exact .inl (Except.ok.inj h ▸ withholds_safeFallback _)
    · cases h

/-- **The service fails closed.**  Whatever the provider returns or raises, unless the task is cancelled it
returns a result, which withholds a diagnosis or is a grounded one; and its check of grounding accepts a
diagnosis exactly when the one of the local model does. -/
theorem diagnose_laws (service : DiagnosisService rt) (dumped : α → Except String DiagnosisResult)
    (provider : DiagnosisRequest → ProviderOutcome α) (request : DiagnosisRequest) :
    (provider request ≠ .cancelled → ∃ result, service.diagnose dumped provider request = .ok result) ∧
    (∀ result, service.diagnose dumped provider request = .ok result → Withholds result ∨ Grounded request result) ∧
    ∀ result : DiagnosisResult, result.status = .diagnosed →
      (GitHub.validateGrounding request result = .ok () ↔
        DiagnosisService.validateGrounding request result = .ok ()) := by
  refine ⟨fun hcancel => ?_, fun result => withholds_or_grounded, fun result hstatus =>
    GitHub.validateGrounding_eq_ok_iff.trans (validateGrounding_eq_ok_iff hstatus).symm⟩
  cases hdiagnose : service.diagnose dumped provider request with
  | ok result => exact ⟨result, rfl⟩
  | error e => exact absurd (cancelled_of_error hdiagnose) hcancel

/-- A request with one excerpt of three lines. -/
def citedRequest : DiagnosisRequest :=
  { excerpts := [{ filePath := "app.py", blobSha := String.ofList (List.replicate 40 'a'), startLine := 1, endLine := 3,
                   content := "one\ntwo\nthree" }] }

/-- A diagnosis that cites two of them. -/
def citingResult : DiagnosisResult :=
  { status := .diagnosed, provider := "model", rootCauseHypothesis := some ⟨"summary", "reasoning"⟩,
    evidence := [{ kind := .sourceExcerpt, explanation := "here", filePath := some "app.py",
                   blobSha := some (String.ofList (List.replicate 40 'A')), startLine := some 1, endLine := some 2 }],
    proposedFix := some { summary := "fix", steps := ["edit"], affectedPaths := ["app.py"] }, confidence := 1 }

/-- A service with a provider of that name. -/
def localService : DiagnosisService Runtime.reference :=
  ⟨some "local", fun _ h => ⟨"local", Option.some.inj h ▸ by rfl⟩⟩

/-- Such a diagnosis is returned, under the name of the service's provider. -/
example : ((localService.diagnose Except.ok (fun _ => .returned (.result citingResult)) citedRequest).toOption.map
    fun result => (result.status, result.provider)) = some (.diagnosed, "local") := by
  decide +kernel

/-- A provider that returns it. -/
theorem diagnose_laws_citing :
    ∃ result, localService.diagnose Except.ok (fun _ => .returned (.result citingResult)) citedRequest = .ok result ∧
      (Withholds result ∨ Grounded citedRequest result) := by
  obtain ⟨total, sound, -⟩ :=
    diagnose_laws localService Except.ok (fun _ => .returned (.result citingResult)) citedRequest
  obtain ⟨result, hresult⟩ := total nofun
  exact ⟨result, hresult, sound result hresult⟩

end DiagnosisService

end GitHub
end PulseGraph
