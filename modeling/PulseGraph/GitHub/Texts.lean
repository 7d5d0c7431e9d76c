/-
# Validated texts

What `str.strip` and `str.lower` do, as far as the validators of `src/github_integration/diagnosis.py`
depend on it, and what follows for a value that a validator has kept.

**Proved here.**  A validator leaves alone what it has kept (`DiagnosisResult.validate_kept` and one
lemma for each model below it): object ids and the names of providers are stripped and in lower case,
texts are stripped and within their bounds.
-/

import PulseGraph.GitHub.Diagnosis
import PulseGraph.Library.Trim

namespace PulseGraph
namespace GitHub

open Library (bind_eq_ok raiseIf_eq_ok length_of_mapM_ok mapM_kept optionMapM_kept trim trim_trim trim_eq_self
  trim_eq_nil_iff length_trim_le)

variable {K : Type} {rt : Runtime K}

/-- `str.isspace` of a character. -/
def isWhitespace (c : Char) : Bool :=
  decide (c.toNat ∈ [0x09, 0x0A, 0x0B, 0x0C, 0x0D, 0x1C, 0x1D, 0x1E, 0x1F, 0x20, 0x85, 0xA0, 0x1680, 0x2000, 0x2001,
    0x2002,
    0x2003, 0x2004, 0x2005, 0x2006, 0x2007, 0x2008, 0x2009, 0x200A, 0x2028, 0x2029, 0x202F, 0x205F, 0x3000])

/-- What the language documents of its texts: `strip` takes the blanks off both ends, and `lower` maps
the letters of a text in ASCII one by one. -/
structure TextLaws (rt : Runtime K) : Prop where
  strip : ∀ s, rt.strip s = String.ofList (trim isWhitespace s.toList)
  lower : ∀ s, (∀ c ∈ s.toList, c.toNat < 128) → rt.lower s = String.ofList (s.toList.map Char.toLower)

namespace TextLaws

variable (laws : TextLaws rt)
include laws

theorem strip_strip (s : String) : rt.strip (rt.strip s) = rt.strip s := by
  rw [laws.strip (rt.strip s), laws.strip s, String.toList_ofList, trim_trim]

theorem length_strip_le (s : String) : (rt.strip s).length ≤ s.length := by
  rw [laws.strip, String.length_ofList, ← String.length_toList]
  exact length_trim_le

/-- **A text is blank** exactly when all its characters are. -/
theorem strip_eq_empty_iff (s : String) : rt.strip s = "" ↔ ∀ c ∈ s.toList, isWhitespace c = true := by
  rw [laws.strip, ← trim_eq_nil_iff, String.ofList_eq_empty_iff]

/-- Nothing is taken off a text without blanks. -/
theorem strip_eq_self {s : String} (h : ∀ c ∈ s.toList, isWhitespace c = false) : rt.strip s = s := by
  rw [laws.strip,
    trim_eq_self (fun c hc => h c (List.mem_of_mem_head? hc)) fun c hc => h c (List.mem_of_mem_getLast? hc),
    String.ofList_toList]

end TextLaws

/-- A runtime whose texts are stripped as the language documents it. -/
def strippingRuntime : Runtime ℚ :=
  { Runtime.reference with strip := fun s => String.ofList (trim isWhitespace s.toList) }

theorem textLaws_strippingRuntime : TextLaws strippingRuntime := ⟨fun _ => rfl, fun _ _ => rfl⟩

/-! ## Characters in ASCII -/

/-- What holds of the first 128 characters. -/
theorem forall_ascii {P : Char → Prop} (h : ∀ n < 128, P (Char.ofNat n)) {c : Char} (hc : c.toNat < 128) : P c := by
  have hchar := h c.toNat hc
  rwa [Char.ofNat_toNat] at hchar

theorem ascii_of_isHexDigit {c : Char} (h : isHexDigit c = true) : c.toNat < 128 := by
  have hle : ∀ d : Char, d.toNat < 128 → c ≤ d → c.toNat < 128 := fun d hd hcd =>
    (UInt32.le_iff_toNat_le.1 hcd).trans_lt hd
  simp only [isHexDigit, Char.isDigit, Bool.or_eq_true, Bool.and_eq_true, decide_eq_true_eq] at h
  rcases h with (⟨-, h⟩ | ⟨-, h⟩) | ⟨-, h⟩
  · exact hle '9' (by decide) h
  · exact hle 'f' (by decide) h
  · exact hle 'F' (by decide) h

/-- A digit of an object id is no blank, and a digit in lower case too. -/
theorem hexDigit_facts {c : Char} (h : isHexDigit c = true) :
    isWhitespace c = false ∧ isHexDigit c.toLower = true ∧ c.toLower.toLower = c.toLower := by
  refine forall_ascii (P := fun c => isHexDigit c = true → isWhitespace c = false ∧ isHexDigit c.toLower = true ∧
    c.toLower.toLower = c.toLower) ?_ (ascii_of_isHexDigit h) h
  decide

/-- The characters of a provider's name. -/
def isLabelChar (c : Char) : Bool := isProviderChar c || c = '.' || c = '_' || c = '-'

theorem ascii_of_isLabelChar {c : Char} (h : isLabelChar c = true) : c.toNat < 128 := by
  have hle : ∀ d : Char, d.toNat < 128 → c ≤ d → c.toNat < 128 := fun d hd hcd =>
    (UInt32.le_iff_toNat_le.1 hcd).trans_lt hd
  simp only [isLabelChar, isProviderChar, Char.isDigit, Bool.or_eq_true, Bool.and_eq_true, decide_eq_true_eq] at h
  rcases h with (((⟨-, h⟩ | ⟨-, h⟩) | rfl) | rfl) | rfl
  · exact hle 'z' (by decide) h
  · exact hle '9' (by decide) h
  · decide
  · decide
  · decide

/-- Such a character is no blank, and in lower case. -/
theorem labelChar_facts {c : Char} (h : isLabelChar c = true) : isWhitespace c = false ∧ c.toLower = c := by
  refine forall_ascii (P := fun c => isLabelChar c = true → isWhitespace c = false ∧ c.toLower = c) ?_
    (ascii_of_isLabelChar h) h
  decide

/-! ## What was kept is kept -/

section Kept

variable (laws : TextLaws rt)
include laws

/-- A text that was kept is kept, under every bound that it meets. -/
theorem requiredText_kept {value text fieldName fieldName' : String} {maximum maximum' : ℕ}
    (h : requiredText rt value fieldName maximum = .ok text) (hle : text.length ≤ maximum') :
    requiredText rt text fieldName' maximum' = .ok text := by
  obtain ⟨rfl, hblank, -⟩ := requiredText_eq_ok.1 h
  exact requiredText_eq_ok.2 ⟨(laws.strip_strip value).symm, hblank, hle⟩

/-- A text that was kept is no longer than it was. -/
theorem length_requiredText_le {value text fieldName : String} {maximum : ℕ}
    (h : requiredText rt value fieldName maximum = .ok text) : text.length ≤ value.length := by
  obtain ⟨rfl, -, -⟩ := requiredText_eq_ok.1 h
  exact laws.length_strip_le value

theorem gitObjectId_kept {value sha fieldName : String} (h : gitObjectId rt value fieldName = .ok sha) :
    gitObjectId rt sha fieldName = .ok sha := by
  obtain ⟨normalized, htext, h⟩ := bind_eq_ok.1 h
  obtain ⟨_, hshape, h⟩ := bind_eq_ok.1 h
  obtain rfl := Except.ok.inj h
  rw [raiseIf_eq_ok, not_not, List.all_eq_true] at hshape
  obtain ⟨hlength, hdigits⟩ := hshape
  have hlower := laws.lower normalized fun c hc => ascii_of_isHexDigit (hdigits c hc)
  have hchars : ∀ c ∈ (rt.lower normalized).toList, isHexDigit c = true ∧ c.toLower = c := by
    rw [hlower, String.toList_ofList]
    intro c hc
    obtain ⟨d, hd, rfl⟩ := List.mem_map.1 hc
    exact (hexDigit_facts (hdigits d hd)).2
  have hsame : (rt.lower normalized).length = normalized.length := by
    rw [hlower, String.length_ofList, List.length_map, String.length_toList]
  have hstrip : rt.strip (rt.lower normalized) = rt.lower normalized :=
    laws.strip_eq_self fun c hc => (hexDigit_facts (hchars c hc).1).1
  have htwice : rt.lower (rt.lower normalized) = rt.lower normalized := by
    rw [laws.lower (rt.lower normalized) fun c hc => ascii_of_isHexDigit (hchars c hc).1,
      List.map_congr_left fun c hc => (hchars c hc).2, List.map_id', String.ofList_toList]
  refine bind_eq_ok.2 ⟨rt.lower normalized, requiredText_eq_ok.2 ⟨hstrip.symm, ?_, by omega⟩, bind_eq_ok.2 ⟨(), ?_, ?_⟩⟩
  · rintro hempty
    rw [hempty, String.length_empty] at hsame
    omega
  · rw [raiseIf_eq_ok, not_not, hsame, List.all_eq_true]
    exact ⟨hlength, fun c hc => (hchars c hc).1⟩
  · exact congrArg Except.ok htwice

theorem providerLabel_kept {value label : String} (h : providerLabel rt value = .ok label) :
    providerLabel rt label = .ok label ∧ label.length ≤ 64 := by
  obtain ⟨text, -, h⟩ := bind_eq_ok.1 h
  obtain ⟨_, hshape, h⟩ := bind_eq_ok.1 h
  obtain rfl := Except.ok.inj h
  have hkept := hshape
  rw [raiseIf_eq_ok, not_not, List.all_eq_true] at hshape
  obtain ⟨hlength, hfirst, hchars⟩ := hshape
  have hchars : ∀ c ∈ (rt.lower text).toList, isLabelChar c = true := hchars
  have hstrip : rt.strip (rt.lower text) = rt.lower text :=
    laws.strip_eq_self fun c hc => (labelChar_facts (hchars c hc)).1
  have htwice : rt.lower (rt.lower text) = rt.lower text := by
    rw [laws.lower (rt.lower text) fun c hc => ascii_of_isLabelChar (hchars c hc),
      List.map_congr_left fun c hc => (labelChar_facts (hchars c hc)).2, List.map_id', String.ofList_toList]
  refine ⟨bind_eq_ok.2 ⟨rt.lower text, requiredText_eq_ok.2 ⟨hstrip.symm, ?_, hlength⟩, ?_⟩, hlength⟩
  · intro hempty
    rw [hempty] at hfirst
    cases hfirst
  · rw [htwice]
    exact bind_eq_ok.2 ⟨(), hkept, rfl⟩

theorem DiagnosisEvidence.validate_kept {evidence kept : DiagnosisEvidence} (h : evidence.validate rt = .ok kept) :
    kept.validate rt = .ok kept := by
  have accepts := DiagnosisEvidence.validate_eq_ok_iff.1 h
  have hlength : kept.explanation.length ≤ 2000 :=
    (length_requiredText_le laws accepts.explanation).trans (maxLength_eq_ok.1 accepts.length)
  refine DiagnosisEvidence.validate_eq_ok_iff.2 ⟨maxLength_eq_ok.2 hlength,
    requiredText_kept laws accepts.explanation hlength, ?_, ?_, ⟨rfl, rfl, rfl⟩, accepts.located⟩
  · exact optionMapM_kept (fun _ _ hpath => eq_of_repositoryPath hpath ▸ hpath) accepts.filePath
  · exact optionMapM_kept (fun _ _ hsha => gitObjectId_kept laws hsha) accepts.blobSha

theorem RootCauseHypothesis.validate_kept {hypothesis kept : RootCauseHypothesis}
    (h : hypothesis.validate rt = .ok kept) : kept.validate rt = .ok kept := by
  have accepts := RootCauseHypothesis.validate_eq_ok_iff.1 h
  have hsummary := (length_requiredText_le laws accepts.summary).trans accepts.lengths.1
  have hreasoning := (length_requiredText_le laws accepts.reasoning).trans accepts.lengths.2
  exact RootCauseHypothesis.validate_eq_ok_iff.2 ⟨⟨hsummary, hreasoning⟩,
    requiredText_kept laws accepts.summary (by omega), requiredText_kept laws accepts.reasoning hreasoning⟩

theorem ProposedFix.validate_kept {fix kept : ProposedFix} (h : fix.validate rt = .ok kept) :
    kept.validate rt = .ok kept := by
  have accepts := ProposedFix.validate_eq_ok_iff.1 h
  have hsummary := (length_requiredText_le laws accepts.summary).trans accepts.length
  have hsteps := length_of_mapM_ok accepts.steps
  have hpaths := length_of_mapM_ok accepts.affectedPaths
  refine ProposedFix.validate_eq_ok_iff.2 ⟨hsummary, requiredText_kept laws accepts.summary hsummary,
    hsteps ▸ accepts.count, ?_, hpaths ▸ accepts.pathCount, ?_, ⟨accepts.human.2, accepts.human.2⟩,
    ⟨accepts.manual.2, accepts.manual.2⟩⟩
  · exact mapM_kept (fun _ _ htext => requiredText_kept laws htext (requiredText_eq_ok.1 htext).2.2) accepts.steps
  · exact mapM_kept (fun _ _ hpath => eq_of_repositoryPath hpath ▸ hpath) accepts.affectedPaths

theorem SafeFallback.validate_kept {fallback kept : SafeFallback} (h : fallback.validate rt = .ok kept) :
    kept.validate rt = .ok kept := by
  have accepts := SafeFallback.validate_eq_ok_iff.1 h
  have hmessage := (length_requiredText_le laws accepts.message).trans accepts.length
  have hsteps := length_of_mapM_ok accepts.nextSteps
  refine SafeFallback.validate_eq_ok_iff.2 ⟨rfl, hmessage, requiredText_kept laws accepts.message hmessage,
    hsteps ▸ accepts.count, ?_, ⟨accepts.human.2, accepts.human.2⟩⟩
  exact mapM_kept (fun _ _ htext => requiredText_kept laws htext (requiredText_eq_ok.1 htext).2.2) accepts.nextSteps

/-- **A result that was kept is kept.** -/
theorem DiagnosisResult.validate_kept {result kept : DiagnosisResult} (h : result.validate rt = .ok kept) :
    kept.validate rt = .ok kept := by
  have accepts := DiagnosisResult.validate_eq_ok_iff.1 h
  obtain ⟨hlabel, hlength⟩ := providerLabel_kept laws accepts.provider
  refine DiagnosisResult.validate_eq_ok_iff.2 ⟨hlength, hlabel, ?_,
    length_of_mapM_ok accepts.evidence ▸ accepts.count, ?_, ?_,
    accepts.same.2 ▸ accepts.bounds, ?_, ⟨rfl, rfl⟩, accepts.shape⟩
  · exact optionMapM_kept (fun _ _ hone => RootCauseHypothesis.validate_kept laws hone) accepts.rootCauseHypothesis
  · exact mapM_kept (fun _ _ hone => DiagnosisEvidence.validate_kept laws hone) accepts.evidence
  · exact optionMapM_kept (fun _ _ hone => ProposedFix.validate_kept laws hone) accepts.proposedFix
  · exact optionMapM_kept (fun _ _ hone => SafeFallback.validate_kept laws hone) accepts.fallback

end Kept

end GitHub
end PulseGraph
