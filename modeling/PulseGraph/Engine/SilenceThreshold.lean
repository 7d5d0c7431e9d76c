/-
# How long an incident may be silent

`silence_threshold_ms` of `src/engine/silence_sweeper.py` for any arguments.  Truncating the
square root of the variance inside the function or the whole threshold at its end is one thing:
the function is the floor of a real number, `exactThreshold` (`silenceThreshold_eq_floor`).

**Proved here.**  `silenceThreshold_laws`: where the multipliers and the bounds are what the settings
promise, the threshold lies between the smaller bound and the ceiling, it does not fall when the mean
gap, the variance or the number of reopens grows, and critical incidents wait no less than others.
-/

import PulseGraph.Engine.SilenceSweeper
import Mathlib.Analysis.Real.Sqrt

namespace PulseGraph

/-! ## The exact threshold -/

/-- The threshold before it is truncated. -/
noncomputable def exactThreshold (a : SilenceArguments) (meanGapMs variance : ℚ) (severity : String)
    (reopenCount : ℤ) : ℝ :=
  min (max ((max 0 (meanGapMs : ℝ) + √(max 0 (variance : ℝ))) * a.multiplier) a.floorMs *
    a.severityFactor severity * a.flapFactor reopenCount) a.ceilingMs

/-- **The truncated root** is the floor of the real one. -/
theorem floorAddSqrt_eq_floor {m v : ℚ} (hv : 0 ≤ v) : floorAddSqrt m v = ⌊(m : ℝ) + √(v : ℝ)⌋ := by
  have hvr : (0 : ℝ) ≤ (v : ℝ) := Rat.cast_nonneg.2 hv
  have hm : (⌊m⌋ : ℝ) ≤ m := by
    have h : ((⌊m⌋ : ℚ) : ℝ) ≤ (m : ℝ) := Rat.cast_le.2 (Int.floor_le m)
    exact_mod_cast h
  have hm' : (m : ℝ) < ⌊m⌋ + 1 := by
    have h : (m : ℝ) < ((⌊m⌋ + 1 : ℚ) : ℝ) := Rat.cast_lt.2 (Int.lt_floor_add_one m)
    exact_mod_cast h
  -- the integer root of the integer part bounds the root on both sides
  have hk : (Nat.sqrt ⌊v⌋₊ : ℝ) ≤ √(v : ℝ) := by
    refine Real.le_sqrt_of_sq_le ?_
    have h1 : ((Nat.sqrt ⌊v⌋₊ ^ 2 : ℕ) : ℚ) ≤ v :=
      (Nat.cast_le.2 (Nat.sqrt_le' _)).trans (Nat.floor_le hv)
    have h2 : (((Nat.sqrt ⌊v⌋₊ ^ 2 : ℕ) : ℚ) : ℝ) ≤ (v : ℝ) := Rat.cast_le.2 h1
    push_cast at h2
    exact h2
  have hk' : √(v : ℝ) < Nat.sqrt ⌊v⌋₊ + 1 := by
    rw [Real.sqrt_lt' (by positivity)]
    have h1 : ⌊v⌋₊ + 1 ≤ (Nat.sqrt ⌊v⌋₊ + 1) ^ 2 := by
      rw [pow_two]
      exact Nat.lt_succ_sqrt ⌊v⌋₊
    have h2 : v < (((Nat.sqrt ⌊v⌋₊ + 1) ^ 2 : ℕ) : ℚ) :=
      (Nat.lt_floor_add_one v).trans_le (by exact_mod_cast h1)
    have h3 : (v : ℝ) < ((((Nat.sqrt ⌊v⌋₊ + 1) ^ 2 : ℕ) : ℚ) : ℝ) := Rat.cast_lt.2 h2
    push_cast at h3
    exact h3
  obtain ⟨n, hn⟩ : ∃ n : ℤ, n = ⌊m⌋ + Nat.sqrt ⌊v⌋₊ := ⟨_, rfl⟩
  have hnr : (n : ℝ) = ⌊m⌋ + Nat.sqrt ⌊v⌋₊ := by
    rw [hn]
    push_cast
    rfl
  -- the next integer is reached exactly where its distance to the mean is at most the root
  have hpos : (0 : ℝ) < (n : ℝ) + 1 - m := by
    have hroot : (0 : ℝ) ≤ (Nat.sqrt ⌊v⌋₊ : ℝ) := Nat.cast_nonneg _
    linarith
  have htest : ((n : ℚ) + 1 - m) ^ 2 ≤ v ↔ (n : ℝ) + 1 ≤ m + √(v : ℝ) := by
    have h : (n : ℝ) + 1 - m ≤ √(v : ℝ) ↔ ((n : ℝ) + 1 - m) ^ 2 ≤ v := Real.le_sqrt' hpos
    rw [← sub_le_iff_le_add', h]
    constructor
    · intro hq
      have hr : ((((n : ℚ) + 1 - m) ^ 2 : ℚ) : ℝ) ≤ (v : ℝ) := Rat.cast_le.2 hq
      push_cast at hr
      exact hr
    · intro hr
      have hq : ((((n : ℚ) + 1 - m) ^ 2 : ℚ) : ℝ) ≤ (v : ℝ) := by
        push_cast
        exact hr
      exact Rat.cast_le.1 hq
  unfold floorAddSqrt
  dsimp only
  rw [← hn]
  split_ifs with h
  · refine (Int.floor_eq_iff.2 ⟨?_, ?_⟩).symm
    · push_cast
      exact htest.1 h
    · push_cast
      linarith
  · refine (Int.floor_eq_iff.2 ⟨?_, ?_⟩).symm
    · linarith
    · exact not_le.1 fun hle => h (htest.2 hle)

/-- A scaled sum, truncated. -/
theorem truncateScaled_eq_floor {m v k : ℚ} (hv : 0 ≤ v) (hk : 0 ≤ k) :
    truncateScaled m v k = ⌊((m : ℝ) + √(v : ℝ)) * k⌋ := by
  have hkr : (0 : ℝ) ≤ (k : ℝ) := Rat.cast_nonneg.2 hk
  unfold truncateScaled
  rw [if_pos hk, floorAddSqrt_eq_floor (mul_nonneg hv (sq_nonneg k))]
  push_cast
  rw [Real.sqrt_mul (Rat.cast_nonneg.2 hv), Real.sqrt_sq hkr, add_mul]

theorem truncate_eq_floor {q : ℚ} (hq : 0 ≤ q) : truncate q = ⌊(q : ℝ)⌋ := by
  unfold truncate
  rw [if_pos hq, Rat.floor_cast]

section Laws

variable {a : SilenceArguments} {meanGapMs variance : ℚ} {severity : String} {reopenCount : ℤ}

/-- A critical incident's stretch is at least that of the others, which is none. -/
theorem one_le_severityFactor (hm : 0 < a.multiplier) (hc : a.multiplier ≤ a.criticalMultiplier) :
    1 ≤ a.severityFactor severity := by
  unfold SilenceArguments.severityFactor
  split_ifs
  · exact (one_le_div hm).2 hc
  · exact le_rfl

theorem severityFactor_le_critical (hm : 0 < a.multiplier) (hc : a.multiplier ≤ a.criticalMultiplier) :
    a.severityFactor severity ≤ a.severityFactor "critical" := by
  unfold SilenceArguments.severityFactor
  rw [if_pos rfl]
  split_ifs
  · exact le_rfl
  · exact (one_le_div hm).2 hc

theorem one_le_flapFactor : 1 ≤ a.flapFactor reopenCount := one_le_pow₀ (le_max_left _ _)

/-- The stretch does not fall with another reopen. -/
theorem flapFactor_mono : Monotone a.flapFactor := by
  intro n n' h
  refine pow_le_pow_right₀ (le_max_left _ _) (Int.toNat_le_toNat ?_)
  exact max_le_max le_rfl (min_le_min h le_rfl)

/-- **The threshold is the floor of the exact one.** -/
theorem silenceThreshold_eq_floor (hm : 0 < a.multiplier) (hc : a.multiplier ≤ a.criticalMultiplier)
    (hfloor : 0 ≤ a.floorMs) : silenceThreshold a meanGapMs variance severity reopenCount =
      .ok ⌊exactThreshold a meanGapMs variance severity reopenCount⌋ := by
  obtain ⟨factor, hfactor⟩ : ∃ factor, factor = a.severityFactor severity * a.flapFactor reopenCount := ⟨_, rfl⟩
  have hnonneg : 0 ≤ factor := by
    rw [hfactor]
    exact mul_nonneg (zero_le_one.trans (one_le_severityFactor hm hc)) (zero_le_one.trans one_le_flapFactor)
  have hreal : (0 : ℝ) ≤ (factor : ℝ) := Rat.cast_nonneg.2 hnonneg
  have hfloored : (0 : ℚ) ≤ a.floorMs * factor := mul_nonneg (Int.cast_nonneg hfloor) hnonneg
  have hexact : exactThreshold a meanGapMs variance severity reopenCount =
      min (max ((((max 0 meanGapMs : ℚ) : ℝ) + √((max 0 variance : ℚ) : ℝ)) * (a.multiplier * factor : ℚ))
        ((a.floorMs * factor : ℚ) : ℝ)) a.ceilingMs := by
    unfold exactThreshold
    rw [mul_assoc, max_mul_of_nonneg _ _ (by rw [hfactor] at hreal; push_cast at hreal; exact hreal), hfactor]
    push_cast
    rw [mul_assoc]
  unfold silenceThreshold
  rw [if_neg (not_le.2 hm)]
  dsimp only
  rw [← hfactor, if_pos hnonneg, hexact, Int.floor_mono.map_min, Int.floor_mono.map_max, Int.floor_intCast,
    truncateScaled_eq_floor (le_max_left _ _) (mul_nonneg hm.le hnonneg),
    truncate_eq_floor hfloored]

/-- A longer time or a longer stretch makes the exact threshold no shorter. -/
theorem exactThreshold_mono (hm : 0 < a.multiplier) (hc : a.multiplier ≤ a.criticalMultiplier)
    (hfloor : 0 ≤ a.floorMs) {meanGapMs' variance' : ℚ} {severity' : String} {reopenCount' : ℤ}
    (hmean : meanGapMs ≤ meanGapMs') (hvariance : variance ≤ variance')
    (hseverity : a.severityFactor severity ≤ a.severityFactor severity') (hreopen : reopenCount ≤ reopenCount') :
    exactThreshold a meanGapMs variance severity reopenCount ≤
      exactThreshold a meanGapMs' variance' severity' reopenCount' := by
  have hmultiplier : (0 : ℝ) ≤ (a.multiplier : ℝ) := Rat.cast_nonneg.2 hm.le
  have hfloorr : (0 : ℝ) ≤ (a.floorMs : ℝ) := Int.cast_nonneg hfloor
  have hbase : (0 : ℝ) ≤ max ((max 0 (meanGapMs' : ℝ) + √(max 0 (variance' : ℝ))) * a.multiplier) a.floorMs :=
    le_max_of_le_right hfloorr
  have hseverityr : (a.severityFactor severity : ℝ) ≤ (a.severityFactor severity' : ℝ) := Rat.cast_le.2 hseverity
  have hseverity0 : (0 : ℝ) ≤ (a.severityFactor severity : ℝ) :=
    Rat.cast_nonneg.2 (zero_le_one.trans (one_le_severityFactor hm hc))
  have hflap : (a.flapFactor reopenCount : ℝ) ≤ (a.flapFactor reopenCount' : ℝ) :=
    Rat.cast_le.2 (flapFactor_mono hreopen)
  have hflap0 : (0 : ℝ) ≤ (a.flapFactor reopenCount : ℝ) := Rat.cast_nonneg.2 (zero_le_one.trans one_le_flapFactor)
  have hmeanr : (meanGapMs : ℝ) ≤ (meanGapMs' : ℝ) := Rat.cast_le.2 hmean
  have hvariancer : (variance : ℝ) ≤ (variance' : ℝ) := Rat.cast_le.2 hvariance
  unfold exactThreshold
  gcongr
  exact mul_nonneg hbase (hseverity0.trans hseverityr)

/-- The exact threshold lies between its bounds. -/
theorem exactThreshold_bounds (hm : 0 < a.multiplier) (hc : a.multiplier ≤ a.criticalMultiplier)
    (hfloor : 0 ≤ a.floorMs) : min (a.floorMs : ℝ) a.ceilingMs ≤
      exactThreshold a meanGapMs variance severity reopenCount ∧
    exactThreshold a meanGapMs variance severity reopenCount ≤ a.ceilingMs := by
  refine ⟨?_, min_le_right _ _⟩
  have hfloorr : (0 : ℝ) ≤ (a.floorMs : ℝ) := Int.cast_nonneg hfloor
  have hbase : (a.floorMs : ℝ) ≤
      max ((max 0 (meanGapMs : ℝ) + √(max 0 (variance : ℝ))) * a.multiplier) a.floorMs := le_max_right _ _
  have hseverity : (1 : ℝ) ≤ (a.severityFactor severity : ℝ) := by exact_mod_cast one_le_severityFactor hm hc
  have hflap : (1 : ℝ) ≤ (a.flapFactor reopenCount : ℝ) := by exact_mod_cast one_le_flapFactor
  refine min_le_min ?_ le_rfl
  have hstretched := le_mul_of_one_le_right (hfloorr.trans hbase) hseverity
  exact hbase.trans (hstretched.trans (le_mul_of_one_le_right (hfloorr.trans (hbase.trans hstretched)) hflap))

end Laws

/-! ## The laws -/

/-- What an operator may rely on, of thresholds under given bounds. -/
structure ThresholdLaws (floorMs ceilingMs : ℤ) (threshold : ℚ → ℚ → String → ℤ → ℤ) : Prop where
  bounds : ∀ meanGapMs variance severity reopenCount,
    threshold meanGapMs variance severity reopenCount ∈ Set.Icc (min floorMs ceilingMs) ceilingMs
  meanGap : ∀ variance severity reopenCount, Monotone fun meanGapMs => threshold meanGapMs variance severity reopenCount
  variance : ∀ meanGapMs severity reopenCount,
    Monotone fun variance => threshold meanGapMs variance severity reopenCount
  reopenCount : ∀ meanGapMs variance severity,
    Monotone fun reopenCount => threshold meanGapMs variance severity reopenCount
  critical : ∀ meanGapMs variance severity reopenCount,
    threshold meanGapMs variance severity reopenCount ≤ threshold meanGapMs variance "critical" reopenCount

/-- **The laws of the silence threshold**, which is computed for every mean gap, variance, severity
and number of reopens. -/
theorem silenceThreshold_laws (a : SilenceArguments) (hm : 0 < a.multiplier)
    (hc : a.multiplier ≤ a.criticalMultiplier) (hfloor : 0 ≤ a.floorMs) (hceiling : 0 ≤ a.ceilingMs) :
    ∃ threshold, (∀ meanGapMs variance severity reopenCount,
        silenceThreshold a meanGapMs variance severity reopenCount =
          .ok (threshold meanGapMs variance severity reopenCount) ∧
        0 ≤ threshold meanGapMs variance severity reopenCount) ∧
      ThresholdLaws a.floorMs a.ceilingMs threshold := by
  have hbounds : ∀ meanGapMs variance severity reopenCount,
      ⌊exactThreshold a meanGapMs variance severity reopenCount⌋ ∈ Set.Icc (min a.floorMs a.ceilingMs) a.ceilingMs := by
    intro meanGapMs variance severity reopenCount
    obtain ⟨hlow, hhigh⟩ := @exactThreshold_bounds a meanGapMs variance severity reopenCount hm hc hfloor
    constructor
    · refine Int.le_floor.2 ?_
      push_cast
      exact hlow
    · exact Int.floor_le_iff.2 (hhigh.trans_lt (lt_add_one _))
  refine ⟨fun meanGapMs variance severity reopenCount =>
    ⌊exactThreshold a meanGapMs variance severity reopenCount⌋, ?_, hbounds, ?_, ?_, ?_, ?_⟩
  · intro meanGapMs variance severity reopenCount
    exact ⟨silenceThreshold_eq_floor hm hc hfloor, (le_min hfloor hceiling).trans (hbounds _ _ _ _).1⟩
  · intro variance severity reopenCount mean mean' h
    exact Int.floor_mono (exactThreshold_mono hm hc hfloor h le_rfl le_rfl le_rfl)
  · intro meanGapMs severity reopenCount variance variance' h
    exact Int.floor_mono (exactThreshold_mono hm hc hfloor le_rfl h le_rfl le_rfl)
  · intro meanGapMs variance severity n n' h
    exact Int.floor_mono (exactThreshold_mono hm hc hfloor le_rfl le_rfl le_rfl h)
  · intro meanGapMs variance severity reopenCount
    exact Int.floor_mono (exactThreshold_mono hm hc hfloor le_rfl le_rfl (severityFactor_le_critical hm hc) le_rfl)

/-- The laws at the default settings. -/
theorem silenceThreshold_laws_default : ∃ threshold, (∀ meanGapMs variance severity reopenCount,
      silenceThreshold (Settings.silenceArguments {}) meanGapMs variance severity reopenCount =
        .ok (threshold meanGapMs variance severity reopenCount) ∧
      0 ≤ threshold meanGapMs variance severity reopenCount) ∧
    ThresholdLaws 900000 21600000 threshold :=
  silenceThreshold_laws (Settings.silenceArguments {}) (by decide) (by decide) (by decide) (by decide)

example : silenceThreshold (Settings.silenceArguments {}) 5000 250000 "critical" 5 = .ok 21600000 := by decide +kernel

end PulseGraph
