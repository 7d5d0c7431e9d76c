/-
# The adaptive silence window

`src/engine/adaptive_ewma.py` in exact arithmetic: gaps, mean and variance are
rational.  The square root of the variance only ever reaches the program rounded
up, in `math.ceil(mean + math.sqrt(variance))`, which `ceilAddSqrt` computes
(`le_ceilAddSqrt`, `ceilAddSqrt_le`).
-/

import PulseGraph.Contracts
import PulseGraph.Library.Checked
import Mathlib.Tactic.Linarith
import Mathlib.Tactic.Ring

namespace PulseGraph

open Library (bind_eq_ok mapM_eq_pure)

/-- `DEFAULT_INITIAL_WINDOW_MS`. -/
def defaultInitialWindowMs : ℤ := 5000

/-- `DEFAULT_MAX_WINDOW_MS`. -/
def defaultMaxWindowMs : ℤ := 300000

/-- `math.ceil(m + math.sqrt(v))`: the root of `v` lies in `[k, k + 1)` for the
integer root `k` of `⌊v⌋`, so the value is `⌈m⌉ + k` or one more. -/
def ceilAddSqrt (m v : ℚ) : ℤ :=
  let n := ⌈m⌉ + Nat.sqrt ⌊v⌋₊
  if v ≤ ((n : ℚ) - m) ^ 2 then n else n + 1

/-- What `calculate_quiet_deadline` returns. -/
structure QuietDeadline where
  quietAtMs : Option ℤ
  meanGap : ℚ
  variance : ℚ

/-- `_validate_gap`; every rational is finite. -/
def validateGap (gap : ℚ) : Except EngineError ℚ :=
  if gap < 0 then .error (.valueError "gap values must be finite and non-negative") else .ok gap

/-- One smoothing step of the mean and the variance. -/
def ewmaStep (alpha : ℚ) (s : ℚ × ℚ) (gap : ℚ) : ℚ × ℚ :=
  ((1 - alpha) * s.1 + alpha * gap, (1 - alpha) * (s.2 + alpha * (gap - s.1) ^ 2))

/-- `calculate_quiet_deadline`: predict an adaptive quiet deadline from observed inter-arrival gaps. -/
def calculateQuietDeadline (gapHistory : List ℚ) (lastGap : ℚ) (currentTime : ℤ)
    (maxWindowMs : Option ℤ := none) : Except EngineError QuietDeadline := do
  let gaps ← gapHistory.mapM validateGap
  let lastGap ← validateGap lastGap
  let ceiling := maxWindowMs.getD defaultMaxWindowMs
  if ceiling ≤ 0 then .error (.valueError "max_window_ms must be greater than zero")
  else match gaps with
    | [] => .ok ⟨some (currentTime + min defaultInitialWindowMs ceiling), lastGap, 0⟩
    | first :: rest =>
        let alpha : ℚ := 2 / ((rest.length + 2 : ℕ) + 1)
        let (meanGap, variance) := (rest ++ [lastGap]).foldl (ewmaStep alpha) (first, 0)
        let silenceWindow := min (ceilAddSqrt meanGap variance) ceiling
        .ok ⟨some (currentTime + max 1 silenceWindow), meanGap, variance⟩

/-! ## The rounded root -/

/-- The rounded sum is at least the mean, and its square distance covers the variance. -/
theorem le_ceilAddSqrt {m v : ℚ} :
    m ≤ ceilAddSqrt m v ∧ v ≤ ((ceilAddSqrt m v : ℚ) - m) ^ 2 := by
  have hm : m ≤ (⌈m⌉ : ℚ) := Int.le_ceil m
  have hk : (0 : ℚ) ≤ (Nat.sqrt ⌊v⌋₊ : ℚ) := Nat.cast_nonneg _
  have hroot : v < ((Nat.sqrt ⌊v⌋₊ : ℚ) + 1) ^ 2 := by
    have h1 : ⌊v⌋₊ + 1 ≤ (Nat.sqrt ⌊v⌋₊ + 1) ^ 2 := by
      have := Nat.lt_succ_sqrt ⌊v⌋₊
      rw [pow_two]; exact this
    have h2 : v < (⌊v⌋₊ : ℚ) + 1 := Nat.lt_floor_add_one v
    have h3 : ((⌊v⌋₊ + 1 : ℕ) : ℚ) ≤ (((Nat.sqrt ⌊v⌋₊ + 1) ^ 2 : ℕ) : ℚ) := by exact_mod_cast h1
    push_cast at h3
    linarith
  unfold ceilAddSqrt
  dsimp only
  split_ifs with h
  · refine ⟨?_, h⟩
    push_cast
    linarith
  · push_cast
    refine ⟨by linarith, ?_⟩
    nlinarith

/-- No smaller integer at or above the mean covers the variance. -/
theorem ceilAddSqrt_le {m v : ℚ} {n : ℤ} (hv : 0 ≤ v) (hm : m ≤ n) (hn : v ≤ ((n : ℚ) - m) ^ 2) :
    ceilAddSqrt m v ≤ n := by
  have hk : (Nat.sqrt ⌊v⌋₊ : ℚ) ^ 2 ≤ v := by
    have h1 : Nat.sqrt ⌊v⌋₊ ^ 2 ≤ ⌊v⌋₊ := Nat.sqrt_le' _
    have h2 : ((⌊v⌋₊ : ℕ) : ℚ) ≤ v := Nat.floor_le hv
    have h3 : ((Nat.sqrt ⌊v⌋₊ ^ 2 : ℕ) : ℚ) ≤ (⌊v⌋₊ : ℚ) := by exact_mod_cast h1
    push_cast at h3
    linarith
  have hk0 : (0 : ℚ) ≤ (Nat.sqrt ⌊v⌋₊ : ℚ) := Nat.cast_nonneg _
  -- the distance to the mean covers the integer root
  have hdist : (Nat.sqrt ⌊v⌋₊ : ℚ) ≤ (n : ℚ) - m :=
    le_of_sq_le_sq (hk.trans hn) (by linarith)
  have hfirst : ⌈m⌉ + (Nat.sqrt ⌊v⌋₊ : ℤ) ≤ n := by
    have : ⌈m⌉ ≤ n - (Nat.sqrt ⌊v⌋₊ : ℤ) := Int.ceil_le.2 (by push_cast; linarith)
    omega
  unfold ceilAddSqrt
  dsimp only
  split_ifs with h
  · exact hfirst
  · rcases hfirst.lt_or_eq with hlt | heq
    · omega
    · exact absurd (heq ▸ hn) h

/-! ## When a deadline is predicted -/

theorem mapM_validateGap {gaps : List ℚ} (h : ∀ g ∈ gaps, 0 ≤ g) :
    gaps.mapM validateGap = .ok gaps := by
  have hvalid : ∀ g ∈ gaps, validateGap g = pure g := by
    intro g hg
    unfold validateGap
    rw [if_neg (not_lt.2 (h g hg))]
    rfl
  have hall := mapM_eq_pure hvalid
  rw [List.map_id'] at hall
  exact hall

/-- **Nonnegative gaps under a positive ceiling always give a deadline**, later than now. -/
theorem calculateQuietDeadline_ok {gaps : List ℚ} {lastGap : ℚ} {now : ℤ} {maxWindowMs : ℤ}
    (hg : ∀ g ∈ gaps, 0 ≤ g) (hl : 0 ≤ lastGap) (hc : 0 < maxWindowMs) :
    ∃ q t, calculateQuietDeadline gaps lastGap now (some maxWindowMs) = .ok q ∧
      q.quietAtMs = some t ∧ now < t := by
  have hlast : validateGap lastGap = .ok lastGap := by
    unfold validateGap; rw [if_neg (not_lt.2 hl)]
  unfold calculateQuietDeadline
  rw [mapM_validateGap hg, hlast]
  have hceil : ¬ maxWindowMs ≤ 0 := not_le.2 hc
  cases gaps with
  | nil =>
      refine ⟨_, _, by simp [bind, Except.bind, hceil]; rfl, rfl, ?_⟩
      unfold defaultInitialWindowMs
      omega
  | cons g gs =>
      refine ⟨_, _, by simp [bind, Except.bind, hceil]; rfl, rfl, ?_⟩
      omega

/-- **A prediction that is made is a deadline later than now.** -/
theorem calculateQuietDeadline_eq_ok {gaps : List ℚ} {lastGap : ℚ} {now : ℤ} {maxWindowMs : Option ℤ}
    {q : QuietDeadline} (h : calculateQuietDeadline gaps lastGap now maxWindowMs = .ok q) :
    ∃ t, q.quietAtMs = some t ∧ now < t := by
  unfold calculateQuietDeadline at h
  obtain ⟨gaps', -, h⟩ := bind_eq_ok.1 h
  obtain ⟨lastGap', -, h⟩ := bind_eq_ok.1 h
  dsimp only at h
  split_ifs at h with hc
  cases gaps' with
  | nil =>
      obtain rfl := Except.ok.inj h
      refine ⟨_, rfl, ?_⟩
      unfold defaultInitialWindowMs
      omega
  | cons g gs =>
      obtain rfl := Except.ok.inj h
      refine ⟨_, rfl, ?_⟩
      omega

end PulseGraph
