/-
# Exponentially weighted averages

A mean and a variance that are updated one observation at a time with a constant gain `a`:
the mean moves towards the observation by the gain, and the variance is decayed and takes up
the squared step.  After any number of observations both are the mean and the variance of the
observations under explicit weights, which the newest observation leads and each older one
trails by a factor `1 - a` (`mean_smoothed`, `variance_smoothed`).

**Proved here.**  A weighted mean lies between the bounds of its values and a weighted
variance is at most a quarter of the squared width of that interval
(`weightedVariance_le`), whatever the weights.
-/

import Mathlib.Algebra.BigOperators.Intervals
import Mathlib.Algebra.BigOperators.Ring.Finset
import Mathlib.Algebra.Order.BigOperators.Ring.Finset
import Mathlib.Data.List.GetD
import Mathlib.Tactic.Linarith
import Mathlib.Tactic.Ring

namespace Library

open Finset

/-! ## Weighted means and variances -/

section Weighted

variable {K : Type*} [Field K] [LinearOrder K] [IsStrictOrderedRing K]

/-- The mean of the first `n` values under weights. -/
def weightedMean (w x : ℕ → K) (n : ℕ) : K := ∑ i ∈ range n, w i * x i

/-- Their variance. -/
def weightedVariance (w x : ℕ → K) (n : ℕ) : K :=
  ∑ i ∈ range n, w i * (x i - weightedMean w x n) ^ 2

variable {w x : ℕ → K} {n : ℕ}

omit [LinearOrder K] [IsStrictOrderedRing K] in
/-- The variance is the mean of the squares less the square of the mean. -/
theorem weightedVariance_eq (hw : ∑ i ∈ range n, w i = 1) :
    weightedVariance w x n = (∑ i ∈ range n, w i * x i ^ 2) - weightedMean w x n ^ 2 := by
  have hexpand : ∀ i, w i * (x i - weightedMean w x n) ^ 2 =
      w i * x i ^ 2 - 2 * weightedMean w x n * (w i * x i) + weightedMean w x n ^ 2 * w i := by
    intro i
    ring
  unfold weightedVariance
  simp only [hexpand]
  rw [sum_add_distrib, sum_sub_distrib, ← mul_sum, ← mul_sum, hw]
  show _ - 2 * weightedMean w x n * weightedMean w x n + _ = _
  ring

variable {lo hi : K}

/-- A weighted mean is at least every lower bound of its values. -/
theorem le_weightedMean (hpos : ∀ i < n, 0 ≤ w i) (hw : ∑ i ∈ range n, w i = 1)
    (hlo : ∀ i < n, lo ≤ x i) : lo ≤ weightedMean w x n := by
  calc lo = ∑ i ∈ range n, w i * lo := by rw [← sum_mul, hw, one_mul]
    _ ≤ weightedMean w x n := sum_le_sum fun i hi =>
        mul_le_mul_of_nonneg_left (hlo i (mem_range.1 hi)) (hpos i (mem_range.1 hi))

/-- And at most every upper bound. -/
theorem weightedMean_le (hpos : ∀ i < n, 0 ≤ w i) (hw : ∑ i ∈ range n, w i = 1)
    (hhi : ∀ i < n, x i ≤ hi) : weightedMean w x n ≤ hi := by
  calc weightedMean w x n ≤ ∑ i ∈ range n, w i * hi := sum_le_sum fun i hi' =>
        mul_le_mul_of_nonneg_left (hhi i (mem_range.1 hi')) (hpos i (mem_range.1 hi'))
    _ = hi := by rw [← sum_mul, hw, one_mul]

theorem weightedVariance_nonneg (hpos : ∀ i < n, 0 ≤ w i) : 0 ≤ weightedVariance w x n :=
  sum_nonneg fun i hi => mul_nonneg (hpos i (mem_range.1 hi)) (sq_nonneg _)

/-- **A bounded variance:** at most a quarter of the squared width of an interval that has
all the values. -/
theorem weightedVariance_le (hpos : ∀ i < n, 0 ≤ w i) (hw : ∑ i ∈ range n, w i = 1)
    (hlo : ∀ i < n, lo ≤ x i) (hhi : ∀ i < n, x i ≤ hi) :
    weightedVariance w x n ≤ (hi - lo) ^ 2 / 4 := by
  -- the values lie between the bounds, so the mean of these products is nonnegative
  have hproduct : 0 ≤ ∑ i ∈ range n, w i * ((hi - x i) * (x i - lo)) := by
    refine sum_nonneg fun i hi' => mul_nonneg (hpos i (mem_range.1 hi')) (mul_nonneg ?_ ?_)
    · linarith [hhi i (mem_range.1 hi')]
    · linarith [hlo i (mem_range.1 hi')]
  have hexpand : ∑ i ∈ range n, w i * ((hi - x i) * (x i - lo)) =
      (hi + lo) * weightedMean w x n - (∑ i ∈ range n, w i * x i ^ 2) - hi * lo := by
    have hterm : ∀ i, w i * ((hi - x i) * (x i - lo)) =
        (hi + lo) * (w i * x i) - w i * x i ^ 2 - hi * lo * w i := by
      intro i
      ring
    simp only [hterm]
    rw [sum_sub_distrib, sum_sub_distrib, ← mul_sum, ← mul_sum, hw, mul_one]
    rfl
  rw [weightedVariance_eq hw]
  nlinarith [sq_nonneg (hi + lo - 2 * weightedMean w x n)]

end Weighted

/-! ## Smoothing -/

section Smoothing

variable {K : Type*} [Field K] [LinearOrder K] [IsStrictOrderedRing K]

/-- One observation: the mean moves by the gain, the variance decays and takes up the step. -/
def smooth (a : K) (s : K × K) (x : K) : K × K :=
  ((1 - a) * s.1 + a * x, (1 - a) * (s.2 + a * (x - s.1) ^ 2))

/-- The weight of the `i`-th of `n` observations, counted from the oldest, which is number 0. -/
def smoothingWeight (a : K) (n i : ℕ) : K :=
  if i = 0 then (1 - a) ^ (n - 1) else a * (1 - a) ^ (n - 1 - i)

/-- The mean and the variance after the observations `x 0, …, x n`. -/
def smoothed (a : K) (x : ℕ → K) : ℕ → K × K
  | 0 => (x 0, 0)
  | n + 1 => smooth a (smoothed a x n) (x (n + 1))

variable {a : K} {x : ℕ → K} {n : ℕ}

omit [LinearOrder K] [IsStrictOrderedRing K] in
/-- One more observation decays the weights of those before it. -/
theorem smoothingWeight_succ {i : ℕ} (hi : i < n + 1) :
    smoothingWeight a (n + 2) i = (1 - a) * smoothingWeight a (n + 1) i := by
  unfold smoothingWeight
  split_ifs with h
  · show (1 - a) ^ (n + 1) = (1 - a) * (1 - a) ^ n
    rw [pow_succ]
    ring
  · have hexp : n + 2 - 1 - i = (n + 1 - 1 - i) + 1 := by omega
    rw [hexp, pow_succ]
    ring

omit [LinearOrder K] [IsStrictOrderedRing K] in
/-- The newest observation has the gain for its weight. -/
theorem smoothingWeight_last : smoothingWeight a (n + 2) (n + 1) = a := by
  unfold smoothingWeight
  rw [if_neg (Nat.succ_ne_zero n)]
  simp

omit [LinearOrder K] [IsStrictOrderedRing K] in
/-- A sum under the weights of one observation more. -/
theorem sum_smoothingWeight_succ (f : ℕ → K) :
    ∑ i ∈ range (n + 2), smoothingWeight a (n + 2) i * f i =
      (1 - a) * (∑ i ∈ range (n + 1), smoothingWeight a (n + 1) i * f i) + a * f (n + 1) := by
  rw [sum_range_succ, smoothingWeight_last, mul_sum]
  congr 1
  refine sum_congr rfl fun i hi => ?_
  rw [smoothingWeight_succ (mem_range.1 hi), mul_assoc]

omit [LinearOrder K] [IsStrictOrderedRing K] in
/-- **The weights sum to one.** -/
theorem sum_smoothingWeight (a : K) (n : ℕ) :
    ∑ i ∈ range (n + 1), smoothingWeight a (n + 1) i = 1 := by
  induction n with
  | zero => simp [smoothingWeight]
  | succ n ih =>
      have hsum := @sum_smoothingWeight_succ K _ a n fun _ => 1
      simp only [mul_one] at hsum
      rw [hsum, ih]
      ring

theorem smoothingWeight_nonneg (h0 : 0 ≤ a) (h1 : a ≤ 1) (n i : ℕ) : 0 ≤ smoothingWeight a n i := by
  have hdecay : 0 ≤ 1 - a := by linarith
  unfold smoothingWeight
  split_ifs
  · exact pow_nonneg hdecay _
  · exact mul_nonneg h0 (pow_nonneg hdecay _)

omit [LinearOrder K] [IsStrictOrderedRing K] in
/-- **The smoothed mean** is the weighted mean of the observations. -/
theorem mean_smoothed (a : K) (x : ℕ → K) (n : ℕ) :
    (smoothed a x n).1 = weightedMean (smoothingWeight a (n + 1)) x (n + 1) := by
  induction n with
  | zero => simp [smoothed, weightedMean, smoothingWeight]
  | succ n ih =>
      unfold weightedMean
      rw [sum_smoothingWeight_succ, ← weightedMean, ← ih]
      rfl

omit [LinearOrder K] [IsStrictOrderedRing K] in
/-- **The smoothed variance** is their weighted variance. -/
theorem variance_smoothed (a : K) (x : ℕ → K) (n : ℕ) :
    (smoothed a x n).2 = weightedVariance (smoothingWeight a (n + 1)) x (n + 1) := by
  rw [weightedVariance_eq (sum_smoothingWeight a n), ← mean_smoothed]
  induction n with
  | zero => simp [smoothed, smoothingWeight]
  | succ n ih =>
      rw [sum_smoothingWeight_succ]
      show (1 - a) * ((smoothed a x n).2 + a * (x (n + 1) - (smoothed a x n).1) ^ 2) =
        _ - ((1 - a) * (smoothed a x n).1 + a * x (n + 1)) ^ 2
      rw [ih]
      ring

omit [LinearOrder K] [IsStrictOrderedRing K] in
/-- Smoothing a list of observations after a first one. -/
theorem foldl_smooth (a first d : K) (rest : List K) :
    rest.foldl (smooth a) (first, 0) = smoothed a (fun i => (first :: rest).getD i d) rest.length := by
  induction rest using List.reverseRecOn with
  | nil => rfl
  | append_singleton rest y ih =>
      rw [List.foldl_append, List.foldl_cons, List.foldl_nil, ih, List.length_append,
        List.length_singleton]
      -- the observations before the last are the same in both lists
      have hsame : ∀ n ≤ rest.length, smoothed a (fun i => (first :: rest).getD i d) n =
          smoothed a (fun i => (first :: (rest ++ [y])).getD i d) n := by
        intro n hn
        induction n with
        | zero => rfl
        | succ n ih =>
            rw [smoothed, smoothed, ih (by omega)]
            congr 1
            rw [List.getD_cons_succ, List.getD_cons_succ, List.getD_append _ _ _ _ (by omega)]
      rw [smoothed, hsame _ le_rfl]
      congr 1
      rw [List.getD_cons_succ, List.getD_append_right _ _ _ _ le_rfl]
      simp

end Smoothing

end Library
