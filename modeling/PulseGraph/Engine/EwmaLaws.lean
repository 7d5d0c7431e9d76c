/-
# What the silence window averages

`calculate_quiet_deadline` appends the last gap to the history and smooths all of them with
the gain `2 / (n + 1)` of their number.  Its mean and its variance are those of the gaps under
fixed weights (`Library.smoothingWeight`), so they stay between the bounds of the gaps, and
the deadline is at least one millisecond and at most the ceiling away.

A gap arrives as a float: a number, or one of the three that `math.isfinite` refuses.

**Proved here.**  `quietDeadline_laws`: the function raises exactly on a gap that is negative
or not finite, and otherwise its result is the closed form with its bounds (`SmoothedGaps`).
-/

import PulseGraph.Engine.AdaptiveEwma
import PulseGraph.Library.ExponentialAverage

namespace PulseGraph

open Library (bind_eq_error bind_eq_ok foldl_smooth mapM_eq_error mapM_eq_pure smooth smoothed
  smoothingWeight sum_smoothingWeight smoothingWeight_nonneg mean_smoothed variance_smoothed
  weightedMean weightedVariance)

/-! ## Gaps as they arrive -/

/-- `_validate_gap` on a float; `none` is an infinity or no number. -/
def validateFloat (gap : Option ℚ) : Except EngineError ℚ :=
  match gap with
  | none => .error (.valueError "gap values must be finite and non-negative")
  | some gap => validateGap gap

/-- `calculate_quiet_deadline` on floats. -/
def quietDeadline (gapHistory : List (Option ℚ)) (lastGap : Option ℚ) (currentTime : ℤ)
    (maxWindowMs : Option ℤ) : Except EngineError QuietDeadline := do
  let gaps ← gapHistory.mapM validateFloat
  let lastGap ← validateFloat lastGap
  calculateQuietDeadline gaps lastGap currentTime maxWindowMs

/-- Finite and not negative. -/
def ValidGap (gap : Option ℚ) : Prop := ∃ g, gap = some g ∧ 0 ≤ g

theorem validateFloat_eq_ok {gap : Option ℚ} {g : ℚ} :
    validateFloat gap = .ok g ↔ gap = some g ∧ 0 ≤ g := by
  unfold validateFloat validateGap
  cases gap with
  | none => simp
  | some g' =>
      simp only [Option.some.injEq]
      split_ifs with h
      · simp only [false_iff, not_and, not_le]
        rintro rfl
        exact h
      · constructor
        · rintro ⟨⟩
          exact ⟨rfl, not_lt.1 h⟩
        · rintro ⟨rfl, -⟩
          rfl

theorem mapM_validateFloat {gaps : List ℚ} (h : ∀ g ∈ gaps, 0 ≤ g) :
    (gaps.map some).mapM validateFloat = .ok gaps := by
  have hvalid : ∀ g ∈ gaps, validateFloat (some g) = pure g :=
    fun g hg => validateFloat_eq_ok.2 ⟨rfl, h g hg⟩
  have hall := mapM_eq_pure hvalid
  rw [List.map_id'] at hall
  rw [List.mapM_map]
  exact hall

/-- Valid floats are numbers. -/
theorem exists_map_some {gaps : List (Option ℚ)} (h : ∀ gap ∈ gaps, ValidGap gap) :
    ∃ gs : List ℚ, gaps = gs.map some ∧ ∀ g ∈ gs, 0 ≤ g := by
  induction gaps with
  | nil => exact ⟨[], rfl, by simp⟩
  | cons gap gaps ih =>
      obtain ⟨g, rfl, hg⟩ := h gap List.mem_cons_self
      obtain ⟨gs, rfl, hgs⟩ := ih fun x hx => h x (List.mem_cons_of_mem _ hx)
      refine ⟨g :: gs, rfl, fun x hx => ?_⟩
      rcases List.mem_cons.1 hx with rfl | hx
      · exact hg
      · exact hgs x hx

/-! ## The closed form -/

/-- The gain for `n` gaps. -/
def ewmaGain (n : ℕ) : ℚ := 2 / (n + 1)

theorem ewmaGain_nonneg (n : ℕ) : 0 ≤ ewmaGain n := by
  unfold ewmaGain
  positivity

theorem ewmaGain_le_one {n : ℕ} (hn : 1 ≤ n) : ewmaGain n ≤ 1 := by
  have hcast : (1 : ℚ) ≤ n := by exact_mod_cast hn
  unfold ewmaGain
  rw [div_le_one (by linarith)]
  linarith

/-- The weight of the `i`-th of `n` gaps, counted from the oldest, which is number 0. -/
def gapWeight (n i : ℕ) : ℚ :=
  if i = 0 then (1 - ewmaGain n) ^ (n - 1) else ewmaGain n * (1 - ewmaGain n) ^ (n - 1 - i)

/-- The weighted mean of the gaps. -/
def gapMean (gaps : List ℚ) : ℚ :=
  ∑ i ∈ Finset.range gaps.length, gapWeight gaps.length i * gaps.getD i 0

/-- Their weighted variance. -/
def gapVariance (gaps : List ℚ) : ℚ :=
  ∑ i ∈ Finset.range gaps.length, gapWeight gaps.length i * (gaps.getD i 0 - gapMean gaps) ^ 2

/-- The result is the closed form of the gaps, within their bounds, with a deadline at least
one millisecond and at most the ceiling away. -/
structure SmoothedGaps (gaps : List ℚ) (now ceiling : ℤ) (r : QuietDeadline) : Prop where
  weights : ∑ i ∈ Finset.range gaps.length, gapWeight gaps.length i = 1
  mean : r.meanGap = gapMean gaps
  variance : r.variance = gapVariance gaps
  bounds : ∃ least ∈ gaps, ∃ greatest ∈ gaps, (∀ g ∈ gaps, least ≤ g ∧ g ≤ greatest) ∧
    least ≤ r.meanGap ∧ r.meanGap ≤ greatest ∧
      0 ≤ r.variance ∧ r.variance ≤ (greatest - least) ^ 2 / 4
  deadline : ∃ t, r.quietAtMs = some t ∧ 1 ≤ t - now ∧ t - now ≤ ceiling

theorem exists_bounds {gaps : List ℚ} (hne : gaps ≠ []) :
    ∃ least ∈ gaps, ∃ greatest ∈ gaps, ∀ g ∈ gaps, least ≤ g ∧ g ≤ greatest := by
  induction gaps with
  | nil => exact absurd rfl hne
  | cons g gs ih =>
      by_cases hgs : gs = []
      · subst hgs
        exact ⟨g, by simp, g, by simp, by simp⟩
      · obtain ⟨least, hleast, greatest, hgreatest, hall⟩ := ih hgs
        have hmin : min g least ∈ g :: gs := by
          rcases min_choice g least with h | h <;> rw [h] <;> simp [hleast]
        have hmax : max g greatest ∈ g :: gs := by
          rcases max_choice g greatest with h | h <;> rw [h] <;> simp [hgreatest]
        refine ⟨_, hmin, _, hmax, fun x hx => ?_⟩
        rcases List.mem_cons.1 hx with rfl | hx
        · exact ⟨min_le_left _ _, le_max_left _ _⟩
        · obtain ⟨h₁, h₂⟩ := hall x hx
          exact ⟨(min_le_right _ _).trans h₁, h₂.trans (le_max_right _ _)⟩

/-- **The bounds of the closed form.** -/
theorem gapMean_bounds {gaps : List ℚ} {lo hi : ℚ} (hne : gaps ≠ [])
    (h : ∀ g ∈ gaps, lo ≤ g ∧ g ≤ hi) :
    lo ≤ gapMean gaps ∧ gapMean gaps ≤ hi ∧ 0 ≤ gapVariance gaps ∧
      gapVariance gaps ≤ (hi - lo) ^ 2 / 4 := by
  obtain ⟨n, hn⟩ := Nat.exists_eq_succ_of_ne_zero fun h0 => hne (List.length_eq_zero_iff.1 h0)
  have hpos : ∀ i < gaps.length, 0 ≤ gapWeight gaps.length i := fun i _ =>
    smoothingWeight_nonneg (ewmaGain_nonneg _) (ewmaGain_le_one (by omega)) _ i
  have hsum : ∑ i ∈ Finset.range gaps.length, gapWeight gaps.length i = 1 := by
    rw [hn]
    exact sum_smoothingWeight (ewmaGain (n + 1)) n
  have hmem : ∀ i < gaps.length, gaps.getD i 0 ∈ gaps := by
    intro i hi
    rw [List.getD_eq_getElem _ _ hi]
    exact List.getElem_mem hi
  have hlo : ∀ i < gaps.length, lo ≤ gaps.getD i 0 := fun i hi => (h _ (hmem i hi)).1
  have hhi : ∀ i < gaps.length, gaps.getD i 0 ≤ hi := fun i hi => (h _ (hmem i hi)).2
  exact ⟨Library.le_weightedMean hpos hsum hlo, Library.weightedMean_le hpos hsum hhi,
    Library.weightedVariance_nonneg hpos, Library.weightedVariance_le hpos hsum hlo hhi⟩

/-- **The closed form** of a history that is not empty and a last gap. -/
theorem calculateQuietDeadline_smoothed {first : ℚ} {rest : List ℚ} {lastGap : ℚ} {now ceiling : ℤ}
    (hgaps : ∀ g ∈ first :: rest, 0 ≤ g) (hlast : 0 ≤ lastGap) (hc : 1 ≤ ceiling) :
    ∃ r, calculateQuietDeadline (first :: rest) lastGap now (some ceiling) = .ok r ∧
      SmoothedGaps (first :: rest ++ [lastGap]) now ceiling r := by
  have hvalid : validateGap lastGap = .ok lastGap := by
    unfold validateGap
    rw [if_neg (not_lt.2 hlast)]
  have hstep : ewmaStep = smooth := rfl
  obtain ⟨gaps, hdef⟩ : ∃ gaps, gaps = first :: rest ++ [lastGap] := ⟨_, rfl⟩
  have hlength : gaps.length = rest.length + 2 := by simp [hdef]
  have hne : gaps ≠ [] := by simp [hdef]
  have hfold : (rest ++ [lastGap]).foldl (ewmaStep (ewmaGain (rest.length + 2))) (first, 0) =
      (gapMean gaps, gapVariance gaps) := by
    rw [hstep, foldl_smooth _ _ 0, List.length_append, List.length_singleton, ← List.cons_append,
      ← hdef]
    refine Prod.ext ?_ ?_
    · rw [mean_smoothed, gapMean, hlength]
      rfl
    · rw [variance_smoothed, gapVariance, gapMean, hlength]
      rfl
  obtain ⟨least, hleast, greatest, hgreatest, hall⟩ := exists_bounds hne
  obtain ⟨hlo, hhi, hnonneg, hvariance⟩ := gapMean_bounds hne hall
  rw [← hdef]
  refine ⟨⟨some (now + max 1 (min (ceilAddSqrt (gapMean gaps) (gapVariance gaps)) ceiling)),
    gapMean gaps, gapVariance gaps⟩, ?_, ?_, rfl, rfl,
    ⟨least, hleast, greatest, hgreatest, hall, hlo, hhi, hnonneg, hvariance⟩, _, rfl, ?_, ?_⟩
  · unfold calculateQuietDeadline
    rw [mapM_validateGap hgaps, hvalid]
    simp only [bind, Except.bind, Option.getD_some]
    rw [if_neg (by omega)]
    show (fun p : ℚ × ℚ => Except.ok (QuietDeadline.mk
        (some (now + max 1 (min (ceilAddSqrt p.1 p.2) ceiling))) p.1 p.2))
      ((rest ++ [lastGap]).foldl (ewmaStep (ewmaGain (rest.length + 2))) (first, 0)) = _
    rw [hfold]
  · rw [hlength]
    exact sum_smoothingWeight (ewmaGain (rest.length + 2)) (rest.length + 1)
  · omega
  · omega

/-- **When the silence window raises, and what it averages.**  For a history that is not empty
and a ceiling of at least one millisecond the function raises if and only if a gap is negative
or not finite; otherwise its mean and variance are those of all the gaps under the weights of
`gapWeight`, which sum to one, with the bounds that follow. -/
theorem quietDeadline_laws {history : List (Option ℚ)} {lastGap : Option ℚ} {now ceiling : ℤ}
    (hne : history ≠ []) (hc : 1 ≤ ceiling) :
    ((∃ e, quietDeadline history lastGap now (some ceiling) = .error e) ↔
      ∃ gap ∈ history ++ [lastGap], ¬ ValidGap gap) ∧
    ((∀ gap ∈ history ++ [lastGap], ValidGap gap) →
      ∃ gaps r, history ++ [lastGap] = gaps.map some ∧
        quietDeadline history lastGap now (some ceiling) = .ok r ∧ SmoothedGaps gaps now ceiling r) := by
  have hok : (∀ gap ∈ history ++ [lastGap], ValidGap gap) →
      ∃ gaps r, history ++ [lastGap] = gaps.map some ∧
        quietDeadline history lastGap now (some ceiling) = .ok r ∧
          SmoothedGaps gaps now ceiling r := by
    intro h
    obtain ⟨gs, rfl, hgs⟩ := exists_map_some fun gap hgap => h gap (List.mem_append_left _ hgap)
    obtain ⟨last, rfl, hlast⟩ := h lastGap (by simp)
    cases gs with
    | nil => exact absurd rfl hne
    | cons first rest =>
        obtain ⟨r, hr, hsmooth⟩ :=
          @calculateQuietDeadline_smoothed first rest last now ceiling hgs hlast hc
        refine ⟨first :: rest ++ [last], r, by simp, ?_, hsmooth⟩
        unfold quietDeadline
        rw [mapM_validateFloat hgs, validateFloat_eq_ok.2 ⟨rfl, hlast⟩]
        exact hr
  refine ⟨⟨?_, ?_⟩, hok⟩
  · rintro ⟨e, he⟩
    by_contra hvalid
    push Not at hvalid
    obtain ⟨gaps, r, -, hr, -⟩ := hok hvalid
    cases he.symm.trans hr
  · rintro ⟨gap, hgap, hinvalid⟩
    cases hq : quietDeadline history lastGap now (some ceiling) with
    | error e => exact ⟨e, rfl⟩
    | ok r =>
        exfalso
        unfold quietDeadline at hq
        obtain ⟨gaps, hgaps, hq⟩ := bind_eq_ok.1 hq
        obtain ⟨last, hlast, -⟩ := bind_eq_ok.1 hq
        refine hinvalid ?_
        rcases List.mem_append.1 hgap with hmem | hmem
        · obtain ⟨g, hg⟩ := Library.mapM_ok_of_mem hgaps hmem
          exact ⟨g, validateFloat_eq_ok.1 hg⟩
        · rw [List.mem_singleton.1 hmem]
          exact ⟨last, validateFloat_eq_ok.1 hlast⟩

/-- Three gaps. -/
theorem quietDeadline_laws_three :
    ((∃ e, quietDeadline [some 1000, some 3000] (some 2000) 5 (some 300000) = .error e) ↔
      ∃ gap ∈ [some (1000 : ℚ), some 3000] ++ [some 2000], ¬ ValidGap gap) ∧
    ((∀ gap ∈ [some (1000 : ℚ), some 3000] ++ [some 2000], ValidGap gap) →
      ∃ gaps r, [some (1000 : ℚ), some 3000] ++ [some 2000] = gaps.map some ∧
        quietDeadline [some 1000, some 3000] (some 2000) 5 (some 300000) = .ok r ∧
          SmoothedGaps gaps 5 300000 r) :=
  quietDeadline_laws (by simp) (by decide)

/-- The gain is one half: the mean is a quarter of the first two gaps and a half of the last. -/
example : (quietDeadline [some 1000, some 3000] (some 2000) 5 (some 300000)).toOption.map
    (fun r => (r.quietAtMs, r.meanGap, r.variance)) = some (some 2713, 2000, 500000) := by
  decide +kernel

end PulseGraph
