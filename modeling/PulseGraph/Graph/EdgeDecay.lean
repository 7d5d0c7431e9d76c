/-
# Decay in exact arithmetic

`src/graph/edge_decay.py` halves a counter in each half-life.  A counter is stored with the
instant it was last written at and is only decayed when it is read or written again, so what
it means is its *age-corrected* value at any instant, `aged`; one more observation adds that
observation's own decayed one to it, whenever the counter was written before
(`aged_nextCount`, `aged_nextWeight`): over a list of rounds, `halvedSum`.
-/

import PulseGraph.Graph.Rounds
import Mathlib.Analysis.SpecialFunctions.Pow.Real

namespace PulseGraph

open Library (bind_eq_ok)

/-! ## What is not refused -/

section Valid

variable {K : Type} [Field K] [LinearOrder K] {rt : Runtime K}

theorem validateNonNegative_of_nonneg {value : K} (h : 0 ≤ value) (fieldName : String) :
    validateNonNegative value fieldName = .ok value := if_neg (not_lt.2 h)

theorem validateNonNegative_eq_ok {value v : K} {fieldName : String}
    (h : validateNonNegative value fieldName = .ok v) : v = value ∧ 0 ≤ value := by
  unfold validateNonNegative at h
  split_ifs at h with hneg
  exact ⟨(Except.ok.inj h).symm, not_lt.1 hneg⟩

/-- Nonnegative weights are decayed by one factor. -/
theorem decayWeights_of_nonneg {joint source target elapsedMs halfLifeMs : K} (hj : 0 ≤ joint)
    (hs : 0 ≤ source) (ht : 0 ≤ target) (he : 0 ≤ elapsedMs) (hh : 0 < halfLifeMs) :
    decayWeights rt joint source target elapsedMs halfLifeMs =
      .ok ⟨decay rt joint elapsedMs halfLifeMs, decay rt source elapsedMs halfLifeMs,
        decay rt target elapsedMs halfLifeMs⟩ := by
  unfold decayWeights
  rw [validateNonNegative_of_nonneg hj, validateNonNegative_of_nonneg hs,
    validateNonNegative_of_nonneg ht, validateNonNegative_of_nonneg he,
    validateNonNegative_of_nonneg hh.le]
  exact if_neg hh.ne'

/-- What is decayed was decayed by one factor. -/
theorem decayWeights_eq_ok {joint source target elapsedMs halfLifeMs : K} {w : DecayedWeights K}
    (h : decayWeights rt joint source target elapsedMs halfLifeMs = .ok w) :
    w.joint = decay rt joint elapsedMs halfLifeMs := by
  unfold decayWeights at h
  obtain ⟨j, hj, h⟩ := bind_eq_ok.1 h
  obtain ⟨s, -, h⟩ := bind_eq_ok.1 h
  obtain ⟨t, -, h⟩ := bind_eq_ok.1 h
  obtain ⟨e, he, h⟩ := bind_eq_ok.1 h
  obtain ⟨l, hl, h⟩ := bind_eq_ok.1 h
  split_ifs at h
  obtain rfl := Except.ok.inj h
  rw [(validateNonNegative_eq_ok hj).1, (validateNonNegative_eq_ok he).1,
    (validateNonNegative_eq_ok hl).1]

end Valid

/-! ## Exact halving -/

/-- `math.exp(-math.log(2.0) * elapsed_ms / half_life_ms)` without rounding. -/
noncomputable def exactHalving (elapsedMs halfLifeMs : ℝ) : ℝ :=
  Real.exp (-Real.log 2 * elapsedMs / halfLifeMs)

/-- A runtime whose exponential is exact. -/
def Runtime.Exact (rt : Runtime ℝ) : Prop := rt.halving = exactHalving

/-- What is left of one after `elapsedMs` milliseconds. -/
noncomputable def remaining (elapsedMs : ℝ) : ℝ := exactHalving elapsedMs defaultHalfLifeMs

theorem remaining_pos (e : ℝ) : 0 < remaining e := Real.exp_pos _

@[simp] theorem remaining_zero : remaining 0 = 1 := by simp [remaining, exactHalving]

/-- Decays follow each other. -/
theorem remaining_add (a b : ℝ) : remaining (a + b) = remaining a * remaining b := by
  unfold remaining exactHalving
  rw [← Real.exp_add]
  congr 1
  ring

/-- **A power of two**, halved in each half-life. -/
theorem remaining_eq_rpow (e : ℝ) : remaining e = (2 : ℝ) ^ (-e / defaultHalfLifeMs) := by
  unfold remaining exactHalving
  rw [Real.rpow_def_of_pos two_pos]
  congr 1
  ring

/-- Nothing is lost in no time only. -/
theorem remaining_eq_one {e : ℝ} : remaining e = 1 ↔ e = 0 := by
  have hlog : Real.log 2 ≠ 0 := (Real.log_pos one_lt_two).ne'
  have hhalf : (defaultHalfLifeMs : ℝ) ≠ 0 := by norm_num [defaultHalfLifeMs]
  unfold remaining exactHalving
  rw [Real.exp_eq_one_iff, div_eq_zero_iff, mul_eq_zero, neg_eq_zero]
  tauto

/-! ## Counters that forget -/

/-- What a stored counter is worth at an instant; one without a row is worth nothing. -/
noncomputable def aged (row : Option (ℝ × ℤ)) (t : ℝ) : ℝ :=
  match row with
  | none => 0
  | some (count, last) => count * remaining (t - last)

section Counters

variable {rt : Runtime ℝ} {now : ℤ}

theorem decay_exact (hexact : rt.Exact) (value elapsedMs : ℝ) :
    decay rt value elapsedMs defaultHalfLifeMs = value * remaining elapsedMs := by
  unfold decay
  rw [hexact]
  rfl

/-- **One more observation.**  A counter written before is worth at any instant what it was worth
and what is left of the new observation. -/
theorem aged_nextCount {row : Option (ℝ × ℤ)} {count : ℝ} (hexact : rt.Exact)
    (hdated : ∀ r, row = some r → r.2 ≤ now) (h : nextCount rt row now = .ok count) (t : ℝ) :
    aged (some (count, now)) t = aged row t + remaining (t - now) := by
  cases row with
  | none =>
      obtain rfl := Except.ok.inj h
      simp [aged]
  | some r =>
      obtain ⟨value, last⟩ := r
      have hlast : last ≤ now := hdated _ rfl
      unfold nextCount at h
      obtain ⟨decayed, hd, h⟩ := bind_eq_ok.1 h
      obtain rfl := Except.ok.inj h
      have helapsed : ((max 0 (now - last) : ℤ) : ℝ) = (now : ℝ) - last := by
        rw [max_eq_right (by omega)]
        push_cast
        ring
      show (decayed.joint + 1) * remaining (t - now) = value * remaining (t - last) + remaining (t - now)
      rw [decayWeights_eq_ok hd, decay_exact hexact, helapsed]
      have hsplit : (t : ℝ) - last = (now - last) + (t - now) := by ring
      rw [hsplit, remaining_add]
      ring

/-- What a stored counter of nonnegative value is decayed to. -/
theorem decayWeights_elapsed {joint source target : ℝ} {last : ℤ} (hj : 0 ≤ joint) (hs : 0 ≤ source)
    (ht : 0 ≤ target) : ∃ w, decayWeights rt joint source target ((max 0 (now - last) : ℤ) : ℝ)
      defaultHalfLifeMs = .ok w ∧
      w.joint = decay rt joint ((max 0 (now - last) : ℤ) : ℝ) defaultHalfLifeMs := by
  refine ⟨_, decayWeights_of_nonneg hj hs ht ?_ ?_, rfl⟩
  · exact_mod_cast le_max_left 0 (now - last)
  · norm_num [defaultHalfLifeMs]

/-- A counter that is not negative takes up the next observation. -/
theorem nextCount_of_nonneg {row : Option (ℝ × ℤ)} (hexact : rt.Exact)
    (hpos : ∀ r, row = some r → 0 ≤ r.1) : ∃ count, nextCount rt row now = .ok count ∧ 0 < count := by
  cases row with
  | none => exact ⟨1, rfl, one_pos⟩
  | some r =>
      obtain ⟨w, hw, hjoint⟩ :=
        @decayWeights_elapsed rt now r.1 0 0 r.2 (hpos r rfl) le_rfl le_rfl
      refine ⟨w.joint + 1, ?_, ?_⟩
      · show (decayWeights rt r.1 0 0 ((max 0 (now - r.2) : ℤ) : ℝ) defaultHalfLifeMs >>=
          fun decayed => Except.ok (decayed.joint + 1)) = _
        rw [hw]
        rfl
      · rw [hjoint, decay_exact hexact]
        exact add_pos_of_nonneg_of_pos (mul_nonneg (hpos r rfl) (remaining_pos _).le) one_pos

/-- The weight of an edge is a counter of its observations. -/
theorem nextWeight_eq_nextCount (edge : Option (Edge ℝ))
    (hpos : ∀ e, edge = some e → 0 ≤ e.weight) :
    nextWeight rt edge now = nextCount rt (edge.map fun e => (e.weight, e.lastSeenAt)) now := by
  cases edge with
  | none => rfl
  | some e =>
      have he := hpos e rfl
      obtain ⟨w, hw, hjoint⟩ := @decayWeights_elapsed rt now _ _ _ e.lastSeenAt he he he
      obtain ⟨w', hw', hjoint'⟩ := @decayWeights_elapsed rt now _ 0 0 e.lastSeenAt he le_rfl le_rfl
      have hsame : w.joint = w'.joint := hjoint.trans hjoint'.symm
      unfold nextWeight incrementWeights nextCount
      simp only [Option.map_some]
      rw [hw, hw']
      show Except.ok (w.joint + 1) = Except.ok (w'.joint + 1)
      rw [hsame]

end Counters

/-! ## Sums of what is left -/

/-- What is left at an instant of one observation in each of the rounds. -/
noncomputable def halvedSum (t : ℝ) (rounds : List Round) : ℝ :=
  (rounds.map fun r => (2 : ℝ) ^ (-(t - r.observedAt) / defaultHalfLifeMs)).sum

@[simp] theorem halvedSum_nil (t : ℝ) : halvedSum t [] = 0 := rfl

theorem halvedSum_cons (t : ℝ) (r : Round) (rounds : List Round) :
    halvedSum t (r :: rounds) = halvedSum t rounds + remaining (t - r.observedAt) := by
  unfold halvedSum
  rw [List.map_cons, List.sum_cons, remaining_eq_rpow, add_comm]

theorem halvedSum_nonneg (t : ℝ) (rounds : List Round) : 0 ≤ halvedSum t rounds := by
  induction rounds with
  | nil => exact le_rfl
  | cons r rounds ih =>
      rw [halvedSum_cons]
      exact add_nonneg ih (remaining_pos _).le

/-- One more round, where it counts. -/
theorem halvedSum_filter_cons (t : ℝ) (r : Round) (rounds : List Round) (p : Round → Bool) :
    halvedSum t ((r :: rounds).filter p) =
      halvedSum t (rounds.filter p) + if p r then remaining (t - r.observedAt) else 0 := by
  rw [List.filter_cons]
  split_ifs
  · exact halvedSum_cons _ _ _
  · rw [add_zero]

/-- Two kinds of rounds that exclude each other and are of a third kind. -/
theorem halvedSum_filter_add_le (t : ℝ) {p q s : Round → Bool} {rounds : List Round}
    (hp : ∀ r ∈ rounds, p r = true → s r = true ∧ q r = false)
    (hq : ∀ r ∈ rounds, q r = true → s r = true) :
    halvedSum t (rounds.filter p) + halvedSum t (rounds.filter q) ≤ halvedSum t (rounds.filter s) := by
  induction rounds with
  | nil => simp
  | cons r rounds ih =>
      have hle := ih (fun r hr => hp r (List.mem_cons_of_mem _ hr))
        fun r hr => hq r (List.mem_cons_of_mem _ hr)
      have hpos := (remaining_pos (t - r.observedAt)).le
      rw [halvedSum_filter_cons, halvedSum_filter_cons, halvedSum_filter_cons]
      cases hpr : p r with
      | true =>
          obtain ⟨hsr, hqr⟩ := hp r List.mem_cons_self hpr
          simp only [hsr, hqr, if_true, Bool.false_eq_true, if_false]
          linarith
      | false =>
          cases hqr : q r with
          | true =>
              have hsr := hq r List.mem_cons_self hqr
              simp only [hsr, if_true, Bool.false_eq_true, if_false]
              linarith
          | false =>
              simp only [Bool.false_eq_true, if_false]
              split_ifs <;> linarith

end PulseGraph
