/-
# The laws of root-cause scoring

`_score` adds up what every node contributes and receives over a directed multigraph, ranks
the nodes that lead, and answers only where one of them is clear of the field.  In exact
arithmetic the thresholds settle what an answer means: the leader beats every other node
strictly, because a tie leaves no margin and no margin leaves no confidence.

**Proved here.**  `score_laws`: for edges of nonnegative weight no step of the scoring divides by
zero (`checkedScore` is the same computation with every division checked), a verdict names
the one node of greatest net lead with the bounds of the thresholds (`ClearLeader`), and the
order of the edges does not matter.
-/

import PulseGraph.Graph.EdgeDecay
import PulseGraph.Graph.RootCause
import Mathlib.Algebra.Order.Ring.Defs
import Mathlib.Algebra.Order.BigOperators.Group.List
import Mathlib.Algebra.BigOperators.Group.List.Basic
import Mathlib.Data.List.Sort
import Mathlib.Tactic.Linarith
import Mathlib.Tactic.Positivity

namespace PulseGraph

open Library (mapM_eq_pure)

variable {K : Type} [Field K] [LinearOrder K]

/-! ## What a node contributes and receives -/

/-- `outbound[node]`. -/
def outbound (es : List (Evidence K)) (node : String) : K :=
  ((es.filter fun e => e.src = node).map Evidence.contribution).sum

/-- `inbound[node]`. -/
def inbound (es : List (Evidence K)) (node : String) : K :=
  ((es.filter fun e => e.dst = node).map Evidence.contribution).sum

/-- `raw_outbound[node]`. -/
def rawOutbound (es : List (Evidence K)) (node : String) : K :=
  ((es.filter fun e => e.src = node).map (·.weight)).sum

/-- How much a node leads beyond what it follows. -/
def netLead (es : List (Evidence K)) (node : String) : K := outbound es node - inbound es node

/-- The order of `ranked`: the greater score first, the greater name among equals. -/
def Outranks (a b : String × K) : Prop := b.2 < a.2 ∨ a.2 = b.2 ∧ b.1 ≤ a.1

instance : DecidableRel (Outranks (K := K)) := fun a b =>
  inferInstanceAs (Decidable (b.2 < a.2 ∨ a.2 = b.2 ∧ b.1 ≤ a.1))

/-- The nodes that lead, the greatest first. -/
def ranked (es : List (Evidence K)) : List (String × K) :=
  (((es.map (·.src)).dedup.map fun node => (node, netLead es node)).filter
    fun r => decide (0 < r.2)).insertionSort Outranks

/-- A verdict that is clear of the field. -/
structure ClearLeader (es : List (Evidence K)) (v : RootCauseVerdict K) : Prop where
  strict : ∀ node, node ≠ v.incidentId → netLead es node < netLead es v.incidentId
  support : v.support = rawOutbound es v.incidentId
  enough : minSupport ≤ v.support
  dominant : minDominance * outbound es v.incidentId ≤ netLead es v.incidentId
  confident : minConfidence ≤ v.confidence
  confidence_le : v.confidence ≤ 1

/-! ## The same computation with checked divisions -/

/-- `a / b`, which raises on a zero divisor. -/
def divided (a b : K) : Option K := if b = 0 then none else some (a / b)

/-- The decayed weight of an edge; the exponent of the decay divides by the half-life. -/
def checkedDecay (rt : Runtime K) (weight elapsedMs halfLifeMs : K) : Option K := do
  let _ ← divided elapsedMs halfLifeMs
  let decayed ← (decayWeights rt weight 0 0 elapsedMs halfLifeMs).toOption
  some decayed.joint

/-- `_lift`. -/
def checkedLift (weight : K) (srcId dstId : String) (observations : String → K) (rounds : K) :
    Option K :=
  let srcObs := observations srcId
  let dstObs := observations dstId
  if rounds ≤ 0 ∨ srcObs ≤ 0 ∨ dstObs ≤ 0 then some 1
  else (divided (weight * rounds) (srcObs * dstObs)).map fun ratio => min ratio liftCap

/-- The loop of `_score` over the edges. -/
def checkedEvidence (rt : Runtime K) (halfLifeMs : K) (observations : String → K) (rounds : K)
    (rows : List ((String × String) × Edge K)) : Option (List (Evidence K)) :=
  let referenceMs := (rows.map fun r => r.2.lastSeenAt).max?.getD 0
  rows.mapM fun r => do
    let elapsedMs : ℤ := max 0 (referenceMs - r.2.lastSeenAt)
    let weight ← checkedDecay rt r.2.weight elapsedMs halfLifeMs
    let lift ← checkedLift weight r.1.1 r.1.2 observations rounds
    some ⟨r.1.1, r.1.2, weight, lift⟩

/-- The part of `_score` after the loop. -/
def checkedLeader (es : List (Evidence K)) : Option (Option (RootCauseVerdict K)) :=
  match ranked es with
  | [] => some none
  | (leaderId, leaderScore) :: rest => do
      let runnerUp := (rest.head?.map Prod.snd).getD 0
      let led := es.filter fun e => e.src = leaderId
      let support := rawOutbound es leaderId
      if support < minSupport then some none
      else
        let dominance ← if outbound es leaderId = 0 then some 0
          else divided leaderScore (outbound es leaderId)
        if dominance < minDominance then some none
        else
          let margin ← divided (leaderScore - runnerUp) leaderScore
          let factor ← divided support fullSupport
          let confidence := margin * min 1 factor
          if confidence < minConfidence then some none
          else
            let meanLift ← divided (led.map (·.lift)).sum ((max 1 led.length : ℕ) : K)
            some (some ⟨leaderId, confidence, support, meanLift⟩)

/-- `_score`; `none` is an exception. -/
def checkedScore (rt : Runtime K) (halfLifeMs : K) (observations : String → K) (rounds : K)
    (rows : List ((String × String) × Edge K)) : Option (Option (RootCauseVerdict K)) :=
  if rows = [] then some none
  else do
    let es ← checkedEvidence rt halfLifeMs observations rounds rows
    checkedLeader es

/-! ## The ranking -/

section Ranking

variable {es es' : List (Evidence K)}

theorem mem_ranked {r : String × K} :
    r ∈ ranked es ↔ (∃ e ∈ es, e.src = r.1) ∧ r.2 = netLead es r.1 ∧ 0 < r.2 := by
  unfold ranked
  rw [List.mem_insertionSort, List.mem_filter, List.mem_map, decide_eq_true_eq]
  constructor
  · rintro ⟨⟨node, hnode, rfl⟩, hpos⟩
    exact ⟨List.mem_map.1 (List.mem_dedup.1 hnode), rfl, hpos⟩
  · rintro ⟨hnode, hscore, hpos⟩
    exact ⟨⟨r.1, List.mem_dedup.2 (List.mem_map.2 hnode), Prod.ext rfl hscore.symm⟩, hpos⟩

theorem pairwise_ranked (es : List (Evidence K)) : (ranked es).Pairwise Outranks := by
  have htotal : Std.Total (Outranks (K := K)) := by
    refine ⟨fun a b => ?_⟩
    unfold Outranks
    rcases lt_trichotomy a.2 b.2 with h | h | h
    · exact .inr (.inl h)
    · rcases le_total a.1 b.1 with h' | h'
      · exact .inr (.inr ⟨h.symm, h'⟩)
      · exact .inl (.inr ⟨h, h'⟩)
    · exact .inl (.inl h)
  have htrans : IsTrans (String × K) Outranks := by
    refine ⟨fun a b c hab hbc => ?_⟩
    rcases hab with hab | ⟨hab, hname⟩
    · rcases hbc with hbc | ⟨hbc, -⟩
      · exact .inl (hbc.trans hab)
      · exact .inl (hbc ▸ hab)
    · rcases hbc with hbc | ⟨hbc, hname'⟩
      · exact .inl (hab ▸ hbc)
      · exact .inr ⟨hab.trans hbc, hname'.trans hname⟩
  exact List.pairwise_insertionSort _ _

omit [Field K] in
/-- Two nodes that outrank each other are one. -/
theorem Outranks.antisymm {a b : String × K} (hab : Outranks a b) (hba : Outranks b a) : a = b := by
  rcases hab with hab | ⟨hscore, hname⟩
  · rcases hba with hba | ⟨hscore, -⟩
    · exact absurd hab hba.not_gt
    · exact absurd hscore.symm hab.ne'
  · rcases hba with hba | ⟨-, hname'⟩
    · exact absurd hscore hba.ne
    · exact Prod.ext (hname'.antisymm hname) hscore

omit [LinearOrder K] in
theorem outbound_perm (h : es'.Perm es) : outbound es' = outbound es :=
  funext fun _ => ((h.filter _).map _).sum_eq

omit [LinearOrder K] in
theorem inbound_perm (h : es'.Perm es) : inbound es' = inbound es :=
  funext fun _ => ((h.filter _).map _).sum_eq

/-- **The ranking depends on the edges, not on their order.** -/
theorem ranked_perm (h : es'.Perm es) : ranked es' = ranked es := by
  have hnet : netLead es' = netLead es := by
    funext node
    unfold netLead
    rw [outbound_perm h, inbound_perm h]
  refine List.Perm.eq_of_pairwise (fun a b _ _ => Outranks.antisymm) (pairwise_ranked _)
    (pairwise_ranked _) ?_
  refine (List.perm_insertionSort _ _).trans (.trans ?_ (List.perm_insertionSort _ _).symm)
  rw [hnet]
  exact (((h.map _).dedup).map _).filter _

theorem leader_eq (es : List (Evidence K)) : leader es =
    match ranked es with
    | [] => none
    | (leaderId, leaderScore) :: rest =>
        let runnerUp := (rest.head?.map Prod.snd).getD 0
        let led := es.filter fun e => e.src = leaderId
        let support := rawOutbound es leaderId
        let dominance := if outbound es leaderId = 0 then 0 else leaderScore / outbound es leaderId
        let confidence := (leaderScore - runnerUp) / leaderScore * min 1 (support / fullSupport)
        if support < minSupport then none
        else if dominance < minDominance then none
        else if confidence < minConfidence then none
        else some ⟨leaderId, confidence, support, (led.map (·.lift)).sum / (max 1 led.length : ℕ)⟩ :=
  rfl

theorem leader_perm (h : es'.Perm es) : leader es' = leader es := by
  rw [leader_eq, leader_eq, ranked_perm h]
  cases ranked es with
  | nil => rfl
  | cons r rest =>
      have hled := h.filter fun e => decide (e.src = r.1)
      have hsupport : rawOutbound es' r.1 = rawOutbound es r.1 := (hled.map _).sum_eq
      have hlift := (hled.map (·.lift)).sum_eq
      dsimp only
      rw [hsupport, outbound_perm h, hlift, hled.length_eq]

end Ranking

/-! ## The edges as they are weighed -/

section Evidence

variable {rt : Runtime K} {halfLifeMs : K} {observations : String → K} {rounds : K}
  {rows rows' : List ((String × String) × Edge K)}

/-- The newest of the edges. -/
def newest (rows : List ((String × String) × Edge K)) : ℤ :=
  (rows.map fun r => r.2.lastSeenAt).max?.getD 0

/-- One edge decayed to an instant, with its lift. -/
def weighed (rt : Runtime K) (halfLifeMs : K) (observations : String → K) (rounds : K)
    (referenceMs : ℤ) (r : (String × String) × Edge K) : Evidence K :=
  let weight := decay rt r.2.weight ((max 0 (referenceMs - r.2.lastSeenAt) : ℤ) : K) halfLifeMs
  ⟨r.1.1, r.1.2, weight, lift weight r.1.1 r.1.2 observations rounds⟩

omit [Field K] [LinearOrder K] in
theorem newest_perm (h : rows'.Perm rows) : newest rows' = newest rows := by
  have hmem : ∀ a, a ∈ rows'.map (fun r => r.2.lastSeenAt) ↔ a ∈ rows.map fun r => r.2.lastSeenAt :=
    fun a => (h.map _).mem_iff
  have hmax : (rows'.map fun r => r.2.lastSeenAt).max? = (rows.map fun r => r.2.lastSeenAt).max? := by
    refine Option.ext fun a => ?_
    rw [List.max?_eq_some_iff, List.max?_eq_some_iff]
    simp only [hmem]
  unfold newest
  rw [hmax]

variable [IsStrictOrderedRing K]

/-- **No edge of nonnegative weight is refused.** -/
theorem evidence_eq (hhalf : 0 < halfLifeMs) (hweight : ∀ r ∈ rows, 0 ≤ r.2.weight) :
    evidence rt halfLifeMs observations rounds rows =
      .ok (rows.map (weighed rt halfLifeMs observations rounds (newest rows))) := by
  unfold evidence
  refine mapM_eq_pure fun r hr => ?_
  have helapsed : (0 : K) ≤ ((max 0 (newest rows - r.2.lastSeenAt) : ℤ) : K) := by
    exact_mod_cast le_max_left 0 (newest rows - r.2.lastSeenAt)
  show (decayWeights rt r.2.weight 0 0 ((max 0 (newest rows - r.2.lastSeenAt) : ℤ) : K) halfLifeMs >>=
    fun decayed => _) = _
  rw [decayWeights_of_nonneg (hweight r hr) le_rfl le_rfl helapsed hhalf]
  rfl

theorem lift_nonneg {weight : K} {src dst : String} (hweight : 0 ≤ weight) :
    0 ≤ lift weight src dst observations rounds := by
  unfold lift
  dsimp only
  split_ifs with h
  · exact zero_le_one
  · push Not at h
    obtain ⟨hrounds, hsrc, hdst⟩ := h
    refine le_min (div_nonneg (mul_nonneg hweight hrounds.le) (mul_nonneg hsrc.le hdst.le)) ?_
    unfold liftCap
    norm_num

theorem checkedLift_eq (weight : K) (src dst : String) :
    checkedLift weight src dst observations rounds =
      some (lift weight src dst observations rounds) := by
  unfold checkedLift lift
  dsimp only
  split_ifs with h
  · rfl
  · push Not at h
    obtain ⟨-, hsrc, hdst⟩ := h
    unfold divided
    rw [if_neg (mul_pos hsrc hdst).ne']
    rfl

theorem checkedEvidence_eq (hhalf : 0 < halfLifeMs) (hweight : ∀ r ∈ rows, 0 ≤ r.2.weight) :
    checkedEvidence rt halfLifeMs observations rounds rows =
      some (rows.map (weighed rt halfLifeMs observations rounds (newest rows))) := by
  refine mapM_eq_pure fun r hr => ?_
  have helapsed : (0 : K) ≤ ((max 0 (newest rows - r.2.lastSeenAt) : ℤ) : K) := by
    exact_mod_cast le_max_left 0 (newest rows - r.2.lastSeenAt)
  have hdecay : checkedDecay rt r.2.weight ((max 0 (newest rows - r.2.lastSeenAt) : ℤ) : K) halfLifeMs =
      some (decay rt r.2.weight ((max 0 (newest rows - r.2.lastSeenAt) : ℤ) : K) halfLifeMs) := by
    unfold checkedDecay divided
    rw [if_neg hhalf.ne', decayWeights_of_nonneg (hweight r hr) le_rfl le_rfl helapsed hhalf]
    rfl
  show (checkedDecay rt r.2.weight ((max 0 (newest rows - r.2.lastSeenAt) : ℤ) : K) halfLifeMs >>=
    fun weight => checkedLift weight r.1.1 r.1.2 observations rounds >>= fun lift =>
      some (Evidence.mk r.1.1 r.1.2 weight lift)) = _
  rw [hdecay]
  show (checkedLift _ r.1.1 r.1.2 observations rounds >>= fun lift =>
    some (Evidence.mk r.1.1 r.1.2 _ lift)) = _
  rw [checkedLift_eq]
  rfl

end Evidence

/-! ## The leader -/

section Leader

variable [IsStrictOrderedRing K] {es : List (Evidence K)}

theorem inbound_nonneg (h : ∀ e ∈ es, 0 ≤ e.contribution) (node : String) : 0 ≤ inbound es node := by
  refine List.sum_nonneg fun c hc => ?_
  obtain ⟨e, he, rfl⟩ := List.mem_map.1 hc
  exact h e (List.mem_filter.1 he).1

/-- A node that leads contributes something. -/
theorem outbound_pos {node : String} (h : ∀ e ∈ es, 0 ≤ e.contribution) (hlead : 0 < netLead es node) :
    0 < outbound es node := by
  have hin := inbound_nonneg h node
  unfold netLead at hlead
  linarith

/-- A node that leads is ranked. -/
theorem mem_ranked_of_lead {node : String} (h : ∀ e ∈ es, 0 ≤ e.contribution)
    (hlead : 0 < netLead es node) : (node, netLead es node) ∈ ranked es := by
  refine mem_ranked.2 ⟨?_, rfl, hlead⟩
  by_contra hnone
  push Not at hnone
  have hempty : (es.filter fun e => decide (e.src = node)) = [] :=
    List.filter_eq_nil_iff.2 fun e he => by simpa using hnone e he
  have hzero : outbound es node = 0 := by
    unfold outbound
    rw [hempty]
    rfl
  exact absurd (outbound_pos h hlead) (by rw [hzero]; exact lt_irrefl 0)

/-- No division of the ranking has a zero divisor. -/
theorem checkedLeader_eq (h : ∀ e ∈ es, 0 ≤ e.contribution) : checkedLeader es = some (leader es) := by
  rw [leader_eq]
  unfold checkedLeader
  cases hranked : ranked es with
  | nil => rfl
  | cons r rest =>
      have hmem : r ∈ ranked es := by
        rw [hranked]
        exact List.mem_cons_self
      obtain ⟨-, hscore, hpos⟩ := mem_ranked.1 hmem
      have hout : outbound es r.1 ≠ 0 := (outbound_pos h (hscore ▸ hpos)).ne'
      have hfull : (fullSupport : K) ≠ 0 := by norm_num [fullSupport]
      have hcount : ((max 1 (es.filter fun e => decide (e.src = r.1)).length : ℕ) : K) ≠ 0 := by
        have : 0 < max 1 (es.filter fun e => decide (e.src = r.1)).length := by omega
        exact_mod_cast this.ne'
      simp only [divided, if_neg hout, if_neg hpos.ne', if_neg hfull, if_neg hcount,
        Option.bind_eq_bind, Option.bind_some]
      split_ifs <;> rfl

/-- **What a verdict says.** -/
theorem clearLeader_of_leader {v : RootCauseVerdict K} (h : ∀ e ∈ es, 0 ≤ e.contribution)
    (hv : leader es = some v) : ClearLeader es v := by
  rw [leader_eq] at hv
  cases hranked : ranked es with
  | nil => simp [hranked] at hv
  | cons r rest =>
      rw [hranked] at hv
      dsimp only at hv
      have hmem : r ∈ ranked es := by
        rw [hranked]
        exact List.mem_cons_self
      obtain ⟨-, hscore, hpos⟩ := mem_ranked.1 hmem
      have hout := outbound_pos h (hscore ▸ hpos)
      -- the runner-up is nonnegative, and no node but the leader scores more
      obtain ⟨runnerUp, hrunner, hrunnerpos, hbelow⟩ : ∃ runnerUp : K,
          (rest.head?.map Prod.snd).getD 0 = runnerUp ∧ 0 ≤ runnerUp ∧ ∀ q ∈ rest, q.2 ≤ runnerUp := by
        have hsorted := pairwise_ranked es
        rw [hranked] at hsorted
        cases rest with
        | nil => exact ⟨0, rfl, le_rfl, by simp⟩
        | cons q rest =>
            have hq : q ∈ ranked es := by
              rw [hranked]
              simp
            refine ⟨q.2, rfl, (mem_ranked.1 hq).2.2.le, fun p hp => ?_⟩
            rcases List.mem_cons.1 hp with rfl | hp
            · exact le_rfl
            · have houtranks := (List.pairwise_cons.1 (List.pairwise_cons.1 hsorted).2).1 p hp
              rcases houtranks with hlt | ⟨heq, -⟩
              · exact hlt.le
              · exact heq.ge
      rw [hrunner] at hv
      split_ifs at hv with hsupport hzero hdominance hconfidence hdominance hconfidence
      · exact absurd hzero hout.ne'
      obtain rfl := Option.some.inj hv
      have hminimum : (0 : K) < minConfidence := by norm_num [minConfidence]
      have hfactor : 0 ≤ min 1 (rawOutbound es r.1 / fullSupport) ∧
          min 1 (rawOutbound es r.1 / fullSupport) ≤ 1 := by
        have hmin : (0 : K) ≤ minSupport := by norm_num [minSupport]
        have hfull : (0 : K) < fullSupport := by norm_num [fullSupport]
        exact ⟨le_min zero_le_one (div_nonneg (hmin.trans (not_lt.1 hsupport)) hfull.le),
          min_le_left _ _⟩
      have hmargin : (r.2 - runnerUp) / r.2 ≤ 1 := by
        rw [div_le_one hpos]
        linarith
      -- without a margin there would be no confidence
      have hstrict : runnerUp < r.2 := by
        by_contra hle
        have hnonpos : (r.2 - runnerUp) / r.2 ≤ 0 :=
          div_nonpos_of_nonpos_of_nonneg (by linarith [not_lt.1 hle]) hpos.le
        have := mul_nonpos_of_nonpos_of_nonneg hnonpos hfactor.1
        linarith [not_lt.1 hconfidence]
      refine ⟨fun node hnode => ?_, rfl, not_lt.1 hsupport, ?_, not_lt.1 hconfidence, ?_⟩
      · show netLead es node < netLead es r.1
        rw [← hscore]
        by_cases hlead : 0 < netLead es node
        · have hin := mem_ranked_of_lead h hlead
          rw [hranked] at hin
          rcases List.mem_cons.1 hin with heq | hin
          · exact absurd (congrArg Prod.fst heq) hnode
          · exact (hbelow _ hin).trans_lt hstrict
        · exact (not_lt.1 hlead).trans_lt hpos
      · show minDominance * outbound es r.1 ≤ netLead es r.1
        rw [← hscore, ← le_div_iff₀ hout]
        exact not_lt.1 hdominance
      · calc (r.2 - runnerUp) / r.2 * min 1 (rawOutbound es r.1 / fullSupport)
            ≤ 1 * 1 := mul_le_mul hmargin hfactor.2 hfactor.1 zero_le_one
          _ = 1 := one_mul 1

end Leader

/-! ## The laws -/

section Laws

variable [IsStrictOrderedRing K] {rt : Runtime K} {halfLifeMs : K} {observations : String → K}
  {rounds : K} {rows : List ((String × String) × Edge K)}

/-- What an edge of nonnegative weight contributes is not negative. -/
theorem contribution_weighed (hhalving : ∀ e h, 0 ≤ rt.halving e h) (referenceMs : ℤ)
    (hweight : ∀ r ∈ rows, 0 ≤ r.2.weight) :
    ∀ e ∈ rows.map (weighed rt halfLifeMs observations rounds referenceMs), 0 ≤ e.contribution := by
  intro e he
  obtain ⟨r, hr, rfl⟩ := List.mem_map.1 he
  have hdecayed : 0 ≤ decay rt r.2.weight ((max 0 (referenceMs - r.2.lastSeenAt) : ℤ) : K) halfLifeMs :=
    mul_nonneg (hweight r hr) (hhalving _ _)
  exact mul_nonneg hdecayed (lift_nonneg hdecayed)

/-- **The laws of root-cause scoring.**  For edges of nonnegative weight and a positive half-life
the scoring never divides by zero; a verdict names the unique strict maximum of net lead, within
the bounds of the thresholds; and every permutation of the edges has the same result. -/
theorem score_laws (hhalving : ∀ e h, 0 ≤ rt.halving e h) (hhalf : 0 < halfLifeMs)
    (hweight : ∀ r ∈ rows, 0 ≤ r.2.weight) :
    ∃ es v, evidence rt halfLifeMs observations rounds rows = .ok es ∧
      score rt halfLifeMs observations rounds rows = .ok v ∧
      checkedScore rt halfLifeMs observations rounds rows = some v ∧
      (∀ verdict, v = some verdict → ClearLeader es verdict) ∧
      ∀ rows', rows'.Perm rows → score rt halfLifeMs observations rounds rows' = .ok v := by
  have hscore : ∀ rows', rows'.Perm rows → score rt halfLifeMs observations rounds rows' =
      .ok (leader (rows.map (weighed rt halfLifeMs observations rounds (newest rows)))) := by
    intro rows' hperm
    unfold score
    split_ifs with hnil
    · obtain rfl := hnil
      obtain rfl := hperm.symm.eq_nil
      rfl
    · rw [evidence_eq hhalf fun r hr => hweight r (hperm.mem_iff.1 hr)]
      show Except.ok (leader _) = _
      rw [newest_perm hperm, leader_perm (hperm.map _)]
  have hcontribution : ∀ e ∈ rows.map (weighed rt halfLifeMs observations rounds (newest rows)),
      0 ≤ e.contribution := contribution_weighed hhalving _ hweight
  refine ⟨_, _, evidence_eq hhalf hweight, hscore rows (.refl _), ?_,
    fun verdict hv => clearLeader_of_leader hcontribution hv, hscore⟩
  unfold checkedScore
  split_ifs with hnil
  · obtain rfl := hnil
    rfl
  · rw [checkedEvidence_eq hhalf hweight]
    exact checkedLeader_eq hcontribution

end Laws

/-- A cascade: the database leads the service twice as often as the service leads the page. -/
def cascadeEdges : List ((String × String) × Edge ℚ) :=
  [(("database", "service"), ⟨6, 1000⟩), (("service", "page"), ⟨3, 1000⟩),
    (("database", "page"), ⟨6, 1000⟩)]

/-- The database is clear of the field. -/
theorem score_laws_cascade : ∃ es verdict,
    evidence Runtime.reference 3600000 (fun _ => 0) 0 cascadeEdges = .ok es ∧
      score Runtime.reference 3600000 (fun _ => 0) 0 cascadeEdges = .ok (some verdict) ∧
      verdict.incidentId = "database" ∧ ClearLeader es verdict := by
  have hhalving : ∀ e h, 0 ≤ Runtime.reference.halving e h := by
    intro e h
    show (0 : ℚ) ≤ if e = 0 then 1 else 0
    split_ifs <;> norm_num
  have hweight : ∀ r ∈ cascadeEdges, 0 ≤ r.2.weight := by decide +kernel
  obtain ⟨es, v, hes, hv, -, hclear, -⟩ :=
    @score_laws ℚ _ _ _ Runtime.reference 3600000 (fun _ => 0) 0 cascadeEdges hhalving (by norm_num)
      hweight
  have hleads : (score Runtime.reference 3600000 (fun _ => 0) 0 cascadeEdges).toOption.map
      (fun v => v.map (·.incidentId)) = some (some "database") := by
    decide +kernel
  rw [hv] at hleads
  obtain ⟨verdict, rfl, hid⟩ := Option.map_eq_some_iff.1 (Option.some.inj hleads)
  exact ⟨es, verdict, hes, hv, hid, hclear verdict rfl⟩

end PulseGraph
