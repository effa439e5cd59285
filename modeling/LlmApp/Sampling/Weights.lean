/-
# The choice among the candidates, over exact weights

With weights that are rational numbers and arithmetic that does not round:
`sample_finite` allows the shortest prefix of the candidates of weight enough
that has a share of `top_p`, and draws the one at the level of the unit. Each
loop is read off the list of weights it visits (`Reads`).

Key definitions: `Sampler.Reads`, `Sampler.Enough`.
Key theorems: `Sampler.eligibleLoop_eq`, `Sampler.allowedLoop_eq`,
`Sampler.drawLoop_eq`, `Sampler.sampleFinite_exact`.
-/
import LlmApp.Data.Cumulative
import LlmApp.Sampling.Sampler

namespace LlmApp

namespace Sampler

section Loops

variable {expf : ℚ → ℚ} {logits : List ℚ}

/-- The candidates' weights. -/
def Reads (logits : List ℚ) (candidates : List ℕ) (weights : List ℚ) : Prop :=
  candidates.map (fun candidate => logits[candidate]?) = weights.map some

theorem reads_cons {c : ℕ} {candidates : List ℕ} {weights : List ℚ} (h : Reads logits (c :: candidates) weights) :
    ∃ w rest, weights = w :: rest ∧ logits[c]? = some w ∧ Reads logits candidates rest := by
  cases weights with
  | nil => cases h
  | cons w rest =>
    obtain ⟨hw, hrest⟩ := List.cons.inj h
    exact ⟨w, rest, rfl, hw, hrest⟩

theorem reads_length {candidates : List ℕ} {weights : List ℚ} (h : Reads logits candidates weights) :
    candidates.length = weights.length := by
  have hlength := congrArg List.length h
  rwa [List.length_map, List.length_map] at hlength

theorem Reads.get {candidates : List ℕ} {weights : List ℚ} (h : Reads logits candidates weights) {i : ℕ}
    (hi : i < weights.length) : ∃ c w, candidates[i]? = some c ∧ weights[i]? = some w ∧ logits[c]? = some w := by
  have hc := List.getElem?_eq_getElem (h := (reads_length h).symm ▸ hi)
  have hw := List.getElem?_eq_getElem hi
  have hget := congrArg (fun l => l[i]?) h
  simp only [List.getElem?_map, hc, hw, Option.map_some, Option.some.injEq] at hget
  exact ⟨_, _, hc, hw, hget⟩

theorem Reads.take {candidates : List ℕ} {weights : List ℚ} (h : Reads logits candidates weights) (k : ℕ) :
    Reads logits (candidates.take k) (weights.take k) := by
  rw [Reads, List.map_take, List.map_take, show candidates.map _ = weights.map some from h]

/-- Positive weight, at least the minimum. -/
def Enough (minP weight : ℚ) : Bool := 0 < weight ∧ minP ≤ weight

theorem enough_mono {minP : ℚ} : ∀ a b, a ≤ b → Enough minP a = true → Enough minP b = true := by
  intro a b hab ha
  simp only [Enough, decide_eq_true_eq] at ha ⊢
  exact ⟨ha.1.trans_le hab, ha.2.trans hab⟩

/-- The second loop stops at the first weight that is not enough. -/
theorem eligibleLoop_eq {minP : ℚ} : ∀ {candidates : List ℕ} {weights : List ℚ} (count : ℕ) (total : ℚ),
    Reads logits candidates weights →
      eligibleLoop (.exact expf) logits minP candidates count total =
        .ok (count + (weights.takeWhile (Enough minP)).length, total + (weights.takeWhile (Enough minP)).sum)
  | [], weights, count, total, h => by
    obtain rfl : weights = [] := List.length_eq_zero_iff.mp (reads_length h).symm
    simp [eligibleLoop]
  | c :: candidates, weights, count, total, h => by
    obtain ⟨w, rest, rfl, hw, hrest⟩ := reads_cons h
    rw [eligibleLoop, hw]
    have hstop : (!Floats.isFinite w || Floats.le w Floats.zero || Floats.lt w minP) = !Enough minP w := by
      by_cases hpos : 0 < w
      · by_cases hmin : minP ≤ w
        · simp [Floats.isFinite, Floats.le, Floats.lt, Floats.zero, Enough, hpos, hmin]
        · simp [Floats.isFinite, Floats.le, Floats.lt, Floats.zero, Enough, hmin, not_le.mp hmin]
      · simp [Floats.isFinite, Floats.le, Floats.lt, Floats.zero, Enough, hpos, not_lt.mp hpos]
    simp only [hstop]
    by_cases henough : Enough minP w = true
    · rw [henough, List.takeWhile_cons_of_pos henough, List.length_cons, List.sum_cons]
      simp only [Bool.not_true, Bool.false_eq_true, if_false]
      rw [eligibleLoop_eq (count + 1) _ hrest]
      congr 2
      · omega
      · exact add_assoc total w _
    · rw [List.takeWhile_cons_of_neg henough]
      simp [henough]

/-- The third loop stops at the first prefix with the share. -/
theorem allowedLoop_eq (expf : ℚ → ℚ) (topP eligibleWeight : ℚ) :
    ∀ {candidates : List ℕ} {weights : List ℚ} (count : ℕ) (total : ℚ), Reads logits candidates weights →
      ∃ k ≤ weights.length,
      allowedLoop (.exact expf) logits topP eligibleWeight candidates count total =
        .ok (count + k, total + cumulative weights k) ∧
      (∀ j, 0 < j → j < k → (total + cumulative weights j) / eligibleWeight < topP) ∧
      (k = weights.length ∨ 0 < k ∧ topP ≤ (total + cumulative weights k) / eligibleWeight)
  | [], weights, count, total, h => by
    obtain rfl : weights = [] := List.length_eq_zero_iff.mp (reads_length h).symm
    refine ⟨0, le_rfl, ?_, fun j h0 hj => by omega, .inl rfl⟩
    rw [cumulative_zero, add_zero, add_zero]
    rfl
  | c :: candidates, weights, count, total, h => by
    obtain ⟨w, rest, rfl, hw, hrest⟩ := reads_cons h
    rw [allowedLoop, hw]
    by_cases hshare : topP ≤ (total + w) / eligibleWeight
    · refine ⟨1, by simp, ?_, fun j h0 hj => by omega, .inr ⟨Nat.one_pos, ?_⟩⟩
      · rw [cumulative_cons, cumulative_zero, add_zero]
        exact if_pos (decide_eq_true hshare)
      · rw [cumulative_cons, cumulative_zero, add_zero]
        exact hshare
    · obtain ⟨k, hk, hloop, hbefore, hreached⟩ := allowedLoop_eq expf topP eligibleWeight (count + 1) (total + w) hrest
      refine ⟨k + 1, by simpa using hk, ?_, fun j h0 hj => ?_, ?_⟩
      · rw [cumulative_cons]
        refine (if_neg (mt of_decide_eq_true hshare)).trans (hloop.trans ?_)
        congr 2
        · omega
        · exact add_assoc total w _
      · obtain ⟨j, rfl⟩ : ∃ i, j = i + 1 := ⟨j - 1, by omega⟩
        rw [cumulative_cons, ← add_assoc]
        obtain rfl | hpos := Nat.eq_zero_or_pos j
        · rw [cumulative_zero, add_zero]
          exact not_le.mp hshare
        · exact hbefore j hpos (by omega)
      · rw [cumulative_cons, ← add_assoc]
        obtain rfl | hshare' := hreached
        · exact .inl rfl
        · exact .inr ⟨Nat.succ_pos k, hshare'.2⟩

/-- The last loop stops at the level of the target, when that is below the total. -/
theorem drawLoop_eq (expf : ℚ → ℚ) {target : ℚ} (last : TokenId) : ∀ {candidates : List ℕ} {weights : List ℚ} {total : ℚ},
    Reads logits candidates weights → total ≤ target → target < total + weights.sum →
      ∃ i c, candidates[i]? = some c ∧ drawLoop (.exact expf) logits target last candidates total = .ok c ∧
        total + cumulative weights i ≤ target ∧ target < total + cumulative weights (i + 1)
  | [], weights, total, h, hle, hlt => by
    obtain rfl : weights = [] := List.length_eq_zero_iff.mp (reads_length h).symm
    rw [List.sum_nil, add_zero] at hlt
    exact absurd hlt (not_lt.mpr hle)
  | c :: candidates, weights, total, h, hle, hlt => by
    obtain ⟨w, rest, rfl, hw, hrest⟩ := reads_cons h
    rw [drawLoop, hw]
    by_cases hstop : target < total + w
    · refine ⟨0, c, rfl, if_pos (decide_eq_true hstop), ?_, ?_⟩
      · rw [cumulative_zero, add_zero]
        exact hle
      · rw [cumulative_cons, cumulative_zero, add_zero]
        exact hstop
    · rw [List.sum_cons, ← add_assoc] at hlt
      obtain ⟨i, c', hc', hloop, hbelow, habove⟩ := drawLoop_eq expf last hrest (not_lt.mp hstop) hlt
      refine ⟨i + 1, c', hc', (if_neg (mt of_decide_eq_true hstop)).trans hloop, ?_, ?_⟩
      · rw [cumulative_cons, ← add_assoc]
        exact hbelow
      · rw [cumulative_cons, ← add_assoc]
        exact habove

end Loops

/-! ### The parts of the choice -/

section Choice

variable {expf : ℚ → ℚ} {logits : List ℚ} {candidates : List ℕ} {weights : List ℚ}

theorem usablePrefix_eq {k : ℕ} {total : ℚ} (hpos : 0 < k) (hle : k ≤ candidates.length) (htotal : 0 < total) :
    usablePrefix candidates (k, total) = .ok (candidates.take k, total) := by
  have husable : (decide (k = 0) || !Floats.isFinite total || Floats.le total Floats.zero) = false := by
    simp [Floats.isFinite, Floats.le, Floats.zero, hpos.ne', htotal]
  rw [usablePrefix, Except.failIf, husable, if_neg Bool.false_ne_true, Except.ok_bind, if_pos hle]
  rfl

/-- The number of the candidates with weight enough. -/
def eligibleCount (minP : ℚ) (weights : List ℚ) : ℕ := (weights.takeWhile (Enough minP)).length

theorem takeWhile_enough (minP : ℚ) : weights.takeWhile (Enough minP) = weights.take (eligibleCount minP weights) :=
  List.prefix_iff_eq_take.mp (List.takeWhile_prefix _)

theorem eligibleCount_le (minP : ℚ) : eligibleCount minP weights ≤ weights.length :=
  (List.takeWhile_prefix _).length_le

theorem eligibleCandidates_eq {minP : ℚ} (h : Reads logits candidates weights) (hpos : 0 < eligibleCount minP weights)
    (htotal : 0 < cumulative weights (eligibleCount minP weights)) :
    eligibleCandidates (.exact expf) logits minP candidates =
      .ok (candidates.take (eligibleCount minP weights), cumulative weights (eligibleCount minP weights)) := by
  have hle : eligibleCount minP weights ≤ candidates.length := (reads_length h).symm ▸ eligibleCount_le minP
  have hloop : eligibleLoop (.exact expf) logits minP candidates 0 Floats.zero =
      .ok (eligibleCount minP weights, cumulative weights (eligibleCount minP weights)) := by
    rw [eligibleLoop_eq 0 _ h, takeWhile_enough, List.length_take, min_eq_left (eligibleCount_le minP), zero_add]
    congr 2
    exact zero_add _
  rw [eligibleCandidates, hloop, Except.ok_bind, usablePrefix_eq hpos hle htotal]

/-- Among the eligible candidates, those up to the first prefix with the share. -/
theorem allowedCandidates_eq (expf : ℚ → ℚ) {minP topP : ℚ} (h : Reads logits candidates weights)
    (hnonneg : ∀ w ∈ weights, 0 ≤ w) (hpos : 0 < eligibleCount minP weights) (hfirst : 0 < cumulative weights 1)
    (htopP : topP ≤ 1) :
    let S := cumulative weights
    let eligible := eligibleCount minP weights
    ∃ allowed, 0 < allowed ∧ allowed ≤ eligible ∧ topP ≤ S allowed / S eligible ∧
      (∀ j, 0 < j → j < allowed → S j / S eligible < topP) ∧
      allowedCandidates (.exact expf) logits minP topP candidates = .ok (candidates.take allowed, S allowed) := by
  intro S eligible
  have hmono := cumulative_mono hnonneg
  have htotal : 0 < S eligible := hfirst.trans_le (hmono hpos)
  have hlength := reads_length h
  have hle : eligible ≤ weights.length := eligibleCount_le minP
  obtain ⟨k, hk, hloop, hbefore, hreached⟩ :=
    allowedLoop_eq expf topP (S eligible) 0 0 (h.take eligible)
  rw [List.length_take, min_eq_left hle] at hk hreached
  simp only [zero_add] at hloop hbefore hreached
  rw [cumulative_take hk] at hloop hreached
  have hkpos : 0 < k := by
    obtain rfl | hreached := hreached
    · exact hpos
    · exact hreached.1
  refine ⟨k, hkpos, hk, ?_, fun j h0 hj => ?_, ?_⟩
  · obtain rfl | hreached := hreached
    · rw [div_self htotal.ne']
      exact htopP
    · exact hreached.2
  · have hshare := hbefore j h0 hj
    rwa [cumulative_take (hj.le.trans hk)] at hshare
  · rw [allowedCandidates, eligibleCandidates_eq h hpos htotal, Except.ok_bind]
    have hroom : k ≤ (candidates.take eligible).length := by
      rw [List.length_take]
      omega
    rw [show allowedLoop (.exact expf) logits topP (S eligible) (candidates.take eligible) 0 Floats.zero =
      .ok (k, S k) from hloop, Except.ok_bind, usablePrefix_eq hkpos hroom (hfirst.trans_le (hmono hkpos)),
      List.take_take, min_eq_left hk]

/-- The candidate at the level of the unit is drawn. -/
theorem drawCandidate_eq (expf : ℚ → ℚ) {unit : ℚ} {k : ℕ} (h : Reads logits candidates weights) (hk : k ≤ weights.length)
    (hpos : 0 < k) (htotal : 0 < cumulative weights k) (hunit : 0 ≤ unit ∧ unit < 1) :
    ∃ i c w, i < k ∧ candidates[i]? = some c ∧ weights[i]? = some w ∧
      cumulative weights i ≤ unit * cumulative weights k ∧ unit * cumulative weights k < cumulative weights (i + 1) ∧
      drawCandidate (.exact expf) logits unit (candidates.take k, cumulative weights k) =
        .ok ⟨c, w / cumulative weights k⟩ := by
  have hlength := reads_length h
  have hsum : (weights.take k).sum = cumulative weights k := rfl
  have htarget : unit * cumulative weights k < cumulative weights k := mul_lt_of_lt_one_left htotal hunit.2
  obtain ⟨last, hlast⟩ : ∃ last, (candidates.take k)[(candidates.take k).length - 1]? = some last := by
    refine ⟨_, List.getElem?_eq_getElem ?_⟩
    rw [List.length_take]
    omega
  obtain ⟨i, c, hc, hloop, hbelow, habove⟩ := drawLoop_eq expf last (h.take k)
    (mul_nonneg hunit.1 htotal.le) (by rw [zero_add, hsum]; exact htarget)
  have hik : i < k := by
    have hlt := (List.getElem?_eq_some_iff.mp hc).1
    rw [List.length_take] at hlt
    omega
  rw [zero_add, cumulative_take hik.le] at hbelow
  rw [zero_add, cumulative_take hik] at habove
  obtain ⟨c', w, hc', hw, hget⟩ := h.get (i := i) (by omega)
  rw [List.getElem?_take_of_lt hik] at hc
  obtain rfl := Option.some.inj (hc.symm.trans hc')
  refine ⟨i, c, w, hik, hc, hw, hbelow, habove, ?_⟩
  rw [drawCandidate, tokenAt, hlast, Except.okOr_some, Except.ok_bind]
  rw [show drawLoop (.exact expf) logits ((Arithmetic.exact expf).mul unit (cumulative weights k)) last
    (candidates.take k) Floats.zero = .ok c from hloop, Except.ok_bind, hget]
  rfl

end Choice

/-- With weights that fall from one: the eligible candidates are those with
positive weight at least `minP`, the allowed ones are the shortest prefix of them
with a share of `topP`, the one at the level of the unit is drawn, and it is
reported with its share of the allowed weight. -/
theorem sampleFinite_exact (expf : ℚ → ℚ) {ρ : Type} (draw : ρ → ℚ × ρ) (random : ρ)
    (temperature minP topP maximumLogit : ℚ) (candidates : List ℕ) (logits weighed weights : List ℚ)
    (hweighed : weigh (.exact expf) temperature maximumLogit candidates logits = (.ok (), weighed))
    (hweights : candidates.map (fun candidate => weighed[candidate]?) = weights.map some)
    (hnonneg : ∀ w ∈ weights, 0 ≤ w) (hsorted : weights.Pairwise (· ≥ ·)) (hfirst : weights.head? = some 1)
    (hminP : 0 ≤ minP ∧ minP ≤ 1) (htopP : 0 < topP ∧ topP ≤ 1)
    (hunit : 0 ≤ (draw random).1 ∧ (draw random).1 < 1) :
    let S := cumulative weights
    let unit := (draw random).1
    ∃ eligible allowed i token w,
      (∀ (j : ℕ) w, weights[j]? = some w → (j < eligible ↔ 0 < w ∧ minP ≤ w)) ∧
      eligibleCandidates (.exact expf) weighed minP candidates = .ok (candidates.take eligible, S eligible) ∧
      (0 < allowed ∧ allowed ≤ eligible ∧ topP ≤ S allowed / S eligible ∧
        ∀ j, 0 < j → j < allowed → S j / S eligible < topP) ∧
      allowedCandidates (.exact expf) weighed minP topP candidates = .ok (candidates.take allowed, S allowed) ∧
      (i < allowed ∧ S i ≤ unit * S allowed ∧ unit * S allowed < S (i + 1) ∧
        ∀ j, S j ≤ unit * S allowed → unit * S allowed < S (j + 1) → j = i) ∧
      candidates[i]? = some token ∧ weights[i]? = some w ∧
      sampleFinite (.exact expf) draw temperature minP topP random candidates logits maximumLogit =
        (.ok ⟨token, w / S allowed⟩, (draw random).2, weighed) ∧
      ((weights.take allowed).map fun w => w / S allowed).sum = 1 := by
  intro S unit
  have hmono := cumulative_mono hnonneg
  have hhead : weights[0]? = some 1 := by rw [← List.head?_eq_getElem?, hfirst]
  have heligible : ∀ (j : ℕ) w, weights[j]? = some w → (j < eligibleCount minP weights ↔ 0 < w ∧ minP ≤ w) := by
    intro j w hj
    rw [eligibleCount, lt_length_takeWhile enough_mono hsorted hj, Enough, decide_eq_true_eq]
  have hpos : 0 < eligibleCount minP weights := (heligible 0 1 hhead).mpr ⟨one_pos, hminP.2⟩
  have hone : 0 < cumulative weights 1 := by
    rw [cumulative_succ hhead, cumulative_zero, zero_add]
    exact one_pos
  obtain ⟨allowed, hallowed, hle, hshare, hbefore, hcandidates⟩ :=
    allowedCandidates_eq expf hweights hnonneg hpos hone htopP.2
  have htotal : 0 < S allowed := hone.trans_le (hmono hallowed)
  obtain ⟨i, c, w, hi, hc, hw, hbelow, habove, hdraw⟩ := drawCandidate_eq expf hweights
    (hle.trans (eligibleCount_le minP)) hallowed htotal hunit
  refine ⟨_, allowed, i, c, w, heligible, eligibleCandidates_eq hweights hpos (hone.trans_le (hmono hpos)),
    ⟨hallowed, hle, hshare, hbefore⟩, hcandidates,
    ⟨hi, hbelow, habove, fun j hj hj' => level_unique hnonneg hj hj' hbelow habove⟩, hc, hw, ?_, shares_sum htotal.ne'⟩
  rw [sampleFinite, hweighed]
  simp only [hcandidates]
  rw [hdraw]

/-- Two candidates one apart, of weights one and `e⁻¹` in single precision. -/
theorem sampleFinite_exact_two :
    let expf : ℚ → ℚ := fun x => if x = 0 then 1 else 6171993 / 16777216
    let S := cumulative [1, 6171993 / 16777216]
    ∃ eligible allowed i token w,
      (∀ (j : ℕ) w, ([1, 6171993 / 16777216] : List ℚ)[j]? = some w → (j < eligible ↔ 0 < w ∧ 0 ≤ w)) ∧
      (i < allowed ∧ S i ≤ 1 / 2 * S allowed ∧ 1 / 2 * S allowed < S (i + 1)) ∧
      (sampleFinite (.exact expf) (fun n : ℕ => (1 / 2, n + 1)) 1 0 (9 / 10) 0 [1, 0] [2, 3] 3).1 =
        .ok ⟨token, w / S allowed⟩ := by
  intro expf S
  obtain ⟨eligible, allowed, i, token, w, heligible, -, -, -, ⟨hi, hbelow, habove, -⟩, -, -, hsample, -⟩ :=
    sampleFinite_exact expf (fun n : ℕ => (1 / 2, n + 1)) 0 1 0 (9 / 10) 3 [1, 0] [2, 3] [6171993 / 16777216, 1]
      [1, 6171993 / 16777216] (by norm_num [weigh, Arithmetic.exact, expf]) rfl (by norm_num) (by norm_num) rfl
      ⟨le_rfl, by norm_num⟩ ⟨by norm_num, by norm_num⟩ ⟨by norm_num, by norm_num⟩
  exact ⟨eligible, allowed, i, token, w, heligible, ⟨hi, hbelow, habove⟩, congrArg Prod.fst hsample⟩

end Sampler

end LlmApp
