/-
# Cumulative weights

The sums of the prefixes of a list of weights. They grow with the prefix when no
weight is negative, so a level below the total lies between two sums that follow
each other in exactly one place (`level_unique`).

Key definitions: `cumulative`.
-/
import Mathlib

variable {K : Type}

section Sums

variable [AddCommMonoid K] {weights : List K} {w : K}

/-- The weight of the first `k`. -/
def cumulative (weights : List K) (k : ℕ) : K := (weights.take k).sum

theorem cumulative_zero : cumulative weights 0 = 0 := by
  rw [cumulative, List.take_zero, List.sum_nil]

theorem cumulative_cons (k : ℕ) : cumulative (w :: weights) (k + 1) = w + cumulative weights k := by
  rw [cumulative, List.take_succ_cons, List.sum_cons]
  rfl

theorem cumulative_succ {k : ℕ} (h : weights[k]? = some w) : cumulative weights (k + 1) = cumulative weights k + w := by
  rw [cumulative, List.take_add_one, h, List.sum_append]
  simp [cumulative]

/-- Only the weights of a longer prefix count. -/
theorem cumulative_take {j k : ℕ} (h : j ≤ k) : cumulative (weights.take k) j = cumulative weights j := by
  rw [cumulative, List.take_take, min_eq_left h]
  rfl

end Sums

section Levels

variable [AddCommMonoid K] [LinearOrder K] [IsOrderedAddMonoid K] {weights : List K}

theorem cumulative_mono (hnonneg : ∀ w ∈ weights, 0 ≤ w) : Monotone (cumulative weights) := by
  refine monotone_nat_of_le_succ fun k => ?_
  cases h : weights[k]? with
  | none =>
    have hlength := List.getElem?_eq_none_iff.mp h
    rw [cumulative, cumulative, List.take_of_length_le hlength, List.take_of_length_le (by omega)]
  | some w =>
    rw [cumulative_succ h]
    exact le_add_of_nonneg_right (hnonneg w (List.mem_of_getElem? h))

/-- A level lies between the sums around one place only. -/
theorem level_unique (hnonneg : ∀ w ∈ weights, 0 ≤ w) {t : K} {i j : ℕ} (hi : cumulative weights i ≤ t)
    (hi' : t < cumulative weights (i + 1)) (hj : cumulative weights j ≤ t) (hj' : t < cumulative weights (j + 1)) :
    i = j := by
  have hmono := cumulative_mono hnonneg
  obtain hlt | heq | hgt := Nat.lt_trichotomy i j
  · exact absurd (hi'.trans_le ((hmono hlt).trans hj)) (lt_irrefl t)
  · exact heq
  · exact absurd (hj'.trans_le ((hmono hgt).trans hi)) (lt_irrefl t)

end Levels

/-- The shares of the weights make up one. -/
theorem shares_sum [Field K] {weights : List K} (h : weights.sum ≠ 0) : (weights.map fun w => w / weights.sum).sum = 1 := by
  have hmul : (weights.map fun w => w / weights.sum) = weights.map fun w => w * weights.sum⁻¹ :=
    List.map_congr_left fun w _ => div_eq_mul_inv w _
  rw [hmul, List.sum_map_mul_right, List.map_id', mul_inv_cancel₀ h]

/-- Down a list of falling values, what is kept by a threshold is a prefix. -/
theorem lt_length_takeWhile [LinearOrder K] {p : K → Bool} (hp : ∀ a b, a ≤ b → p a = true → p b = true) : ∀ {l : List K},
    l.Pairwise (· ≥ ·) → ∀ {j : ℕ} {a : K}, l[j]? = some a → (j < (l.takeWhile p).length ↔ p a = true)
  | [], _, j, a, h => by simp at h
  | b :: l, hsorted, 0, a, h => by
    obtain rfl : b = a := by simpa using h
    by_cases hb : p b = true
    · simp [hb]
    · simp [hb]
  | b :: l, hsorted, j + 1, a, h => by
    obtain ⟨hb, hl⟩ := List.pairwise_cons.mp hsorted
    have ha : l[j]? = some a := by simpa using h
    have ih := lt_length_takeWhile hp hl ha
    by_cases hpb : p b = true
    · simpa [List.takeWhile_cons, hpb] using ih
    · have hpa : ¬p a = true := fun hpa => hpb (hp a b (hb a (List.mem_of_getElem? ha)) hpa)
      simp [hpb, hpa]
