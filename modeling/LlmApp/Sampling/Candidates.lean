/-
# The candidates are the start of the sorted indices

Partial selection and a sort of the prefix give what a sort of all indices
starts with, because the comparison of logits tells any two indices apart: it is
the total order of the floats, then the index.

Key definitions: `Sampler.Above`.
Key theorems: `Sampler.ordersOn_logits`, `Sampler.selectCandidates_eq`,
`Sampler.candidates_exact`.
-/
import LlmApp.Sampling.Sampler

namespace LlmApp

namespace Sampler

/-! ### The order of the indices -/

section Order

variable {logits : List F32} {indices : List ℕ}

/-- The first index comes before the second: the larger logit, then the smaller
index. -/
def Above (logits : List F32) (i j : ℕ) : Prop := ∃ x y, logits[i]? = some x ∧ logits[j]? = some y ∧
  (F32.totalCmp y x = .lt ∨ F32.totalCmp y x = .eq ∧ i < j)

instance : Std.TransCmp F32.totalCmp := inferInstanceAs (Std.TransCmp (compareOn F32.totalKey))

/-- Larger logits first, then smaller indices. -/
def logitRank (left right : ℕ × F32) : Ordering := (F32.totalCmp right.2 left.2).then (compare left.1 right.1)

instance : Std.TransCmp logitRank :=
  inferInstanceAs (Std.TransCmp (compareLex (fun left right : ℕ × F32 => compareOn (fun e : ℕ × F32 => F32.totalKey e.2)
    right left) (compareOn Prod.fst)))

theorem ordersOn_logits (h : ∀ i ∈ indices, i < logits.length) : OrdersOn (compareLogits logits) indices := by
  have hlookup : OrdersOn (lookupOrder (fun i => logits[i]?) logitRank) indices :=
    ordersOn_lookup fun i hi => ⟨_, List.getElem?_eq_getElem (h i hi)⟩
  exact hlookup

theorem separates_logits : Separates (compareLogits logits) indices := by
  intro i _ j _ h
  unfold compareLogits lookupOrder at h
  split at h
  · exact Nat.compare_eq_eq.mp (Ordering.then_eq_eq.mp h).2
  · cases h
  · cases h
  · exact Nat.compare_eq_eq.mp h

theorem compareLogits_eq_lt {i j : ℕ} (hi : i < logits.length) (hj : j < logits.length) :
    compareLogits logits i j = .lt ↔ Above logits i j := by
  have hx := List.getElem?_eq_getElem hi
  have hy := List.getElem?_eq_getElem hj
  rw [compareLogits, lookupOrder_some hx hy, Ordering.then_eq_lt, Nat.compare_eq_lt]
  constructor
  · exact fun h => ⟨_, _, hx, hy, h⟩
  · rintro ⟨x, y, hx', hy', h⟩
    obtain rfl := Option.some.inj (hx.symm.trans hx')
    obtain rfl := Option.some.inj (hy.symm.trans hy')
    exact h

/-- Indices in order are strictly in order, when none occurs twice. -/
theorem pairwise_above (h : ∀ i ∈ indices, i < logits.length) (hnodup : indices.Nodup)
    (hsorted : indices.Pairwise fun i j => (compareLogits logits i j).isLE) : indices.Pairwise (Above logits) := by
  refine (hsorted.and hnodup).imp_of_mem fun {i j} hi hj hij => ?_
  rw [← compareLogits_eq_lt (h i hi) (h j hj)]
  obtain hlt | heq := Ordering.isLE_iff_eq_lt_or_eq_eq.mp hij.1
  · exact hlt
  · exact absurd (separates_logits i hi j hj heq) hij.2

end Order

/-! ### Selection -/

section Selection

variable {logits : List F32}

/-- All the indices, sorted. -/
def sortedIndices (logits : List F32) : List ℕ :=
  (List.range logits.length).mergeSort fun i j => (compareLogits logits i j).isLE

theorem sortedIndices_perm (logits : List F32) : (sortedIndices logits).Perm (List.range logits.length) :=
  List.mergeSort_perm _ _

theorem sortedIndices_sorted (logits : List F32) :
    (sortedIndices logits).Pairwise fun i j => (compareLogits logits i j).isLE :=
  pairwise_mergeSort_of_ordersOn (ordersOn_logits fun _ hi => List.mem_range.mp hi)

theorem sortedIndices_above (logits : List F32) : (sortedIndices logits).Pairwise (Above logits) := by
  have hperm := sortedIndices_perm logits
  refine pairwise_above (fun i hi => ?_) (hperm.nodup_iff.mpr List.nodup_range) (sortedIndices_sorted logits)
  exact List.mem_range.mp (hperm.subset hi)

theorem fillIndices_eq {vocabularySize : ℕ} {indices : List ℕ} (h : indices.length ≤ u32Max) :
    fillIndices vocabularySize indices = .ok (List.range indices.length) := by
  have hslot : ∀ slot ∈ indices.zipIdx, (if slot.2 ≤ u32Max then .ok slot.2 else
      .error (.vocabularyTooLarge vocabularySize) : Except SamplingError ℕ) = .ok slot.2 := by
    intro slot hslot
    have hlt := (List.getElem?_eq_some_iff.mp (List.mk_mem_zipIdx_iff_getElem?.mp hslot)).1
    exact if_pos (hlt.le.trans h)
  rw [fillIndices, Except.mapM_ok hslot, List.zipIdx_map_snd, List.range_eq_range']

theorem candidateCount_le (vocabularySize topK : ℕ) : candidateCount vocabularySize topK ≤ vocabularySize := by
  unfold candidateCount
  split_ifs
  · exact le_rfl
  · exact min_le_left _ _

theorem candidateCount_pos {vocabularySize : ℕ} (h : 0 < vocabularySize) (topK : ℕ) :
    0 < candidateCount vocabularySize topK := by
  unfold candidateCount
  split_ifs
  · exact h
  · omega

/-- The candidates are what all indices, sorted, start with. -/
theorem selectCandidates_eq (sort : UnstableSort ℕ) (select : UnstableSelect ℕ) (hne : logits ≠ []) (topK : ℕ) :
    ∃ others, selectCandidates sort select logits topK (List.range logits.length) =
      .ok ((sortedIndices logits).take (candidateCount logits.length topK), others) := by
  have horders : OrdersOn (compareLogits logits) (List.range logits.length) :=
    ordersOn_logits fun _ hi => List.mem_range.mp hi
  have hpos := candidateCount_pos (List.length_pos_of_ne_nil hne) topK
  have hle := candidateCount_le logits.length topK
  have hperm := sortedIndices_perm logits
  have hsorted := sortedIndices_sorted logits
  unfold selectCandidates
  generalize candidateCount logits.length topK = count at hpos hle ⊢
  by_cases hlt : count < logits.length
  · have hselect := select.perm (compareLogits logits) (count - 1) (List.range logits.length)
    have hlength := hselect.length_eq
    rw [List.length_range] at hlength
    simp only [List.length_range, hlt, if_true, hlength, hle]
    rw [sort_take_select sort select horders separates_logits hpos (by rw [List.length_range]; exact hle) hperm hsorted]
    exact ⟨_, rfl⟩
  · obtain rfl : count = logits.length := le_antisymm hle (not_lt.mp hlt)
    have hsort := ordered_unique horders separates_logits (sort.perm _ _) hperm (sort.ordered horders) hsorted
    have htake : (List.range logits.length).take logits.length = List.range logits.length :=
      List.take_of_length_le (by rw [List.length_range])
    have hall : (sortedIndices logits).take logits.length = sortedIndices logits :=
      List.take_of_length_le (by rw [hperm.length_eq, List.length_range])
    simp only [List.length_range, lt_irrefl, if_false, le_refl, if_true, htake, hsort, hall]
    exact ⟨_, rfl⟩

/-- What comes first among all indices is of a maximal logit. -/
theorem maximal_head {full : List ℕ} (hperm : full.Perm (List.range logits.length)) (hsorted : full.Pairwise (Above logits))
    (hpos : 0 < logits.length) {count : ℕ} (hcount : 0 < count) :
    ∃ first x, (full.take count).head? = some first ∧ logits[first]? = some x ∧
      ∀ y ∈ logits, F32.totalCmp y x ≠ .gt := by
  cases full with
  | nil =>
    have hlength := hperm.length_eq
    rw [List.length_nil, List.length_range] at hlength
    omega
  | cons first rest =>
    have hfirst := List.mem_range.mp (hperm.subset List.mem_cons_self)
    have hget := List.getElem?_eq_getElem hfirst
    refine ⟨first, _, ?_, hget, fun y hy => ?_⟩
    · rw [List.head?_take, if_neg (by omega)]
      rfl
    obtain ⟨j, hj⟩ := List.mem_iff_getElem?.mp hy
    have hlt := (List.getElem?_eq_some_iff.mp hj).1
    obtain rfl | hrest := List.mem_cons.mp (hperm.symm.subset (List.mem_range.mpr hlt))
    · obtain rfl := Option.some.inj (hget.symm.trans hj)
      rw [F32.totalCmp_eq_eq.mpr rfl]
      exact nofun
    · obtain ⟨x', y', hx', hy', habove⟩ := (List.pairwise_cons.mp hsorted).1 j hrest
      obtain rfl := Option.some.inj (hget.symm.trans hx')
      obtain rfl := Option.some.inj (hj.symm.trans hy')
      obtain hlt | ⟨heq, -⟩ := habove
      · rw [hlt]
        exact nofun
      · rw [heq]
        exact nofun

end Selection

/-- The candidates are the first of all indices in the order of the logits, of
which a NaN counts as negative infinity: distinct valid indices, the first of a
maximal logit. -/
theorem candidates_exact (sort : UnstableSort ℕ) (select : UnstableSelect ℕ) (logits : List F32) (topK : ℕ)
    (indices : List ℕ) (hne : logits ≠ []) (hvocabulary : logits.length ≤ u32Max)
    (hindices : logits.length ≤ indices.length) :
    ∃ full candidates others : List ℕ, full.Perm (List.range logits.length) ∧ full.Pairwise (Above (replaceNan logits)) ∧
      orderCandidates sort select logits topK indices = .ok (candidates, others) ∧
      candidates = full.take (if topK = 0 then logits.length else min topK logits.length) ∧
      candidates.Nodup ∧ (∀ i ∈ candidates, i < logits.length) ∧
      ∃ first x, candidates.head? = some first ∧ (replaceNan logits)[first]? = some x ∧
        ∀ y ∈ replaceNan logits, F32.totalCmp y x ≠ .gt := by
  have hlength : (replaceNan logits).length = logits.length := List.length_map _
  have hpos : 0 < logits.length := List.length_pos_of_ne_nil hne
  have hne' : replaceNan logits ≠ [] := by
    rw [← List.length_pos_iff_ne_nil, hlength]
    exact hpos
  obtain ⟨others, hselect⟩ := selectCandidates_eq sort select hne' topK
  have hperm := sortedIndices_perm (replaceNan logits)
  have hsorted := sortedIndices_above (replaceNan logits)
  rw [hlength] at hselect hperm
  have htaken : (indices.take logits.length).length = logits.length := by
    rw [List.length_take]
    omega
  have hcount : candidateCount logits.length topK = if topK = 0 then logits.length else min topK logits.length := by
    rw [candidateCount, min_comm]
  have horder : orderCandidates sort select logits topK indices =
      .ok ((sortedIndices (replaceNan logits)).take (candidateCount logits.length topK), others) := by
    rw [orderCandidates, fillIndices_eq (htaken.trans_le hvocabulary), htaken]
    exact hselect
  generalize sortedIndices (replaceNan logits) = full at hperm hsorted horder
  refine ⟨full, _, others, hperm, hsorted, horder, by rw [hcount], ?_, ?_, ?_⟩
  · exact (hperm.nodup_iff.mpr List.nodup_range).sublist (List.take_sublist _ _)
  · exact fun i hi => List.mem_range.mp (hperm.subset (List.mem_of_mem_take hi))
  · rw [← hlength] at hperm
    exact maximal_head hperm hsorted (hlength ▸ hpos) (candidateCount_pos hpos topK)

/-- Three logits, one of them no number, with two candidates. -/
theorem candidates_exact_three :
    let logits : List F32 := [0x3F800000#32, 0x40000000#32, 0x7FC00000#32]
    ∃ full candidates others : List ℕ, full.Perm (List.range 3) ∧ full.Pairwise (Above (replaceNan logits)) ∧
      orderCandidates (.mergeSort ℕ) (.mergeSort ℕ) logits 2 [7, 7, 7, 7] = .ok (candidates, others) ∧
      candidates = full.take 2 := by
  intro logits
  obtain ⟨full, candidates, others, h1, h2, h3, h4, -⟩ :=
    candidates_exact (.mergeSort ℕ) (.mergeSort ℕ) logits 2 [7, 7, 7, 7] (by simp [logits]) (by decide) (by decide)
  exact ⟨full, candidates, others, h1, h2, h3, h4⟩

end Sampler

end LlmApp
