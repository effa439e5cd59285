/-
# Packing in order

Items are taken in the order of a list, each if it still fits beside those taken
before it. When the list is in the order of a relation, an item is left exactly
when it does not fit beside the items before it that were taken
(`mem_left_iff`).

Key definitions: `packed`.
-/
import Mathlib

variable {α β : Type} (w : α → ℕ) (room : ℕ)

/-- The items taken and the items left. -/
def packed : ℕ → List α → List α × List α
  | _, [] => ([], [])
  | used, a :: l =>
    if used + w a ≤ room then (a :: (packed (used + w a) l).1, (packed (used + w a) l).2)
    else ((packed used l).1, a :: (packed used l).2)

variable {w room}

theorem packed_perm : ∀ {used : ℕ} {l : List α}, ((packed w room used l).1 ++ (packed w room used l).2).Perm l
  | _, [] => .nil
  | used, a :: l => by
    unfold packed
    split_ifs
    · exact packed_perm.cons a
    · exact List.perm_middle.trans (packed_perm.cons a)

theorem mem_of_mem_packed {used : ℕ} {l : List α} {a : α}
    (h : a ∈ (packed w room used l).1 ∨ a ∈ (packed w room used l).2) : a ∈ l :=
  packed_perm.subset (List.mem_append.mpr h)

theorem packed_fits : ∀ {used : ℕ} {l : List α}, used ≤ room → used + ((packed w room used l).1.map w).sum ≤ room
  | _, [], h => h
  | used, a :: l, h => by
    unfold packed
    split_ifs with hfits
    · have ih := packed_fits (l := l) hfits
      simp only [List.map_cons, List.sum_cons]
      omega
    · exact packed_fits h

/-- In a list in the order of `r`, an item is left when it does not fit beside
the items taken before it. -/
theorem mem_left_iff {r : α → α → Prop} [DecidableRel r] {a : α} : ∀ {used : ℕ} {l : List α}, l.Pairwise r →
    (∀ a ∈ l, ∀ b ∈ l, r a b → ¬r b a) → a ∈ l →
      (a ∈ (packed w room used l).2 ↔
        room < used + (((packed w room used l).1.filter fun b => r b a).map w).sum + w a)
  | _, [], _, _, ha => nomatch ha
  | used, c :: l, hr, hasymm, ha => by
    obtain ⟨hc, hl⟩ := List.pairwise_cons.mp hr
    have hasymm' : ∀ a ∈ l, ∀ b ∈ l, r a b → ¬r b a :=
      fun a ha b hb => hasymm a (List.mem_cons_of_mem _ ha) b (List.mem_cons_of_mem _ hb)
    have hirrefl : ∀ b ∈ c :: l, ¬r b b := fun b hb h => hasymm b hb b hb h h
    obtain rfl | ha := List.mem_cons.mp ha
    · -- Nothing comes before the first item.
      have hnone : ∀ used', ((packed w room used' l).1.filter fun b => r b a) = [] := by
        intro used'
        refine List.filter_eq_nil_iff.mpr fun b hb => ?_
        have hb := mem_of_mem_packed (.inl hb)
        have hnot := hasymm a List.mem_cons_self b (List.mem_cons_of_mem _ hb) (hc b hb)
        simpa using hnot
      have hnotin : ∀ used', a ∉ (packed w room used' l).2 := fun used' hmem =>
        hirrefl a List.mem_cons_self (hc a (mem_of_mem_packed (.inr hmem)))
      unfold packed
      split_ifs with hfits
      · have hself := hirrefl a List.mem_cons_self
        simp only [List.filter_cons, hself, decide_false, Bool.false_eq_true, if_false, hnone, List.map_nil,
          List.sum_nil, hnotin, false_iff]
        omega
      · simp only [hnone, List.map_nil, List.sum_nil, List.mem_cons, true_or, true_iff]
        omega
    · have hca := hc a ha
      have hne : a ≠ c := by
        rintro rfl
        exact hirrefl a List.mem_cons_self hca
      unfold packed
      split_ifs with hfits
      · rw [mem_left_iff hl hasymm' ha, List.filter_cons, if_pos (decide_eq_true hca), List.map_cons, List.sum_cons,
          ← add_assoc used (w c)]
      · rw [List.mem_cons, or_iff_right hne, mem_left_iff hl hasymm' ha]

/-- Items are packed as what stands for them. -/
theorem packed_filterMap {f : α → Option β} {w' : β → ℕ} : ∀ (used : ℕ) {l : List α},
    (∀ a ∈ l, ∃ b, f a = some b ∧ w' b = w a) →
      packed w' room used (l.filterMap f) =
        ((packed w room used l).1.filterMap f, (packed w room used l).2.filterMap f)
  | _, [], _ => rfl
  | used, a :: l, h => by
    obtain ⟨b, hb, hw⟩ := h a List.mem_cons_self
    have ih := fun used' => packed_filterMap used' (l := l) fun a ha => h a (List.mem_cons_of_mem _ ha)
    rw [List.filterMap_cons_some hb]
    unfold packed
    rw [hw, ih, ih]
    split_ifs <;> simp [hb]
