/-
# Leases of slots

Holders lease slots: `slotOf` names the slot of a holder, if it has one. A table
that marks the leased slots is in step with the holders (`Leased`) when every
leased slot is marked, no two holders lease one slot and every marked slot is
leased. Then holders and marked slots are in bijection (`Leased.bijective`).

Taking a free slot and giving one back keep the two in step (`Leased.take`,
`Leased.giveBack`).
-/
import Mathlib

variable {ι : Type}

/-- The marked slots are those leased, each by one holder. -/
structure Leased (Marked : ℕ → Prop) (slotOf : ι → Option ℕ) : Prop where
  marked : ∀ i k, slotOf i = some k → Marked k
  injective : ∀ i j k, slotOf i = some k → slotOf j = some k → i = j
  leased : ∀ k, Marked k → ∃ i, slotOf i = some k

namespace Leased

variable {Marked : ℕ → Prop} {slotOf : ι → Option ℕ}

theorem empty (h : ∀ k, ¬Marked k) : Leased Marked fun _ : ι => none :=
  ⟨nofun, nofun, fun k hk => absurd hk (h k)⟩

theorem congr {Marked' : ℕ → Prop} (h : Leased Marked slotOf) (hiff : ∀ k, Marked k ↔ Marked' k) :
    Leased Marked' slotOf :=
  ⟨fun i k hi => (hiff k).mp (h.marked i k hi), h.injective, fun k hk => h.leased k ((hiff k).mpr hk)⟩

/-- Holders and marked slots are in bijection. -/
theorem bijective (h : Leased Marked slotOf) :
    Set.BijOn (fun i => (slotOf i).getD 0) {i | (slotOf i).isSome} {k | Marked k} := by
  refine ⟨?_, ?_, ?_⟩
  · intro i hi
    obtain ⟨k, hk⟩ := Option.isSome_iff_exists.mp hi
    show Marked ((slotOf i).getD 0)
    rw [hk]
    exact h.marked i k hk
  · intro i hi j hj hij
    obtain ⟨k, hk⟩ := Option.isSome_iff_exists.mp hi
    obtain ⟨k', hk'⟩ := Option.isSome_iff_exists.mp hj
    simp only [hk, hk', Option.getD_some] at hij
    exact h.injective i j k hk (hij ▸ hk')
  · intro k hk
    obtain ⟨i, hi⟩ := h.leased k hk
    refine ⟨i, ?_, ?_⟩
    · show (slotOf i).isSome = true
      rw [hi]
      rfl
    · show (slotOf i).getD 0 = k
      rw [hi]
      rfl

/-- A new holder takes a free slot. -/
theorem take [DecidableEq ι] (h : Leased Marked slotOf) {i : ι} {k : ℕ} (hi : slotOf i = none) (hk : ¬Marked k) :
    Leased (fun k' => k' = k ∨ Marked k') (Function.update slotOf i (some k)) := by
  refine ⟨?_, ?_, ?_⟩
  · intro j k' hj
    by_cases hji : j = i
    · subst hji
      rw [Function.update_self, Option.some.injEq] at hj
      exact Or.inl hj.symm
    · rw [Function.update_of_ne hji] at hj
      exact Or.inr (h.marked j k' hj)
  · intro j j' k' hj hj'
    by_cases hji : j = i <;> by_cases hji' : j' = i
    · rw [hji, hji']
    · subst hji
      rw [Function.update_self, Option.some.injEq] at hj
      rw [Function.update_of_ne hji'] at hj'
      exact absurd (h.marked j' k' hj') (hj ▸ hk)
    · subst hji'
      rw [Function.update_self, Option.some.injEq] at hj'
      rw [Function.update_of_ne hji] at hj
      exact absurd (h.marked j k' hj) (hj' ▸ hk)
    · rw [Function.update_of_ne hji] at hj
      rw [Function.update_of_ne hji'] at hj'
      exact h.injective j j' k' hj hj'
  · intro k' hk'
    by_cases hkk : k' = k
    · subst hkk
      exact ⟨i, Function.update_self _ _ _⟩
    · obtain ⟨j, hj⟩ := h.leased k' (hk'.resolve_left hkk)
      have hji : j ≠ i := by
        rintro rfl
        rw [hi] at hj
        cases hj
      exact ⟨j, by rw [Function.update_of_ne hji, hj]⟩

/-- A holder gives its slot back. -/
theorem giveBack [DecidableEq ι] (h : Leased Marked slotOf) {i : ι} {k : ℕ} (hi : slotOf i = some k) :
    Leased (fun k' => k' ≠ k ∧ Marked k') (Function.update slotOf i none) := by
  have hne : ∀ j k', Function.update slotOf i none j = some k' → j ≠ i ∧ slotOf j = some k' := by
    intro j k' hj
    by_cases hji : j = i
    · subst hji
      rw [Function.update_self] at hj
      cases hj
    · rw [Function.update_of_ne hji] at hj
      exact ⟨hji, hj⟩
  refine ⟨?_, ?_, ?_⟩
  · intro j k' hj
    obtain ⟨hji, hj⟩ := hne j k' hj
    refine ⟨?_, h.marked j k' hj⟩
    rintro rfl
    exact hji (h.injective j i k' hj hi)
  · intro j j' k' hj hj'
    exact h.injective j j' k' (hne j k' hj).2 (hne j' k' hj').2
  · rintro k' ⟨hkk, hk'⟩
    obtain ⟨j, hj⟩ := h.leased k' hk'
    have hji : j ≠ i := by
      rintro rfl
      rw [hi, Option.some.injEq] at hj
      exact hkk hj.symm
    exact ⟨j, by rw [Function.update_of_ne hji, hj]⟩

end Leased
