/-
# Marking along a relation

Marks spread over a relation: an element of `P` that something marked is related
to may be marked (`Marks`), in any order. Once nothing is left to mark, the marked
elements are those marked at the start and those reached from them through `P`
(`marked_eq`), which is the least set that the marks cannot leave.

Key definitions: `Marks`, `ReachedFrom`.
-/
import Mathlib

open Relation

variable {α : Type} (r : α → α → Prop) (P : Set α)

/-- One more element of `P` is marked. -/
inductive Marks : Set α → Set α → Prop
  | mark {M : Set α} {p t : α} (ht : t ∈ P) (hp : p ∈ M) (hr : r p t) : Marks M (insert t M)

/-- What is reached from `M` through `P`. -/
def ReachedFrom (M : Set α) : Set α := {t | ∃ p ∈ M, TransGen (fun p t => r p t ∧ t ∈ P) p t}

variable {r P} {M M' : Set α}

theorem marks_subset (h : ReflTransGen (Marks r P) M M') : M ⊆ M' := by
  induction h with
  | refl => exact subset_rfl
  | tail _ hmark ih =>
    obtain ⟨-, -, -⟩ := hmark
    exact ih.trans (Set.subset_insert _ _)

/-- Only what is reached is marked. -/
theorem marks_reached (h : ReflTransGen (Marks r P) M M') : M' ⊆ M ∪ ReachedFrom r P M := by
  induction h with
  | refl => exact Set.subset_union_left
  | tail _ hmark ih =>
    obtain ⟨ht, hp, hr⟩ := hmark
    refine Set.insert_subset (.inr ?_) ih
    obtain hp | ⟨s, hs, hreach⟩ := ih hp
    · exact ⟨_, hp, .single ⟨hr, ht⟩⟩
    · exact ⟨s, hs, hreach.tail ⟨hr, ht⟩⟩

/-- A set that the marks cannot leave holds all that is reached from inside it. -/
theorem reached_subset (hsubset : M ⊆ M') (hclosed : ∀ t ∈ P, ∀ p ∈ M', r p t → t ∈ M') : ReachedFrom r P M ⊆ M' := by
  rintro t ⟨s, hs, hreach⟩
  induction hreach with
  | single h => exact hclosed _ h.2 _ (hsubset hs) h.1
  | tail _ h ih => exact hclosed _ h.2 _ ih h.1

/-- When nothing is left to mark, just what is reached has been marked. -/
theorem marked_eq (h : ReflTransGen (Marks r P) M M') (hclosed : ∀ t ∈ P, ∀ p ∈ M', r p t → t ∈ M') :
    M' = M ∪ ReachedFrom r P M :=
  Set.Subset.antisymm (marks_reached h) (Set.union_subset (marks_subset h) (reached_subset (marks_subset h) hclosed))
