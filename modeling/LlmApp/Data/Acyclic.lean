/-
# Acyclic relations and orders that find them out

A relation is acyclic when no element reaches itself. A list that names every
element after its predecessors (`Topological`) shows that the relation has no cycle
among them (`Topological.not_reaches`), and a finite set in which every element has
a predecessor holds a cycle (`exists_minimal`). So an algorithm that extends
such a list until nothing can be added decides acyclicity.

Key definitions: `Acyclic`, `Topological`.
Key theorems: `Topological.not_reaches`, `Acyclic.exists_minimal`,
`Acyclic.of_rank`.
-/
import Mathlib

open Relation

variable {α β : Type}

/-- No element reaches itself. -/
def Acyclic (r : α → α → Prop) : Prop := ∀ a, ¬TransGen r a a

namespace Acyclic

variable {r : α → α → Prop}

/-- A relation that raises a rank is acyclic. -/
theorem of_rank (rank : α → ℕ) (h : ∀ a b, r a b → rank a < rank b) : Acyclic r := by
  intro a ha
  have hlt : ∀ b, TransGen r a b → rank a < rank b := by
    intro b hb
    induction hb with
    | single hab => exact h _ _ hab
    | tail _ hbc ih => exact ih.trans (h _ _ hbc)
  exact absurd (hlt a ha) (lt_irrefl _)

/-- An acyclic relation has a minimal element in every nonempty finite set. -/
theorem exists_minimal (h : Acyclic r) {s : Finset α} (hs : s.Nonempty) : ∃ a ∈ s, ∀ p ∈ s, ¬r p a := by
  let reaches : s → s → Prop := fun a b => TransGen r a b
  have : IsTrans s reaches := ⟨fun _ _ _ hab hbc => TransGen.trans hab hbc⟩
  have : Std.Irrefl reaches := ⟨fun a => h a⟩
  have hwf : WellFounded reaches := Finite.wellFounded_of_trans_of_irrefl reaches
  obtain ⟨a, ha⟩ := hs
  obtain ⟨least, -, hleast⟩ := hwf.has_min Set.univ ⟨⟨a, ha⟩, Set.mem_univ _⟩
  refine ⟨least, least.2, fun p hp hr => ?_⟩
  exact hleast ⟨p, hp⟩ (Set.mem_univ _) (.single hr)

end Acyclic

/-- A list that names each element once and after all its predecessors. -/
inductive Topological (r : α → α → Prop) : List α → Prop
  | nil : Topological r []
  | concat {l : List α} {a : α} (h : Topological r l) (hnew : a ∉ l) (hpred : ∀ p, r p a → p ∈ l) :
      Topological r (l ++ [a])

namespace Topological

variable {r : α → α → Prop} {l : List α}

/-- The predecessors of a listed element are listed. -/
theorem closed (h : Topological r l) {a p : α} (ha : a ∈ l) (hp : r p a) : p ∈ l := by
  induction h with
  | nil => cases ha
  | concat _ _ hpred ih =>
    rw [List.mem_append, List.mem_singleton] at ha ⊢
    obtain ha | rfl := ha
    · exact Or.inl (ih ha)
    · exact Or.inl (hpred p hp)

theorem closed_reaches (h : Topological r l) {a p : α} (ha : a ∈ l) (hp : TransGen r p a) : p ∈ l := by
  induction hp using TransGen.head_induction_on with
  | single hpa => exact h.closed ha hpa
  | head hpq _ ih => exact h.closed ih hpq

theorem nodup (h : Topological r l) : l.Nodup := by
  induction h with
  | nil => exact List.nodup_nil
  | concat _ hnew _ ih =>
    refine List.nodup_append.mpr ⟨ih, List.nodup_singleton _, ?_⟩
    intro a ha b hb
    rw [List.mem_singleton.mp hb]
    exact fun hab => hnew (hab ▸ ha)

/-- No listed element reaches itself. -/
theorem not_reaches (h : Topological r l) : ∀ a ∈ l, ¬TransGen r a a := by
  induction h with
  | nil => intro a ha; cases ha
  | @concat l a h hnew hpred ih =>
    intro c hc hcycle
    rw [List.mem_append, List.mem_singleton] at hc
    obtain hc | rfl := hc
    · exact ih c hc hcycle
    · -- The last step of the cycle comes from a predecessor, which is listed before.
      obtain ⟨p, hcp, hpc⟩ := TransGen.tail'_iff.mp hcycle
      have hp : p ∈ l := hpred p hpc
      obtain rfl | hreach := Relation.reflTransGen_iff_eq_or_transGen.mp hcp
      · exact hnew hp
      · exact hnew (h.closed_reaches hp hreach)

end Topological
