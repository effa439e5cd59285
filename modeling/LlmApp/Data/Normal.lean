/-
# Lists in normal form

A list sorted by a comparator that only equal elements compare equal under, with
equal neighbours merged: strictly increasing, with the same elements, and so the
same for any two lists of the same elements.

Key definitions: `sortDedup`.
Key theorems: `mem_sortDedup`, `sortDedup_pairwise`, `sortDedup_eq_iff`, `sortDedup_of_pairwise`.
-/
import Mathlib

variable {α : Type} [DecidableEq α] (cmp : α → α → Ordering)

/-- `slice::sort` and `Vec::dedup`. -/
def sortDedup (l : List α) : List α := (l.mergeSort fun a b => (cmp a b).isLE).destutter (· ≠ ·)

theorem mem_destutter'_ne {a : α} : ∀ {l : List α} {b : α}, a ∈ l.destutter' (· ≠ ·) b ↔ a = b ∨ a ∈ l
  | [], b => by simp
  | c :: l, b => by
    by_cases h : b ≠ c
    · rw [List.destutter'_cons_pos l h, List.mem_cons, mem_destutter'_ne, List.mem_cons]
    · rw [List.destutter'_cons_neg l h, mem_destutter'_ne, List.mem_cons]
      obtain rfl := not_not.mp h
      tauto

theorem mem_destutter_ne {a : α} {l : List α} : a ∈ l.destutter (· ≠ ·) ↔ a ∈ l := by
  cases l with
  | nil => rfl
  | cons b l => rw [List.destutter_cons', mem_destutter'_ne, List.mem_cons]

@[simp] theorem mem_sortDedup {a : α} {l : List α} : a ∈ sortDedup cmp l ↔ a ∈ l :=
  mem_destutter_ne.trans List.mem_mergeSort

section Order

variable {cmp} [Std.TransCmp cmp] [Std.LawfulEqCmp cmp] {l l' : List α}

theorem sortDedup_pairwise (l : List α) : (sortDedup cmp l).Pairwise fun a b => cmp a b = .lt := by
  have hsorted : (l.mergeSort fun a b => (cmp a b).isLE).Pairwise fun a b => (cmp a b).isLE = true := by
    refine List.pairwise_mergeSort (fun _ _ _ => Std.TransCmp.isLE_trans) (fun a b => ?_) l
    rw [show cmp b a = (cmp a b).swap from Std.OrientedCmp.eq_swap]
    cases cmp a b <;> rfl
  have hle := hsorted.sublist (List.destutter_sublist (· ≠ ·) _)
  have hne : (sortDedup cmp l).IsChain (· ≠ ·) := List.isChain_destutter _ _
  -- Neighbours are in order and differ, and the order is transitive.
  have hlt : (sortDedup cmp l).IsChain fun a b => cmp a b = .lt := by
    rw [List.isChain_iff_getElem] at hne ⊢
    intro i hi
    have hisLE := List.pairwise_iff_getElem.mp hle i (i + 1) (Nat.lt_of_succ_lt hi) hi (Nat.lt_succ_self i)
    have hneq : cmp (sortDedup cmp l)[i] (sortDedup cmp l)[i + 1] ≠ .eq :=
      fun heq => hne i hi (Std.LawfulEqCmp.eq_of_compare heq)
    change (cmp (sortDedup cmp l)[i] (sortDedup cmp l)[i + 1]).isLE = true at hisLE
    cases hcmp : cmp (sortDedup cmp l)[i] (sortDedup cmp l)[i + 1] with
    | lt => rfl
    | eq => exact absurd hcmp hneq
    | gt => rw [hcmp] at hisLE; cases hisLE
  have htrans : IsTrans α fun a b => cmp a b = .lt := ⟨fun _ _ _ => Std.TransCmp.lt_trans⟩
  exact List.isChain_iff_pairwise.mp hlt

omit [DecidableEq α] [Std.LawfulEqCmp cmp] in
/-- There is one strictly increasing list of given elements. -/
theorem pairwise_lt_unique (h : l.Pairwise fun a b => cmp a b = .lt) (h' : l'.Pairwise fun a b => cmp a b = .lt)
    (hmem : ∀ a, a ∈ l ↔ a ∈ l') : l = l' := by
  have hnodup : ∀ {l : List α}, (l.Pairwise fun a b => cmp a b = .lt) → l.Nodup := by
    intro l h
    refine h.imp fun {a b} hlt heq => ?_
    rw [heq, show cmp b b = .eq from Std.ReflCmp.compare_self] at hlt
    cases hlt
  have hperm : l.Perm l' := (List.perm_ext_iff_of_nodup (hnodup h) (hnodup h')).mpr hmem
  refine hperm.eq_of_pairwise (fun a b _ _ hab hba => ?_) h h'
  rw [show cmp a b = (cmp b a).swap from Std.OrientedCmp.eq_swap, hba] at hab
  cases hab

/-- The normal forms agree when the elements do. -/
theorem sortDedup_eq_iff : sortDedup cmp l = sortDedup cmp l' ↔ ∀ a, a ∈ l ↔ a ∈ l' := by
  constructor
  · intro h a
    rw [← mem_sortDedup cmp, h, mem_sortDedup]
  · intro h
    refine pairwise_lt_unique (sortDedup_pairwise l) (sortDedup_pairwise l') fun a => ?_
    rw [mem_sortDedup, mem_sortDedup, h]

/-- A strictly increasing list is in normal form. -/
theorem sortDedup_of_pairwise (h : l.Pairwise fun a b => cmp a b = .lt) : sortDedup cmp l = l :=
  pairwise_lt_unique (sortDedup_pairwise l) h fun _ => mem_sortDedup cmp

omit [Std.TransCmp cmp] [Std.LawfulEqCmp cmp] in
/-- What is merged weighs no more. -/
theorem sum_sortDedup_le (f : α → ℕ) (l : List α) : ((sortDedup cmp l).map f).sum ≤ (l.map f).sum := by
  have hsublist : (sortDedup cmp l).Sublist (l.mergeSort fun a b => (cmp a b).isLE) := List.destutter_sublist _ _
  calc ((sortDedup cmp l).map f).sum ≤ ((l.mergeSort fun a b => (cmp a b).isLE).map f).sum :=
        (hsublist.map f).sum_le_sum fun _ _ => Nat.zero_le _
    _ = (l.map f).sum := ((List.mergeSort_perm _ _).map f).sum_eq

end Order
