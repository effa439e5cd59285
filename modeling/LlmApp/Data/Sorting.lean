/-
# Unstable sorting and selection

What `sort_unstable_by` and `select_nth_unstable_by` promise: a permutation, in
order or split at a position, when the comparator is a total order on the
elements; where equal elements go is left open. When the comparator tells the
elements apart there is only one list in order (`ordered_unique`), and to select
a position and sort what is before it gives the start of that list
(`sort_take_select`).

Key definitions: `OrdersOn`, `Separates`, `UnstableSort`, `UnstableSelect`, `lookupOrder`.
-/
import Mathlib

variable {α : Type} {cmp : α → α → Ordering} {l l₁ l₂ : List α}

/-- The comparator is a total order on the elements of the list. -/
structure OrdersOn (cmp : α → α → Ordering) (l : List α) : Prop where
  swap : ∀ a ∈ l, ∀ b ∈ l, cmp b a = (cmp a b).swap
  trans : ∀ a ∈ l, ∀ b ∈ l, ∀ c ∈ l, (cmp a b).isLE → (cmp b c).isLE → (cmp a c).isLE

/-- Only equal elements compare equal. -/
def Separates (cmp : α → α → Ordering) (l : List α) : Prop := ∀ a ∈ l, ∀ b ∈ l, cmp a b = .eq → a = b

/-- `slice::sort_unstable_by`. -/
structure UnstableSort (α : Type) where
  sort : (α → α → Ordering) → List α → List α
  perm : ∀ cmp l, (sort cmp l).Perm l
  ordered : ∀ {cmp l}, OrdersOn cmp l → (sort cmp l).Pairwise fun a b => (cmp a b).isLE

/-- `slice::select_nth_unstable_by`, of a position of the slice. -/
structure UnstableSelect (α : Type) where
  select : (α → α → Ordering) → ℕ → List α → List α
  perm : ∀ cmp n l, (select cmp n l).Perm l
  split : ∀ {cmp n l}, OrdersOn cmp l → ∀ a, (select cmp n l)[n]? = some a →
    (∀ b ∈ (select cmp n l).take n, (cmp b a).isLE) ∧ ∀ b ∈ (select cmp n l).drop (n + 1), (cmp a b).isLE

/-! ### Orders -/

namespace OrdersOn

theorem of_transCmp [Std.TransCmp cmp] (l : List α) : OrdersOn cmp l :=
  ⟨fun _ _ _ _ => Std.OrientedCmp.eq_swap, fun _ _ _ _ _ _ => Std.TransCmp.isLE_trans⟩

theorem subset (h : OrdersOn cmp l) (hsub : l₁ ⊆ l) : OrdersOn cmp l₁ :=
  ⟨fun a ha b hb => h.swap a (hsub ha) b (hsub hb),
    fun a ha b hb c hc => h.trans a (hsub ha) b (hsub hb) c (hsub hc)⟩

theorem refl (h : OrdersOn cmp l) {a : α} (ha : a ∈ l) : (cmp a a).isLE := by
  have hswap := h.swap a ha a ha
  cases hcmp : cmp a a <;> simp_all

theorem antisymm (h : OrdersOn cmp l) (hs : Separates cmp l) {a b : α} (ha : a ∈ l) (hb : b ∈ l)
    (hab : (cmp a b).isLE) (hba : (cmp b a).isLE) : a = b := by
  refine hs a ha b hb ?_
  rw [h.swap a ha b hb] at hba
  cases hcmp : cmp a b <;> simp_all

end OrdersOn

theorem Separates.subset (h : Separates cmp l) (hsub : l₁ ⊆ l) : Separates cmp l₁ :=
  fun a ha b hb => h a (hsub ha) b (hsub hb)

/-- Elements that are told apart are in order in one way only. -/
theorem ordered_unique (h : OrdersOn cmp l) (hs : Separates cmp l) (hperm₁ : l₁.Perm l) (hperm₂ : l₂.Perm l)
    (h₁ : l₁.Pairwise fun a b => (cmp a b).isLE) (h₂ : l₂.Pairwise fun a b => (cmp a b).isLE) : l₁ = l₂ := by
  refine List.Perm.eq_of_pairwise (fun a b ha hb => ?_) h₁ h₂ (hperm₁.trans hperm₂.symm)
  exact h.antisymm hs (hperm₁.subset ha) (hperm₂.subset hb)

/-! ### Orders of positions -/

section Lookup

variable {get : ℕ → Option α} {rank : ℕ × α → ℕ × α → Ordering} {positions : List ℕ}

/-- Positions compare as what is found there; those of nothing come last. -/
def lookupOrder (get : ℕ → Option α) (rank : ℕ × α → ℕ × α → Ordering) (left right : ℕ) : Ordering :=
  match get left, get right with
  | some a, some b => rank (left, a) (right, b)
  | some _, none => .lt
  | none, some _ => .gt
  | none, none => compare left right

theorem lookupOrder_some {i j : ℕ} {a b : α} (hi : get i = some a) (hj : get j = some b) :
    lookupOrder get rank i j = rank (i, a) (j, b) := by
  rw [lookupOrder, hi, hj]

theorem ordersOn_lookup [Std.TransCmp rank] (h : ∀ i ∈ positions, ∃ a, get i = some a) :
    OrdersOn (lookupOrder get rank) positions := by
  constructor
  · intro i hi j hj
    obtain ⟨a, ha⟩ := h i hi
    obtain ⟨b, hb⟩ := h j hj
    rw [lookupOrder_some hb ha, lookupOrder_some ha hb]
    exact Std.OrientedCmp.eq_swap
  · intro i hi j hj k hk
    obtain ⟨a, ha⟩ := h i hi
    obtain ⟨b, hb⟩ := h j hj
    obtain ⟨c, hc⟩ := h k hk
    rw [lookupOrder_some ha hb, lookupOrder_some hb hc, lookupOrder_some ha hc]
    exact Std.TransCmp.isLE_trans

end Lookup

/-! ### Selection -/

/-- To sort what is selected is to take the start of the sorted list. -/
theorem sort_take_select (S : UnstableSort α) (T : UnstableSelect α) (h : OrdersOn cmp l) (hs : Separates cmp l)
    {k : ℕ} (hpos : 0 < k) (hk : k ≤ l.length) (hperm : l₁.Perm l) (h₁ : l₁.Pairwise fun a b => (cmp a b).isLE) :
    S.sort cmp ((T.select cmp (k - 1) l).take k) = l₁.take k := by
  have hselected := T.perm cmp (k - 1) l
  have hsplit := T.split h (n := k - 1)
  generalize T.select cmp (k - 1) l = p at hselected hsplit ⊢
  have hlt : k - 1 < p.length := by
    rw [hselected.length_eq]
    omega
  obtain ⟨hbefore, hafter⟩ := hsplit _ (List.getElem?_eq_getElem hlt)
  rw [Nat.sub_add_cancel hpos] at hafter
  have htake : (S.sort cmp (p.take k)).Perm (p.take k) := S.perm _ _
  have hdrop : (S.sort cmp (p.drop k)).Perm (p.drop k) := S.perm _ _
  -- The selected element is the last one taken.
  have hsucc : p.take k = p.take (k - 1) ++ [p[k - 1]] := by
    rw [List.take_concat_get' p (k - 1) hlt, Nat.sub_add_cancel hpos]
  have hle : ∀ a ∈ p.take k, (cmp a p[k - 1]).isLE := by
    intro a ha
    rw [hsucc] at ha
    obtain ha | ha := List.mem_append.mp ha
    · exact hbefore a ha
    · obtain rfl := List.mem_singleton.mp ha
      exact h.refl (hselected.subset (List.getElem_mem hlt))
  have hmem : ∀ {a}, a ∈ p.take k ∨ a ∈ p.drop k → a ∈ l := by
    intro a ha
    refine hselected.subset ?_
    rw [← List.take_append_drop k p, List.mem_append]
    exact ha
  have hsorted : (S.sort cmp (p.take k) ++ S.sort cmp (p.drop k)).Pairwise fun a b => (cmp a b).isLE := by
    refine List.pairwise_append.mpr ⟨S.ordered (h.subset fun a ha => hmem (.inl ha)),
      S.ordered (h.subset fun a ha => hmem (.inr ha)), fun a ha b hb => ?_⟩
    have ha := htake.subset ha
    have hb := hdrop.subset hb
    exact h.trans a (hmem (.inl ha)) _ (hselected.subset (List.getElem_mem hlt)) b (hmem (.inr hb)) (hle a ha)
      (hafter b hb)
  have hall : (S.sort cmp (p.take k) ++ S.sort cmp (p.drop k)).Perm l := by
    refine (htake.append hdrop).trans ?_
    rw [List.take_append_drop]
    exact hselected
  have hlength : (S.sort cmp (p.take k)).length = k := by
    rw [htake.length_eq, List.length_take]
    omega
  rw [← ordered_unique h hs hall hperm hsorted h₁, List.take_left' hlength]

/-! ### Merge sort does both -/

theorem pairwise_mergeSort_of_ordersOn (h : OrdersOn cmp l) :
    (l.mergeSort fun a b => (cmp a b).isLE).Pairwise fun a b => (cmp a b).isLE := by
  have hmap : (l.attach.mergeSort fun a b => (cmp a.1 b.1).isLE).map Subtype.val =
      l.mergeSort fun a b => (cmp a b).isLE := by
    rw [List.map_mergeSort (f := Subtype.val) (s := fun a b => (cmp a b).isLE) fun _ _ _ _ => rfl,
      List.attach_map_subtype_val]
  rw [← hmap, List.pairwise_map]
  refine List.pairwise_mergeSort (fun a b c => h.trans a.1 a.2 b.1 b.2 c.1 c.2) (fun a b => ?_) _
  rw [h.swap a.1 a.2 b.1 b.2]
  cases cmp a.1 b.1 <;> rfl

def UnstableSort.mergeSort (α : Type) : UnstableSort α where
  sort cmp l := l.mergeSort fun a b => (cmp a b).isLE
  perm _ _ := List.mergeSort_perm _ _
  ordered h := pairwise_mergeSort_of_ordersOn h

def UnstableSelect.mergeSort (α : Type) : UnstableSelect α where
  select cmp _ l := l.mergeSort fun a b => (cmp a b).isLE
  perm _ _ _ := List.mergeSort_perm _ _
  split {cmp n l} h a ha := by
    have hsorted := pairwise_mergeSort_of_ordersOn h
    generalize (l.mergeSort fun a b => (cmp a b).isLE) = sorted at hsorted ha ⊢
    obtain ⟨hlt, rfl⟩ := List.getElem?_eq_some_iff.mp ha
    rw [← List.take_append_drop n sorted, List.drop_eq_getElem_cons hlt, List.pairwise_append] at hsorted
    obtain ⟨-, hdrop, hcross⟩ := hsorted
    exact ⟨fun b hb => hcross b hb _ List.mem_cons_self, (List.pairwise_cons.mp hdrop).1⟩
