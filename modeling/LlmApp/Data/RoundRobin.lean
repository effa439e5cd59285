/-
# Round robin over a linear order

Keys take turns: the next turn is the least resident's above the cursor, or else
the least resident's (`NextTurn`), and it moves the cursor there. The residents
may change between two turns in any way.

As long as `x` is resident and does not have its turn, the turns go up in the
cyclic order that starts above `x` (`NextTurn.position_lt`): from keys above `x` to
keys below it, and past `x` only with its turn. So no key has two turns before
`x` has one (`Rounds.nodup`), and among fixed residents as many turns as there
are keys are one for each (`Rounds.each_once`).

Key definitions: `NextTurn`, `Rounds`.
-/
import Mathlib

variable {κ : Type} [LinearOrder κ]

/-- `k` has the next turn among the residents. -/
def NextTurn (residents : Set κ) (cursor : Option κ) (k : κ) : Prop :=
  k ∈ residents ∧
    ((∃ c, cursor = some c ∧ c < k ∧ ∀ k' ∈ residents, c < k' → k ≤ k') ∨
      ((∀ c, cursor = some c → ∀ k' ∈ residents, k' ≤ c) ∧ ∀ k' ∈ residents, k ≤ k'))

/-- Where a key stands in the cyclic order that starts above `x`. -/
def turnPosition (x k : κ) : Bool ×ₗ κ := toLex (decide (k < x), k)

theorem turnPosition_lt_of_above {x c k : κ} (hk : x < k) (h : c < k) (hc : x < c) :
    turnPosition x c < turnPosition x k := by
  rw [turnPosition, turnPosition, decide_eq_false hc.not_gt, decide_eq_false hk.not_gt, Prod.Lex.toLex_lt_toLex]
  exact .inr ⟨rfl, h⟩

theorem turnPosition_lt_of_below {x c k : κ} (hk : k < x) (h : c < k) : turnPosition x c < turnPosition x k := by
  rw [turnPosition, turnPosition, decide_eq_true (h.trans hk), decide_eq_true hk, Prod.Lex.toLex_lt_toLex]
  exact .inr ⟨rfl, h⟩

theorem turnPosition_lt_of_wrap {x c k : κ} (hk : k < x) (hc : x < c) : turnPosition x c < turnPosition x k := by
  rw [turnPosition, turnPosition, decide_eq_false hc.not_gt, decide_eq_true hk, Prod.Lex.toLex_lt_toLex]
  exact .inl Bool.false_lt_true

/-- A turn that is not `x`'s goes up in the cyclic order. -/
theorem NextTurn.position_lt {residents : Set κ} {x c k : κ} (h : NextTurn residents (some c) k) (hx : x ∈ residents)
    (hc : c ≠ x) (hk : k ≠ x) : turnPosition x c < turnPosition x k := by
  obtain ⟨hmem, ⟨c', hc', hlt, hleast⟩ | ⟨hlast, hleast⟩⟩ := h
  · obtain rfl := Option.some.inj hc'
    obtain hbelow | habove := lt_or_gt_of_ne hc
    · -- the next key above the cursor is not past `x`
      have hle := hleast x hx hbelow
      exact turnPosition_lt_of_below (lt_of_le_of_ne hle hk) hlt
    · exact turnPosition_lt_of_above (habove.trans hlt) hlt habove
  · have hle := hlast c rfl x hx
    have hkx := hleast x hx
    exact turnPosition_lt_of_wrap (lt_of_le_of_ne hkx hk) (lt_of_le_of_ne hle hc.symm)

/-! ### Runs -/

/-- Turns in a row, from cursor to cursor. At each turn the residents satisfy `P`. -/
inductive Rounds (P : Set κ → Prop) : Option κ → List κ → Option κ → Prop
  | nil (c : Option κ) : Rounds P c [] c
  | turn {c c' : Option κ} {ks : List κ} {residents : Set κ} {k : κ} (h : Rounds P c ks c') (hP : P residents)
    (hk : NextTurn residents c' k) : Rounds P c (ks ++ [k]) (some k)

namespace Rounds

variable {P : Set κ → Prop} {c c' : Option κ} {ks : List κ} {x : κ}

/-- The turns up to `x`'s next one go up, to the cursor. -/
theorem pairwise (h : Rounds (fun residents => x ∈ residents) c ks c') (hx : x ∉ ks) :
    (ks.Pairwise fun k k' => turnPosition x k < turnPosition x k') ∧
      ∀ k ∈ ks, ∃ last, c' = some last ∧ last ∈ ks ∧ (k = last ∨ turnPosition x k < turnPosition x last) := by
  induction h with
  | nil => exact ⟨.nil, nofun⟩
  | @turn c' ks residents k h hmem hk ih =>
    rw [List.mem_append, List.mem_singleton, not_or] at hx
    obtain ⟨hpairwise, hlast⟩ := ih hx.1
    have hup : ∀ k' ∈ ks, turnPosition x k' < turnPosition x k := by
      intro k' hk'
      obtain ⟨last, rfl, hmemLast, heq⟩ := hlast k' hk'
      have hne : last ≠ x := fun heq => hx.1 (heq ▸ hmemLast)
      have hlt := hk.position_lt hmem hne (Ne.symm hx.2)
      obtain rfl | hle := heq
      · exact hlt
      · exact hle.trans hlt
    refine ⟨List.pairwise_append.mpr ⟨hpairwise, List.pairwise_singleton _ _, fun k' hk' k'' hk'' => ?_⟩, fun k' hk' => ?_⟩
    · rw [List.mem_singleton.mp hk'']
      exact hup k' hk'
    · refine ⟨k, rfl, List.mem_append_right _ (List.mem_singleton_self k), ?_⟩
      obtain hk' | hk' := List.mem_append.mp hk'
      · exact .inr (hup k' hk')
      · exact .inl (List.mem_singleton.mp hk')

/-- No key has two turns before a resident has one. -/
theorem nodup (h : Rounds (fun residents => x ∈ residents) c ks c') (hx : x ∉ ks) : ks.Nodup :=
  (h.pairwise hx).1.imp fun hlt heq => absurd (congrArg (turnPosition x) heq) hlt.ne

theorem mono {Q : Set κ → Prop} (h : Rounds P c ks c') (hPQ : ∀ residents, P residents → Q residents) :
    Rounds Q c ks c' := by
  induction h with
  | nil => exact .nil c
  | turn _ hP hk ih => exact ih.turn (hPQ _ hP) hk

theorem mem {S : Set κ} (h : Rounds (fun residents => residents = S) c ks c') : ∀ k ∈ ks, k ∈ S := by
  induction h with
  | nil => nofun
  | turn _ hP hk ih =>
    intro k' hk'
    obtain hk' | hk' := List.mem_append.mp hk'
    · exact ih k' hk'
    · rw [List.mem_singleton.mp hk', ← hP]
      exact hk.1

/-- Among fixed residents, as many turns as there are residents are one for each. -/
theorem each_once {S : Finset κ} (h : Rounds (fun residents => residents = S) c ks c') (hlength : ks.length = S.card)
    (hx : x ∈ S) : ks.count x = 1 := by
  have hall : ∀ y ∈ S, y ∈ ks := by
    intro y hy
    by_contra hno
    -- then the turns are different keys other than `y`, which are too few
    have hnodup : ks.Nodup := (h.mono fun residents hP => hP ▸ (Finset.mem_coe.mpr hy)).nodup hno
    have hsubset : ks.toFinset ⊆ S.erase y := by
      intro k hk
      have hk := List.mem_toFinset.mp hk
      exact Finset.mem_erase.mpr ⟨fun heq => hno (heq ▸ hk), Finset.mem_coe.mp (h.mem k hk)⟩
    have hcard := Finset.card_le_card hsubset
    rw [List.toFinset_card_of_nodup hnodup, Finset.card_erase_of_mem hy] at hcard
    have hpos := Finset.card_pos.mpr ⟨y, hy⟩
    omega
  have hsubset : S ⊆ ks.toFinset := fun y hy => List.mem_toFinset.mpr (hall y hy)
  have hcard := Finset.card_le_card hsubset
  have hle := List.toFinset_card_le ks
  have hnodup : (ks : Multiset κ).Nodup := Multiset.toFinset_card_eq_card_iff_nodup.mp (by
    show ks.toFinset.card = ks.length
    omega)
  exact List.count_eq_one_of_mem hnodup (hall x hx)

end Rounds
