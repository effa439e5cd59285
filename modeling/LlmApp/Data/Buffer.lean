/-
# Buffers that are written from the front

A buffer of fixed size of which the first `used` places are in use. What is
written comes after what is there, when there is room for it.

Key definitions: `Buffer`, `Buffer.push`, `Buffer.write`, `Buffer.Holds`.
-/
import Mathlib

variable {α : Type}

theorem take_set_succ {l : List α} {k : ℕ} (h : k < l.length) (a : α) : (l.set k a).take (k + 1) = l.take k ++ [a] := by
  rw [List.take_add_one, List.take_set_of_le le_rfl, List.getElem?_set_self h]
  rfl

structure Buffer (α : Type) where
  cells : List α
  used : ℕ
deriving DecidableEq, Repr

namespace Buffer

/-- One place more. -/
def push (b : Buffer α) (a : α) : Option (Buffer α) :=
  if b.used < b.cells.length then some ⟨b.cells.set b.used a, b.used + 1⟩ else none

/-- As many places more as the list has elements. -/
def write (b : Buffer α) (l : List α) : Option (Buffer α) :=
  if b.used + l.length ≤ b.cells.length then
    some ⟨b.cells.take b.used ++ l ++ b.cells.drop (b.used + l.length), b.used + l.length⟩
  else none

/-- The buffer has `room` places, and `l` is in use. -/
structure Holds (b : Buffer α) (room : ℕ) (l : List α) : Prop where
  length : b.cells.length = room
  used : b.used = l.length
  contents : b.cells.take b.used = l

variable {b b' : Buffer α} {room : ℕ} {l l' : List α} {a : α}

theorem Holds.empty (cells : List α) : Holds ⟨cells, 0⟩ cells.length [] := ⟨rfl, rfl, List.take_zero⟩

theorem Holds.le (h : b.Holds room l) : l.length ≤ room := by
  rw [← h.contents, List.length_take, h.length]
  exact min_le_right _ _

theorem Holds.push (h : b.Holds room l) (hroom : l.length < room) : ∃ b', b.push a = some b' ∧ b'.Holds room (l ++ [a]) := by
  have hlt : b.used < b.cells.length := by
    rw [h.used, h.length]
    exact hroom
  refine ⟨_, if_pos hlt, ?_, ?_, ?_⟩
  · rw [List.length_set, h.length]
  · rw [h.used, List.length_append, List.length_singleton]
  · rw [take_set_succ hlt, h.contents]

theorem Holds.write (h : b.Holds room l) (hwrite : b.write l' = some b') : b'.Holds room (l ++ l') := by
  unfold Buffer.write at hwrite
  split_ifs at hwrite with hroom
  obtain rfl := Option.some.inj hwrite
  have htake : (b.cells.take b.used ++ l').length = b.used + l'.length := by
    rw [List.length_append, List.length_take]
    omega
  refine ⟨?_, ?_, ?_⟩
  · rw [List.length_append, htake, List.length_drop, ← h.length]
    omega
  · rw [h.used, List.length_append]
  · rw [List.take_left' htake, h.contents]

/-- What is written fits exactly when there is room. -/
theorem write_eq_none_iff : b.write l = none ↔ b.cells.length < b.used + l.length := by
  unfold Buffer.write
  split_ifs with h
  · simp only [false_iff]
    omega
  · simp only [true_iff]
    omega

end Buffer
