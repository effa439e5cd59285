/-
# Floats of the sampler

An `f32` is its bits. What the sampler asks of one without computing is here:
its class, its comparisons and the total order, read off the sign and the
magnitude. The arithmetic rounds and is a parameter (`Arithmetic`).

Key definitions: `F32.isNan`, `F32.totalCmp`, `Floats`, `Arithmetic`.
Key theorems: `F32.totalKey_injective`.
-/
import LlmApp.Contracts

namespace LlmApp

namespace F32

/-- The bits without the sign. -/
def magnitude (x : F32) : ℕ := x.toNat % 2 ^ 31

def isNegative (x : F32) : Bool := 2 ^ 31 ≤ x.toNat

def one : F32 := 0x3F800000#32
def infinity : F32 := 0x7F800000#32
def negInfinity : F32 := 0xFF800000#32

def isNan (x : F32) : Bool := infinity.toNat < magnitude x

def isFinite (x : F32) : Bool := magnitude x < infinity.toNat

/-- `is_exactly_one`. -/
def isExactlyOne (x : F32) : Bool := x = one

/-- The order of the numbers, in which the zeros are equal. -/
def numberKey (x : F32) : ℤ := if isNegative x then -magnitude x else magnitude x

def lt (x y : F32) : Bool := !isNan x && !isNan y && numberKey x < numberKey y

def le (x y : F32) : Bool := !isNan x && !isNan y && numberKey x ≤ numberKey y

/-- The total order: negative values first and by magnitude downwards, negative
zero last of them, then the others by magnitude. -/
def totalKey (x : F32) : ℤ := if isNegative x then -1 - magnitude x else magnitude x

/-- `f32::total_cmp`. -/
def totalCmp (x y : F32) : Ordering := compare (totalKey x) (totalKey y)

theorem totalKey_injective : Function.Injective totalKey := by
  intro x y h
  have hx := x.isLt
  have hy := y.isLt
  refine BitVec.eq_of_toNat_eq ?_
  simp only [totalKey, isNegative, magnitude, decide_eq_true_eq] at h
  split_ifs at h <;> omega

theorem totalCmp_eq_eq {x y : F32} : totalCmp x y = .eq ↔ x = y := by
  rw [totalCmp, Std.LawfulEqCmp.compare_eq_iff_eq]
  exact totalKey_injective.eq_iff

end F32

/-- What `sample_finite` asks of a float without computing. -/
class Floats (F : Type) where
  zero : F
  isFinite : F → Bool
  lt : F → F → Bool
  le : F → F → Bool

instance : Floats F32 := ⟨0#32, F32.isFinite, F32.lt, F32.le⟩

instance : Floats ℚ := ⟨0, fun _ => true, fun x y => x < y, fun x y => x ≤ y⟩

/-- The operations that round. -/
structure Arithmetic (F : Type) where
  add : F → F → F
  sub : F → F → F
  mul : F → F → F
  div : F → F → F
  /-- `libm::expf`. -/
  expf : F → F
  /-- `n as f32`. -/
  ofCount : ℕ → F

/-- Nothing is rounded. -/
def Arithmetic.exact (expf : ℚ → ℚ) : Arithmetic ℚ := ⟨(· + ·), (· - ·), (· * ·), (· / ·), expf, (↑)⟩

end LlmApp
