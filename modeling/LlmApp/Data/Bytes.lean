/-
# Numbers as bytes

A number below `256 ^ w` is `w` bytes, the least significant first, and a list
of `w` bytes is one such number (`ofLe_toLe`, `toLe_ofLe`).
-/
import Mathlib

/-- The `w` lowest bytes of `n`, the least significant first. -/
def toLe : ℕ → ℕ → List UInt8
  | 0, _ => []
  | w + 1, n => UInt8.ofNat n :: toLe w (n / 256)

/-- The number whose bytes these are. -/
def ofLe : List UInt8 → ℕ
  | [] => 0
  | b :: bs => b.toNat + 256 * ofLe bs

@[simp] theorem length_toLe : ∀ w n : ℕ, (toLe w n).length = w
  | 0, _ => rfl
  | w + 1, n => congrArg (· + 1) (length_toLe w (n / 256))

theorem ofLe_toLe : ∀ {w n : ℕ}, n < 256 ^ w → ofLe (toLe w n) = n
  | 0, n, h => by
    rw [pow_zero, Nat.lt_one_iff] at h
    rw [h]
    rfl
  | w + 1, n, h => by
    have hdiv : n / 256 < 256 ^ w := by
      rw [pow_succ] at h
      exact Nat.div_lt_of_lt_mul (by rwa [Nat.mul_comm] at h)
    rw [toLe, ofLe, ofLe_toLe hdiv, UInt8.toNat_ofNat']
    exact Nat.mod_add_div n 256

theorem ofLe_lt : ∀ bytes : List UInt8, ofLe bytes < 256 ^ bytes.length
  | [] => by simp [ofLe]
  | b :: bs => by
    have ih := ofLe_lt bs
    have hb := b.toNat_lt
    rw [ofLe, List.length_cons, pow_succ]
    omega

theorem toLe_ofLe : ∀ bytes : List UInt8, toLe bytes.length (ofLe bytes) = bytes
  | [] => rfl
  | b :: bs => by
    have hb := b.toNat_lt
    have hlow : UInt8.ofNat (b.toNat + 256 * ofLe bs) = b := by
      apply UInt8.toNat_inj.mp
      rw [UInt8.toNat_ofNat']
      omega
    have hhigh : (b.toNat + 256 * ofLe bs) / 256 = ofLe bs := by omega
    rw [List.length_cons, ofLe, toLe, hlow, hhigh, toLe_ofLe bs]

/-- Words of one width lie ahead of two lists in the same way. -/
theorem toLe_injective {w n n' : ℕ} (hn : n < 256 ^ w) (hn' : n' < 256 ^ w) (h : toLe w n = toLe w n') : n = n' := by
  rw [← ofLe_toLe hn, ← ofLe_toLe hn', h]
