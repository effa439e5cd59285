/-
# Decimal numerals of a fixed width

A number written with its leading zeros. Any digits are the numeral of one number
(`numeral_ofDigitChars`, `ofDigitChars_numeral`), and numerals of one width are in
the order of their numbers (`numeral_lt_numeral`).

Key definitions: `numeral`.
Key theorems: `ofDigitChars_numeral`, `numeral_ofDigitChars`, `numeral_lt_numeral`.
-/
import Mathlib

/-- The last `width` digits of a number. -/
def numeral : ℕ → ℕ → List Char
  | 0, _ => []
  | width + 1, n => (n / 10 ^ width % 10).digitChar :: numeral width n

theorem numeral_length : ∀ width n : ℕ, (numeral width n).length = width
  | 0, _ => rfl
  | width + 1, n => congrArg Nat.succ (numeral_length width n)

theorem isDigit_of_mem_numeral : ∀ {width n : ℕ} {c : Char}, c ∈ numeral width n → c.isDigit = true
  | width + 1, n, c, h => by
    rcases List.mem_cons.mp h with rfl | h
    · rw [Nat.isDigit_digitChar, decide_eq_true_iff]
      exact Nat.mod_lt _ (by decide)
    · exact isDigit_of_mem_numeral h

/-- Digits from the width on are not written. -/
theorem numeral_mod : ∀ {width bound : ℕ} (n : ℕ), width ≤ bound → numeral width (n % 10 ^ bound) = numeral width n
  | 0, _, _, _ => rfl
  | width + 1, bound, n, h => by
    have hdigit : n % 10 ^ bound / 10 ^ width % 10 = n / 10 ^ width % 10 := by
      obtain ⟨k, rfl⟩ := Nat.exists_eq_add_of_le h
      rw [pow_add, pow_succ, mul_assoc, Nat.mod_mul_right_div_self, Nat.mod_mul_right_mod]
    rw [numeral, numeral, hdigit, numeral_mod n (Nat.le_of_succ_le h)]

/-! ### The number of some digits -/

theorem ofDigitChars_numeral : ∀ width n : ℕ, Nat.ofDigitChars 10 (numeral width n) 0 = n % 10 ^ width
  | 0, n => by rw [numeral, Nat.ofDigitChars_nil, pow_zero, Nat.mod_one]
  | width + 1, n => by
    rw [numeral, Nat.ofDigitChars_cons_digitChar_of_lt_ten (Nat.mod_lt _ (by decide)),
      Nat.ofDigitChars_eq_ofDigitChars_zero, numeral_length, ofDigitChars_numeral width n, pow_succ, Nat.mod_mul]
    ring

theorem digitChar_sub {c : Char} (h : c.isDigit = true) : (c.toNat - '0'.toNat).digitChar = c ∧ c.toNat - '0'.toNat < 10 := by
  have hle : 48 ≤ c.toNat ∧ c.toNat ≤ 57 := by
    simpa [Char.isDigit, UInt32.le_iff_toNat_le] using h
  have hlt : c.toNat - 48 < 10 := by omega
  refine ⟨Char.toNat_inj.mp ?_, hlt⟩
  change (c.toNat - 48).digitChar.toNat = c.toNat
  rw [Nat.toNat_digitChar_of_lt_ten hlt]
  omega

theorem ofDigitChars_lt : ∀ {l : List Char}, (∀ c ∈ l, c.isDigit = true) → Nat.ofDigitChars 10 l 0 < 10 ^ l.length
  | [], _ => by simp [Nat.ofDigitChars_nil]
  | c :: l, h => by
    obtain ⟨hc, hl⟩ := List.forall_mem_cons.mp h
    have hrest := ofDigitChars_lt hl
    have hdigit := (digitChar_sub hc).2
    rw [Nat.ofDigitChars_cons, Nat.ofDigitChars_eq_ofDigitChars_zero, List.length_cons, pow_succ, mul_zero, zero_add]
    have hmul : 10 ^ l.length * (c.toNat - '0'.toNat) ≤ 10 ^ l.length * 9 := Nat.mul_le_mul_left _ (by omega)
    omega

/-- Digits are the numeral of their number. -/
theorem numeral_ofDigitChars : ∀ {l : List Char}, (∀ c ∈ l, c.isDigit = true) →
    numeral l.length (Nat.ofDigitChars 10 l 0) = l
  | [], _ => rfl
  | c :: l, h => by
    obtain ⟨hc, hl⟩ := List.forall_mem_cons.mp h
    obtain ⟨hchar, hdigit⟩ := digitChar_sub hc
    have hrest := ofDigitChars_lt hl
    rw [Nat.ofDigitChars_cons, Nat.ofDigitChars_eq_ofDigitChars_zero, mul_zero, zero_add, List.length_cons, numeral,
      Nat.mul_add_div (Nat.pow_pos (by decide)), Nat.div_eq_of_lt hrest, add_zero, Nat.mod_eq_of_lt hdigit, hchar]
    refine congrArg (List.cons c) ?_
    rw [← numeral_mod _ le_rfl, Nat.mul_add_mod, Nat.mod_eq_of_lt hrest, numeral_ofDigitChars hl]

/-! ### The order of numerals -/

theorem digitChar_lt_digitChar {d e : ℕ} (h : d < e) (he : e < 10) : d.digitChar < e.digitChar := by
  change d.digitChar.toNat < e.digitChar.toNat
  rw [Nat.toNat_digitChar_of_lt_ten (h.trans he), Nat.toNat_digitChar_of_lt_ten he]
  exact Nat.add_lt_add_left h 48

/-- Numerals of one width compare as their numbers do. -/
theorem numeral_lt_numeral : ∀ {width n m : ℕ}, n < m → m < 10 ^ width → numeral width n < numeral width m
  | 0, n, m, h, hm => by omega
  | width + 1, n, m, h, hm => by
    have hpos : 0 < 10 ^ width := Nat.pow_pos (by decide)
    have hdigit : m / 10 ^ width < 10 := Nat.div_lt_of_lt_mul (by rwa [← pow_succ])
    have hle : n / 10 ^ width ≤ m / 10 ^ width := Nat.div_le_div_right h.le
    rw [numeral, numeral, Nat.mod_eq_of_lt hdigit, Nat.mod_eq_of_lt (hle.trans_lt hdigit)]
    rcases Nat.lt_or_eq_of_le hle with hlt | heq
    · exact List.Lex.rel (digitChar_lt_digitChar hlt hdigit)
    · -- The leading digits agree, so the rest of the number decides.
      have hn := Nat.div_add_mod n (10 ^ width)
      have hm' := Nat.div_add_mod m (10 ^ width)
      rw [heq] at hn ⊢
      have hrest : n % 10 ^ width < m % 10 ^ width := by omega
      have hlt := numeral_lt_numeral hrest (Nat.mod_lt m hpos)
      rw [numeral_mod n le_rfl, numeral_mod m le_rfl] at hlt
      exact List.Lex.cons hlt

/-- What follows lists of one length does not change their order. -/
theorem append_lt_append : ∀ {l l' : List Char}, l.length = l'.length → l < l' → ∀ r : List Char, l ++ r < l' ++ r
  | [], [], _, h, _ => absurd h (lt_irrefl _)
  | a :: l, b :: l', hlength, h, r => by
    rw [List.cons_append, List.cons_append, List.cons_lt_cons_iff]
    rcases List.cons_lt_cons_iff.mp h with hlt | ⟨rfl, hrest⟩
    · exact .inl hlt
    · exact .inr ⟨rfl, append_lt_append (Nat.succ.inj hlength) hrest r⟩
