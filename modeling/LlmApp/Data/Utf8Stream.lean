/-
# Streams of UTF-8

The first byte of a character says how many bytes it has, and every other byte
is marked as a continuation (`utf8EncodeChar_form`). So a valid list of bytes is
read from its start in one way: what comes after a valid start is valid exactly
when the whole is (`validUtf8_append`), and a start that lacks bytes of its last
character is longer than every valid start (`Unfinished.prefix_of_valid`).

Key definitions: `ValidUtf8`, `leadLength`, `IsContinuation`, `Unfinished`.
Key theorems: `validUtf8_append`, `ValidUtf8.lead`, `Unfinished.prefix_of_valid`.
-/
import LlmApp.Data.Utf8

/-- The bytes of a string. -/
def ValidUtf8 (l : List UInt8) : Prop := ∃ s, utf8 s = l

/-- How many bytes follow from a first byte that is not ASCII, itself included. -/
def multibyteLength (b : UInt8) : Option ℕ :=
  if 0xC2 ≤ b ∧ b ≤ 0xDF then some 2
  else if 0xE0 ≤ b ∧ b ≤ 0xEF then some 3
  else if 0xF0 ≤ b ∧ b ≤ 0xF4 then some 4
  else none

def leadLength (b : UInt8) : Option ℕ := if b < 0x80 then some 1 else multibyteLength b

def IsContinuation (b : UInt8) : Prop := b &&& 0b11000000 = 0b10000000

instance (b : UInt8) : Decidable (IsContinuation b) := inferInstanceAs (Decidable (_ = _))

theorem isContinuation_iff {b : UInt8} : IsContinuation b ↔ 0x80 ≤ b.toNat ∧ b.toNat < 0xC0 := by
  have hall : ∀ n : Fin 256, IsContinuation (UInt8.ofFin n) ↔ 0x80 ≤ n.val ∧ n.val < 0xC0 := by decide +kernel
  exact hall b.toFin

/-! ### Characters -/

theorem isContinuation_ofNat (n : ℕ) : IsContinuation (UInt8.ofNat (n % 0x40 + 0x80)) := by
  have hmod : n % 0x40 < 0x40 := Nat.mod_lt _ (by decide)
  rw [isContinuation_iff, UInt8.toNat_ofNat']
  omega

theorem leadLength_ofNat {n k : ℕ} (h : n < 0x80 ∧ k = 1 ∨ (0xC2 ≤ n ∧ n ≤ 0xDF) ∧ k = 2 ∨
    (0xE0 ≤ n ∧ n ≤ 0xEF) ∧ k = 3 ∨ (0xF0 ≤ n ∧ n ≤ 0xF4) ∧ k = 4) : leadLength (UInt8.ofNat n) = some k := by
  have hn : (UInt8.ofNat n).toNat = n := by
    rw [UInt8.toNat_ofNat', Nat.mod_eq_of_lt (by omega)]
  simp only [leadLength, multibyteLength, UInt8.lt_iff_toNat_lt, UInt8.le_iff_toNat_le, hn]
  change (if n < 0x80 then _ else if 0xC2 ≤ n ∧ n ≤ 0xDF then _ else if 0xE0 ≤ n ∧ n ≤ 0xEF then _ else
    if 0xF0 ≤ n ∧ n ≤ 0xF4 then _ else _) = _
  rcases h with ⟨h, rfl⟩ | ⟨h, rfl⟩ | ⟨h, rfl⟩ | ⟨h, rfl⟩
  · rw [if_pos h]
  · rw [if_neg (by omega), if_pos h]
  · rw [if_neg (by omega), if_neg (by omega), if_pos h]
  · rw [if_neg (by omega), if_neg (by omega), if_neg (by omega), if_pos h]

theorem multibyteLength_bounds {b : UInt8} {n : ℕ} (h : multibyteLength b = some n) : 2 ≤ n ∧ n ≤ 4 := by
  unfold multibyteLength at h
  split_ifs at h <;> cases h <;> decide

/-- A character is a first byte, which says its length, and continuations. -/
theorem utf8EncodeChar_form (c : Char) : ∃ b rest, String.utf8EncodeChar c = b :: rest ∧
    leadLength b = some (rest.length + 1) ∧ ∀ x ∈ rest, IsContinuation x := by
  have hmax : c.val.toNat < 0x110000 := by
    rcases c.valid with h | ⟨-, h⟩ <;> omega
  unfold String.utf8EncodeChar
  generalize c.val.toNat = v at hmax
  dsimp only
  split_ifs with h1 h2 h3
  · exact ⟨_, [], rfl, leadLength_ofNat (.inl ⟨by omega, rfl⟩), List.forall_mem_nil _⟩
  · refine ⟨_, _, rfl, leadLength_ofNat (.inr (.inl ⟨by omega, rfl⟩)), ?_⟩
    simp only [List.forall_mem_cons, isContinuation_ofNat, List.not_mem_nil, false_implies, implies_true, and_self]
  · refine ⟨_, _, rfl, leadLength_ofNat (.inr (.inr (.inl ⟨by omega, rfl⟩))), ?_⟩
    simp only [List.forall_mem_cons, isContinuation_ofNat, List.not_mem_nil, false_implies, implies_true, and_self]
  · refine ⟨_, _, rfl, leadLength_ofNat (.inr (.inr (.inr ⟨by omega, rfl⟩))), ?_⟩
    simp only [List.forall_mem_cons, isContinuation_ofNat, List.not_mem_nil, false_implies, implies_true, and_self]

theorem utf8_ofList_cons (c : Char) (l : List Char) :
    utf8 (String.ofList (c :: l)) = String.utf8EncodeChar c ++ utf8 (String.ofList l) := by
  rw [← List.singleton_append, String.ofList_append, utf8, utf8, String.toByteArray_append]
  simp [List.utf8Encode_singleton]

/-! ### Valid lists -/

variable {a b l p q : List UInt8} {x : UInt8}

theorem validUtf8_nil : ValidUtf8 [] := ⟨"", rfl⟩

theorem ValidUtf8.cons (c : Char) (h : ValidUtf8 l) : ValidUtf8 (String.utf8EncodeChar c ++ l) := by
  obtain ⟨s, rfl⟩ := h
  exact ⟨String.ofList (c :: s.toList), by rw [utf8_ofList_cons, String.ofList_toList]⟩

theorem ValidUtf8.eq_nil_or (h : ValidUtf8 l) :
    l = [] ∨ ∃ c tail, l = String.utf8EncodeChar c ++ tail ∧ ValidUtf8 tail := by
  obtain ⟨s, rfl⟩ := h
  rw [← String.ofList_toList (s := s)]
  cases s.toList with
  | nil => exact .inl rfl
  | cons c tail => exact .inr ⟨c, _, utf8_ofList_cons c tail, _, rfl⟩

/-- The first character of a list is read in one way. -/
theorem utf8EncodeChar_append_inj {c c' : Char} (h : String.utf8EncodeChar c ++ a = String.utf8EncodeChar c' ++ b) :
    String.utf8EncodeChar c = String.utf8EncodeChar c' ∧ a = b := by
  obtain ⟨x, rest, hc, hlead, -⟩ := utf8EncodeChar_form c
  obtain ⟨x', rest', hc', hlead', -⟩ := utf8EncodeChar_form c'
  refine List.append_inj h ?_
  rw [hc, hc'] at h ⊢
  obtain ⟨rfl, -⟩ := List.cons.inj h
  have heq := Option.some.inj (hlead.symm.trans hlead')
  rw [List.length_cons, List.length_cons, heq]

theorem validUtf8_append (ha : ValidUtf8 a) : ValidUtf8 (a ++ b) ↔ ValidUtf8 b := by
  obtain ⟨s, rfl⟩ := ha
  rw [← String.ofList_toList (s := s)]
  induction s.toList with
  | nil => exact Iff.rfl
  | cons c chars ih =>
    rw [utf8_ofList_cons, List.append_assoc, ← ih]
    constructor
    · intro h
      rcases h.eq_nil_or with hnil | ⟨c', tail, heq, htail⟩
      · exact absurd (List.append_eq_nil_iff.mp hnil).1 String.utf8EncodeChar_ne_nil
      · rwa [(utf8EncodeChar_append_inj heq).2]
    · exact .cons c

/-- What the first byte of a valid list says of the bytes after it. -/
theorem ValidUtf8.lead (h : ValidUtf8 (x :: l)) : ∃ n, leadLength x = some (n + 1) ∧ n ≤ l.length ∧
    (∀ y ∈ l.take n, IsContinuation y) ∧ ValidUtf8 (x :: l.take n) := by
  rcases h.eq_nil_or with hnil | ⟨c, tail, heq, -⟩
  · cases hnil
  obtain ⟨x', rest, hc, hlead, hrest⟩ := utf8EncodeChar_form c
  rw [hc, List.cons_append] at heq
  obtain ⟨rfl, rfl⟩ := List.cons.inj heq
  have htake : (rest ++ tail).take rest.length = rest := List.take_left
  refine ⟨rest.length, hlead, ?_, ?_, ?_⟩
  · rw [List.length_append]
    exact Nat.le_add_right _ _
  · rwa [htake]
  · rw [htake, ← hc, ← List.append_nil (String.utf8EncodeChar c)]
    exact validUtf8_nil.cons c

/-! ### Unfinished characters -/

/-- The start of a character, by its first byte, without its last bytes. -/
def Unfinished (p : List UInt8) : Prop :=
  ∃ x l n, p = x :: l ∧ leadLength x = some n ∧ p.length < n ∧ ∀ y ∈ l, IsContinuation y

/-- No start of it but the empty one is valid. -/
theorem Unfinished.eq_nil (hp : Unfinished p) (hq : q <+: p) (h : ValidUtf8 q) : q = [] := by
  obtain ⟨x, l, n, rfl, hlead, hlt, -⟩ := hp
  cases q with
  | nil => rfl
  | cons y q =>
    obtain ⟨rfl, -⟩ := List.cons_prefix_cons.mp hq
    obtain ⟨m, hlead', hle, -⟩ := h.lead
    have hlength := hq.length_le
    have hm := Option.some.inj (hlead.symm.trans hlead')
    rw [List.length_cons] at hlength hlt
    rw [List.length_cons] at hlength
    omega

/-- What is valid ends where the unfinished character starts, or before. -/
theorem Unfinished.prefix_of_valid (ha : ValidUtf8 a) (hp : p = [] ∨ Unfinished p) (hq : q <+: a ++ p)
    (h : ValidUtf8 q) : q <+: a := by
  rcases List.prefix_or_prefix_of_prefix hq (List.prefix_append a p) with hqa | ⟨rest, rfl⟩
  · exact hqa
  have hrest := (List.prefix_append_right_inj a).mp hq
  have hnil : rest = [] := by
    rcases hp with rfl | hp
    · exact List.prefix_nil.mp hrest
    · exact hp.eq_nil hrest ((validUtf8_append ha).mp h)
  rw [hnil, List.append_nil]

theorem Unfinished.not_valid (ha : ValidUtf8 a) (hp : Unfinished p) : ¬ValidUtf8 (a ++ p) := by
  intro h
  have hnil := hp.eq_nil (List.prefix_refl p) ((validUtf8_append ha).mp h)
  obtain ⟨x, l, n, rfl, -⟩ := hp
  cases hnil
