/-
# Parts of a string

What is left of a string without the start or the end it was asked for, and the
two parts around the first occurrence of a separator. Each result is given by the
string that its parts make up (`stripPrefix_eq_some`, `stripSuffix_eq_some`,
`splitOnce_eq_some`).

Key definitions: `stripPrefix`, `stripSuffix`, `splitOnce`, `parseUnsigned`.
-/
import Mathlib

variable {s rest left right : String}

/-- `str::strip_prefix`. -/
def stripPrefix (lead s : String) : Option String := (s.toList.dropPrefix? lead.toList).map String.ofList

/-- `key.strip_suffix(suffix)`. -/
def stripSuffix (key suffix : String) : Option String :=
  if suffix.toList <:+ key.toList then
    some (String.ofList (key.toList.take (key.toList.length - suffix.toList.length)))
  else none

/-- `str::split_once`. -/
def splitOnce (separator s : String) : Option (String × String) :=
  (s.toList.dropInfix? separator.toList).map fun parts => (String.ofList parts.1, String.ofList parts.2)

theorem stripPrefix_eq_some {lead : String} : stripPrefix lead s = some rest ↔ s = lead ++ rest := by
  simp only [stripPrefix, Option.map_eq_some_iff, List.dropPrefix?_eq_some_iff, beq_iff_eq]
  constructor
  · rintro ⟨l, ⟨_, hl, rfl⟩, rfl⟩
    rw [← String.toList_inj, String.toList_append, String.toList_ofList, hl]
  · rintro rfl
    exact ⟨rest.toList, ⟨_, String.toList_append, rfl⟩, String.ofList_toList⟩

theorem stripSuffix_eq_some {key suffix architecture : String} :
    stripSuffix key suffix = some architecture ↔ key = architecture ++ suffix := by
  unfold stripSuffix
  constructor
  · intro h
    split_ifs at h with hsuffix
    obtain ⟨rest, hrest⟩ := hsuffix
    rw [← Option.some.inj h, ← String.toList_inj, String.toList_append, String.toList_ofList, ← hrest, List.length_append,
      Nat.add_sub_cancel, List.take_left]
  · rintro rfl
    have htake : (architecture ++ suffix).toList.take ((architecture ++ suffix).toList.length - suffix.toList.length) =
        architecture.toList := by
      rw [String.toList_append, List.length_append, Nat.add_sub_cancel, List.take_left]
    rw [if_pos (by rw [String.toList_append]; exact List.suffix_append _ _), htake, String.ofList_toList]

/-- The first occurrence of the separator is after the left part. -/
theorem splitOnce_eq_some {separator : String} : splitOnce separator s = some (left, right) ↔
    s = left ++ separator ++ right ∧ ∀ l r, s.toList = l ++ separator.toList ++ r → left.length ≤ l.length := by
  simp only [splitOnce, Option.map_eq_some_iff, List.dropInfix?_eq_some_iff, beq_iff_eq, Prod.exists, Prod.mk.injEq]
  constructor
  · rintro ⟨l, r, ⟨⟨_, hl, rfl⟩, hfirst⟩, rfl, rfl⟩
    refine ⟨?_, fun l' r' hl' => ?_⟩
    · rw [← String.toList_inj, String.toList_append, String.toList_append, String.toList_ofList, String.toList_ofList, hl]
    · rw [String.length_ofList]
      exact hfirst l' _ r' hl' rfl
  · rintro ⟨rfl, hfirst⟩
    refine ⟨left.toList, right.toList, ⟨⟨separator.toList, ?_, rfl⟩, ?_⟩, String.ofList_toList, String.ofList_toList⟩
    · rw [String.toList_append, String.toList_append]
    · rintro l i r hl rfl
      rw [String.length_toList]
      exact hfirst l r hl

/-- A part without the first character of the separator is the left part. -/
theorem splitOnce_append {separator : String} {c : Char} (hc : separator.toList.head? = some c) (h : c ∉ left.toList) :
    splitOnce separator (left ++ separator ++ right) = some (left, right) := by
  refine splitOnce_eq_some.mpr ⟨rfl, fun l r hl => ?_⟩
  by_contra hlt
  obtain ⟨tail, htail⟩ := List.head?_eq_some_iff.mp hc
  rw [String.toList_append, String.toList_append, List.append_assoc, List.append_assoc] at hl
  -- An occurrence that starts within the left part has its first character there.
  have hpos : l.length < left.toList.length := by
    rw [String.length_toList]
    omega
  have hget := congrArg (·[l.length]?) hl
  simp only [List.getElem?_append_left hpos, List.getElem?_append_right le_rfl, Nat.sub_self, htail, List.cons_append,
    List.getElem?_cons_zero] at hget
  exact h (List.mem_of_getElem? hget)

/-- Without a plus sign at the start. -/
def dropPlus : List Char → List Char
  | '+' :: rest => rest
  | l => l

/-- `str::parse` of an unsigned integer: digits, after a plus sign or without one. -/
def parseUnsigned (max : ℕ) (s : String) : Option ℕ :=
  let digits := dropPlus s.toList
  let n := Nat.ofDigitChars 10 digits 0
  if digits = [] ∨ (∃ c ∈ digits, c.isDigit = false) ∨ max < n then none else some n

theorem parseUnsigned_of_digits {max : ℕ} (hne : s ≠ "") (hdigits : ∀ c ∈ s.toList, c.isDigit = true)
    (hle : Nat.ofDigitChars 10 s.toList 0 ≤ max) : parseUnsigned max s = some (Nat.ofDigitChars 10 s.toList 0) := by
  have hnil : s.toList ≠ [] := fun h => hne (String.toList_eq_nil_iff.mp h)
  have hall : ¬∃ c ∈ s.toList, c.isDigit = false := by
    rintro ⟨c, hc, hfalse⟩
    rw [hdigits c hc] at hfalse
    cases hfalse
  have hplus : dropPlus s.toList = s.toList := by
    unfold dropPlus
    split
    · next rest h =>
      have hdigit : '+'.isDigit = true := hdigits '+' (h ▸ List.mem_cons_self)
      cases hdigit
    · rfl
  simp only [parseUnsigned, hplus]
  exact if_neg (not_or.mpr ⟨hnil, not_or.mpr ⟨hall, hle.not_gt⟩⟩)
