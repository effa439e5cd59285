/-
# Words between separators

A list cut at separators into its words, the words joined by one separator
again, and the separators trimmed at both ends. `Spaced l ws` says without the
cutting that `l` is the words `ws` with separators around them, `Padded l core`
that `l` is `core` with separators at its ends: `words` and `trimEnds` find what
these relations hold of, and only that (`words_eq_iff`, `trimEnds_eq_iff`). What is
joined or trimmed weighs no more than before.

Key definitions: `isWhitespace`, `words`, `joinWords`, `trimEnds`, `Spaced`, `Padded`.
Key theorems: `words_eq_iff`, `words_joinWords`, `weight_joinWords_le`, `trimEnds_eq_iff`, `weight_trimEnds_le`.
-/
import Mathlib

/-- `char::is_whitespace`: the Unicode property `White_Space`. -/
def isWhitespace (c : Char) : Bool :=
  (0x09 ≤ c.toNat && c.toNat ≤ 0x0D) || c.toNat = 0x20 || c.toNat = 0x85 || c.toNat = 0xA0 || c.toNat = 0x1680 ||
    (0x2000 ≤ c.toNat && c.toNat ≤ 0x200A) || c.toNat = 0x2028 || c.toNat = 0x2029 || c.toNat = 0x202F ||
    c.toNat = 0x205F || c.toNat = 0x3000

variable {α : Type} {p : α → Bool} {l : List α} {ws : List (List α)}

/-- The parts between separators that are not empty. -/
def words (p : α → Bool) (l : List α) : List (List α) := (l.splitOnP p).filter (· ≠ [])

/-- The loop that appends word by word. -/
def joinWords (separator : α) (ws : List (List α)) : List α :=
  ws.foldl (fun joined word => (if joined = [] then joined else joined ++ [separator]) ++ word) []

def trimEnds (p : α → Bool) (l : List α) : List α := (l.dropWhile p).rdropWhile p

/-! ### Words -/

/-- A list without separators that is not empty. -/
def IsWord (p : α → Bool) (w : List α) : Prop := w ≠ [] ∧ ∀ a ∈ w, p a = false

/-- The list ends or goes on with a separator. -/
def Breaks (p : α → Bool) (l : List α) : Prop := ∀ a ∈ l.head?, p a = true

/-- The list is the words with separators before, between and after them. -/
inductive Spaced (p : α → Bool) : List α → List (List α) → Prop where
  | blank {gap : List α} : (∀ a ∈ gap, p a = true) → Spaced p gap []
  | word {gap w l : List α} {ws : List (List α)} : (∀ a ∈ gap, p a = true) → IsWord p w → Breaks p l →
      Spaced p l ws → Spaced p (gap ++ w ++ l) (w :: ws)

theorem words_cons_sep {a : α} (h : p a = true) (l : List α) : words p (a :: l) = words p l := by
  unfold words
  rw [List.splitOnP_cons_eq_if_modifyHead, if_pos h]
  rfl

theorem words_gap : ∀ {gap : List α}, (∀ a ∈ gap, p a = true) → ∀ l, words p (gap ++ l) = words p l
  | [], _, _ => rfl
  | a :: gap, h, l => by
    obtain ⟨ha, hgap⟩ := List.forall_mem_cons.mp h
    rw [List.cons_append, words_cons_sep ha, words_gap hgap]

theorem words_word {w : List α} (hw : IsWord p w) (hl : Breaks p l) : words p (w ++ l) = w :: words p l := by
  cases l with
  | nil =>
    unfold words
    rw [List.append_nil, List.splitOnP_eq_singleton hw.2]
    simp [hw.1]
  | cons a l =>
    have ha : p a = true := hl a rfl
    rw [words_cons_sep ha]
    unfold words
    rw [List.splitOnP_append_cons_of_forall_mem hw.2 a ha]
    simp [hw.1]

theorem Spaced.words_eq (h : Spaced p l ws) : words p l = ws := by
  induction h with
  | blank hgap =>
    have hwords := words_gap hgap []
    rw [List.append_nil] at hwords
    exact hwords
  | word hgap hw hl _ ih => rw [List.append_assoc, words_gap hgap, words_word hw hl, ih]

theorem head_dropWhile {a : α} (h : a ∈ (l.dropWhile p).head?) : p a = false := by
  have hhead := List.head?_dropWhile_not p l
  rw [Option.mem_def.mp h] at hhead
  exact hhead

/-- Any list is made of its words. -/
theorem spaced_words (l : List α) : Spaced p l (words p l) := by
  induction hn : l.length using Nat.strong_induction_on generalizing l with
  | _ n ih =>
  have hsplit : l.takeWhile p ++ l.dropWhile p = l := List.takeWhile_append_dropWhile
  have hgap : ∀ a ∈ l.takeWhile p, p a = true := fun a ha => List.mem_takeWhile_imp ha
  obtain hnil | ⟨a, rest, hrest⟩ : l.dropWhile p = [] ∨ ∃ a rest, l.dropWhile p = a :: rest := by
    cases l.dropWhile p with
    | nil => exact .inl rfl
    | cons a rest => exact .inr ⟨a, rest, rfl⟩
  · have hall : ∀ a ∈ l, p a = true := List.dropWhile_eq_nil_iff.mp hnil
    have hwords := words_gap hall []
    rw [List.append_nil] at hwords
    rw [hwords]
    exact .blank hall
  · -- The first word is what comes before the next separator.
    have ha : p a = false := head_dropWhile (l := l) (by rw [hrest]; rfl)
    let w := (a :: rest).takeWhile fun b => !p b
    let after := (a :: rest).dropWhile fun b => !p b
    have happend : w ++ after = a :: rest := List.takeWhile_append_dropWhile
    have hw : IsWord p w := by
      constructor
      · simp only [w, List.takeWhile_cons, ha, Bool.not_false, if_true]
        exact List.cons_ne_nil _ _
      · intro b hb
        have hnot := List.mem_takeWhile_imp hb
        simpa using hnot
    have hbreaks : Breaks p after := by
      intro b hb
      have hnot : (!p b) = false := head_dropWhile (p := fun b => !p b) hb
      simpa using hnot
    have hlength : after.length < l.length := by
      have hne := List.length_pos_iff.mpr hw.1
      rw [← hsplit, hrest, ← happend]
      simp only [List.length_append]
      omega
    have hl : l = l.takeWhile p ++ w ++ after := by rw [List.append_assoc, happend, ← hrest, hsplit]
    have hwords : words p l = w :: words p after := by
      rw [hl, List.append_assoc, words_gap hgap, words_word hw hbreaks]
    rw [hwords]
    rw [hl]
    exact .word hgap hw hbreaks (ih _ (hn ▸ hlength) after rfl)

/-- The words of a list are those it is made of. -/
theorem words_eq_iff : words p l = ws ↔ Spaced p l ws := by
  constructor
  · rintro rfl
    exact spaced_words l
  · exact Spaced.words_eq

theorem isWord_of_mem_words {w : List α} (h : w ∈ words p l) : IsWord p w := by
  have hspaced := spaced_words (p := p) l
  generalize words p l = ws at h hspaced
  induction hspaced with
  | blank => cases h
  | word _ hw _ _ ih =>
    obtain rfl | h := List.mem_cons.mp h
    · exact hw
    · exact ih h

/-! ### Joining -/

/-- The words, each after a separator. -/
def ledWords (separator : α) (ws : List (List α)) : List α := ws.flatMap fun w => separator :: w

theorem foldl_joinWords {separator : α} : ∀ {ws : List (List α)} {joined : List α}, joined ≠ [] →
    ws.foldl (fun joined word => (if joined = [] then joined else joined ++ [separator]) ++ word) joined =
      joined ++ ledWords separator ws
  | [], joined, _ => (List.append_nil joined).symm
  | w :: ws, joined, h => by
    have hne : joined ++ [separator] ++ w ≠ [] := by simp
    rw [List.foldl_cons, if_neg h, foldl_joinWords hne, ledWords, ledWords, List.flatMap_cons]
    simp only [List.append_assoc, List.singleton_append]

theorem joinWords_cons {separator : α} {w : List α} (hw : w ≠ []) (ws : List (List α)) :
    joinWords separator (w :: ws) = w ++ ledWords separator ws := foldl_joinWords hw

theorem breaks_ledWords {separator : α} (h : p separator = true) (ws : List (List α)) :
    Breaks p (ledWords separator ws) := by
  cases ws with
  | nil => intro a ha; cases ha
  | cons w ws =>
    intro a ha
    obtain rfl := Option.some.inj ha
    exact h

theorem spaced_ledWords {separator : α} (h : p separator = true) : ∀ {ws : List (List α)}, (∀ w ∈ ws, IsWord p w) →
    Spaced p (ledWords separator ws) ws
  | [], _ => .blank fun _ ha => nomatch ha
  | w :: ws, hws => by
    obtain ⟨hw, hrest⟩ := List.forall_mem_cons.mp hws
    have hled : ledWords separator (w :: ws) = [separator] ++ w ++ ledWords separator ws := by simp [ledWords]
    rw [hled]
    refine .word (fun a ha => ?_) hw (breaks_ledWords h ws) (spaced_ledWords h hrest)
    obtain rfl := List.mem_singleton.mp ha
    exact h

theorem spaced_joinWords {separator : α} (h : p separator = true) (hws : ∀ w ∈ ws, IsWord p w) :
    Spaced p (joinWords separator ws) ws := by
  cases ws with
  | nil => exact .blank fun _ ha => nomatch ha
  | cons w ws =>
    obtain ⟨hw, hrest⟩ := List.forall_mem_cons.mp hws
    rw [joinWords_cons hw.1]
    have hgap : ∀ a ∈ ([] : List α), p a = true := fun _ ha => nomatch ha
    exact .word hgap hw (breaks_ledWords h ws) (spaced_ledWords h hrest)

/-- Joined words are cut into the same words. -/
theorem words_joinWords {separator : α} (h : p separator = true) (l : List α) :
    words p (joinWords separator (words p l)) = words p l :=
  (spaced_joinWords h fun _ => isWord_of_mem_words).words_eq

/-! ### Trimming -/

/-- The list does not begin or end with a separator. -/
def Trimmed (p : α → Bool) (l : List α) : Prop := (∀ a ∈ l.head?, p a = false) ∧ ∀ a ∈ l.getLast?, p a = false

/-- The list is the core with separators before and after it. -/
def Padded (p : α → Bool) (l core : List α) : Prop :=
  ∃ before after, (∀ a ∈ before, p a = true) ∧ (∀ a ∈ after, p a = true) ∧ l = before ++ core ++ after

theorem trimmed_trimEnds (l : List α) : Trimmed p (trimEnds p l) := by
  constructor
  · intro a ha
    have hprefix : trimEnds p l <+: l.dropWhile p := List.rdropWhile_prefix p _
    obtain ⟨after, hafter⟩ := hprefix
    refine head_dropWhile (l := l) ?_
    rw [← hafter, List.head?_append, ha]
    rfl
  · intro a ha
    have hne : trimEnds p l ≠ [] := List.ne_nil_of_mem (List.mem_of_getLast? ha)
    rw [Option.mem_def, List.getLast?_eq_some_getLast hne] at ha
    obtain rfl := Option.some.inj ha
    have hlast : ¬p ((trimEnds p l).getLast hne) = true := List.rdropWhile_last_not p (l.dropWhile p) hne
    simpa using hlast

theorem padded_trimEnds (l : List α) : Padded p l (trimEnds p l) := by
  refine ⟨l.takeWhile p, (l.dropWhile p).rtakeWhile p, fun a ha => List.mem_takeWhile_imp ha,
    fun a ha => List.mem_rtakeWhile_imp ha, ?_⟩
  rw [List.append_assoc, trimEnds, List.rdropWhile_append_rtakeWhile, List.takeWhile_append_dropWhile]

theorem Padded.trimEnds_eq {core : List α} (h : Padded p l core) (hcore : Trimmed p core) : trimEnds p l = core := by
  obtain ⟨before, after, hbefore, hafter, rfl⟩ := h
  have hdrop : (before ++ core ++ after).dropWhile p = (core ++ after).dropWhile p := by
    rw [List.append_assoc, List.dropWhile_append_of_pos hbefore]
  unfold trimEnds
  rw [hdrop]
  obtain rfl | hne := List.eq_nil_or_concat' core
  · rw [List.nil_append, List.dropWhile_eq_nil_iff.mpr hafter]
    rfl
  · have hhead : (core ++ after).dropWhile p = core ++ after := by
      obtain ⟨a, rest, rfl⟩ : ∃ a rest, core = a :: rest := by
        obtain ⟨init, last, rfl⟩ := hne
        cases init <;> simp
      have ha : p a = false := hcore.1 a rfl
      rw [List.cons_append, List.dropWhile_cons_of_neg (by simp [ha])]
    rw [hhead]
    obtain ⟨init, last, rfl⟩ := hne
    have hlast : p last = false := hcore.2 last (by simp)
    have hreverse : (init ++ [last] ++ after).rdropWhile p = (init ++ [last]).rdropWhile p := by
      unfold List.rdropWhile
      rw [List.reverse_append, List.dropWhile_append_of_pos fun a ha => hafter a (List.mem_reverse.mp ha)]
    rw [hreverse, List.rdropWhile_concat_neg p init last (by simp [hlast])]

theorem Padded.refl (l : List α) : Padded p l l := ⟨[], [], by simp, by simp, by simp⟩

theorem Padded.blank (h : ∀ a ∈ l, p a = true) : Padded p l [] := ⟨l, [], h, by simp, by simp⟩

/-- What is left of a list is the trimmed core of it. -/
theorem trimEnds_eq_iff {core : List α} : trimEnds p l = core ↔ Padded p l core ∧ Trimmed p core := by
  constructor
  · rintro rfl
    exact ⟨padded_trimEnds l, trimmed_trimEnds l⟩
  · rintro ⟨hpadded, hcore⟩
    exact hpadded.trimEnds_eq hcore

theorem trimEnds_eq_nil : trimEnds p l = [] ↔ ∀ a ∈ l, p a = true := by
  constructor
  · intro h
    obtain ⟨before, after, hbefore, hafter, hl⟩ := (trimEnds_eq_iff.mp h).1
    rw [hl, List.append_nil]
    exact fun a ha => (List.mem_append.mp ha).elim (hbefore a) (hafter a)
  · intro h
    exact trimEnds_eq_iff.mpr ⟨.blank h, by simp [Trimmed]⟩

/-! ### Weight -/

section Weight

variable (size : α → ℕ)

def weight (l : List α) : ℕ := (l.map size).sum

theorem weight_append (l l' : List α) : weight size (l ++ l') = weight size l + weight size l' := by
  rw [weight, List.map_append, List.sum_append]
  rfl

theorem weight_trimEnds_le (l : List α) : weight size (trimEnds p l) ≤ weight size l := by
  obtain ⟨before, after, -, -, hl⟩ := padded_trimEnds (p := p) l
  rw [congrArg (weight size) hl, weight_append, weight_append]
  omega

variable {size} {separator : α}

theorem weight_ledWords_cons (w : List α) (ws : List (List α)) :
    weight size (ledWords separator (w :: ws)) = size separator + weight size w + weight size (ledWords separator ws) := by
  have hled : ledWords separator (w :: ws) = separator :: w ++ ledWords separator ws := by simp [ledWords]
  rw [hled, weight_append]
  rfl

/-- Words that each come after a separator weigh no more than they did, when no
separator is lighter. -/
theorem weight_ledWords_le (hmin : ∀ a, p a = true → size separator ≤ size a) (h : Spaced p l ws) (hl : Breaks p l) :
    weight size (ledWords separator ws) ≤ weight size l := by
  induction h with
  | blank => exact Nat.zero_le _
  | @word gap w l ws hgap hw hbreaks _ ih =>
    obtain ⟨a, gap, rfl⟩ : ∃ a rest, gap = a :: rest := by
      cases gap with
      | cons a rest => exact ⟨a, rest, rfl⟩
      | nil =>
        -- A word does not begin with a separator.
        exfalso
        obtain ⟨hne, hw⟩ := hw
        cases w with
        | nil => exact hne rfl
        | cons b w =>
          have hb : p b = true := hl b rfl
          rw [hw b List.mem_cons_self] at hb
          cases hb
    have hsep : size separator ≤ size a := hmin a (hgap a List.mem_cons_self)
    have hrest := ih hbreaks
    have hcons : weight size (a :: gap) = size a + weight size gap := rfl
    rw [weight_ledWords_cons, weight_append, weight_append, hcons]
    omega

/-- Joined words weigh no more than what they were cut from. -/
theorem weight_joinWords_le (hmin : ∀ a, p a = true → size separator ≤ size a) (l : List α) :
    weight size (joinWords separator (words p l)) ≤ weight size l := by
  have hspaced := spaced_words (p := p) l
  generalize words p l = ws at hspaced
  cases hspaced with
  | blank => exact Nat.zero_le _
  | @word gap w l ws hgap hw hbreaks hrest =>
    have hled := weight_ledWords_le hmin hrest hbreaks
    rw [joinWords_cons hw.1, weight_append, weight_append, weight_append]
    omega

end Weight

/-- A string is as long in bytes as its characters weigh. -/
theorem utf8ByteSize_eq_weight : ∀ l : List Char, (String.ofList l).utf8ByteSize = weight Char.utf8Size l
  | [] => rfl
  | c :: l => by
    rw [← List.singleton_append, String.ofList_append, String.utf8ByteSize_append, utf8ByteSize_eq_weight l,
      weight_append]
    simp [weight]
