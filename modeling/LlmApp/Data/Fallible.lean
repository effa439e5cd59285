/-
# Computations that keep their state when they fail

`Fallible σ ε α` runs on a state and returns a result or a failure with the state
as it left it, as a function does that writes before it returns early. Its rules
of pre- and postconditions (`Ensures`) have one condition for results and one for
failures; a loop is run while its body asks for another turn, and ends because
each such turn makes a measure of the state smaller.

Key definitions: `Fallible`, `Fallible.loop`, `Ensures`.
Key theorems: `Ensures.bind`, `Ensures.loop`, `Ensures.onPart`.
-/
import Mathlib

def Fallible (σ ε α : Type) := σ → Except ε α × σ

variable {σ τ ε ε' α β : Type}

namespace Fallible

instance : Monad (Fallible σ ε) where
  pure a := fun s => (.ok a, s)
  bind x f := fun s =>
    match x s with
    | (.ok a, s') => f a s'
    | (.error e, s') => (.error e, s')

def throw (e : ε) : Fallible σ ε α := fun s => (.error e, s)

def update (f : σ → σ) : Fallible σ ε Unit := fun s => (.ok (), f s)

/-- A check of the state, or a value read from it. -/
def check (f : σ → Except ε α) : Fallible σ ε α := fun s => (f s, s)

/-- A computation on a part of the state, with its failures as others. -/
def onPart (get : σ → τ) (set : τ → σ → σ) (failure : ε' → ε) (x : Fallible τ ε' α) : Fallible σ ε α := fun s =>
  ((x (get s)).1.mapError failure, set (x (get s)).2 s)

/-- The body is run until it returns a value. -/
def loopFrom (body : Fallible σ ε (Option α)) (measure : σ → ℕ)
    (h : ∀ s s', body s = (.ok none, s') → measure s' < measure s) (s : σ) : Except ε α × σ :=
  match _hbody : body s with
  | (.error e, s') => (.error e, s')
  | (.ok (some a), s') => (.ok a, s')
  | (.ok none, s') => loopFrom body measure h s'
termination_by measure s
decreasing_by exact h s s' _hbody

def loop (body : Fallible σ ε (Option α)) (measure : σ → ℕ)
    (h : ∀ s s', body s = (.ok none, s') → measure s' < measure s) : Fallible σ ε α := loopFrom body measure h

theorem bind_ok {x : Fallible σ ε α} {f : α → Fallible σ ε β} {s s' : σ} {a : α} (h : x s = (.ok a, s')) :
    (x >>= f) s = f a s' := by
  show (match x s with | (.ok a, s') => f a s' | (.error e, s') => (.error e, s')) = f a s'
  rw [h]

theorem bind_error {x : Fallible σ ε α} {f : α → Fallible σ ε β} {s s' : σ} {e : ε} (h : x s = (.error e, s')) :
    (x >>= f) s = (.error e, s') := by
  show (match x s with | (.ok a, s') => f a s' | (.error e, s') => (.error e, s')) = (.error e, s')
  rw [h]

theorem check_ok {f : σ → Except ε α} {s : σ} {a : α} (h : f s = .ok a) : check f s = (.ok a, s) := by
  rw [check, h]

theorem check_error {f : σ → Except ε α} {s : σ} {e : ε} (h : f s = .error e) : check f s = (.error e, s) := by
  rw [check, h]

/-- How a sequence ends. -/
theorem bind_cases (x : Fallible σ ε α) (f : α → Fallible σ ε β) (s : σ) :
    (∃ e s', x s = (.error e, s') ∧ (x >>= f) s = (.error e, s')) ∨
      ∃ a s', x s = (.ok a, s') ∧ (x >>= f) s = f a s' := by
  rcases hx : x s with ⟨result, s'⟩
  cases result with
  | error e => exact .inl ⟨e, s', rfl, bind_error hx⟩
  | ok a => exact .inr ⟨a, s', rfl, bind_ok hx⟩

theorem bind_assoc {γ : Type} (x : Fallible σ ε α) (f : α → Fallible σ ε β) (g : β → Fallible σ ε γ) :
    x >>= f >>= g = x >>= fun a => f a >>= g := by
  funext s
  obtain ⟨e, s', hx, heq⟩ | ⟨a, s', hx, heq⟩ := bind_cases x f s
  · rw [bind_error heq, bind_error hx]
  · rw [bind_ok (f := fun a => f a >>= g) hx]
    obtain ⟨e, s'', hf, -⟩ | ⟨b, s'', hf, hg⟩ := bind_cases (f a) g s'
    · rw [bind_error (heq.trans hf), bind_error hf]
    · rw [bind_ok (heq.trans hf), hg]

end Fallible

/-! ### Pre- and postconditions -/

/-- From a state of `P`, a result with its state is in `Q` and a failure in `E`. -/
structure Ensures (P : σ → Prop) (x : Fallible σ ε α) (Q : α → σ → Prop) (E : ε → σ → Prop) : Prop where
  ok : ∀ {s a s'}, P s → x s = (.ok a, s') → Q a s'
  error : ∀ {s e s'}, P s → x s = (.error e, s') → E e s'

namespace Ensures

variable {P P' : σ → Prop} {Q Q' : α → σ → Prop} {E E' : ε → σ → Prop} {x : Fallible σ ε α}

theorem weaken (h : Ensures P' x Q' E') (hP : ∀ s, P s → P' s) (hQ : ∀ a s, Q' a s → Q a s)
    (hE : ∀ e s, E' e s → E e s) : Ensures P x Q E :=
  ⟨fun hs hx => hQ _ _ (h.ok (hP _ hs) hx), fun hs hx => hE _ _ (h.error (hP _ hs) hx)⟩

theorem of_pre (h : Ensures P' x Q E) (hP : ∀ s, P s → P' s) : Ensures P x Q E :=
  h.weaken hP (fun _ _ => id) fun _ _ => id

theorem of_exists {ι : Type} {P : ι → σ → Prop} (h : ∀ i, Ensures (P i) x Q E) : Ensures (fun s => ∃ i, P i s) x Q E :=
  ⟨fun ⟨i, hs⟩ hx => (h i).ok hs hx, fun ⟨i, hs⟩ hx => (h i).error hs hx⟩

/-- What holds however the computation ends. -/
theorem after {R : σ → Prop} {s : σ} (h : Ensures P x (fun _ => R) fun _ => R) (hs : P s) : R (x s).2 := by
  rcases hx : x s with ⟨result, s'⟩
  cases result with
  | ok a => exact h.ok hs hx
  | error e => exact h.error hs hx

/-- What does not depend on the state can be taken out of a precondition. -/
theorem of_and {p : Prop} (h : p → Ensures P x Q E) : Ensures (fun s => p ∧ P s) x Q E :=
  ⟨fun hs hx => (h hs.1).ok hs.2 hx, fun hs hx => (h hs.1).error hs.2 hx⟩

theorem pure {a : α} (h : ∀ s, P s → Q a s) : Ensures P (pure a) Q E :=
  ⟨fun hs hx => by cases hx; exact h _ hs, fun _ hx => nomatch hx⟩

theorem throw {e : ε} (h : ∀ s, P s → E e s) : Ensures P (.throw e) Q E :=
  ⟨fun _ hx => (by cases hx), fun hs hx => by cases hx; exact h _ hs⟩

theorem update {f : σ → σ} {Q : Unit → σ → Prop} (h : ∀ s, P s → Q () (f s)) : Ensures P (.update f) Q E :=
  ⟨fun hs hx => by cases hx; exact h _ hs, fun _ hx => nomatch hx⟩

theorem check {f : σ → Except ε α} (h : ∀ s a, P s → f s = .ok a → Q a s) (he : ∀ s e, P s → f s = .error e → E e s) :
    Ensures P (.check f) Q E :=
  ⟨fun hs hx => by obtain ⟨hf, rfl⟩ := Prod.mk.inj hx; exact h _ _ hs hf,
    fun hs hx => by obtain ⟨hf, rfl⟩ := Prod.mk.inj hx; exact he _ _ hs hf⟩

theorem bind {f : α → Fallible σ ε β} {R : β → σ → Prop} (hx : Ensures P x Q E) (hf : ∀ a, Ensures (Q a) (f a) R E) :
    Ensures P (x >>= f) R E := by
  constructor
  · intro s b s' hs hb
    obtain ⟨e, s₁, -, heq⟩ | ⟨a, s₁, ha, heq⟩ := Fallible.bind_cases x f s
    · cases heq.symm.trans hb
    · exact (hf a).ok (hx.ok hs ha) (heq.symm.trans hb)
  · intro s e s' hs he
    obtain ⟨e', s₁, hfail, heq⟩ | ⟨a, s₁, ha, heq⟩ := Fallible.bind_cases x f s
    · obtain ⟨h, rfl⟩ := Prod.mk.inj (heq.symm.trans he)
      cases h
      exact hx.error hs hfail
    · exact (hf a).error (hx.ok hs ha) (heq.symm.trans he)

theorem onPart {get : σ → τ} {set : τ → σ → σ} {failure : ε' → ε} {x : Fallible τ ε' α}
    (hok : ∀ s a t, P s → x (get s) = (.ok a, t) → Q a (set t s))
    (herror : ∀ s e t, P s → x (get s) = (.error e, t) → E (failure e) (set t s)) :
    Ensures P (Fallible.onPart get set failure x) Q E := by
  constructor
  · intro s a s' hs hx
    rcases hrun : x (get s) with ⟨result, t⟩
    simp only [Fallible.onPart, hrun, Prod.mk.injEq] at hx
    obtain ⟨hresult, rfl⟩ := hx
    cases result with
    | error e => cases hresult
    | ok b =>
      cases hresult
      exact hok s _ t hs hrun
  · intro s e s' hs hx
    rcases hrun : x (get s) with ⟨result, t⟩
    simp only [Fallible.onPart, hrun, Prod.mk.injEq] at hx
    obtain ⟨hresult, rfl⟩ := hx
    cases result with
    | error e' =>
      cases hresult
      exact herror s _ t hs hrun
    | ok b => cases hresult

/-- What every turn of a loop that goes on keeps, the last turn starts from. -/
theorem loop {body : Fallible σ ε (Option α)} {measure : σ → ℕ}
    {h : ∀ s s', body s = (.ok none, s') → measure s' < measure s}
    (hbody : Ensures P body (fun r s => r.elim (P s) fun a => Q a s) E) : Ensures P (.loop body measure h) Q E := by
  have hrun : ∀ (n : ℕ) (s : σ), measure s = n → P s →
      (∀ a s', Fallible.loopFrom body measure h s = (.ok a, s') → Q a s') ∧
        ∀ e s', Fallible.loopFrom body measure h s = (.error e, s') → E e s' := by
    intro n
    induction n using Nat.strong_induction_on with
    | _ n ih =>
    intro s hn hs
    rw [Fallible.loopFrom]
    rcases hresult : body s with ⟨result, s₁⟩
    cases result with
    | error e =>
      constructor
      · intro a s' heq
        simp only at heq
        cases heq
      · intro e' s' heq
        simp only [Prod.mk.injEq, Except.error.injEq] at heq
        obtain ⟨rfl, rfl⟩ := heq
        exact hbody.error hs hresult
    | ok r =>
      cases r with
      | some a =>
        constructor
        · intro a' s' heq
          simp only [Prod.mk.injEq, Except.ok.injEq] at heq
          obtain ⟨rfl, rfl⟩ := heq
          exact hbody.ok hs hresult
        · intro e' s' heq
          simp only at heq
          cases heq
      | none =>
        have hnext : P s₁ := hbody.ok hs hresult
        obtain ⟨hok, herror⟩ := ih (measure s₁) (hn ▸ h s s₁ hresult) s₁ rfl hnext
        constructor
        · intro a s' heq
          simp only at heq
          exact hok a s' heq
        · intro e s' heq
          simp only at heq
          exact herror e s' heq
  exact ⟨fun hs heq => (hrun _ _ rfl hs).1 _ _ heq, fun hs heq => (hrun _ _ rfl hs).2 _ _ heq⟩

end Ensures
