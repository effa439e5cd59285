/-
# Checks that succeed

A computation in `Except ε` written as a sequence of checks succeeds exactly
when each of them does (`Except.bind_eq_ok`), and one written as a guard when
its condition is false (`Except.failIf_eq_ok`). So a success is taken apart
into the facts its checks established, and put together from them.

The errors of a sequence of checks are those of its checks
(`Except.ErrorsIn.bind`). A loop of steps that cannot fail from its invariant
succeeds and keeps it (`Except.foldlM_invariant`).
-/
import Mathlib

namespace Except

variable {ε α β : Type}

/-- `o.ok_or(e)`. -/
def okOr (o : Option α) (e : ε) : Except ε α :=
  match o with
  | some a => .ok a
  | none => .error e

@[simp] theorem okOr_some (a : α) (e : ε) : okOr (some a) e = .ok a := rfl
@[simp] theorem okOr_none (e : ε) : okOr (none : Option α) e = .error e := rfl

theorem okOr_eq_ok {o : Option α} {e : ε} {a : α} : okOr o e = .ok a ↔ o = some a := by
  cases o <;> simp

theorem okOr_eq_error {o : Option α} {e e' : ε} : okOr o e = .error e' ↔ o = none ∧ e = e' := by
  cases o <;> simp

/-- `r.err()`. -/
def err : Except ε α → Option ε
  | .ok _ => none
  | .error e => some e

@[simp] theorem err_ok (a : α) : err (.ok a : Except ε α) = none := rfl
@[simp] theorem err_error (e : ε) : err (.error e : Except ε α) = some e := rfl

/-- Fail with `e` if `c`. -/
def failIf (c : Prop) [Decidable c] (e : ε) : Except ε Unit := if c then .error e else .ok ()

theorem failIf_eq_ok {c : Prop} [Decidable c] {e : ε} {u : Unit} : failIf c e = .ok u ↔ ¬ c := by
  unfold failIf
  split_ifs with h <;> simp [h]

theorem failIf_eq_error {c : Prop} [Decidable c] {e e' : ε} : failIf c e = .error e' ↔ c ∧ e = e' := by
  unfold failIf
  split_ifs with h <;> simp [h]

theorem bind_eq_ok {x : Except ε α} {f : α → Except ε β} {b : β} :
    x >>= f = .ok b ↔ ∃ a, x = .ok a ∧ f a = .ok b := by
  cases x <;> simp [bind, Except.bind]

theorem bind_eq_error {x : Except ε α} {f : α → Except ε β} {e : ε} :
    x >>= f = .error e ↔ x = .error e ∨ ∃ a, x = .ok a ∧ f a = .error e := by
  cases x <;> simp [bind, Except.bind]

theorem pure_eq_ok {a b : α} : (pure a : Except ε α) = .ok b ↔ a = b := by
  simp [pure, Except.pure]

@[simp] theorem ok_bind (a : α) (f : α → Except ε β) : (Except.ok a >>= f) = f a := rfl
@[simp] theorem error_bind (e : ε) (f : α → Except ε β) : (Except.error e >>= f) = .error e := rfl

/-- Every error that `x` can return is one of `P`. -/
def ErrorsIn (P : ε → Prop) (x : Except ε α) : Prop := ∀ e, x = .error e → P e

@[simp] theorem errorsIn_error {P : ε → Prop} {e : ε} : ErrorsIn P (.error e : Except ε α) ↔ P e := by
  simp [ErrorsIn]

@[simp] theorem errorsIn_ok {P : ε → Prop} {a : α} : ErrorsIn P (.ok a : Except ε α) := nofun

@[simp] theorem errorsIn_pure {P : ε → Prop} {a : α} : ErrorsIn P (pure a : Except ε α) := nofun

theorem errorsIn_failIf {P : ε → Prop} {c : Prop} [Decidable c] {e : ε} (h : P e) : ErrorsIn P (failIf c e) := by
  intro e' he
  obtain ⟨-, rfl⟩ := failIf_eq_error.mp he
  exact h

theorem errorsIn_okOr {P : ε → Prop} {o : Option α} {e : ε} (h : P e) : ErrorsIn P (okOr o e) := by
  intro e' he
  obtain ⟨-, rfl⟩ := okOr_eq_error.mp he
  exact h

theorem ErrorsIn.bind {P : ε → Prop} {x : Except ε α} {f : α → Except ε β} (hx : ErrorsIn P x)
    (hf : ∀ a, ErrorsIn P (f a)) : ErrorsIn P (x >>= f) := by
  cases x with
  | error e => exact errorsIn_error.mpr (errorsIn_error.mp hx)
  | ok a => exact hf a

theorem mapM_ok {f : α → Except ε β} {g : α → β} : ∀ {l : List α}, (∀ a ∈ l, f a = .ok (g a)) →
    l.mapM f = .ok (l.map g)
  | [], _ => rfl
  | a :: l, h => by
    rw [List.mapM_cons, h a List.mem_cons_self, ok_bind, mapM_ok fun b hb => h b (List.mem_cons_of_mem _ hb)]
    rfl

/-- A loop over a list whose steps succeed and keep an invariant of the elements
done. -/
theorem foldlM_invariant {f : α → β → Except ε α} (P : List β → α → Prop) {l : List β} {a : α} (h : P [] a)
    (hstep : ∀ done x rest a, l = done ++ x :: rest → P done a → ∃ a', f a x = .ok a' ∧ P (done ++ [x]) a') :
    ∃ a', l.foldlM f a = .ok a' ∧ P l a' := by
  have hloop : ∀ rest done a, l = done ++ rest → P done a → ∃ a', rest.foldlM f a = .ok a' ∧ P l a' := by
    intro rest
    induction rest with
    | nil =>
      intro done a hl hP
      rw [List.append_nil] at hl
      exact ⟨a, rfl, hl ▸ hP⟩
    | cons x rest ih =>
      intro done a hl hP
      obtain ⟨a', hf, hP'⟩ := hstep done x rest a hl hP
      rw [List.foldlM_cons, hf, ok_bind]
      exact ih (done ++ [x]) a' (by rw [hl, List.append_assoc]; rfl) hP'
  exact hloop l [] a rfl h

/-- What every successful step of a loop keeps, a successful loop keeps. -/
theorem foldlM_ok {f : α → β → Except ε α} (P : List β → α → Prop) {l : List β} {a b : α} (h : P [] a)
    (hstep : ∀ done x rest a a', l = done ++ x :: rest → P done a → f a x = .ok a' → P (done ++ [x]) a')
    (hl : l.foldlM f a = .ok b) : P l b := by
  have hloop : ∀ rest done a, l = done ++ rest → P done a → rest.foldlM f a = .ok b → P l b := by
    intro rest
    induction rest with
    | nil =>
      intro done a hl hP h
      rw [List.append_nil] at hl
      rw [List.foldlM_nil, pure_eq_ok] at h
      exact hl ▸ h ▸ hP
    | cons x rest ih =>
      intro done a hl hP h
      rw [List.foldlM_cons, bind_eq_ok] at h
      obtain ⟨a', hf, h⟩ := h
      exact ih (done ++ [x]) a' (by rw [hl, List.append_assoc]; rfl) (hstep done x rest a a' hl hP hf) h
  exact hloop l [] a rfl h hl

end Except
