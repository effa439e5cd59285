/-
# Readers of bytes

A reader is a computation on a state that bytes lie ahead of, and that fails or
returns a value. `Answers` says what it returns on given bytes: with `code`
ahead it reads past it and returns a value, or it fails. `Takes` says the
converse: whatever it returns, it has read a code of it.

A reader of several fields reads the codes of the fields in turn
(`Answers.bind`, `Takes.bind`). Where both hold for the codes of all values, no
code lies ahead of another (`Answers.unique`), and an encoder and a decoder that
agree on what is a record are inverse to each other (`Canonical.of_iff`).

A reader that keeps the state it fails in is one of these once it forgets that
state (`EStateM.forget`). What `Advances` says of it holds on every path, failed or
not.

Key definitions: `Answers`, `Takes`, `Canonical`, `EStateM.forget`, `Advances`.
-/
import Mathlib

variable {σ ε α β : Type}

/-! ### What a reader returns on given bytes -/

/-- With `code` ahead the reader reads past it and returns the value, or fails.
`A s bytes` says that the bytes lie ahead of `s`. -/
def Answers (A : σ → List UInt8 → Prop) (r : StateT σ (Except ε) α) (code : List UInt8) (answer : Option α) : Prop :=
  ∀ s rest, A s (code ++ rest) →
    match answer with
    | some a => ∃ s', r s = .ok (a, s') ∧ A s' rest
    | none => ∃ e, r s = .error e

namespace Answers

variable {A : σ → List UInt8 → Prop} {r : StateT σ (Except ε) α} {f : α → StateT σ (Except ε) β}
  {x y : List UInt8} {a a' : α}

theorem pure (a : α) : Answers A (Pure.pure a : StateT σ (Except ε) α) [] (some a) :=
  fun s _ h => ⟨s, rfl, h⟩

/-- A reader that fails whatever lies ahead. -/
theorem throw (e : ε) (code : List UInt8) : Answers A (throw e : StateT σ (Except ε) α) code none :=
  fun _ _ _ => ⟨e, rfl⟩

theorem bind {o : Option β} (hr : Answers A r x (some a)) (hf : Answers A (f a) y o) : Answers A (r >>= f) (x ++ y) o := by
  intro s rest hs
  rw [List.append_assoc] at hs
  obtain ⟨s', hrun, hs'⟩ := hr s (y ++ rest) hs
  have hbind : (r >>= f) s = f a s' := by
    show r s >>= (fun p => f p.1 p.2) = f a s'
    rw [hrun]
    rfl
  have hanswer := hf s' rest hs'
  cases o with
  | some b =>
    obtain ⟨s'', hf, hs''⟩ := hanswer
    exact ⟨s'', hbind.trans hf, hs''⟩
  | none =>
    obtain ⟨e, hf⟩ := hanswer
    exact ⟨e, hbind.trans hf⟩

/-- A last step that reads nothing. -/
theorem bind_nil {o : Option β} (hr : Answers A r x (some a)) (hf : Answers A (f a) [] o) : Answers A (r >>= f) x o := by
  have h := hr.bind hf
  rwa [List.append_nil] at h

theorem bind_fails (hr : Answers A r x none) : Answers A (r >>= f) (x ++ y) none := by
  intro s rest hs
  rw [List.append_assoc] at hs
  obtain ⟨e, hrun⟩ := hr s (y ++ rest) hs
  refine ⟨e, ?_⟩
  show r s >>= (fun p => f p.1 p.2) = .error e
  rw [hrun]
  rfl

/-- A state ahead of which two codes lie has one value. -/
theorem unique {s : σ} {u v : List UInt8} (hx : Answers A r x (some a)) (hy : Answers A r y (some a'))
    (hxs : A s (x ++ u)) (hys : A s (y ++ v)) : a = a' ∧ ∃ s', A s' u ∧ A s' v := by
  obtain ⟨s', hrun, hu⟩ := hx s u hxs
  obtain ⟨s'', hrun', hv⟩ := hy s v hys
  rw [hrun] at hrun'
  obtain ⟨rfl, rfl⟩ := Prod.mk.inj (Except.ok.inj hrun')
  exact ⟨rfl, s', hu, hv⟩

end Answers

/-! ### What a reader has read -/

/-- Whatever the reader returns, it has read a code of it. -/
def Takes (ahead : σ → List UInt8) (r : StateT σ (Except ε) α) (C : α → List UInt8 → Prop) : Prop :=
  ∀ s a s', r s = .ok (a, s') → ∃ code, C a code ∧ ahead s = code ++ ahead s'

namespace Takes

variable {ahead : σ → List UInt8} {r : StateT σ (Except ε) α} {f : α → StateT σ (Except ε) β}
  {C : α → List UInt8 → Prop} {D : α → β → List UInt8 → Prop}

theorem pure (a : α) : Takes ahead (Pure.pure a : StateT σ (Except ε) α) fun b code => b = a ∧ code = [] := by
  intro s b s' h
  obtain ⟨rfl, rfl⟩ := Prod.mk.inj (Except.ok.inj h)
  exact ⟨[], ⟨rfl, rfl⟩, rfl⟩

theorem throw (e : ε) (C : α → List UInt8 → Prop) : Takes ahead (throw e : StateT σ (Except ε) α) C :=
  nofun

theorem mono {C' : α → List UInt8 → Prop} (hr : Takes ahead r C) (h : ∀ a code, C a code → C' a code) :
    Takes ahead r C' := by
  intro s a s' hrun
  obtain ⟨code, hC, hs⟩ := hr s a s' hrun
  exact ⟨code, h a code hC, hs⟩

theorem bind (hr : Takes ahead r C) (hf : ∀ a, Takes ahead (f a) (D a)) :
    Takes ahead (r >>= f) fun b code => ∃ a x y, C a x ∧ D a b y ∧ code = x ++ y := by
  intro s b s'' h
  change (r s >>= fun p => f p.1 p.2) = .ok (b, s'') at h
  cases hrun : r s with
  | error e =>
    rw [hrun] at h
    cases h
  | ok p =>
    obtain ⟨a, s'⟩ := p
    rw [hrun] at h
    obtain ⟨x, hx, hs⟩ := hr s a s' hrun
    obtain ⟨y, hy, hs'⟩ := hf a s' b s'' h
    exact ⟨x ++ y, ⟨a, x, y, hx, hy, rfl⟩, by rw [hs, hs', List.append_assoc]⟩

end Takes

/-! ### Readers that keep the state they fail in -/

/-- The reader without the state it fails in. -/
def EStateM.forget (r : EStateM ε σ α) : StateT σ (Except ε) α := fun s =>
  match r s with
  | .ok a s' => .ok (a, s')
  | .error e _ => .error e

namespace EStateM

variable {r : EStateM ε σ α} {f : α → EStateM ε σ β} {s s' : σ} {a : α} {e : ε}

theorem forget_eq_ok : r.forget s = .ok (a, s') ↔ r s = .ok a s' := by
  unfold forget
  cases r s <;> simp

theorem forget_eq_error : r.forget s = .error e ↔ ∃ s', r s = .error e s' := by
  unfold forget
  cases r s <;> simp

theorem forget_bind : (r >>= f).forget = r.forget >>= fun a => (f a).forget := by
  funext s
  show EStateM.forget (EStateM.bind r f) s = r.forget s >>= fun p => (f p.1).forget p.2
  unfold forget EStateM.bind
  cases r s <;> rfl

end EStateM

/-- The state that a reader leaves. -/
def EStateM.Result.state : EStateM.Result ε σ α → σ
  | .ok _ s => s
  | .error _ s => s

/-- `R` relates the state before the reader to the one after it, on every path. -/
def Advances (R : σ → σ → Prop) (r : EStateM ε σ α) : Prop := ∀ s, R s (r s).state

namespace Advances

variable {R : σ → σ → Prop} {r : EStateM ε σ α} {f : α → EStateM ε σ β}

theorem pure (hrefl : ∀ s, R s s) (a : α) : Advances R (Pure.pure a : EStateM ε σ α) := hrefl

theorem throw (hrefl : ∀ s, R s s) (e : ε) : Advances R (throw e : EStateM ε σ α) := hrefl

theorem bind (htrans : ∀ s s' s'', R s s' → R s' s'' → R s s'') (hr : Advances R r) (hf : ∀ a, Advances R (f a)) :
    Advances R (r >>= f) := by
  intro s
  have hs := hr s
  show R s (EStateM.bind r f s).state
  unfold EStateM.bind
  cases hrun : r s with
  | ok a s' =>
    rw [hrun] at hs
    exact htrans s s' _ hs (hf a s')
  | error e s' =>
    rw [hrun] at hs
    exact hs

end Advances

/-! ### Formats with one code for each value -/

/-- What a record format promises: a valid value that fits the format is
encoded and decoded again, an accepted record is the code of the valid value it
decodes to, and nothing shorter or longer than a code is accepted. -/
structure Canonical (encode : α → Except ε (List UInt8)) (decode : List UInt8 → Except ε α)
    (validate : α → Except ε Unit) (Fits : α → Prop) : Prop where
  round_trip : ∀ v, validate v = .ok () → Fits v → ∃ bytes, encode v = .ok bytes ∧ decode bytes = .ok v
  canonical : ∀ bytes v, decode bytes = .ok v → encode v = .ok bytes
  injective : ∀ bytes bytes' v, decode bytes = .ok v → decode bytes' = .ok v → bytes = bytes'
  valid : ∀ bytes v, decode bytes = .ok v → validate v = .ok ()
  truncated : ∀ v bytes x, encode v = .ok (bytes ++ x) → x ≠ [] → ∃ e, decode bytes = .error e
  extended : ∀ v bytes x, encode v = .ok bytes → x ≠ [] → ∃ e, decode (bytes ++ x) = .error e

/-- A format is canonical if it accepts the codes of the valid values, and no
code lies ahead of a longer one. -/
theorem Canonical.of_iff {encode : α → Except ε (List UInt8)} {decode : List UInt8 → Except ε α}
    {validate : α → Except ε Unit} {Fits : α → Prop}
    (hdecode : ∀ bytes v, decode bytes = .ok v ↔ encode v = .ok bytes ∧ validate v = .ok ())
    (hencode : ∀ v, Fits v → ∃ bytes, encode v = .ok bytes)
    (hlonger : ∀ v v' bytes x, encode v = .ok bytes → encode v' = .ok (bytes ++ x) → x = []) :
    Canonical encode decode validate Fits where
  round_trip v hv hfits := by
    obtain ⟨bytes, hbytes⟩ := hencode v hfits
    exact ⟨bytes, hbytes, (hdecode bytes v).mpr ⟨hbytes, hv⟩⟩
  canonical bytes v h := ((hdecode bytes v).mp h).1
  injective bytes bytes' v h h' := by
    have hbytes := ((hdecode bytes v).mp h).1
    rw [((hdecode bytes' v).mp h').1] at hbytes
    exact (Except.ok.inj hbytes).symm
  valid bytes v h := ((hdecode bytes v).mp h).2
  truncated v bytes x h hx := by
    cases hread : decode bytes with
    | error e => exact ⟨e, rfl⟩
    | ok v' => exact absurd (hlonger v' v bytes x ((hdecode bytes v').mp hread).1 h) hx
  extended v bytes x h hx := by
    cases hread : decode (bytes ++ x) with
    | error e => exact ⟨e, rfl⟩
    | ok v' => exact absurd (hlonger v v' bytes x h ((hdecode _ v').mp hread).1) hx
