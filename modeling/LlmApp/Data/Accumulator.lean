/-
# Entries behind ranges of one buffer

Entries are written one after another: the payload of an entry goes to the end
of a buffer, and a record of the entry says where it starts. `recordsOf` are the
records of the entries of a buffer, each made from where the buffer starts and
how much of it was in use. Whoever holds the buffer finds the payload of every
entry at the place its record names (`Written.slice`).

A reader takes the buffer away piece by piece, whenever it wants (`Delivered`).
The pieces and what is still buffered are the entries in order, and each piece
starts where the one before ends. The cursor stops at `last`; until the entries
reach it, a piece ends as far behind its start as it is long.

Key definitions: `recordsOf`, `Written`, `Piece`, `Contiguous`, `Delivered`.
Key theorems: `Written.forall₂`, `Delivered.parts`, `Delivered.contiguous`,
`Delivered.exact`.
-/
import Mathlib

section Entries

variable {ε α ρ : Type} (payload : ε → List α) (record : ℕ → ℕ → ε → ρ)

/-- The records of entries, the first of which finds `offset` in use. -/
def recordsOf (start : ℕ) : ℕ → List ε → List ρ
  | _, [] => []
  | offset, e :: es => record start offset e :: recordsOf start (offset + (payload e).length) es

/-- The buffer that starts at `start` holds these entries. -/
structure Written (start : ℕ) (entries : List ε) (buffer : List α) (recorded : List ρ) : Prop where
  buffer_eq : buffer = entries.flatMap payload
  records_eq : recorded = recordsOf payload record start 0 entries

variable {payload record} {start : ℕ} {entries : List ε} {buffer : List α} {recorded : List ρ}

theorem recordsOf_append (entries' : List ε) : ∀ (offset : ℕ) (entries : List ε),
    recordsOf payload record start offset (entries ++ entries') = recordsOf payload record start offset entries ++
      recordsOf payload record start (offset + (entries.flatMap payload).length) entries'
  | offset, [] => by simp [recordsOf]
  | offset, e :: es => by
    simp only [List.cons_append, recordsOf, recordsOf_append entries' _ es, List.flatMap_cons, List.length_append]
    rw [Nat.add_assoc]

namespace Written

theorem empty (start : ℕ) : Written payload record start [] [] [] := ⟨rfl, rfl⟩

/-- Write one more entry. -/
theorem write (h : Written payload record start entries buffer recorded) (e : ε) :
    Written payload record start (entries ++ [e]) (buffer ++ payload e)
      (recorded ++ [record start buffer.length e]) := by
  obtain ⟨rfl, rfl⟩ := h
  constructor
  · simp
  · rw [recordsOf_append, Nat.zero_add]
    rfl

/-- The payload of an entry is where its record says. -/
theorem slice (h : Written payload record start entries buffer recorded) {before after : List ε} {e : ε}
    (hsplit : entries = before ++ e :: after) :
    (before.flatMap payload).length + (payload e).length ≤ buffer.length ∧
      (buffer.drop (before.flatMap payload).length).take (payload e).length = payload e := by
  rw [h.buffer_eq, hsplit, List.flatMap_append, List.flatMap_cons]
  constructor
  · simp only [List.length_append]
    omega
  · rw [List.drop_left, List.take_left]

/-- The entries and the records, one by one: what holds of an entry whose payload
is in the buffer holds of each. -/
theorem forall₂ {R : ε → ρ → Prop} (h : Written payload record start entries buffer recorded)
    (hR : ∀ offset e, offset + (payload e).length ≤ buffer.length →
      (buffer.drop offset).take (payload e).length = payload e → R e (record start offset e)) :
    List.Forall₂ R entries recorded := by
  have hrest : ∀ after before, entries = before ++ after →
      List.Forall₂ R after (recordsOf payload record start (before.flatMap payload).length after) := by
    intro after
    induction after with
    | nil => exact fun _ _ => .nil
    | cons e after ih =>
      intro before hsplit
      obtain ⟨hroom, hslice⟩ := h.slice hsplit
      refine .cons (hR _ e hroom hslice) ?_
      have hnext := ih (before ++ [e]) (by rw [hsplit, List.append_assoc]; rfl)
      simpa using hnext
  rw [h.records_eq]
  exact hrest entries [] rfl

end Written

end Entries

/-! ### Pieces -/

/-- What a reader has taken away. -/
structure Piece (α ρ : Type) where
  start : ℕ
  finish : ℕ
  buffer : List α
  records : List ρ

/-- The pieces follow one another from `a` to `b`. -/
def Contiguous {α ρ : Type} (a : ℕ) : List (Piece α ρ) → ℕ → Prop
  | [], b => a = b
  | piece :: pieces, b => piece.start = a ∧ Contiguous piece.finish pieces b

theorem Contiguous.concat {α ρ : Type} : ∀ {a b : ℕ} {pieces : List (Piece α ρ)}, Contiguous a pieces b →
    ∀ {piece : Piece α ρ}, piece.start = b → Contiguous a (pieces ++ [piece]) piece.finish
  | _, _, [], h, _, hpiece => ⟨hpiece.trans h.symm, rfl⟩
  | _, _, _ :: _, ⟨h, hrest⟩, _, hpiece => ⟨h, hrest.concat hpiece⟩

section Delivered

variable {ε α ρ : Type} (payload : ε → List α) (record : ℕ → ℕ → ε → ρ) (last : ℕ)

/-- The entries so far, the pieces taken, and the buffer: where it starts, what
it holds and its records. -/
inductive Delivered : List ε → List (Piece α ρ) → ℕ → List α → List ρ → Prop
  | nil : Delivered [] [] 0 [] []
  | write {entries : List ε} {pieces : List (Piece α ρ)} {start : ℕ} {buffer : List α} {recorded : List ρ}
      (h : Delivered entries pieces start buffer recorded) (e : ε) :
      Delivered (entries ++ [e]) pieces start (buffer ++ payload e) (recorded ++ [record start buffer.length e])
  | take {entries : List ε} {pieces : List (Piece α ρ)} {start : ℕ} {buffer : List α} {recorded : List ρ}
      (h : Delivered entries pieces start buffer recorded) {finish : ℕ}
      (hfinish : finish = min last (start + buffer.length)) :
      Delivered entries (pieces ++ [⟨start, finish, buffer, recorded⟩]) finish [] []

variable {payload record last} {entries : List ε} {pieces : List (Piece α ρ)} {start : ℕ} {buffer : List α}
  {recorded : List ρ}

namespace Delivered

/-- Nothing is lost, doubled or reordered. -/
theorem parts (h : Delivered payload record last entries pieces start buffer recorded) :
    ∃ parts pending, entries = parts.flatten ++ pending ∧
      List.Forall₂ (fun piece part => Written payload record piece.start part piece.buffer piece.records) pieces parts ∧
      Written payload record start pending buffer recorded := by
  induction h with
  | nil => exact ⟨[], [], rfl, .nil, .empty 0⟩
  | write h e ih =>
    obtain ⟨parts, pending, rfl, hpieces, hpending⟩ := ih
    exact ⟨parts, pending ++ [e], by rw [List.append_assoc], hpieces, hpending.write e⟩
  | take h hfinish ih =>
    obtain ⟨parts, pending, rfl, hpieces, hpending⟩ := ih
    refine ⟨parts ++ [pending], [], by simp, ?_, .empty _⟩
    exact List.rel_append hpieces (.cons hpending .nil)

theorem contiguous (h : Delivered payload record last entries pieces start buffer recorded) :
    Contiguous 0 pieces start := by
  induction h with
  | nil => rfl
  | write _ _ ih => exact ih
  | take _ _ ih => exact ih.concat rfl

/-- Until the cursor reaches `last` it counts what was written. -/
theorem exact (h : Delivered payload record last entries pieces start buffer recorded)
    (htotal : (entries.flatMap payload).length ≤ last) : start + buffer.length = (entries.flatMap payload).length ∧
      ∀ piece ∈ pieces, piece.finish = piece.start + piece.buffer.length := by
  induction h with
  | nil => simp
  | write _ e ih =>
    simp only [List.flatMap_append, List.flatMap_singleton, List.length_append] at htotal ⊢
    obtain ⟨hcount, hpieces⟩ := ih (by omega)
    exact ⟨by omega, hpieces⟩
  | take _ hfinish ih =>
    obtain ⟨hcount, hpieces⟩ := ih htotal
    rw [hcount, min_eq_right htotal] at hfinish
    refine ⟨by simpa using hfinish, fun piece hpiece => ?_⟩
    obtain hpiece | hpiece := List.mem_append.mp hpiece
    · exact hpieces piece hpiece
    · rw [List.mem_singleton.mp hpiece]
      exact hfinish.trans hcount.symm

end Delivered

end Delivered
