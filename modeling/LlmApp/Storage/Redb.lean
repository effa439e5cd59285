/-
# The database under the store

The operations of redb that the store calls, over any types for a database, its
transactions and its failures. What the store relies on is `Redb.Lawful`: a
transaction sees the tables as they were when it began, a commit makes its writes
the tables of the database, as a whole or not at all, and nothing else changes
them. Every operation can fail at any time.

Key definitions: `Redb`, `Redb.Views`, `Redb.Lawful`, `Redb.write`, `Redb.read`.
Key theorems: `Redb.Lawful.write`, `Redb.Lawful.read`.
-/
import LlmApp.Data.Fallible
import LlmApp.Data.OrdMap
import LlmApp.Storage.Canonical

namespace LlmApp

/-- A failure of the database, or one of the codec. -/
inductive StoreError (ε : Type) where
  | database (error : ε)
  | record (error : StorageError)
deriving DecidableEq, Repr

def StoreError.IsDatabase {ε : Type} (error : StoreError ε) : Prop := ∃ e, error = .database e

theorem ok_of_mapError {ε ε' α : Type} {f : ε → ε'} {x : Except ε α} {a : α} (h : x.mapError f = .ok a) : x = .ok a := by
  cases x with
  | ok a' => exact congrArg _ (Except.ok.inj h)
  | error e => cases h

theorem isDatabase_of_mapError {ε α : Type} {x : Except ε α} {e : StoreError ε}
    (h : x.mapError StoreError.database = .error e) : e.IsDatabase := by
  cases x with
  | ok a => cases h
  | error e' => exact ⟨e', (Except.error.inj h).symm⟩

/-- The rows of every table. A table that was never opened has none. -/
abbrev Tables : Type := String → OrdMap String (List UInt8)

/-- What the store calls of redb: a database `δ`, its write transactions `ω` and
read transactions `ρ`, and failures `ε`. -/
structure Redb (δ ω ρ ε : Type) where
  create : δ → Except ε Unit × δ
  beginWrite : δ → Except ε ω × δ
  openTable : String → ω → Except ε Unit × ω
  insert : String → String → List UInt8 → ω → Except ε Unit × ω
  -- The value that was removed, if there was one.
  remove : String → String → ω → Except ε (Option (List UInt8)) × ω
  commit : ω → δ → Except ε Unit × δ
  -- A transaction that is dropped without a commit.
  drop : ω → δ → δ
  beginRead : δ → Except ε ρ × δ
  openReadTable : String → ρ → Except ε Unit
  get : String → String → ρ → Except ε (Option (List UInt8))
  iter : String → ρ → Except ε (List (Except ε (String × List UInt8)))

namespace Redb

variable {δ ω ρ ε α : Type}

/-- What a database holds, what a write transaction has made of it, and what a read
transaction sees. -/
structure Views (δ ω ρ : Type) where
  contents : δ → Tables
  pending : ω → Tables
  snapshot : ρ → Tables

/-- What redb documents of its transactions. -/
structure Lawful (redb : Redb δ ω ρ ε) (views : Views δ ω ρ) : Prop where
  create : ∀ db, views.contents (redb.create db).2 = views.contents db
  beginWrite : ∀ db, views.contents (redb.beginWrite db).2 = views.contents db
  begun : ∀ db w db', redb.beginWrite db = (.ok w, db') → views.pending w = views.contents db
  openTable : ∀ table w w', redb.openTable table w = (.ok (), w') → views.pending w' = views.pending w
  insert : ∀ table key value w w', redb.insert table key value w = (.ok (), w') →
    views.pending w' = Function.update (views.pending w) table ((views.pending w table).insert key value)
  remove : ∀ table key w old w', redb.remove table key w = (.ok old, w') → old = (views.pending w table).get? key ∧
    views.pending w' = Function.update (views.pending w) table ((views.pending w table).erase key)
  committed : ∀ w db db', redb.commit w db = (.ok (), db') → views.contents db' = views.pending w
  -- A commit that fails has been made durable or it has not.
  uncommitted : ∀ w db e db', redb.commit w db = (.error e, db') →
    views.contents db' = views.contents db ∨ views.contents db' = views.pending w
  dropped : ∀ w db, views.contents (redb.drop w db) = views.contents db
  beginRead : ∀ db, views.contents (redb.beginRead db).2 = views.contents db
  seen : ∀ db r db', redb.beginRead db = (.ok r, db') → views.snapshot r = views.contents db
  get : ∀ table key r value, redb.get table key r = .ok value → value = (views.snapshot r table).get? key
  -- The entries come in the order of their keys, all of them or those before one that fails.
  iter : ∀ table r entries, redb.iter table r = .ok entries →
    entries = (views.snapshot r table).entries.map .ok ∨ ∃ n e rest,
      entries = ((views.snapshot r table).entries.take n).map .ok ++ .error e :: rest

/-! ### Transactions -/

/-- An operation of the database, with its failures as those of the store. -/
def attempt {σ : Type} (x : σ → Except ε α × σ) : Fallible σ (StoreError ε) α := fun s =>
  ((x s).1.mapError .database, (x s).2)

theorem attempt_ensures {σ : Type} {x : σ → Except ε α × σ} {P : σ → Prop} {Q : α → σ → Prop}
    {E : StoreError ε → σ → Prop} (hok : ∀ s a s', P s → x s = (.ok a, s') → Q a s')
    (herror : ∀ s e s', P s → x s = (.error e, s') → E (.database e) s') : Ensures P (attempt x) Q E := by
  constructor
  · intro s a s' hs hx
    obtain ⟨hresult, rfl⟩ := Prod.mk.inj hx
    exact hok s a _ hs (Prod.ext (ok_of_mapError hresult) rfl)
  · intro s e s' hs hx
    obtain ⟨hresult, rfl⟩ := Prod.mk.inj hx
    rcases hs' : x s with ⟨result, s'⟩
    rw [hs'] at hresult
    cases result with
    | ok a => cases hresult
    | error e' =>
      obtain rfl := Except.error.inj hresult
      exact herror s e' s' hs hs'

/-- A write transaction of the store: begun, worked on and committed, or dropped when
the work fails. -/
def write (redb : Redb δ ω ρ ε) (work : Fallible ω (StoreError ε) α) : Fallible δ (StoreError ε) α := fun db =>
  match redb.beginWrite db with
  | (.error e, db) => (.error (.database e), db)
  | (.ok w, db) =>
    match work w with
    | (.error e, w) => (.error e, redb.drop w db)
    | (.ok a, w) =>
      match redb.commit w db with
      | (.error e, db) => (.error (.database e), db)
      | (.ok (), db) => (.ok a, db)

/-- A read transaction of the store. -/
def read (redb : Redb δ ω ρ ε) (work : ρ → Except (StoreError ε) α) : Fallible δ (StoreError ε) α := fun db =>
  match redb.beginRead db with
  | (.error e, db) => (.error (.database e), db)
  | (.ok r, db) => (work r, db)

variable {redb : Redb δ ω ρ ε} {views : Views δ ω ρ}

/-- A write transaction leaves what its work makes of the tables. If it fails, the
tables are as before, or the work was done all the same. -/
theorem Lawful.write (h : redb.Lawful views) {work : Fallible ω (StoreError ε) α} {before : Tables}
    (Made : α → Tables → Prop)
    (hwork : Ensures (views.pending · = before) work (fun a w => Made a (views.pending w)) fun e _ => e.IsDatabase) :
    Ensures (views.contents · = before) (redb.write work) (fun a db => Made a (views.contents db))
      fun e db => e.IsDatabase ∧ (views.contents db = before ∨ ∃ a, Made a (views.contents db)) := by
  have hends : ∀ db, views.contents db = before → ∀ result db', redb.write work db = (result, db') →
      match result with
      | .ok a => Made a (views.contents db')
      | .error e => e.IsDatabase ∧ (views.contents db' = before ∨ ∃ a, Made a (views.contents db')) := by
    intro db hdb result db' hwrite
    unfold Redb.write at hwrite
    have hsame := h.beginWrite db
    rcases hbegin : redb.beginWrite db with ⟨began, db₁⟩
    rw [hbegin] at hwrite hsame
    have hbefore : views.contents db₁ = before := hsame.trans hdb
    cases began with
    | error e =>
      obtain ⟨rfl, rfl⟩ := Prod.mk.inj hwrite
      exact ⟨⟨e, rfl⟩, Or.inl hbefore⟩
    | ok w =>
      have hpending : views.pending w = before := (h.begun db w db₁ hbegin).trans hdb
      dsimp only at hwrite
      rcases hdone : work w with ⟨done, w'⟩
      rw [hdone] at hwrite
      cases done with
      | error e =>
        obtain ⟨rfl, rfl⟩ := Prod.mk.inj hwrite
        exact ⟨hwork.error hpending hdone, Or.inl ((h.dropped w' db₁).trans hbefore)⟩
      | ok a =>
        have hmade := hwork.ok hpending hdone
        dsimp only at hwrite
        rcases hcommit : redb.commit w' db₁ with ⟨committed, db₂⟩
        rw [hcommit] at hwrite
        cases committed with
        | error e =>
          obtain ⟨rfl, rfl⟩ := Prod.mk.inj hwrite
          refine ⟨⟨e, rfl⟩, ?_⟩
          obtain hbase | hlate := h.uncommitted w' db₁ e db₂ hcommit
          · exact Or.inl (hbase.trans hbefore)
          · exact Or.inr ⟨a, hlate ▸ hmade⟩
        | ok u =>
          obtain ⟨rfl, rfl⟩ := Prod.mk.inj hwrite
          show Made a (views.contents db₂)
          rw [h.committed w' db₁ db₂ hcommit]
          exact hmade
  exact ⟨fun hdb hwrite => hends _ hdb _ _ hwrite, fun hdb hwrite => hends _ hdb _ _ hwrite⟩

/-- A read transaction changes nothing, and its work sees the tables. -/
theorem Lawful.read (h : redb.Lawful views) {work : ρ → Except (StoreError ε) α} {before : Tables} {Seen : α → Prop}
    (hok : ∀ r a, views.snapshot r = before → work r = .ok a → Seen a)
    (herror : ∀ r e, views.snapshot r = before → work r = .error e → e.IsDatabase) :
    Ensures (views.contents · = before) (redb.read work) (fun a db => Seen a ∧ views.contents db = before)
      fun e db => e.IsDatabase ∧ views.contents db = before := by
  have hends : ∀ db, views.contents db = before → ∀ result db', redb.read work db = (result, db') →
      views.contents db' = before ∧ match result with
        | .ok a => Seen a
        | .error e => e.IsDatabase := by
    intro db hdb result db' hread
    unfold Redb.read at hread
    have hsame := h.beginRead db
    rcases hbegin : redb.beginRead db with ⟨began, db₁⟩
    rw [hbegin] at hread hsame
    have hbefore : views.contents db₁ = before := hsame.trans hdb
    cases began with
    | error e =>
      obtain ⟨rfl, rfl⟩ := Prod.mk.inj hread
      exact ⟨hbefore, e, rfl⟩
    | ok r =>
      have hsnapshot : views.snapshot r = before := (h.seen db r db₁ hbegin).trans hdb
      obtain ⟨hwork, rfl⟩ := Prod.mk.inj hread
      refine ⟨hbefore, ?_⟩
      cases result with
      | ok a => exact hok r a hsnapshot hwork
      | error e => exact herror r e hsnapshot hwork
  exact ⟨fun hdb hread => (hends _ hdb _ _ hread).symm, fun hdb hread => (hends _ hdb _ _ hread).symm⟩

end Redb

end LlmApp
