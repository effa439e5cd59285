/-
# Resources under a bounded number of cleanups

Resources are numbered as they are made. Some are held, each at one place and
with a counter; a count and a predicate on the numbers say, from a record of
the past, how many cleanups each resource had and which had a successful one.
`Tracked` says that the places agree with the record. It is kept when a
resource is made, when a cleanup of a held one fails and when one succeeds.

Key definitions: `Held`, `Tracked`.
Key theorems: `Tracked.make`, `Tracked.fail`, `Tracked.letGo`.
-/
import Mathlib

/-- A resource in custody: its reference and the cleanup calls made on it. -/
structure Held where
  ref : ℕ
  attempts : ℕ

/-- The resources of one kind: `held` against the references made so far, the
number of cleanup calls on each, and those let go by a successful one. -/
structure Tracked {ι : Type} (k : ℕ) (held : ι → Option Held) (next : ℕ) (count : ℕ → ℕ)
    (done : ℕ → Prop) : Prop where
  fresh {i : ι} {h : Held} (hi : held i = some h) : h.ref < next
  once {i j : ι} {h h' : Held} (hi : held i = some h) (hj : held j = some h') (hr : h.ref = h'.ref) :
    i = j
  attempts {i : ι} {h : Held} (hi : held i = some h) : count h.ref = h.attempts
  live {i : ι} {h : Held} (hi : held i = some h) : ¬ done h.ref
  kept (n : ℕ) (hn : n < next) (hd : ¬ done n) : ∃ i h, held i = some h ∧ h.ref = n
  bounded (n : ℕ) : count n ≤ k
  unmade (n : ℕ) (hn : next ≤ n) : count n = 0 ∧ ¬ done n

namespace Tracked

variable {ι : Type} {k : ℕ} {held : ι → Option Held} {next : ℕ} {count count' : ℕ → ℕ}
  {done done' : ℕ → Prop}

theorem congr (h : Tracked k held next count done) (hc : count' = count) (hd : done' = done) :
    Tracked k held next count' done' := hc ▸ hd ▸ h

variable [DecidableEq ι] {i : ι} {x : Held}

/-- A new resource is taken into custody. -/
theorem make (h : Tracked k held next count done) (hi : held i = none) :
    Tracked k (Function.update held i (some ⟨next, 0⟩)) (next + 1) count done where
  fresh {j y} hj := by
    by_cases hji : j = i
    · subst hji
      simp only [Function.update_self, Option.some.injEq] at hj
      subst hj
      exact Nat.lt_succ_self _
    · rw [Function.update_of_ne hji] at hj
      exact (h.fresh hj).trans (Nat.lt_succ_self _)
  once {j j' y y'} hj hj' hr := by
    by_cases hji : j = i <;> by_cases hji' : j' = i
    · rw [hji, hji']
    · simp only [hji, Function.update_self, Option.some.injEq] at hj
      rw [Function.update_of_ne hji'] at hj'
      have := h.fresh hj'
      rw [← hr, ← hj] at this
      exact absurd this (lt_irrefl _)
    · simp only [hji', Function.update_self, Option.some.injEq] at hj'
      rw [Function.update_of_ne hji] at hj
      have := h.fresh hj
      rw [hr, ← hj'] at this
      exact absurd this (lt_irrefl _)
    · rw [Function.update_of_ne hji] at hj
      rw [Function.update_of_ne hji'] at hj'
      exact h.once hj hj' hr
  attempts {j y} hj := by
    by_cases hji : j = i
    · simp only [hji, Function.update_self, Option.some.injEq] at hj
      subst hj
      exact (h.unmade next le_rfl).1
    · rw [Function.update_of_ne hji] at hj
      exact h.attempts hj
  live {j y} hj := by
    by_cases hji : j = i
    · simp only [hji, Function.update_self, Option.some.injEq] at hj
      subst hj
      exact (h.unmade next le_rfl).2
    · rw [Function.update_of_ne hji] at hj
      exact h.live hj
  kept n hn hd := by
    rcases Nat.lt_succ_iff_lt_or_eq.mp hn with hn | rfl
    · obtain ⟨j, y, hj, hr⟩ := h.kept n hn hd
      have hji : j ≠ i := fun he => by rw [he, hi] at hj; cases hj
      exact ⟨j, y, by rw [Function.update_of_ne hji]; exact hj, hr⟩
    · exact ⟨i, _, Function.update_self .., rfl⟩
  bounded := h.bounded
  unmade n hn := h.unmade n (Nat.le_of_succ_le hn)

/-- A cleanup of a held resource fails. -/
theorem fail (h : Tracked k held next count done) (hi : held i = some x) (hk : x.attempts < k) :
    Tracked k (Function.update held i (some ⟨x.ref, x.attempts + 1⟩)) next
      (Function.update count x.ref (count x.ref + 1)) done := by
  -- The resource is held before and after, at the same place.
  have back : ∀ {j y}, Function.update held i (some ⟨x.ref, x.attempts + 1⟩) j = some y →
      ∃ y₀, held j = some y₀ ∧ y₀.ref = y.ref := by
    intro j y hj
    by_cases hji : j = i
    · simp only [hji, Function.update_self, Option.some.injEq] at hj
      exact ⟨x, hji ▸ hi, by rw [← hj]⟩
    · rw [Function.update_of_ne hji] at hj
      exact ⟨y, hj, rfl⟩
  refine ⟨fun hj => ?_, fun hj hj' hr => ?_, fun {j y} hj => ?_, fun hj => ?_, fun n hn hd => ?_,
    fun n => ?_, fun n hn => ?_⟩
  · obtain ⟨y₀, h₀, hr⟩ := back hj
    exact hr ▸ h.fresh h₀
  · obtain ⟨y₀, h₀, hr₀⟩ := back hj
    obtain ⟨y₁, h₁, hr₁⟩ := back hj'
    exact h.once h₀ h₁ (by rw [hr₀, hr₁, hr])
  · by_cases hji : j = i
    · simp only [hji, Function.update_self, Option.some.injEq] at hj
      subst hj
      simp [h.attempts hi]
    · rw [Function.update_of_ne hji] at hj
      have hne : y.ref ≠ x.ref := fun he => hji (h.once hj hi he)
      rw [Function.update_of_ne hne]
      exact h.attempts hj
  · obtain ⟨y₀, h₀, hr⟩ := back hj
    exact hr ▸ h.live h₀
  · obtain ⟨j, y, hj, hr⟩ := h.kept n hn hd
    by_cases hji : j = i
    · refine ⟨i, _, Function.update_self .., ?_⟩
      rw [hji, hi] at hj
      cases hj
      exact hr
    · exact ⟨j, y, by rw [Function.update_of_ne hji]; exact hj, hr⟩
  · by_cases hn : n = x.ref
    · subst hn
      rw [Function.update_self, h.attempts hi]
      exact hk
    · rw [Function.update_of_ne hn]
      exact h.bounded n
  · have hne : n ≠ x.ref := (lt_of_lt_of_le (h.fresh hi) hn).ne'
    rw [Function.update_of_ne hne]
    exact h.unmade n hn

/-- A cleanup of a held resource succeeds, and it is let go. -/
theorem letGo (h : Tracked k held next count done) (hi : held i = some x) (hk : x.attempts < k) :
    Tracked k (Function.update held i none) next (Function.update count x.ref (count x.ref + 1))
      (fun n => done n ∨ n = x.ref) := by
  have back : ∀ {j y}, Function.update held i none j = some y → j ≠ i ∧ held j = some y := by
    intro j y hj
    by_cases hji : j = i
    · simp [hji] at hj
    · exact ⟨hji, by rwa [Function.update_of_ne hji] at hj⟩
  have other : ∀ {j y}, Function.update held i none j = some y → y.ref ≠ x.ref := fun hj he =>
    (back hj).1 (h.once (back hj).2 hi he)
  refine ⟨fun hj => h.fresh (back hj).2, fun hj hj' hr => h.once (back hj).2 (back hj').2 hr,
    fun hj => ?_, fun hj hd => ?_, fun n hn hd => ?_, fun n => ?_, fun n hn => ?_⟩
  · rw [Function.update_of_ne (other hj)]
    exact h.attempts (back hj).2
  · exact hd.elim (h.live (back hj).2) (other hj)
  · obtain ⟨hd, hne⟩ := not_or.mp hd
    obtain ⟨j, y, hj, hr⟩ := h.kept n hn hd
    have hji : j ≠ i := by
      rintro rfl
      rw [hi] at hj
      cases hj
      exact hne hr.symm
    exact ⟨j, y, by rw [Function.update_of_ne hji]; exact hj, hr⟩
  · by_cases hn : n = x.ref
    · subst hn
      rw [Function.update_self, h.attempts hi]
      exact hk
    · rw [Function.update_of_ne hn]
      exact h.bounded n
  · have hne : n ≠ x.ref := (lt_of_lt_of_le (h.fresh hi) hn).ne'
    rw [Function.update_of_ne hne]
    exact ⟨(h.unmade n hn).1, not_or.mpr ⟨(h.unmade n hn).2, hne⟩⟩

end Tracked
