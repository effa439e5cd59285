/-
# Maps within maps, and indices over them

`nested f m` reads a map of records, each with a map of its own, as one
function of a pair of keys: `f` is the inner map of a record. An update of
one record changes it at the keys of that record only.

An index maps the key of each entry of such a function to a part of the place
where the entry is held. `Indexes` says that it does so for every entry and
for nothing else. It is kept when an entry and its key are added or removed
together, and by a change of an entry that keeps its key.

Key definitions: `OrdMap.nested`, `Indexes`.
Key theorems: `OrdMap.nested_insert`, `OrdMap.nested_erase`, `Indexes.insert`,
`Indexes.erase`, `Indexes.change`.
-/
import LlmApp.Data.OrdMap

namespace OrdMap

variable {κ ρ α β : Type} [LinearOrder κ] [LinearOrder ρ]

/-- The inner value at a pair of keys. -/
def nested (f : α → OrdMap ρ β) (m : OrdMap κ α) (p : κ × ρ) : Option β :=
  (m.get? p.1).bind fun a => (f a).get? p.2

variable {f : α → OrdMap ρ β} {m : OrdMap κ α} {k : κ} {a a' : α} {r : ρ} {v : β}

theorem nested_eq_some {p : κ × ρ} :
    nested f m p = some v ↔ ∃ a, m.get? p.1 = some a ∧ (f a).get? p.2 = some v := by
  simp [nested, Option.bind_eq_some_iff]

theorem nested_of_get? (h : m.get? k = some a) (hr : (f a).get? r = some v) :
    nested f m (k, r) = some v :=
  nested_eq_some.mpr ⟨a, h, hr⟩

/-- A record updated at one inner key. -/
theorem nested_insert (h : m.get? k = some a) (hf : f a' = (f a).insert r v) :
    nested f (m.insert k a') = Function.update (nested f m) (k, r) (some v) := by
  funext ⟨k', r'⟩
  by_cases hk : k' = k <;> by_cases hr : r' = r <;>
    simp [nested, hk, hr, h, hf]

/-- A record with one inner key removed. -/
theorem nested_erase (h : m.get? k = some a) (hf : f a' = (f a).erase r) :
    nested f (m.insert k a') = Function.update (nested f m) (k, r) none := by
  funext ⟨k', r'⟩
  by_cases hk : k' = k <;> by_cases hr : r' = r <;>
    simp [nested, hk, hr, h, hf]

/-- A record changed outside its inner map. -/
theorem nested_keep (h : m.get? k = some a) (hf : f a' = f a) :
    nested f (m.insert k a') = nested f m := by
  funext ⟨k', r'⟩
  by_cases hk : k' = k <;> simp [nested, hk, h, hf]

/-- A new record without inner values. -/
theorem nested_new (h : m.get? k = none) (hf : f a = .empty) :
    nested f (m.insert k a) = nested f m := by
  funext ⟨k', r'⟩
  by_cases hk : k' = k <;> simp [nested, hk, h, hf]

/-- A record removed that has no inner values. -/
theorem nested_remove (h : m.get? k = some a) (hf : (f a).isEmpty = true) :
    nested f (m.erase k) = nested f m := by
  funext ⟨k', r'⟩
  by_cases hk : k' = k <;> simp [nested, hk, h, isEmpty_iff.mp hf]

/-! ### Maps without a common key -/

section Apart

variable {m' : OrdMap κ β}

theorem apart_insert_left (h : ∀ k, m.get? k = none ∨ m'.get? k = none) (hk : m'.get? k = none) (v : α) (k' : κ) :
    (m.insert k v).get? k' = none ∨ m'.get? k' = none := by
  by_cases heq : k' = k
  · exact .inr (heq ▸ hk)
  · simpa [heq] using h k'

theorem apart_insert_right (h : ∀ k, m.get? k = none ∨ m'.get? k = none) (hk : m.get? k = none) (v : β) (k' : κ) :
    m.get? k' = none ∨ (m'.insert k v).get? k' = none :=
  (apart_insert_left (fun k => (h k).symm) hk v k').symm

theorem apart_erase_left (h : ∀ k, m.get? k = none ∨ m'.get? k = none) (k k' : κ) :
    (m.erase k).get? k' = none ∨ m'.get? k' = none :=
  (h k').imp_left fun h => by simp [h]

theorem apart_erase_right (h : ∀ k, m.get? k = none ∨ m'.get? k = none) (k k' : κ) :
    m.get? k' = none ∨ (m'.erase k).get? k' = none :=
  (h k').imp_right fun h => by simp [h]

/-- A key that moves from one map to the other. -/
theorem apart_move (h : ∀ k, m.get? k = none ∨ m'.get? k = none) (k : κ) (v : β) (k' : κ) :
    (m.erase k).get? k' = none ∨ (m'.insert k v).get? k' = none :=
  apart_insert_right (apart_erase_left h k) (by simp) v k'

end Apart

end OrdMap

/-! ### Indices -/

/-- `index` holds, for each entry of `entries` and nothing else, its key and
the part of its place that `value` names; two entries have different keys. -/
structure Indexes {ι ξ π β : Type} (index : ι → Option ξ) (entries : π → Option β) (key : π → β → ι)
    (value : π → ξ) : Prop where
  get {i : ι} {x : ξ} :
    index i = some x ↔ ∃ p v, entries p = some v ∧ key p v = i ∧ value p = x
  unique {p p' : π} {v v' : β} (h : entries p = some v) (h' : entries p' = some v')
    (hk : key p v = key p' v') : p = p'

namespace Indexes

variable {ι ξ π β : Type} {index : ι → Option ξ} {entries : π → Option β} {key : π → β → ι}
  {value : π → ξ}

theorem of_entry (h : Indexes index entries key value) {p : π} {v : β} (hp : entries p = some v) :
    index (key p v) = some (value p) :=
  h.get.mpr ⟨p, v, hp, rfl, rfl⟩

theorem key_of_none (h : Indexes index entries key value) {i : ι} (hi : index i = none) {p : π}
    {v : β} (hp : entries p = some v) : key p v ≠ i := by
  rintro rfl
  rw [h.of_entry hp] at hi
  cases hi

variable [DecidableEq π]

/-- An entry changes and keeps its key. -/
theorem change (h : Indexes index entries key value) {p : π} {v v' : β} (hp : entries p = some v)
    (hk : key p v' = key p v) : Indexes index (Function.update entries p (some v')) key value := by
  -- Every entry after the change has an entry before it, with the same key.
  have before : ∀ {p₁ v₁}, Function.update entries p (some v') p₁ = some v₁ →
      ∃ v₀, entries p₁ = some v₀ ∧ key p₁ v₀ = key p₁ v₁ := by
    intro p₁ v₁ h₁
    by_cases hp₁ : p₁ = p
    · subst hp₁
      simp only [Function.update_self, Option.some.injEq] at h₁
      exact ⟨v, hp, by rw [← hk, h₁]⟩
    · exact ⟨v₁, by simpa [hp₁] using h₁, rfl⟩
  refine ⟨fun {i x} => ?_, fun {p₁ p₂ v₁ v₂} h₁ h₂ hk' => ?_⟩
  · rw [h.get]
    constructor
    · rintro ⟨p₁, v₁, hv, rfl, hx⟩
      by_cases hp₁ : p₁ = p
      · subst hp₁
        rw [hp, Option.some.injEq] at hv
        exact ⟨p₁, v', by simp, by rw [hk, hv], hx⟩
      · exact ⟨p₁, v₁, by simpa [hp₁] using hv, rfl, hx⟩
    · rintro ⟨p₁, v₁, hv, rfl, hx⟩
      obtain ⟨v₀, h₀, hk₀⟩ := before hv
      exact ⟨p₁, v₀, h₀, hk₀, hx⟩
  · obtain ⟨w₁, hw₁, hk₁⟩ := before h₁
    obtain ⟨w₂, hw₂, hk₂⟩ := before h₂
    exact h.unique hw₁ hw₂ (by rw [hk₁, hk₂, hk'])

variable [DecidableEq ι]

/-- An entry is added at a new place, under a new key. -/
theorem insert (h : Indexes index entries key value) {p : π} {v : β}
    (hp : entries p = none) (hi : index (key p v) = none) :
    Indexes (Function.update index (key p v) (some (value p))) (Function.update entries p (some v))
      key value where
  get {i x} := by
    have hnew := fun {p' v'} => h.key_of_none hi (p := p') (v := v')
    rw [Function.update_apply]
    split_ifs with hik
    · subst hik
      constructor
      · rintro ⟨⟩
        exact ⟨p, v, by simp, rfl, rfl⟩
      · rintro ⟨p', v', hv, hk, rfl⟩
        by_cases hp' : p' = p
        · rw [hp']
        · exact absurd hk (hnew (by simpa [hp'] using hv))
    · rw [h.get]
      constructor
      · rintro ⟨p', v', hv, hk, hx⟩
        have hp' : p' ≠ p := fun hp' => by rw [hp', hp] at hv; cases hv
        exact ⟨p', v', by simpa [hp'] using hv, hk, hx⟩
      · rintro ⟨p', v', hv, hk, hx⟩
        by_cases hp' : p' = p
        · subst hp'
          simp only [Function.update_self, Option.some.injEq] at hv
          exact absurd (by rw [hv, hk]) hik
        · exact ⟨p', v', by simpa [hp'] using hv, hk, hx⟩
  unique {p₁ p₂ v₁ v₂} h₁ h₂ hk := by
    have hnew := fun {p' v'} => h.key_of_none hi (p := p') (v := v')
    by_cases hp₁ : p₁ = p <;> by_cases hp₂ : p₂ = p
    · rw [hp₁, hp₂]
    · simp only [Function.update_apply, hp₁, if_true, Option.some.injEq] at h₁
      subst h₁
      exact absurd (show key p₂ v₂ = key p v by rw [← hk, hp₁]) (hnew (by simpa [hp₂] using h₂))
    · simp only [Function.update_apply, hp₂, if_true, Option.some.injEq] at h₂
      subst h₂
      exact absurd (show key p₁ v₁ = key p v by rw [hk, hp₂]) (hnew (by simpa [hp₁] using h₁))
    · exact h.unique (by simpa [hp₁] using h₁) (by simpa [hp₂] using h₂) hk

/-- An entry and its key are removed. -/
theorem erase (h : Indexes index entries key value) {p : π} {v : β} (hp : entries p = some v) :
    Indexes (Function.update index (key p v) none) (Function.update entries p none) key value where
  get {i x} := by
    rw [Function.update_apply]
    split_ifs with hik
    · subst hik
      refine ⟨nofun, ?_⟩
      rintro ⟨p', v', hv, hk, -⟩
      by_cases hp' : p' = p
      · simp [hp'] at hv
      · exact absurd (h.unique (by simpa [hp'] using hv) hp hk) hp'
    · rw [h.get]
      constructor
      · rintro ⟨p', v', hv, hk, hx⟩
        have hp' : p' ≠ p := by
          rintro rfl
          rw [hp, Option.some.injEq] at hv
          exact hik (by rw [hv, hk])
        exact ⟨p', v', by simpa [hp'] using hv, hk, hx⟩
      · rintro ⟨p', v', hv, hk, hx⟩
        by_cases hp' : p' = p
        · simp [hp'] at hv
        · exact ⟨p', v', by simpa [hp'] using hv, hk, hx⟩
  unique {p₁ p₂ v₁ v₂} h₁ h₂ hk := by
    by_cases hp₁ : p₁ = p
    · simp [hp₁] at h₁
    by_cases hp₂ : p₂ = p
    · simp [hp₂] at h₂
    exact h.unique (by simpa [hp₁] using h₁) (by simpa [hp₂] using h₂) hk

end Indexes

/-! ### Indices over maps within maps -/

namespace Indexes

open OrdMap

variable {ι ξ κ ρ α β : Type} [LinearOrder ι] [LinearOrder κ] [LinearOrder ρ] {index : OrdMap ι ξ}
  {f : α → OrdMap ρ β} {m : OrdMap κ α} {key : κ × ρ → β → ι} {value : κ × ρ → ξ} {k : κ} {a a' : α}
  {r : ρ} {i : ι} {x : ξ}

theorem nested_insert (h : Indexes index.get? (nested f m) key value) {v : β} (hm : m.get? k = some a)
    (hf : f a' = (f a).insert r v) (hp : nested f m (k, r) = none) (hi : index.get? i = none)
    (hk : key (k, r) v = i) (hx : value (k, r) = x) :
    Indexes (index.insert i x).get? (nested f (m.insert k a')) key value := by
  subst hk hx
  have hget : (index.insert (key (k, r) v) (value (k, r))).get? =
      Function.update index.get? (key (k, r) v) (some (value (k, r))) := by
    funext j
    simp [Function.update_apply]
  rw [hget, OrdMap.nested_insert hm hf]
  exact h.insert hp hi

theorem nested_erase (h : Indexes index.get? (nested f m) key value) {v : β} (hm : m.get? k = some a)
    (hr : (f a).get? r = some v) (hf : f a' = (f a).erase r) (hk : key (k, r) v = i) :
    Indexes (index.erase i).get? (nested f (m.insert k a')) key value := by
  subst hk
  have hget : (index.erase (key (k, r) v)).get? = Function.update index.get? (key (k, r) v) none := by
    funext j
    simp [Function.update_apply]
  rw [hget, OrdMap.nested_erase hm hf]
  exact h.erase (nested_of_get? hm hr)

theorem nested_change (h : Indexes index.get? (nested f m) key value) {v v' : β}
    (hm : m.get? k = some a) (hr : (f a).get? r = some v) (hf : f a' = (f a).insert r v')
    (hk : key (k, r) v' = key (k, r) v) :
    Indexes index.get? (nested f (m.insert k a')) key value := by
  rw [OrdMap.nested_insert hm hf]
  exact h.change (nested_of_get? hm hr) hk

theorem nested_keep (h : Indexes index.get? (nested f m) key value) (hm : m.get? k = some a)
    (hf : f a' = f a) : Indexes index.get? (nested f (m.insert k a')) key value := by
  rwa [OrdMap.nested_keep hm hf]

theorem nested_new (h : Indexes index.get? (nested f m) key value) (hm : m.get? k = none)
    (hf : f a' = .empty) : Indexes index.get? (nested f (m.insert k a')) key value := by
  rwa [OrdMap.nested_new hm hf]

theorem nested_remove (h : Indexes index.get? (nested f m) key value) (hm : m.get? k = some a)
    (hf : (f a).isEmpty = true) : Indexes index.get? (nested f (m.erase k)) key value := by
  rwa [OrdMap.nested_remove hm hf]

end Indexes
