/-
# Fields that are filled once

Items fill the fields of a record: an item is for one field or none
(`field`), and holds a value for it unless it is malformed (`parse`). Filling
fails at a malformed item and at the second item for a field.

So filling succeeds exactly when the items for each field, together with what the
field held, are one value or none, and then the record holds those
(`foldlM_fill_ok`, `foldlM_fill_of`). The order of the items does not matter, nor
do items for no field.
-/
import Mathlib

variable {ι φ κ : Type} {ν : φ → Type}

/-- Access to the fields of a record. -/
structure Fields (κ : Type) (ν : φ → Type) where
  get : κ → ∀ f, Option (ν f)
  set : κ → ∀ f, ν f → κ
  get_set_self : ∀ c f v, get (set c f v) f = some v
  get_set_ne : ∀ c f v f', f' ≠ f → get (set c f v) f' = get c f'

variable (fields : Fields κ ν) (field : ι → Option φ) (parse : ∀ f, ι → Option (ν f))

/-- Fill the field that an item is for. -/
def fill (c : κ) (i : ι) : Option κ :=
  match field i with
  | none => some c
  | some f => (parse f i).bind fun v => if (fields.get c f).isSome then none else some (fields.set c f v)

variable [DecidableEq φ]

/-- What a field holds and the items for it hold. -/
def heldWith (c : κ) (items : List ι) (f : φ) : List (Option (ν f)) :=
  (fields.get c f).toList.map some ++ (items.filter fun i => field i = some f).map (parse f)

variable {fields field parse}

omit [DecidableEq φ] in
theorem fill_none {c : κ} {i : ι} (h : field i = none) : fill fields field parse c i = some c := by
  rw [fill, h]

omit [DecidableEq φ] in
theorem fill_some {c : κ} {i : ι} {f : φ} (h : field i = some f) : fill fields field parse c i =
    (parse f i).bind fun v => if (fields.get c f).isSome then none else some (fields.set c f v) := by
  rw [fill, h]

theorem toList_map_some_injective {α : Type} {o o' : Option α} (h : o.toList.map some = o'.toList.map some) :
    o = o' := by
  cases o <;> cases o' <;> simp_all

theorem heldWith_cons {c : κ} {i : ι} {items : List ι} {f : φ} (h : field i ≠ some f) :
    heldWith fields field parse c (i :: items) f = heldWith fields field parse c items f := by
  rw [heldWith, heldWith, List.filter_cons_of_neg (by simpa using h)]

/-- An item that fills its field takes its place before the items to come. -/
theorem heldWith_set {c : κ} {i : ι} {items : List ι} {f : φ} {v : ν f} (hi : field i = some f) (hv : parse f i = some v)
    (hnone : fields.get c f = none) (f' : φ) :
    heldWith fields field parse (fields.set c f v) items f' = heldWith fields field parse c (i :: items) f' := by
  by_cases hf : f' = f
  · subst hf
    rw [heldWith, heldWith, fields.get_set_self, hnone, List.filter_cons_of_pos (by simpa using hi), List.map_cons, hv]
    rfl
  · have hne : field i ≠ some f' := by
      rw [hi]
      exact fun heq => hf (Option.some.inj heq).symm
    rw [heldWith_cons hne, heldWith, heldWith, fields.get_set_ne _ _ _ _ hf]

theorem foldlM_fill_ok : ∀ {items : List ι} {c c' : κ}, items.foldlM (fill fields field parse) c = some c' →
    ∀ f, heldWith fields field parse c items f = (fields.get c' f).toList.map some
  | [], c, c', h, f => by
    rw [List.foldlM_nil] at h
    obtain rfl := Option.some.inj h
    rw [heldWith, List.filter_nil, List.map_nil, List.append_nil]
  | i :: items, c, c', h, f' => by
    rw [List.foldlM_cons, Option.bind_eq_bind, Option.bind_eq_some_iff] at h
    obtain ⟨c₁, hfill, h⟩ := h
    have ih := foldlM_fill_ok h f'
    cases hi : field i with
    | none =>
      rw [fill_none hi] at hfill
      obtain rfl := Option.some.inj hfill
      rw [heldWith_cons (by rw [hi]; nofun), ih]
    | some f =>
      rw [fill_some hi, Option.bind_eq_some_iff] at hfill
      obtain ⟨v, hv, hfill⟩ := hfill
      split_ifs at hfill with hsome
      obtain rfl := Option.some.inj hfill
      rw [← heldWith_set hi hv (by simpa using hsome) f', ih]

theorem foldlM_fill_of {g : ∀ f, Option (ν f)} : ∀ {items : List ι} {c : κ},
    (∀ f, heldWith fields field parse c items f = (g f).toList.map some) →
    ∃ c', items.foldlM (fill fields field parse) c = some c' ∧ ∀ f, fields.get c' f = g f
  | [], c, h => by
    refine ⟨c, rfl, fun f => toList_map_some_injective ?_⟩
    have hf := h f
    rwa [heldWith, List.filter_nil, List.map_nil, List.append_nil] at hf
  | i :: items, c, h => by
    rw [List.foldlM_cons]
    cases hi : field i with
    | none =>
      rw [fill_none hi]
      refine foldlM_fill_of fun f => ?_
      rw [← h f, heldWith_cons (by rw [hi]; nofun)]
    | some f =>
      have hf := h f
      rw [heldWith, List.filter_cons_of_pos (by simpa using hi), List.map_cons] at hf
      -- what the field holds and the first item for it are at most one value
      obtain ⟨v, hv, hnone⟩ : ∃ v, parse f i = some v ∧ fields.get c f = none := by
        cases hc : fields.get c f with
        | some w => cases hg : g f <;> simp [hc, hg] at hf
        | none =>
          cases hv : parse f i with
          | some v => exact ⟨v, rfl, rfl⟩
          | none => cases hg : g f <;> simp [hc, hv, hg] at hf
      have hfill : fill fields field parse c i = some (fields.set c f v) := by
        simp [fill_some hi, hv, hnone]
      rw [hfill]
      exact foldlM_fill_of fun f' => (heldWith_set hi hv hnone f').trans (h f')
