/-
# Maps ordered by their keys

`OrdMap κ α` is a finite map kept as the list of its entries in strictly
increasing key order, the order in which a B-tree map is read. The order is
a field, so two maps with the same lookups are equal (`ext_get?`) and a walk
over the entries visits every key once.

`total f` adds up `f` over the entries in a commutative monoid. An update of
one key changes it by that entry's part only (`total_insert`, `total_erase`):
this is what an account kept beside the map needs.

Key definitions: `OrdMap.get?`, `OrdMap.insert`, `OrdMap.erase`,
`OrdMap.total`.
Key theorems: `OrdMap.get?_insert`, `OrdMap.get?_erase`, `OrdMap.ext_get?`,
`OrdMap.total_insert`, `OrdMap.total_erase`.
-/
import Mathlib

/-- A finite map, as its entries in key order. -/
structure OrdMap (κ α : Type) [LinearOrder κ] where
  entries : List (κ × α)
  sorted : entries.Pairwise fun a b => a.1 < b.1

namespace OrdMap

variable {κ α β : Type} [LinearOrder κ]

instance [DecidableEq α] : DecidableEq (OrdMap κ α) := fun a b =>
  decidable_of_iff (a.entries = b.entries) (by cases a; cases b; simp)

instance [Repr κ] [Repr α] : Repr (OrdMap κ α) := ⟨fun m => reprPrec m.entries⟩

/-! ### The operations -/

def empty : OrdMap κ α := ⟨[], .nil⟩

instance : Inhabited (OrdMap κ α) := ⟨empty⟩

/-- The value of the first entry with key `k`. -/
def lookup (k : κ) : List (κ × α) → Option α
  | [] => none
  | e :: es => if e.1 = k then some e.2 else lookup k es

def get? (m : OrdMap κ α) (k : κ) : Option α := lookup k m.entries

def contains (m : OrdMap κ α) (k : κ) : Bool := (m.get? k).isSome

def size (m : OrdMap κ α) : ℕ := m.entries.length

def isEmpty (m : OrdMap κ α) : Bool := m.entries.isEmpty

def keys (m : OrdMap κ α) : List κ := m.entries.map Prod.fst

def values (m : OrdMap κ α) : List α := m.entries.map Prod.snd

/-- The entry with the least key. -/
def first? (m : OrdMap κ α) : Option (κ × α) := m.entries.head?

/-- The first entry, in key order, that satisfies `p`. -/
def find? (m : OrdMap κ α) (p : κ → α → Bool) : Option (κ × α) :=
  m.entries.find? fun e => p e.1 e.2

/-- The entry with the least key above `k`. -/
def after? (m : OrdMap κ α) (k : κ) : Option (κ × α) := m.find? fun k' _ => k < k'

/-- Put `v` at `k` into a list of entries in key order. -/
def insertEntry (k : κ) (v : α) : List (κ × α) → List (κ × α)
  | [] => [(k, v)]
  | e :: es =>
    if k < e.1 then (k, v) :: e :: es
    else if e.1 = k then (k, v) :: es
    else e :: insertEntry k v es

theorem mem_insertEntry {k : κ} {v : α} {e : κ × α} {es : List (κ × α)}
    (h : e ∈ insertEntry k v es) : e = (k, v) ∨ e ∈ es := by
  induction es with
  | nil => simpa [insertEntry] using h
  | cons a es ih =>
    rw [insertEntry] at h
    split_ifs at h with h1 h2
    · simpa using h
    · rcases List.mem_cons.mp h with h | h
      · exact Or.inl h
      · exact Or.inr (List.mem_cons_of_mem _ h)
    · rcases List.mem_cons.mp h with rfl | h
      · exact Or.inr List.mem_cons_self
      · exact (ih h).imp_right (List.mem_cons_of_mem _)

theorem insertEntry_sorted (k : κ) (v : α) : ∀ {es : List (κ × α)},
    es.Pairwise (fun a b => a.1 < b.1) → (insertEntry k v es).Pairwise fun a b => a.1 < b.1
  | [], _ => by simp [insertEntry]
  | e :: es, h => by
    rw [insertEntry]
    split_ifs with h1 h2
    · refine List.pairwise_cons.mpr ⟨fun a ha => ?_, h⟩
      rcases List.mem_cons.mp ha with rfl | ha
      · exact h1
      · exact h1.trans (List.rel_of_pairwise_cons h ha)
    · subst h2
      exact List.pairwise_cons.mpr ⟨fun a ha => List.rel_of_pairwise_cons h ha, h.of_cons⟩
    · refine List.pairwise_cons.mpr ⟨fun a ha => ?_, insertEntry_sorted k v h.of_cons⟩
      rcases mem_insertEntry ha with rfl | ha
      · exact lt_of_le_of_ne (not_lt.mp h1) h2
      · exact List.rel_of_pairwise_cons h ha

def insert (m : OrdMap κ α) (k : κ) (v : α) : OrdMap κ α :=
  ⟨insertEntry k v m.entries, insertEntry_sorted k v m.sorted⟩

def erase (m : OrdMap κ α) (k : κ) : OrdMap κ α :=
  ⟨m.entries.filter fun e => e.1 ≠ k, m.sorted.filter _⟩

/-- Every value changed by `f`, the keys kept. -/
def mapValues (f : κ → α → β) (m : OrdMap κ α) : OrdMap κ β :=
  ⟨m.entries.map fun e => (e.1, f e.1 e.2), m.sorted.map _ fun _ _ h => h⟩

/-! ### Lookups -/

@[simp] theorem get?_empty (k : κ) : (empty : OrdMap κ α).get? k = none := rfl

theorem lookup_insertEntry (k k' : κ) (v : α) (es : List (κ × α)) :
    lookup k' (insertEntry k v es) = if k' = k then some v else lookup k' es := by
  induction es with
  | nil => simp [insertEntry, lookup, eq_comm]
  | cons e es ih =>
    rw [insertEntry]
    split_ifs with h1 h2 h3 h4 h5
    · subst h2; simp [lookup]
    · simp [lookup, Ne.symm h2]
    · subst h3; simp [lookup, h4]
    · subst h3; simp [lookup, Ne.symm h4]
    · subst h5; simp [lookup, h3, ih]
    · simp [lookup, ih, h5]

@[simp, grind =] theorem get?_insert (m : OrdMap κ α) (k k' : κ) (v : α) :
    (m.insert k v).get? k' = if k' = k then some v else m.get? k' :=
  lookup_insertEntry k k' v m.entries

theorem get?_insert_self (m : OrdMap κ α) (k : κ) (v : α) : (m.insert k v).get? k = some v := by simp

theorem lookup_filter (k k' : κ) (es : List (κ × α)) :
    lookup k' (es.filter fun e => e.1 ≠ k) = if k' = k then none else lookup k' es := by
  induction es with
  | nil => simp [lookup]
  | cons e es ih =>
    by_cases he : e.1 = k <;> by_cases hk : k' = k <;> grind [lookup]

@[simp, grind =] theorem get?_erase (m : OrdMap κ α) (k k' : κ) :
    (m.erase k).get? k' = if k' = k then none else m.get? k' :=
  lookup_filter k k' m.entries

theorem get?_of_erase {m : OrdMap κ α} {k k' : κ} {v : α} (h : (m.erase k).get? k' = some v) :
    m.get? k' = some v := by
  rw [get?_erase] at h
  split_ifs at h
  exact h

theorem lookup_eq_some_of_mem {k : κ} {v : α} : ∀ {es : List (κ × α)},
    es.Pairwise (fun a b => a.1 < b.1) → (k, v) ∈ es → lookup k es = some v
  | e :: es, hs, h => by
    rcases List.mem_cons.mp h with rfl | h
    · simp [lookup]
    · have : e.1 ≠ k := (List.rel_of_pairwise_cons hs h).ne
      simp [lookup, this, lookup_eq_some_of_mem hs.of_cons h]

theorem mem_of_lookup_eq_some {k : κ} {v : α} : ∀ {es : List (κ × α)},
    lookup k es = some v → (k, v) ∈ es
  | e :: es, h => by
    rw [lookup] at h
    split_ifs at h with he
    · obtain ⟨a, b⟩ := e
      simp_all
    · exact List.mem_cons_of_mem _ (mem_of_lookup_eq_some h)

theorem get?_eq_some {m : OrdMap κ α} {k : κ} {v : α} :
    m.get? k = some v ↔ (k, v) ∈ m.entries :=
  ⟨mem_of_lookup_eq_some, lookup_eq_some_of_mem m.sorted⟩

@[simp, grind =] theorem contains_eq (m : OrdMap κ α) (k : κ) : m.contains k = (m.get? k).isSome :=
  rfl

theorem lookup_map (k : κ) (f : κ → α → β) (es : List (κ × α)) :
    lookup k (es.map fun e => (e.1, f e.1 e.2)) = (lookup k es).map (f k) := by
  induction es with
  | nil => rfl
  | cons e es ih =>
    by_cases h : e.1 = k
    · subst h; simp [lookup]
    · simp [lookup, h, ih]

@[simp, grind =] theorem get?_mapValues (f : κ → α → β) (m : OrdMap κ α) (k : κ) :
    (m.mapValues f).get? k = (m.get? k).map (f k) :=
  lookup_map k f m.entries

/-- A map is its lookups. -/
theorem ext_get? {m m' : OrdMap κ α} (h : ∀ k, m.get? k = m'.get? k) : m = m' := by
  have hnd : ∀ n : OrdMap κ α, n.entries.Nodup := fun n =>
    n.sorted.imp fun hab he => absurd (congrArg Prod.fst he) hab.ne
  have hp : m.entries.Perm m'.entries := by
    refine (List.perm_ext_iff_of_nodup (hnd m) (hnd m')).mpr fun e => ?_
    obtain ⟨k, v⟩ := e
    rw [← get?_eq_some, ← get?_eq_some, h k]
  have he : m.entries = m'.entries :=
    hp.eq_of_pairwise (fun a b _ _ hab hba => absurd hab (not_lt.mpr hba.le)) m.sorted m'.sorted
  cases m; cases m'; simp_all

theorem erase_eq_self {m : OrdMap κ α} {k : κ} (h : m.get? k = none) : m.erase k = m :=
  ext_get? fun k' => by by_cases hk : k' = k <;> simp [hk, h]

theorem erase_insert (m : OrdMap κ α) (k : κ) (v : α) : (m.insert k v).erase k = m.erase k :=
  ext_get? fun k' => by by_cases hk : k' = k <;> simp [hk]

theorem insert_eq_self {m : OrdMap κ α} {k : κ} {v : α} (h : m.get? k = some v) : m.insert k v = m :=
  ext_get? fun k' => by by_cases hk : k' = k <;> simp [hk, h]

theorem insert_insert (m : OrdMap κ α) (k : κ) (v v' : α) :
    (m.insert k v).insert k v' = m.insert k v' :=
  ext_get? fun k' => by by_cases hk : k' = k <;> simp [hk]

/-! ### Walks -/

theorem isEmpty_iff {m : OrdMap κ α} : m.isEmpty = true ↔ ∀ k, m.get? k = none := by
  rw [isEmpty, List.isEmpty_iff]
  constructor
  · intro h k
    simp [get?, h, lookup]
  · intro h
    rw [List.eq_nil_iff_forall_not_mem]
    rintro ⟨k, v⟩ hm
    rw [← get?_eq_some, h k] at hm
    cases hm

theorem isEmpty_eq_false_iff {m : OrdMap κ α} : m.isEmpty = false ↔ ∃ k v, m.get? k = some v := by
  rw [← Bool.not_eq_true, isEmpty_iff]
  simp [Option.ne_none_iff_exists']

theorem eq_empty_of_isEmpty {m : OrdMap κ α} (h : m.isEmpty = true) : m = empty :=
  ext_get? fun k => isEmpty_iff.mp h k

theorem get?_of_first? {m : OrdMap κ α} {k : κ} {v : α} (h : m.first? = some (k, v)) :
    m.get? k = some v :=
  get?_eq_some.mpr (List.mem_of_mem_head? h)

theorem first?_eq_none {m : OrdMap κ α} : m.first? = none ↔ m.isEmpty = true := by
  simp [first?, isEmpty]

theorem first?_le {m : OrdMap κ α} {k k' : κ} {v v' : α} (h : m.first? = some (k, v))
    (h' : m.get? k' = some v') : k ≤ k' := by
  obtain ⟨es, hes⟩ : ∃ es, m.entries = (k, v) :: es := by
    rw [first?, List.head?_eq_some_iff] at h
    exact h
  have hmem := get?_eq_some.mp h'
  have hsorted := m.sorted
  rw [hes] at hmem hsorted
  rcases List.mem_cons.mp hmem with heq | hmem
  · exact (congrArg Prod.fst heq).ge
  · exact ((List.pairwise_cons.mp hsorted).1 _ hmem).le

theorem get?_of_find? {m : OrdMap κ α} {p : κ → α → Bool} {k : κ} {v : α}
    (h : m.find? p = some (k, v)) : m.get? k = some v ∧ p k v = true :=
  ⟨get?_eq_some.mpr (List.mem_of_find?_eq_some h), by
    simpa using List.find?_some (p := fun e : κ × α => p e.1 e.2) h⟩

theorem find?_eq_none {m : OrdMap κ α} {p : κ → α → Bool} :
    m.find? p = none ↔ ∀ k v, m.get? k = some v → p k v = false := by
  simp [find?, List.find?_eq_none, get?_eq_some]

/-- `find?` finds the least key. -/
theorem find?_le {m : OrdMap κ α} {p : κ → α → Bool} {k k' : κ} {v v' : α} (h : m.find? p = some (k, v))
    (h' : m.get? k' = some v') (hp : p k' v' = true) : k ≤ k' := by
  obtain ⟨-, before, after, hentries, hbefore⟩ := List.find?_eq_some_iff_append.mp h
  have hsorted := m.sorted
  have hmem := get?_eq_some.mp h'
  rw [hentries] at hsorted hmem
  obtain hmem | hmem := List.mem_append.mp hmem
  · have hno := hbefore _ hmem
    rw [hp] at hno
    cases hno
  · obtain heq | hmem := List.mem_cons.mp hmem
    · exact (congrArg Prod.fst heq).ge
    · exact (List.rel_of_pairwise_cons (List.pairwise_append.mp hsorted).2.1 hmem).le

theorem after?_eq_some {m : OrdMap κ α} {c k : κ} {v : α} (h : m.after? c = some (k, v)) :
    m.get? k = some v ∧ c < k ∧ ∀ k' v', m.get? k' = some v' → c < k' → k ≤ k' := by
  obtain ⟨hget, hlt⟩ := get?_of_find? h
  exact ⟨hget, of_decide_eq_true hlt, fun k' v' h' hlt' => find?_le h h' (decide_eq_true hlt')⟩

theorem after?_eq_none {m : OrdMap κ α} {c k : κ} {v : α} (h : m.after? c = none) (h' : m.get? k = some v) :
    k ≤ c := by
  have hno := find?_eq_none.mp h k v h'
  exact not_lt.mp (of_decide_eq_false hno)

theorem mem_keys {m : OrdMap κ α} {k : κ} : k ∈ m.keys ↔ ∃ v, m.get? k = some v := by
  simp [keys, get?_eq_some]

theorem nodup_keys (m : OrdMap κ α) : m.keys.Nodup :=
  List.pairwise_map.mpr (m.sorted.imp fun h => h.ne)

/-! ### Totals -/

section Total

variable {M : Type} [AddCommMonoid M]

/-- The sum of `f` over the entries. -/
def total (f : κ → α → M) (m : OrdMap κ α) : M := (m.entries.map fun e => f e.1 e.2).sum

@[simp] theorem total_empty (f : κ → α → M) : (empty : OrdMap κ α).total f = 0 := rfl

theorem sum_insertEntry (f : κ × α → M) (k : κ) (v : α) : ∀ es : List (κ × α),
    es.Pairwise (fun a b => a.1 < b.1) →
    ((insertEntry k v es).map f).sum = f (k, v) + ((es.filter fun e => e.1 ≠ k).map f).sum
  | [], _ => by simp [insertEntry]
  | e :: es, hs => by
    have hgt : ∀ a ∈ es, e.1 < a.1 := fun a ha => List.rel_of_pairwise_cons hs ha
    rw [insertEntry]
    split_ifs with h1 h2
    · rw [List.filter_eq_self.mpr fun a ha => ?_]
      · simp
      · rcases List.mem_cons.mp ha with rfl | ha
        · simpa using h1.ne'
        · simpa using (h1.trans (hgt a ha)).ne'
    · subst h2
      rw [List.filter_cons_of_neg (by simp), List.filter_eq_self.mpr fun a ha => by
        simpa using (hgt a ha).ne']
      simp
    · rw [List.filter_cons_of_pos (by simpa using h2)]
      simp only [List.map_cons, List.sum_cons, sum_insertEntry f k v es hs.of_cons]
      rw [add_left_comm]

/-- Setting a key replaces that entry's part of the total. -/
theorem total_insert (f : κ → α → M) (m : OrdMap κ α) (k : κ) (v : α) :
    (m.insert k v).total f = f k v + (m.erase k).total f :=
  sum_insertEntry (fun e => f e.1 e.2) k v m.entries m.sorted

/-- Erasing a key takes that entry's part out of the total. -/
theorem total_erase (f : κ → α → M) {m : OrdMap κ α} {k : κ} {v : α} (h : m.get? k = some v) :
    m.total f = f k v + (m.erase k).total f := by
  rw [← total_insert, insert_eq_self h]

theorem total_insert_of_none (f : κ → α → M) {m : OrdMap κ α} {k : κ} (h : m.get? k = none) (v : α) :
    (m.insert k v).total f = f k v + m.total f := by
  rw [total_insert, erase_eq_self h]

/-- Replacing the value at a key. -/
theorem total_replace (f : κ → α → M) {m : OrdMap κ α} {k : κ} {v : α} (h : m.get? k = some v)
    (v' : α) : (m.insert k v').total f + f k v = f k v' + m.total f := by
  rw [total_insert, total_erase f h]
  abel

theorem total_add (f g : κ → α → M) (m : OrdMap κ α) :
    m.total (fun k v => f k v + g k v) = m.total f + m.total g := by
  simp [total, List.sum_map_add]

theorem size_eq_total (m : OrdMap κ α) : m.size = m.total fun _ _ => 1 := by
  simp [size, total]

end Total

theorem size_erase {m : OrdMap κ α} {k : κ} {v : α} (h : m.get? k = some v) :
    (m.erase k).size + 1 = m.size := by
  rw [size_eq_total, size_eq_total, total_erase _ h, Nat.add_comm]

theorem size_insert_of_none {m : OrdMap κ α} {k : κ} (h : m.get? k = none) (v : α) :
    (m.insert k v).size = m.size + 1 := by
  rw [size_eq_total, size_eq_total, total_insert_of_none _ h, Nat.add_comm]

theorem size_insert_of_some {m : OrdMap κ α} {k : κ} {v : α} (h : m.get? k = some v) (v' : α) :
    (m.insert k v').size = m.size := by
  have := total_replace (fun _ _ => 1) h v'
  rw [size_eq_total, size_eq_total]
  omega

theorem size_eq_zero {m : OrdMap κ α} : m.size = 0 ↔ m.isEmpty = true := by
  simp [size, isEmpty]

theorem size_pos {m : OrdMap κ α} {k : κ} {v : α} (h : m.get? k = some v) : 0 < m.size := by
  have := size_erase h
  omega

/-- A total is a part of another, if each entry's share of it is zero or is the
other's share of the same key. -/
theorem exists_total_add {β M : Type} [AddCommMonoid M] {f : κ → α → M} {g : κ → β → M} {m : OrdMap κ α}
    {m' : OrdMap κ β} (h : ∀ k v, m.get? k = some v → f k v = 0 ∨ ∃ v', m'.get? k = some v' ∧ g k v' = f k v) :
    ∃ rest, m.total f + rest = m'.total g := by
  -- One entry after another leaves both maps; `m` has fewer each time.
  induction hsize : m.size generalizing m m' with
  | zero =>
    rw [eq_empty_of_isEmpty (size_eq_zero.mp hsize), total_empty]
    exact ⟨_, zero_add _⟩
  | succ n ih =>
    have hne : m.isEmpty = false := by
      rw [← Bool.not_eq_true, ← size_eq_zero, hsize]
      exact Nat.succ_ne_zero n
    obtain ⟨k, v, hk⟩ := isEmpty_eq_false_iff.mp hne
    have hrest : (m.erase k).size = n := by
      have hpred := size_erase hk
      omega
    rw [total_erase f hk]
    rcases h k v hk with hzero | ⟨v', hk', hshare⟩
    · obtain ⟨rest, hsum⟩ := ih (fun k' w hw => h k' w (get?_of_erase hw)) hrest
      exact ⟨rest, by rw [hzero, zero_add, hsum]⟩
    · have hshares : ∀ k' w, (m.erase k).get? k' = some w →
          f k' w = 0 ∨ ∃ w', (m'.erase k).get? k' = some w' ∧ g k' w' = f k' w := by
        intro k' w hw
        have hne' : k' ≠ k := by
          rintro rfl
          simp at hw
        rw [get?_erase, if_neg hne']
        exact h k' w (get?_of_erase hw)
      obtain ⟨rest, hsum⟩ := ih hshares hrest
      exact ⟨rest, by rw [total_erase g hk', hshare, ← hsum, add_assoc]⟩

end OrdMap
