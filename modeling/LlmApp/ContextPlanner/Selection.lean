/-
# A plan is the greedy choice

`plan` fails just when a buffer is too short, two entries share an identity or
the pinned entries do not fit (`plan_cases`); otherwise it returns indices.
Read as entries they are a function of the entries alone (`selectedEntries_eq`,
`droppedEntries_eq`): the candidates in the order of their ranks, packed beside
the pinned entries. That function does not see the order of the entries, whence
`plan_specified`.

Key definitions: `Plannable`, `ranked`, `admitted`, `RanksAbove`, `PlanSpec`.
Key theorems: `partition_loop`, `admit_loop`, `plan_cases`, `plan_specified`.
-/
import LlmApp.ContextPlanner.Plan
import LlmApp.Data.Packing

namespace LlmApp

namespace ContextPlanner

/-! ### Entries and their indices -/

section Entries

variable (entries : List ContextEntry)

/-- The tokens of the pinned entries. -/
def pinnedTokens : ℕ := ((entries.filter fun e => e.persistence = .pinned).map (·.estimatedTokens)).sum

def weightAt (index : ℕ) : ℕ := (entries[index]?).elim 0 (·.estimatedTokens)

def pinnedIndices : List ℕ := (entries.zipIdx.filter fun e => e.1.persistence = .pinned).map Prod.snd

def candidateIndices : List ℕ := (entries.zipIdx.filter fun e => ¬e.1.persistence = .pinned).map Prod.snd

variable {entries} {indices indices' : List ℕ}

theorem entriesAt_append :
    entriesAt entries (indices ++ indices') = entriesAt entries indices ++ entriesAt entries indices' :=
  List.filterMap_append

/-- Entries are found at their indices. -/
theorem entriesAt_map_snd : ∀ {l : List (ContextEntry × ℕ)}, l ⊆ entries.zipIdx →
    entriesAt entries (l.map Prod.snd) = l.map Prod.fst
  | [], _ => rfl
  | e :: l, h => by
    have he : entries[e.2]? = some e.1 := List.mk_mem_zipIdx_iff_getElem?.mp (h List.mem_cons_self)
    have ih := entriesAt_map_snd fun x hx => h (List.mem_cons_of_mem _ hx)
    rw [List.map_cons, List.map_cons, entriesAt, List.filterMap_cons_some he]
    rw [← ih]
    rfl

theorem entriesAt_filter (p : ContextEntry → Bool) :
    entriesAt entries ((entries.zipIdx.filter fun e => p e.1).map Prod.snd) = entries.filter p := by
  rw [entriesAt_map_snd List.filter_sublist.subset]
  have hfst : entries.zipIdx.map Prod.fst = entries := List.zipIdx_map_fst 0 entries
  conv_rhs => rw [← hfst, List.filter_map]
  rfl

theorem lt_length_of_mem {l : List (ContextEntry × ℕ)} (h : l ⊆ entries.zipIdx) :
    ∀ i ∈ l.map Prod.snd, i < entries.length := by
  intro i hi
  obtain ⟨e, he, rfl⟩ := List.mem_map.mp hi
  exact (List.getElem?_eq_some_iff.mp (List.mk_mem_zipIdx_iff_getElem?.mp (h he))).1

theorem entriesAt_pinned : entriesAt entries (pinnedIndices entries) = entries.filter fun e => e.persistence = .pinned :=
  entriesAt_filter fun e => e.persistence = .pinned

theorem entriesAt_candidates :
    entriesAt entries (candidateIndices entries) = entries.filter fun e => ¬e.persistence = .pinned :=
  entriesAt_filter fun e => ¬e.persistence = .pinned

theorem pinnedIndices_lt : ∀ i ∈ pinnedIndices entries, i < entries.length :=
  lt_length_of_mem List.filter_sublist.subset

theorem candidateIndices_lt : ∀ i ∈ candidateIndices entries, i < entries.length :=
  lt_length_of_mem List.filter_sublist.subset

/-- Every index is that of a pinned entry or of a candidate. -/
theorem indices_perm (entries : List ContextEntry) :
    (pinnedIndices entries ++ candidateIndices entries).Perm (List.range entries.length) := by
  have hsplit := (List.filter_append_perm (fun e : ContextEntry × ℕ => e.1.persistence = .pinned) entries.zipIdx).map
    Prod.snd
  rw [List.map_append] at hsplit
  have hrange : entries.zipIdx.map Prod.snd = List.range entries.length := by
    rw [List.zipIdx_map_snd, List.range_eq_range']
  rw [hrange] at hsplit
  simpa [pinnedIndices, candidateIndices] using hsplit

end Entries

/-! ### The loops -/

theorem writeIndex_holds {output : Buffer ℕ} {room : ℕ} {l : List ℕ} (h : output.Holds room l) (hroom : l.length < room)
    (value : ℕ) : ∃ output', writeIndex output value = .ok output' ∧ output'.Holds room (l ++ [value]) := by
  obtain ⟨output', hpush, hholds⟩ := h.push (a := value) hroom
  exact ⟨output', by rw [writeIndex, hpush]; rfl, hholds⟩

theorem writtenPart_holds {output : Buffer ℕ} {room : ℕ} {l : List ℕ} (h : output.Holds room l) :
    writtenPart output = .ok l := by
  have hle : output.used ≤ output.cells.length := by
    rw [h.used, h.length]
    exact h.le
  rw [writtenPart, if_pos hle, h.contents]

section Loops

variable {entries : List ContextEntry} {workspace : PlanWorkspace}

/-- What the first loop has written for the entries done. -/
structure Partitioned (workspace : PlanWorkspace) (done : List (ContextEntry × ℕ)) (p : Partition) : Prop where
  selected : p.selected.Holds workspace.selected.length
    ((done.filter fun e => e.1.persistence = .pinned).map Prod.snd)
  ordering : p.ordering.Holds workspace.ordering.length
    ((done.filter fun e => ¬e.1.persistence = .pinned).map Prod.snd)
  pinned : p.pinnedTokens = min u64Max
    ((done.filter fun e => e.1.persistence = .pinned).map fun e => e.1.estimatedTokens).sum

/-- One entry more is pinned or a candidate. -/
theorem Partitioned.step {done : List (ContextEntry × ℕ)} {p : Partition} (h : Partitioned workspace done p)
    (e : ContextEntry × ℕ) (hselected : done.length < workspace.selected.length)
    (hordering : done.length < workspace.ordering.length) :
    ∃ p', partitionEntry p e = .ok p' ∧ Partitioned workspace (done ++ [e]) p' := by
  have hlength : ∀ q : ContextEntry × ℕ → Bool, ((done.filter q).map Prod.snd).length ≤ done.length := by
    intro q
    rw [List.length_map]
    exact List.length_filter_le ..
  unfold partitionEntry
  by_cases hpinned : e.1.persistence = .pinned
  · obtain ⟨output, hwrite, hholds⟩ := writeIndex_holds h.selected ((hlength _).trans_lt hselected) e.2
    rw [if_pos hpinned, hwrite]
    refine ⟨_, rfl, ?_, ?_, ?_⟩
    · simpa [List.filter_append, hpinned] using hholds
    · simpa [List.filter_append, hpinned] using h.ordering
    · have hp := h.pinned
      simp only [List.filter_append, List.map_append, List.sum_append, hp, saturatingAdd]
      simp only [List.filter_cons, hpinned, decide_true, if_true, List.filter_nil, List.map_cons, List.map_nil,
        List.sum_cons, List.sum_nil]
      omega
  · obtain ⟨output, hwrite, hholds⟩ := writeIndex_holds h.ordering ((hlength _).trans_lt hordering) e.2
    rw [if_neg hpinned, hwrite]
    refine ⟨_, rfl, ?_, ?_, ?_⟩
    · simpa [List.filter_append, hpinned] using h.selected
    · simpa [List.filter_append, hpinned] using hholds
    · simpa [List.filter_append, hpinned] using h.pinned

/-- The first loop writes the pinned entries and the candidates. -/
theorem partition_loop (hselected : entries.length ≤ workspace.selected.length)
    (hordering : entries.length ≤ workspace.ordering.length) :
    ∃ p, entries.zipIdx.foldlM partitionEntry ⟨⟨workspace.selected, 0⟩, ⟨workspace.ordering, 0⟩, 0⟩ = .ok p ∧
      p.selected.Holds workspace.selected.length (pinnedIndices entries) ∧
      p.ordering.Holds workspace.ordering.length (candidateIndices entries) ∧
      p.pinnedTokens = min u64Max (pinnedTokens entries) := by
  obtain ⟨p, hp, h⟩ := Except.foldlM_invariant (Partitioned workspace) (l := entries.zipIdx) (f := partitionEntry)
    (a := ⟨⟨workspace.selected, 0⟩, ⟨workspace.ordering, 0⟩, 0⟩) ⟨.empty _, .empty _, rfl⟩ (by
      intro done e rest p hdone h
      have hlength := congrArg List.length hdone
      simp only [List.length_zipIdx, List.length_append, List.length_cons] at hlength
      exact h.step e (by omega) (by omega))
  refine ⟨p, hp, h.selected, h.ordering, ?_⟩
  have hfst := congrArg (List.filter fun e : ContextEntry => e.persistence = .pinned) (List.zipIdx_map_fst 0 entries)
  rw [h.pinned, pinnedTokens, ← hfst, List.filter_map, List.map_map]
  rfl

/-- The second loop packs the candidates. -/
theorem admit_loop {availableTokens selectedRoom droppedRoom : ℕ} (hmax : availableTokens ≤ u32Max) :
    ∀ (candidates : List ℕ) {selected dropped : List ℕ} {s : Selection}, (∀ i ∈ candidates, i < entries.length) →
      s.selected.Holds selectedRoom selected → s.dropped.Holds droppedRoom dropped →
      selected.length + candidates.length ≤ selectedRoom → dropped.length + candidates.length ≤ droppedRoom →
      s.admittedTokens ≤ availableTokens →
      let p := packed (weightAt entries) availableTokens s.admittedTokens candidates
      ∃ s', candidates.foldlM (admitCandidate entries availableTokens) s = .ok s' ∧
        s'.selected.Holds selectedRoom (selected ++ p.1) ∧ s'.dropped.Holds droppedRoom (dropped ++ p.2) ∧
        s'.admittedTokens = s.admittedTokens + (p.1.map (weightAt entries)).sum
  | [], selected, dropped, s, _, hselected, hdropped, _, _, _ => by
    refine ⟨s, rfl, ?_, ?_, rfl⟩
    · rw [packed, List.append_nil]
      exact hselected
    · rw [packed, List.append_nil]
      exact hdropped
  | i :: candidates, selected, dropped, s, hi, hselected, hdropped, hselectedRoom, hdroppedRoom, hfits => by
    obtain ⟨entry, hentry⟩ : ∃ entry, entries[i]? = some entry :=
      ⟨_, List.getElem?_eq_getElem (hi i List.mem_cons_self)⟩
    have hrest : ∀ j ∈ candidates, j < entries.length := fun j hj => hi j (List.mem_cons_of_mem _ hj)
    have hweight : weightAt entries i = entry.estimatedTokens := by
      rw [weightAt, hentry]
      rfl
    rw [List.length_cons] at hselectedRoom hdroppedRoom
    have hmax' : u32Max < u64Max := by decide
    rw [List.foldlM_cons, admitCandidate, hentry, Except.okOr_some, Except.ok_bind, packed, hweight]
    by_cases hadmit : s.admittedTokens + entry.estimatedTokens ≤ availableTokens
    · have hadd : saturatingAdd u64Max s.admittedTokens entry.estimatedTokens =
          s.admittedTokens + entry.estimatedTokens := by
        rw [saturatingAdd]
        omega
      obtain ⟨output, hwrite, hholds⟩ := writeIndex_holds hselected (by omega) i
      rw [hadd, if_pos hadmit, hwrite, if_pos hadmit]
      obtain ⟨s', hs', h1, h2, h3⟩ := admit_loop hmax candidates (s := ⟨output, s.dropped, _⟩) hrest hholds hdropped
        (by rw [List.length_append, List.length_singleton]; omega) (by omega) hadmit
      refine ⟨s', hs', ?_, h2, ?_⟩
      · rw [List.append_cons]
        exact h1
      · rw [h3, List.map_cons, List.sum_cons, hweight, add_assoc]
    · have hadd : ¬saturatingAdd u64Max s.admittedTokens entry.estimatedTokens ≤ availableTokens := by
        rw [saturatingAdd]
        omega
      obtain ⟨output, hwrite, hholds⟩ := writeIndex_holds hdropped (by omega) i
      rw [if_neg hadd, if_neg hadmit, hwrite]
      obtain ⟨s', hs', h1, h2, h3⟩ := admit_loop hmax candidates (s := ⟨s.selected, output, _⟩) hrest hselected hholds
        (by omega) (by rw [List.length_append, List.length_singleton]; omega) hfits
      refine ⟨s', hs', h1, ?_, h3⟩
      rw [List.append_cons]
      exact h2

end Loops

/-! ### Orders -/

/-- Larger values first. -/
def descending (f : ContextEntry → ℕ) (left right : ContextEntry) : Ordering := compareOn f right left

instance (f : ContextEntry → ℕ) : Std.TransCmp (descending f) :=
  inferInstanceAs (Std.TransCmp fun left right => compareOn f right left)

instance : Std.TransCmp candidateRank :=
  inferInstanceAs (Std.TransCmp (compareLex (descending (·.priority))
    (compareLex (descending fun e => persistenceRank e.persistence)
      (compareLex (descending (·.ordinal)) (compareOn (·.id))))))

instance : Std.TransCmp ordinalRank :=
  inferInstanceAs (Std.TransCmp (compareLex (compareOn ContextEntry.ordinal) (compareOn ContextEntry.id)))

/-- The first of two candidates comes before the second: the higher priority,
then retained before ephemeral, then the later ordinal, then the smaller id. -/
def RanksAbove (left right : ContextEntry) : Prop :=
  right.priority < left.priority ∨ right.priority = left.priority ∧
    (left.persistence = .retained ∧ right.persistence = .ephemeral ∨ left.persistence = right.persistence ∧
      (right.ordinal < left.ordinal ∨ right.ordinal = left.ordinal ∧ left.id < right.id))
deriving Decidable

/-- The (ordinal, id) order. -/
def OrdinalBefore (left right : ContextEntry) : Prop :=
  left.ordinal < right.ordinal ∨ left.ordinal = right.ordinal ∧ left.id < right.id

section Orders

variable {left right : ContextEntry}

theorem candidateRank_eq_lt (hleft : left.persistence ≠ .pinned) (hright : right.persistence ≠ .pinned) :
    candidateRank left right = .lt ↔ RanksAbove left right := by
  have hrank : compare (persistenceRank right.persistence) (persistenceRank left.persistence) = .lt ↔
      left.persistence = .retained ∧ right.persistence = .ephemeral := by
    cases hl : left.persistence <;> cases hr : right.persistence <;> simp_all [persistenceRank, Nat.compare_eq_lt]
  have hsame : compare (persistenceRank right.persistence) (persistenceRank left.persistence) = .eq ↔
      left.persistence = right.persistence := by
    cases hl : left.persistence <;> cases hr : right.persistence <;> simp_all [persistenceRank]
  simp only [candidateRank, RanksAbove, Ordering.then_eq_lt, hrank, hsame, Nat.compare_eq_lt, Nat.compare_eq_eq]

theorem ordinalRank_eq_lt : ordinalRank left right = .lt ↔ OrdinalBefore left right := by
  simp only [ordinalRank, OrdinalBefore, Ordering.then_eq_lt, Nat.compare_eq_lt, Nat.compare_eq_eq]

theorem id_eq_of_candidateRank (h : candidateRank left right = .eq) : left.id = right.id := by
  simp only [candidateRank, Ordering.then_eq_eq, Nat.compare_eq_eq] at h
  exact h.2.2.2

theorem id_eq_of_ordinalRank (h : ordinalRank left right = .eq) : left.id = right.id := by
  simp only [ordinalRank, Ordering.then_eq_eq, Nat.compare_eq_eq] at h
  exact h.2

/-- Entries with different identities are told apart. -/
theorem separates_of_ids {rank : ContextEntry → ContextEntry → Ordering}
    (hrank : ∀ {left right}, rank left right = .eq → left.id = right.id) {entries : List ContextEntry}
    (h : (entries.map (·.id)).Nodup) : Separates rank entries :=
  fun _ ha _ hb heq => List.inj_on_of_nodup_map h ha hb (hrank heq)

end Orders

/-! ### The choice, of entries -/

section Choice

variable (entries : List ContextEntry) (budget : ContextBudget)

/-- The candidates, the first choice first. -/
def ranked : List ContextEntry :=
  (entries.filter fun e => ¬e.persistence = .pinned).mergeSort fun a b => (candidateRank a b).isLE

/-- The candidates admitted beside the pinned entries, and those dropped. -/
def admitted : List ContextEntry × List ContextEntry :=
  packed (·.estimatedTokens) (availableInputTokens budget) (pinnedTokens entries) (ranked entries)

def inOrder (l : List ContextEntry) : List ContextEntry := l.mergeSort fun a b => (ordinalRank a b).isLE

def selectedOf : List ContextEntry :=
  inOrder ((entries.filter fun e => e.persistence = .pinned) ++ (admitted entries budget).1)

def droppedOf : List ContextEntry := inOrder (admitted entries budget).2

variable {entries budget} {entries' l l' : List ContextEntry} {rank : ContextEntry → ContextEntry → Ordering}

/-- Sorting does not see the order of entries that are told apart. -/
theorem mergeSort_eq_of_perm [Std.TransCmp rank] (hs : Separates rank l) (h : l'.Perm l) :
    (l'.mergeSort fun a b => (rank a b).isLE) = l.mergeSort fun a b => (rank a b).isLE :=
  ordered_unique (.of_transCmp l) hs ((List.mergeSort_perm _ _).trans h) (List.mergeSort_perm _ _)
    (pairwise_mergeSort_of_ordersOn (.of_transCmp l')) (pairwise_mergeSort_of_ordersOn (.of_transCmp l))

theorem ranked_perm (hids : (entries.map (·.id)).Nodup) (h : entries'.Perm entries) : ranked entries' = ranked entries :=
  mergeSort_eq_of_perm ((separates_of_ids id_eq_of_candidateRank hids).subset List.filter_sublist.subset) (h.filter _)

theorem pinnedTokens_perm (h : entries'.Perm entries) : pinnedTokens entries' = pinnedTokens entries :=
  ((h.filter _).map _).sum_eq

theorem admitted_perm (hids : (entries.map (·.id)).Nodup) (h : entries'.Perm entries) :
    admitted entries' budget = admitted entries budget := by
  rw [admitted, admitted, ranked_perm hids h, pinnedTokens_perm h]

/-- Every entry is pinned, admitted or dropped. -/
theorem parts_perm (entries : List ContextEntry) (budget : ContextBudget) :
    ((entries.filter fun e => e.persistence = .pinned) ++
      ((admitted entries budget).1 ++ (admitted entries budget).2)).Perm entries := by
  have hadmitted : ((admitted entries budget).1 ++ (admitted entries budget).2).Perm
      (entries.filter fun e => ¬e.persistence = .pinned) := packed_perm.trans (List.mergeSort_perm _ _)
  refine (hadmitted.append_left _).trans ?_
  simpa using List.filter_append_perm (fun e : ContextEntry => e.persistence = .pinned) entries

theorem choice_perm (budget : ContextBudget) (hids : (entries.map (·.id)).Nodup) (h : entries'.Perm entries) :
    selectedOf entries' budget = selectedOf entries budget ∧ droppedOf entries' budget = droppedOf entries budget := by
  have hparts := parts_perm entries budget
  have hs := separates_of_ids id_eq_of_ordinalRank hids
  rw [← List.append_assoc] at hparts
  rw [selectedOf, selectedOf, droppedOf, droppedOf, admitted_perm hids h]
  refine ⟨mergeSort_eq_of_perm (hs.subset ?_) ((h.filter _).append_right _), rfl⟩
  exact fun e he => hparts.subset (List.mem_append_left _ he)

/-- What an index list refers to is sorted as the list is. -/
theorem entriesAt_sort [Std.TransCmp rank] (sort : UnstableSort ℕ) (hs : Separates rank entries) {indices : List ℕ}
    (h : ∀ i ∈ indices, i < entries.length) :
    entriesAt entries (sort.sort (lookupOrder (fun i => entries[i]?) fun l r => rank l.2 r.2) indices) =
      (entriesAt entries indices).mergeSort fun a b => (rank a b).isLE := by
  have hperm := sort.perm (lookupOrder (fun i => entries[i]?) fun l r => rank l.2 r.2) indices
  have : Std.TransCmp fun l r : ℕ × ContextEntry => rank l.2 r.2 :=
    { eq_swap := fun {a b} => Std.OrientedCmp.eq_swap (a := a.2) (b := b.2)
      isLE_trans := fun {a b c} => Std.TransCmp.isLE_trans (a := a.2) (b := b.2) (c := c.2) }
  have horders : OrdersOn (lookupOrder (fun i => entries[i]?) fun l r => rank l.2 r.2) indices :=
    ordersOn_lookup fun i hi => ⟨_, List.getElem?_eq_getElem (h i hi)⟩
  have hsorted := sort.ordered horders
  have hentries : entriesAt entries indices ⊆ entries := by
    intro e he
    obtain ⟨i, -, hi⟩ := List.mem_filterMap.mp he
    exact List.mem_of_getElem? hi
  refine ordered_unique (.of_transCmp _) (hs.subset hentries) (hperm.filterMap _) (List.mergeSort_perm _ _) ?_
    (pairwise_mergeSort_of_ordersOn (.of_transCmp _))
  rw [entriesAt, List.pairwise_filterMap]
  refine hsorted.imp fun {i j} hij a ha b hb => ?_
  rw [lookupOrder_some ha hb] at hij
  exact hij

end Choice

/-! ### The plan -/

section Plans

variable (sort : UnstableSort ℕ) (entries : List ContextEntry) (budget : ContextBudget) (workspace : PlanWorkspace)

/-- What `plan` asks for. -/
structure Plannable : Prop where
  ordering : entries.length ≤ workspace.ordering.length
  selected : entries.length ≤ workspace.selected.length
  dropped : entries.length ≤ workspace.dropped.length
  distinct : (entries.map (·.id)).Nodup
  pinned : pinnedTokens entries ≤ availableInputTokens budget

/-- The indices of the candidates admitted and dropped. -/
def admittedIndices : List ℕ × List ℕ :=
  packed (weightAt entries) (availableInputTokens budget) (pinnedTokens entries)
    (sort.sort (candidateOrder entries) (candidateIndices entries))

def planOf : ContextPlan where
  selected := sort.sort (ordinalOrder entries) (pinnedIndices entries ++ (admittedIndices sort entries budget).1)
  dropped := sort.sort (ordinalOrder entries) (admittedIndices sort entries budget).2
  inputTokens := pinnedTokens entries + ((admittedIndices sort entries budget).1.map (weightAt entries)).sum
  reservedOutputTokens := budget.reservedOutputTokens
  maximumTokens := budget.maximumTokens

variable {sort entries budget workspace}

theorem validateUniqueIds_eq_ok {u : Unit} : ∀ {entries : List ContextEntry},
    validateUniqueIds entries = .ok u ↔ (entries.map (·.id)).Nodup
  | [] => by simp [validateUniqueIds]
  | left :: tail => by
    rw [validateUniqueIds, Except.bind_eq_ok, List.map_cons, List.nodup_cons]
    simp only [Except.failIf_eq_ok, validateUniqueIds_eq_ok, List.any_eq_true, decide_eq_true_eq, exists_const,
      List.mem_map]

theorem validateWorkspace_eq_ok {required : ℕ} {u : Unit} : validateWorkspace required workspace = .ok u ↔
    required ≤ workspace.ordering.length ∧ required ≤ workspace.selected.length ∧
      required ≤ workspace.dropped.length := by
  simp [validateWorkspace, Except.failIf_eq_ok]

theorem availableInputTokens_le (budget : ContextBudget) : availableInputTokens budget ≤ u32Max :=
  (Nat.sub_le _ _).trans budget.le

/-- The plan after its checks, where the buffers have room. -/
theorem select_eq (sort : UnstableSort ℕ) (budget : ContextBudget) (hordering : entries.length ≤ workspace.ordering.length)
    (hselected : entries.length ≤ workspace.selected.length) (hdropped : entries.length ≤ workspace.dropped.length) :
    (pinnedTokens entries ≤ availableInputTokens budget →
      select sort entries budget workspace = .ok (planOf sort entries budget)) ∧
    (availableInputTokens budget < pinnedTokens entries → ∃ e, select sort entries budget workspace = .error e) := by
  obtain ⟨p, hp, hpselected, hpordering, hptokens⟩ := partition_loop hselected hordering
  have hmax : u32Max < u64Max := by decide
  have havailable := availableInputTokens_le budget
  simp only [select, hp, Except.ok_bind]
  constructor
  · intro hpinned
    have htokens : p.pinnedTokens = pinnedTokens entries := by omega
    have hparts := (indices_perm entries).length_eq
    rw [List.length_append, List.length_range] at hparts
    have hsorted := sort.perm (candidateOrder entries) (candidateIndices entries)
    obtain ⟨s, hs, hsselected, hsdropped, hstokens⟩ := admit_loop havailable
      (sort.sort (candidateOrder entries) (candidateIndices entries))
      (s := ⟨p.selected, ⟨workspace.dropped, 0⟩, p.pinnedTokens⟩)
      (fun i hi => candidateIndices_lt i (hsorted.subset hi)) hpselected (.empty _)
      (by rw [hsorted.length_eq]; omega) (by rw [hsorted.length_eq, List.length_nil]; omega)
      (by simp only; omega)
    simp only [htokens] at hstokens hsselected hsdropped
    have hfits := packed_fits (w := weightAt entries)
      (l := sort.sort (candidateOrder entries) (candidateIndices entries)) hpinned
    have hnot : ¬u32Max < s.admittedTokens := by omega
    rw [Except.failIf, if_neg (by omega), Except.ok_bind, writtenPart_holds hpordering, Except.ok_bind, hs,
      Except.ok_bind, writtenPart_holds hsselected, Except.ok_bind, writtenPart_holds hsdropped, Except.ok_bind,
      Except.failIf, if_neg hnot, Except.ok_bind, hstokens]
    rfl
  · intro hpinned
    rw [Except.failIf, if_pos (by omega)]
    exact ⟨_, rfl⟩

theorem plan_cases (sort : UnstableSort ℕ) (entries : List ContextEntry) (budget : ContextBudget)
    (workspace : PlanWorkspace) :
    (Plannable entries budget workspace ∧ plan sort entries budget workspace = .ok (planOf sort entries budget)) ∨
      ¬Plannable entries budget workspace ∧ ∃ e, plan sort entries budget workspace = .error e := by
  cases hworkspace : validateWorkspace entries.length workspace with
  | error e =>
    refine .inr ⟨fun h => ?_, e, by rw [plan, hworkspace]; rfl⟩
    cases hworkspace.symm.trans ((validateWorkspace_eq_ok (u := ())).mpr ⟨h.ordering, h.selected, h.dropped⟩)
  | ok u =>
  obtain ⟨hordering, hselected, hdropped⟩ := validateWorkspace_eq_ok.mp hworkspace
  cases hids : validateUniqueIds entries with
  | error e =>
    refine .inr ⟨fun h => ?_, e, by rw [plan, hworkspace, Except.ok_bind, hids]; rfl⟩
    cases hids.symm.trans ((validateUniqueIds_eq_ok (u := ())).mpr h.distinct)
  | ok u' =>
  have hselect := select_eq sort budget hordering hselected hdropped
  rw [plan, hworkspace, Except.ok_bind, hids, Except.ok_bind]
  by_cases hpinned : pinnedTokens entries ≤ availableInputTokens budget
  · exact .inl ⟨⟨hordering, hselected, hdropped, validateUniqueIds_eq_ok.mp hids, hpinned⟩, hselect.1 hpinned⟩
  · exact .inr ⟨fun h => hpinned h.pinned, hselect.2 (not_le.mp hpinned)⟩

/-! ### The plan is the choice -/

section Refinement

variable (sort) (hids : (entries.map (·.id)).Nodup)

theorem rankedIndices_lt : ∀ i ∈ sort.sort (candidateOrder entries) (candidateIndices entries), i < entries.length :=
  fun i hi => candidateIndices_lt i ((sort.perm _ _).subset hi)

include hids in
/-- The indices admitted and dropped are those of the entries admitted and dropped. -/
theorem entriesAt_admitted (budget : ContextBudget) :
    (entriesAt entries (admittedIndices sort entries budget).1, entriesAt entries (admittedIndices sort entries budget).2) =
      admitted entries budget := by
  have hranked : entriesAt entries (sort.sort (candidateOrder entries) (candidateIndices entries)) = ranked entries := by
    rw [candidateOrder, entriesAt_sort sort (separates_of_ids id_eq_of_candidateRank hids) candidateIndices_lt,
      entriesAt_candidates]
    rfl
  have hpacked : packed (·.estimatedTokens) (availableInputTokens budget) (pinnedTokens entries)
      (entriesAt entries (sort.sort (candidateOrder entries) (candidateIndices entries))) =
        (entriesAt entries (admittedIndices sort entries budget).1,
          entriesAt entries (admittedIndices sort entries budget).2) :=
    packed_filterMap _ fun i hi => by
      have hget := List.getElem?_eq_getElem (rankedIndices_lt sort i hi)
      exact ⟨_, hget, by rw [weightAt, hget]; rfl⟩
  rw [admitted, ← hranked]
  exact hpacked.symm

theorem admittedIndices_lt {i : ℕ} (h : i ∈ (admittedIndices sort entries budget).1 ∨
    i ∈ (admittedIndices sort entries budget).2) : i < entries.length :=
  rankedIndices_lt sort i (mem_of_mem_packed h)

include hids in
theorem selectedEntries_eq (budget : ContextBudget) :
    entriesAt entries (planOf sort entries budget).selected = selectedOf entries budget := by
  have hadmitted := congrArg Prod.fst (entriesAt_admitted sort hids budget)
  rw [planOf, ordinalOrder, entriesAt_sort sort (separates_of_ids id_eq_of_ordinalRank hids), entriesAt_append,
    entriesAt_pinned, selectedOf, inOrder, ← hadmitted]
  intro i hi
  obtain hi | hi := List.mem_append.mp hi
  · exact pinnedIndices_lt i hi
  · exact admittedIndices_lt sort (.inl hi)

include hids in
theorem droppedEntries_eq (budget : ContextBudget) :
    entriesAt entries (planOf sort entries budget).dropped = droppedOf entries budget := by
  have hadmitted := congrArg Prod.snd (entriesAt_admitted sort hids budget)
  rw [planOf, ordinalOrder, entriesAt_sort sort (separates_of_ids id_eq_of_ordinalRank hids), droppedOf, inOrder,
    ← hadmitted]
  exact fun i hi => admittedIndices_lt sort (.inr hi)

theorem planOf_indices (budget : ContextBudget) :
    ((planOf sort entries budget).selected ++ (planOf sort entries budget).dropped).Perm (List.range entries.length) := by
  have hadmitted : ((admittedIndices sort entries budget).1 ++ (admittedIndices sort entries budget).2).Perm
      (candidateIndices entries) := packed_perm.trans (sort.perm _ _)
  refine ((sort.perm _ _).append (sort.perm _ _)).trans ?_
  rw [List.append_assoc]
  exact (hadmitted.append_left _).trans (indices_perm entries)

end Refinement

end Plans

/-! ### The specification -/

section Specification

variable (entries : List ContextEntry) (budget : ContextBudget) (p : ContextPlan)

/-- What a plan must be. -/
structure PlanSpec : Prop where
  indices : (p.selected ++ p.dropped).Perm (List.range entries.length)
  pinned : ∀ (i : ℕ) e, entries[i]? = some e → e.persistence = .pinned → i ∈ p.selected
  tokens : p.inputTokens = ((entriesAt entries p.selected).map (·.estimatedTokens)).sum
  fits : p.inputTokens ≤ availableInputTokens budget
  selectedOrder : (entriesAt entries p.selected).Pairwise OrdinalBefore
  droppedOrder : (entriesAt entries p.dropped).Pairwise OrdinalBefore
  greedy : ∀ (i : ℕ) e, entries[i]? = some e → e.persistence ≠ .pinned →
    (i ∈ p.dropped ↔ availableInputTokens budget < pinnedTokens entries + (((entriesAt entries p.selected).filter
      fun above => above.persistence ≠ .pinned ∧ RanksAbove above e).map (·.estimatedTokens)).sum + e.estimatedTokens)

variable {entries budget}

theorem inOrder_pairwise {l : List ContextEntry} (hids : (l.map (·.id)).Nodup) : (inOrder l).Pairwise OrdinalBefore := by
  have hsorted : (inOrder l).Pairwise fun a b => (ordinalRank a b).isLE :=
    pairwise_mergeSort_of_ordersOn (.of_transCmp l)
  have hperm : (inOrder l).Perm l := List.mergeSort_perm _ _
  have hdistinct : (inOrder l).Pairwise fun a b => a.id ≠ b.id :=
    List.pairwise_map.mp ((hperm.map fun e : ContextEntry => e.id).nodup_iff.mpr hids)
  refine (hsorted.and hdistinct).imp fun {a b} h => ordinalRank_eq_lt.mp ?_
  obtain hlt | heq := Ordering.isLE_iff_eq_lt_or_eq_eq.mp h.1
  · exact hlt
  · exact absurd (id_eq_of_ordinalRank heq) h.2

/-- The ranked candidates come in the order of their ranks. -/
theorem ranked_pairwise (hids : (entries.map (·.id)).Nodup) : (ranked entries).Pairwise RanksAbove := by
  have hperm : (ranked entries).Perm (entries.filter fun e => ¬e.persistence = .pinned) := List.mergeSort_perm _ _
  have hsorted : (ranked entries).Pairwise fun a b => (candidateRank a b).isLE :=
    pairwise_mergeSort_of_ordersOn (.of_transCmp _)
  have hfilter : ((entries.filter fun e => ¬e.persistence = .pinned).map (·.id)).Nodup :=
    hids.sublist (List.filter_sublist.map _)
  have hdistinct : (ranked entries).Pairwise fun a b => a.id ≠ b.id :=
    List.pairwise_map.mp ((hperm.map fun e : ContextEntry => e.id).nodup_iff.mpr hfilter)
  have hcandidate : ∀ a ∈ ranked entries, a.persistence ≠ .pinned := by
    intro a ha
    simpa using (List.mem_filter.mp (hperm.subset ha)).2
  refine (hsorted.and hdistinct).imp_of_mem fun {a b} ha hb h => ?_
  rw [← candidateRank_eq_lt (hcandidate a ha) (hcandidate b hb)]
  obtain hlt | heq := Ordering.isLE_iff_eq_lt_or_eq_eq.mp h.1
  · exact hlt
  · exact absurd (id_eq_of_candidateRank heq) h.2

theorem RanksAbove.asymm {a b : ContextEntry} (h : RanksAbove a b) : ¬RanksAbove b a := by
  unfold RanksAbove at h ⊢
  grind

/-- An entry dropped is a candidate that does not fit beside the pinned entries
and the admitted ones above it. -/
theorem mem_droppedOf (hids : (entries.map (·.id)).Nodup) {e : ContextEntry} (he : e ∈ entries)
    (hcandidate : e.persistence ≠ .pinned) : e ∈ droppedOf entries budget ↔
      availableInputTokens budget < pinnedTokens entries + (((selectedOf entries budget).filter
        fun above => above.persistence ≠ .pinned ∧ RanksAbove above e).map (·.estimatedTokens)).sum +
          e.estimatedTokens := by
  have hranked : (ranked entries).Perm (entries.filter fun e => ¬e.persistence = .pinned) := List.mergeSort_perm _ _
  have hmem : e ∈ ranked entries := hranked.symm.subset (List.mem_filter.mpr ⟨he, by simpa using hcandidate⟩)
  have hdropped : (droppedOf entries budget).Perm (admitted entries budget).2 := List.mergeSort_perm _ _
  have hselected : (selectedOf entries budget).Perm
      ((entries.filter fun e => e.persistence = .pinned) ++ (admitted entries budget).1) := List.mergeSort_perm _ _
  -- The pinned entries are no candidates, and what is admitted are candidates.
  have habove : ((selectedOf entries budget).filter fun above => above.persistence ≠ .pinned ∧ RanksAbove above e).Perm
      ((admitted entries budget).1.filter fun above => RanksAbove above e) := by
    refine (hselected.filter _).trans (List.Perm.of_eq ?_)
    rw [List.filter_append, List.filter_eq_nil_iff.mpr, List.nil_append]
    · refine List.filter_congr fun a ha => ?_
      have ha := hranked.subset (mem_of_mem_packed (.inl ha))
      have hnot : a.persistence ≠ .pinned := by simpa using (List.mem_filter.mp ha).2
      simp [hnot]
    · intro a ha
      have hpinned : a.persistence = .pinned := by simpa using (List.mem_filter.mp ha).2
      simp [hpinned]
  rw [hdropped.mem_iff, (habove.map _).sum_eq]
  exact mem_left_iff (ranked_pairwise hids) (fun _ _ _ _ => RanksAbove.asymm) hmem

theorem tokens_admitted (sort : UnstableSort ℕ) (hids : (entries.map (·.id)).Nodup) :
    (planOf sort entries budget).inputTokens = ((selectedOf entries budget).map (·.estimatedTokens)).sum := by
  have hselected : (selectedOf entries budget).Perm
      ((entries.filter fun e => e.persistence = .pinned) ++ (admitted entries budget).1) := List.mergeSort_perm _ _
  have hadmitted := congrArg Prod.fst (entriesAt_admitted sort hids budget)
  rw [(hselected.map _).sum_eq, List.map_append, List.sum_append, planOf, pinnedTokens, ← hadmitted]
  have hweights : ∀ {l : List ℕ}, (∀ i ∈ l, i < entries.length) →
      (l.map (weightAt entries)).sum = ((entriesAt entries l).map (·.estimatedTokens)).sum := by
    intro l hl
    induction l with
    | nil => rfl
    | cons i l ih =>
      have hget := List.getElem?_eq_getElem (hl i List.mem_cons_self)
      have hweight : weightAt entries i = (entries.get ⟨i, hl i List.mem_cons_self⟩).estimatedTokens := by
        rw [weightAt, hget]
        rfl
      rw [entriesAt, List.filterMap_cons_some hget, List.map_cons, List.map_cons, List.sum_cons, List.sum_cons, hweight,
        ih fun j hj => hl j (List.mem_cons_of_mem _ hj)]
      rfl
  simp only
  rw [hweights fun i hi => admittedIndices_lt sort (.inl hi)]

theorem mem_entriesAt (hids : (entries.map (·.id)).Nodup) {indices : List ℕ} {i : ℕ} {e : ContextEntry}
    (he : entries[i]? = some e) : e ∈ entriesAt entries indices ↔ i ∈ indices := by
  constructor
  · intro hmem
    obtain ⟨j, hj, hje⟩ := List.mem_filterMap.mp hmem
    obtain rfl := (List.getElem?_inj (List.getElem?_eq_some_iff.mp hje).1 hids.of_map).mp (hje.trans he.symm)
    exact hj
  · exact fun hi => List.mem_filterMap.mpr ⟨i, hi, he⟩

/-- What a plan returns meets the specification. -/
theorem planOf_spec (sort : UnstableSort ℕ) (hids : (entries.map (·.id)).Nodup)
    (hfits : pinnedTokens entries ≤ availableInputTokens budget) : PlanSpec entries budget (planOf sort entries budget) := by
  have hselected := selectedEntries_eq sort hids budget
  have hdropped := droppedEntries_eq sort hids budget
  have hparts : (((entries.filter fun e => e.persistence = .pinned) ++ (admitted entries budget).1 ++
      (admitted entries budget).2).map fun e : ContextEntry => e.id).Nodup := by
    rw [List.append_assoc]
    exact ((parts_perm entries budget).map _).nodup_iff.mpr hids
  rw [List.map_append, List.nodup_append] at hparts
  constructor
  · exact planOf_indices sort budget
  · intro i e he hpinned
    refine (sort.perm _ _).symm.subset (List.mem_append_left _ ?_)
    exact List.mem_map.mpr ⟨(e, i), List.mem_filter.mpr ⟨List.mk_mem_zipIdx_iff_getElem?.mpr he, by simpa⟩, rfl⟩
  · rw [hselected]
    exact tokens_admitted sort hids
  · exact packed_fits hfits
  · rw [hselected]
    exact inOrder_pairwise hparts.1
  · rw [hdropped]
    exact inOrder_pairwise hparts.2.1
  · intro i e he hcandidate
    rw [hselected, ← mem_entriesAt hids he, hdropped]
    exact mem_droppedOf hids (List.mem_of_getElem? he) hcandidate

end Specification

/-- A plan fails just when a buffer is too short, two entries share an identity
or the pinned entries do not fit. Otherwise it meets the specification, and
neither the order of the entries nor the sort changes what is selected. -/
theorem plan_specified (sort : UnstableSort ℕ) (entries : List ContextEntry) (budget : ContextBudget)
    (workspace : PlanWorkspace) :
    ((∃ e, plan sort entries budget workspace = .error e) ↔
      (workspace.ordering.length < entries.length ∨ workspace.selected.length < entries.length ∨
        workspace.dropped.length < entries.length) ∨ ¬(entries.map (·.id)).Nodup ∨
      availableInputTokens budget < pinnedTokens entries) ∧
    ∀ p, plan sort entries budget workspace = .ok p → PlanSpec entries budget p ∧
      ∀ (sort' : UnstableSort ℕ) entries' workspace' p', entries'.Perm entries →
        plan sort' entries' budget workspace' = .ok p' →
          (selectedEntries entries' p').map (·.id) = (selectedEntries entries p).map (·.id) ∧
            (entriesAt entries' p'.dropped).map (·.id) = (entriesAt entries p.dropped).map (·.id) := by
  have hiff : ¬Plannable entries budget workspace ↔ (workspace.ordering.length < entries.length ∨
      workspace.selected.length < entries.length ∨ workspace.dropped.length < entries.length) ∨
        ¬(entries.map (·.id)).Nodup ∨ availableInputTokens budget < pinnedTokens entries := by
    rw [← not_iff_not, not_not]
    simp only [not_or, not_lt, not_not]
    exact ⟨fun h => ⟨⟨h.ordering, h.selected, h.dropped⟩, h.distinct, h.pinned⟩,
      fun ⟨⟨h1, h2, h3⟩, h4, h5⟩ => ⟨h1, h2, h3, h4, h5⟩⟩
  rw [← hiff]
  obtain ⟨h, hplan⟩ | ⟨h, e, hplan⟩ := plan_cases sort entries budget workspace
  · rw [hplan]
    refine ⟨iff_of_false nofun (not_not.mpr h), ?_⟩
    rintro p ⟨rfl⟩
    refine ⟨planOf_spec sort h.distinct h.pinned, fun sort' entries' workspace' p' hperm hplan' => ?_⟩
    obtain ⟨h', hplan''⟩ | ⟨-, e, hplan''⟩ := plan_cases sort' entries' budget workspace'
    · obtain rfl := Except.ok.inj (hplan''.symm.trans hplan')
      have hchoice := choice_perm budget h.distinct hperm
      rw [selectedEntries, selectedEntries, selectedEntries_eq sort' h'.distinct, droppedEntries_eq sort' h'.distinct,
        selectedEntries_eq sort h.distinct, droppedEntries_eq sort h.distinct, hchoice.1, hchoice.2]
      exact ⟨rfl, rfl⟩
    · cases hplan''.symm.trans hplan'
  · rw [hplan]
    exact ⟨iff_of_true ⟨e, rfl⟩ h, nofun⟩

end ContextPlanner

end LlmApp
