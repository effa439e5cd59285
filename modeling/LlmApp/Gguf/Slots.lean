/-
# Slots, sequences and native cells stay in step

A run makes, steps and destroys sequences of one GGUF model. The caller no
longer has a sequence once its destroy has succeeded, so an operation on it is
none (`GgufRun.step`).

The invariant of a run (`GgufRun.Sound`) is that the slots are leased to the live
sequences, each cell lies in an occupied slot, and a sequence that is not
finished fills its positions. An operation makes, steps or destroys one
sequence, or unloads the model (`GgufRun.Moved`), and each of these keeps it.

Key definitions: `GgufRun`, `GgufRun.Sound`, `GgufRun.Moved`, `GgufRun.InStep`,
`GgufRun.Transitions`.
Key theorems: `GgufRun.Sound.step`, `GgufRun.slots_in_step`.
-/
import LlmApp.Data.Leases
import LlmApp.Gguf.Cells

namespace LlmApp

variable {κ : Type} {n : NativeContext κ} {cells : κ → Set (ℕ × ℕ)}

/-- The model with a slot marked. -/
def GgufModel.mark (model : GgufModel κ) (c' : κ) (k : ℕ) (state : SlotState) : GgufModel κ :=
  { model with native := c', occupiedSlots := model.occupiedSlots.set k state }

/-! ### Runs -/

/-- What a caller asks of the model, a sequence by the order of its creation. -/
inductive GgufOperation where
  | plan (configuration : SequenceConfiguration)
  | create (id : SequenceId) (configuration : SequenceConfiguration)
  | prefill (r : SequenceRef) (input : PrefillInput) (logits : List F32) (cancellation : CancellationStatus)
  | decode (r : SequenceRef) (token : TokenId) (logits : List F32) (cancellation : CancellationStatus)
  | reset (r : SequenceRef)
  | destroy (r : SequenceRef)
  | synchronize
  | prepareUnload

inductive GgufAnswer where
  | planned (result : Except ModelError SequencePlan)
  | created (result : Except ModelError SequenceRef)
  | prefilled (result : Except SequenceError PrefillOutcome)
  | decoded (result : Except SequenceError DecodeOutcome)
  | reset (result : Except SequenceError Unit)
  | destroyed (result : Except SequenceError Unit)
  | synchronized (result : Except SynchronizationError Unit)
  | unloaded (result : Except SynchronizationError Unit)
  /-- The caller has no such sequence. -/
  | absent

/-- An error, or no operation at all. -/
def GgufAnswer.Fails : GgufAnswer → Prop
  | .planned result => ∃ e, result = .error e
  | .created result => ∃ e, result = .error e
  | .prefilled result => ∃ e, result = .error e
  | .decoded result => ∃ e, result = .error e
  | .reset result => ∃ e, result = .error e
  | .destroyed result => ∃ e, result = .error e
  | .synchronized result => ∃ e, result = .error e
  | .unloaded result => ∃ e, result = .error e
  | .absent => True

/-- A model and the sequences made of it; a destroyed one is gone. -/
structure GgufRun (κ : Type) where
  model : GgufModel κ
  sequences : List (Option GgufSequence) := []

namespace GgufRun

variable (run : GgufRun κ)

/-- The live sequence `r`. -/
def sequence (r : SequenceRef) : Option GgufSequence := run.sequences[r]?.join

/-- The slot of the live sequence `r`. -/
def slotOf (r : SequenceRef) : Option ℕ := (run.sequence r).map GgufSequence.nativeSlot

def Occupied (k : ℕ) : Prop := run.model.occupiedSlots[k]? = some .occupied

def cellsOf (cells : κ → Set (ℕ × ℕ)) : Set (ℕ × ℕ) := cells run.model.native

def step (n : NativeContext κ) (run : GgufRun κ) : GgufOperation → GgufAnswer × GgufRun κ
  | .plan configuration => (.planned (run.model.planSequence configuration), run)
  | .create id configuration =>
    match run.model.createSequence id configuration with
    | (.error e, model) => (.created (.error e), { run with model := model })
    | (.ok s, model) => (.created (.ok run.sequences.length), ⟨model, run.sequences ++ [some s]⟩)
  | .prefill r input logits cancellation =>
    match run.sequence r with
    | none => (.absent, run)
    | some s =>
      match run.model.prefillChecked n s input logits cancellation with
      | (result, _, s, model) => (.prefilled result, ⟨model, run.sequences.set r (some s)⟩)
  | .decode r token logits cancellation =>
    match run.sequence r with
    | none => (.absent, run)
    | some s =>
      match run.model.decodeChecked n s token logits cancellation with
      | (result, _, s, model) => (.decoded result, ⟨model, run.sequences.set r (some s)⟩)
  | .reset r =>
    match run.sequence r with
    | none => (.absent, run)
    | some s =>
      match run.model.resetSequence n s with
      | (result, s, model) => (.reset result, ⟨model, run.sequences.set r (some s)⟩)
  | .destroy r =>
    match run.sequence r with
    | none => (.absent, run)
    | some s =>
      match run.model.destroySequence n s with
      | (.error e, s, model) => (.destroyed (.error e), ⟨model, run.sequences.set r (some s)⟩)
      | (.ok (), _, model) => (.destroyed (.ok ()), ⟨model, run.sequences.set r none⟩)
  | .synchronize => (.synchronized run.model.synchronize, run)
  | .prepareUnload =>
    match run.model.prepareUnload n with
    | (result, model) => (.unloaded result, { run with model := model })

/-- The run after these operations. -/
def after (n : NativeContext κ) (run : GgufRun κ) (ops : List GgufOperation) : GgufRun κ :=
  ops.foldl (fun run op => (run.step n op).2) run

/-- The slot table, the sequences and the cells of a run are in step. -/
structure Sound (cells : κ → Set (ℕ × ℕ)) (run : GgufRun κ) : Prop where
  leased : Leased run.Occupied run.slotOf
  size : run.model.occupiedSlots.length ≤ u32Max
  clean : run.model.unloading = false → ∀ x ∈ run.cellsOf cells, run.Occupied x.1
  holds : ∀ r s, run.sequence r = some s → s.Holds (run.cellsOf cells)
  unloaded : run.model.unloading = true → ∀ k, ¬run.Occupied k

variable {run}

/-! ### Sequences by reference -/

theorem slotOf_eq {r : SequenceRef} {s : GgufSequence} (h : run.sequence r = some s) :
    run.slotOf r = some s.nativeSlot := by
  rw [slotOf, h]
  rfl

theorem lt_of_sequence {r : SequenceRef} {s : GgufSequence} (h : run.sequence r = some s) :
    r < run.sequences.length := by
  by_contra hle
  rw [sequence, List.getElem?_eq_none (not_lt.mp hle)] at h
  cases h

theorem sequence_set (run : GgufRun κ) (model : GgufModel κ) {r : SequenceRef} (hr : r < run.sequences.length)
    (o : Option GgufSequence) :
    sequence ⟨model, run.sequences.set r o⟩ = Function.update run.sequence r o := by
  funext r'
  by_cases hrr : r' = r
  · subst hrr
    rw [Function.update_self, sequence, List.getElem?_set_self hr]
    rfl
  · rw [Function.update_of_ne hrr, sequence, sequence, List.getElem?_set_ne (Ne.symm hrr)]

theorem sequence_append (run : GgufRun κ) (model : GgufModel κ) (s : GgufSequence) :
    sequence ⟨model, run.sequences ++ [some s]⟩ = Function.update run.sequence run.sequences.length (some s) := by
  funext r'
  by_cases hrr : r' = run.sequences.length
  · subst hrr
    rw [Function.update_self, sequence, List.getElem?_concat_length]
    rfl
  · rw [Function.update_of_ne hrr, sequence, sequence]
    rcases Nat.lt_or_gt_of_ne hrr with hlt | hgt
    · rw [List.getElem?_append_left hlt]
    · rw [List.getElem?_eq_none (by rw [List.length_append]; exact hgt), List.getElem?_eq_none hgt.le]

theorem sequence_length : run.sequence run.sequences.length = none := by
  rw [sequence, List.getElem?_eq_none le_rfl]
  rfl

theorem slotOf_update {sequences : List (Option GgufSequence)} {model : GgufModel κ} {r : SequenceRef}
    {o : Option GgufSequence} (h : sequence ⟨model, sequences⟩ = Function.update run.sequence r o) :
    slotOf ⟨model, sequences⟩ = Function.update run.slotOf r (o.map GgufSequence.nativeSlot) := by
  funext r'
  by_cases hrr : r' = r
  · subst hrr
    rw [slotOf, h, Function.update_self, Function.update_self]
  · rw [slotOf, h, Function.update_of_ne hrr, Function.update_of_ne hrr]
    rfl

/-! ### What the operations keep -/

theorem Sound.new {cells : κ → Set (ℕ × ℕ)} {backend vocabularySize : ℕ} {execution : GgufExecutionConfiguration}
    {context : Option κ} {reserved : Bool} {model : GgufModel κ}
    (hnew : GgufModel.new n backend vocabularySize execution context reserved = some model)
    (hfresh : cells model.native = ∅) : Sound cells ⟨model, []⟩ := by
  obtain ⟨hslots, hunloading⟩ : model.occupiedSlots = List.replicate execution.maximumSequences.get .free ∧
      model.unloading = false := by
    simp only [GgufModel.new, Option.bind_eq_bind, Option.bind_eq_some_iff, Option.pure_def, Option.some.injEq] at hnew
    obtain ⟨_, -, _, -, _, -, _, -, rfl⟩ := hnew
    exact ⟨rfl, rfl⟩
  have hfree : ∀ k, ¬Occupied ⟨model, []⟩ k := by
    intro k hk
    rw [Occupied, hslots, List.getElem?_replicate] at hk
    split_ifs at hk
    cases hk
  have hnone : slotOf ⟨model, []⟩ = fun _ => none := by
    funext r
    rfl
  refine ⟨?_, ?_, ?_, ?_, fun _ => hfree⟩
  · rw [hnone]
    exact Leased.empty hfree
  · show model.occupiedSlots.length ≤ u32Max
    rw [hslots, List.length_replicate]
    exact execution.maximumSequences.le
  · intro _ x hx
    rw [cellsOf, hfresh] at hx
    exact hx.elim
  · intro r s h
    cases h

/-- A step of a live sequence. -/
theorem Sound.use {s : GgufSequence} {r : SequenceRef} (h : Sound cells run) (hs : run.sequence r = some s)
    {after : GgufSequence × GgufModel κ} (hsteps : run.model.Steps cells s after) :
    Sound cells ⟨after.2, run.sequences.set r (some after.1)⟩ := by
  obtain ⟨s', model⟩ := after
  obtain ⟨c', hmodel, hchange⟩ := hsteps
  dsimp only at hmodel hchange
  subst hmodel
  have hsequence := sequence_set run { run.model with native := c' } (lt_of_sequence hs) (some s')
  have hslot : slotOf ⟨{ run.model with native := c' }, run.sequences.set r (some s')⟩ = run.slotOf := by
    rw [slotOf_update hsequence, Option.map_some, hchange.slot_eq, ← slotOf_eq hs, Function.update_eq_self]
  refine ⟨?_, h.size, ?_, ?_, h.unloaded⟩
  · rw [hslot]
    exact h.leased
  · rintro hloaded ⟨k, p⟩ hx
    by_cases hk : k = s.nativeSlot
    · subst hk
      exact h.leased.marked r _ (slotOf_eq hs)
    · exact h.clean hloaded (k, p) ((hchange.frame hk p).mp hx)
  · intro r' t ht
    rw [hsequence] at ht
    by_cases hrr : r' = r
    · subst hrr
      rw [Function.update_self, Option.some.injEq] at ht
      subst ht
      exact hchange.holds (h.holds r' s hs)
    · rw [Function.update_of_ne hrr] at ht
      have hk : t.nativeSlot ≠ s.nativeSlot := fun heq =>
        hrr (h.leased.injective r' r _ (slotOf_eq ht) (heq ▸ slotOf_eq hs))
      have hcells := fun p => hchange.frame hk p
      have htholds := h.holds r' t ht
      exact ⟨fun hne p => (hcells p).trans (htholds.filled hne p), htholds.empty,
        fun p hp => htholds.bounded p ((hcells p).mp hp)⟩

theorem allocateSlot_ok {model model' : GgufModel κ} {k : ℕ} (h : model.allocateSlot = (.ok k, model')) :
    model.occupiedSlots[k]? = some .free ∧
      model' = model.mark model.native k .occupied := by
  unfold GgufModel.allocateSlot at h
  split at h
  · cases h
  next index hindex =>
    obtain ⟨hlt, hfree, -⟩ := List.findIdx?_eq_some_iff_getElem.mp hindex
    rw [List.getElem?_eq_getElem hlt] at h
    dsimp only at h
    split_ifs at h
    · obtain ⟨hindex, rfl⟩ := Prod.mk.inj h
      obtain rfl := Except.ok.inj hindex
      rw [List.getElem?_eq_getElem hlt]
      exact ⟨by simpa using hfree, rfl⟩
    · cases h

theorem allocateSlot_error {model model' : GgufModel κ} {e : ModelError} (hsize : model.occupiedSlots.length ≤ u32Max)
    (h : model.allocateSlot = (.error e, model')) : model' = model := by
  unfold GgufModel.allocateSlot at h
  split at h
  · exact (Prod.mk.inj h).2.symm
  next index hindex =>
    obtain ⟨hlt, -, -⟩ := List.findIdx?_eq_some_iff_getElem.mp hindex
    rw [List.getElem?_eq_getElem hlt] at h
    dsimp only at h
    rw [if_pos (hlt.le.trans hsize)] at h
    cases h

/-- A sequence is made, or nothing changes. -/
theorem createSequence_ok {model model' : GgufModel κ} {id : SequenceId} {configuration : SequenceConfiguration}
    {s : GgufSequence} (h : model.createSequence id configuration = (.ok s, model')) :
    model.unloading = false ∧ model.occupiedSlots[s.nativeSlot]? = some .free ∧ s.state = .empty ∧ s.position = 0 ∧
      s.id = id ∧ model' = model.mark model.native s.nativeSlot .occupied := by
  unfold GgufModel.createSequence at h
  split at h
  · cases h
  next plan hplan =>
    simp only [GgufModel.planSequence, Except.bind_eq_ok, Except.failIf_eq_ok] at hplan
    obtain ⟨_, hloaded, -⟩ := hplan
    split at h
    · cases h
    next k model hallocate =>
      obtain ⟨hs, rfl⟩ := Prod.mk.inj h
      obtain rfl := Except.ok.inj hs
      obtain ⟨hfree, rfl⟩ := allocateSlot_ok hallocate
      exact ⟨Bool.eq_false_of_not_eq_true hloaded, hfree, rfl, rfl, rfl, rfl⟩

theorem createSequence_error {model model' : GgufModel κ} {id : SequenceId} {configuration : SequenceConfiguration}
    {e : ModelError} (hsize : model.occupiedSlots.length ≤ u32Max)
    (h : model.createSequence id configuration = (.error e, model')) : model' = model := by
  unfold GgufModel.createSequence at h
  split at h
  · exact (Prod.mk.inj h).2.symm
  · split at h
    next hallocate =>
      obtain ⟨-, rfl⟩ := Prod.mk.inj h
      exact allocateSlot_error hsize hallocate
    · cases h

theorem validateNativeSlot_eq_ok {model : GgufModel κ} {k index : ℕ} :
    model.validateNativeSlot k = .ok index ↔ index = k ∧ model.occupiedSlots[k]? = some .occupied := by
  simp only [GgufModel.validateNativeSlot, Except.bind_eq_ok, Except.okOr_eq_ok, Except.failIf_eq_ok,
    Except.pure_eq_ok, not_not]
  constructor
  · rintro ⟨state, hstate, _, rfl, rfl⟩
    exact ⟨rfl, hstate⟩
  · rintro ⟨rfl, hstate⟩
    exact ⟨.occupied, hstate, (), rfl, rfl⟩

/-- A destroy frees the slot and its cells, or it changes nothing. -/
theorem destroySequence_cases (hn : n.Lawful cells) (model : GgufModel κ) (s : GgufSequence) :
    (∃ e c', model.destroySequence n s = (.error e, s, { model with native := c' }) ∧ cells c' = cells model.native) ∨
      ∃ s' c', model.destroySequence n s =
          (.ok (), s', model.mark c' s.nativeSlot .free) ∧
        cells c' = {x | x ∈ cells model.native ∧ x.1 ≠ s.nativeSlot} ∧
        model.occupiedSlots[s.nativeSlot]? = some .occupied := by
  unfold GgufModel.destroySequence GgufModel.releaseNativeSlot
  cases hvalid : model.validateNativeSlot s.nativeSlot with
  | error e => exact Or.inl ⟨e, model.native, rfl, rfl⟩
  | ok index =>
    obtain ⟨rfl, hoccupied⟩ := validateNativeSlot_eq_ok.mp hvalid
    obtain ⟨answer, c', hclear⟩ : ∃ answer c', n.clearKvCacheSeq model.native s.nativeSlot = (answer, c') :=
      ⟨_, _, rfl⟩
    by_cases hanswer : answer = some true
    · subst hanswer
      refine Or.inr ⟨{ s with position := 0, state := .finished }, c', ?_, hn.cleared _ _ _ hclear, hoccupied⟩
      simp only [hclear, hoccupied]
      rfl
    · refine Or.inl ⟨kvClearError model.backend, c', ?_, hn.kept _ _ _ _ hclear hanswer⟩
      simp only [hclear]

theorem occupied_mark {sequences : List (Option GgufSequence)} {c' : κ} {k : ℕ} {state : SlotState}
    (hk : k < run.model.occupiedSlots.length) (k' : ℕ) :
    Occupied ⟨run.model.mark c' k state, sequences⟩ k' ↔ if k' = k then state = .occupied else run.Occupied k' := by
  unfold Occupied GgufModel.mark
  by_cases hkk : k' = k
  · subst hkk
    rw [if_pos rfl, List.getElem?_set_self hk, Option.some.injEq]
  · rw [if_neg hkk, List.getElem?_set_ne (Ne.symm hkk)]

/-- A new sequence, in a slot without cells. -/
theorem Sound.create {model : GgufModel κ} {id : SequenceId} {configuration : SequenceConfiguration} {s : GgufSequence}
    (h : Sound cells run) (hcreate : run.model.createSequence id configuration = (.ok s, model)) :
    Sound cells ⟨model, run.sequences ++ [some s]⟩ ∧ ¬run.Occupied s.nativeSlot ∧
      ∀ p, (s.nativeSlot, p) ∉ cells model.native := by
  obtain ⟨hloaded, hfree, hempty, hposition, -, rfl⟩ := createSequence_ok hcreate
  have hk := (List.getElem?_eq_some_iff.mp hfree).1
  have hslot : ¬run.Occupied s.nativeSlot := by
    intro hoccupied
    have heq := hfree.symm.trans hoccupied
    cases heq
  have hclean : ∀ p, (s.nativeSlot, p) ∉ run.cellsOf cells := fun p hp => hslot (h.clean hloaded _ hp)
  have hsequence := sequence_append run (run.model.mark run.model.native s.nativeSlot .occupied) s
  have hoccupied : ∀ k, Occupied ⟨run.model.mark run.model.native s.nativeSlot .occupied, run.sequences ++ [some s]⟩ k ↔
      k = s.nativeSlot ∨ run.Occupied k := by
    intro k
    rw [occupied_mark hk]
    split_ifs with hks
    · exact iff_of_true rfl (Or.inl hks)
    · exact (or_iff_right hks).symm
  refine ⟨⟨?_, ?_, ?_, ?_, ?_⟩, hslot, hclean⟩
  · have hleased := h.leased.take (i := run.sequences.length) (by rw [slotOf, sequence_length]; rfl) hslot
    rw [slotOf_update hsequence]
    exact hleased.congr fun k => (hoccupied k).symm
  · show (run.model.occupiedSlots.set s.nativeSlot .occupied).length ≤ u32Max
    rw [List.length_set]
    exact h.size
  · intro _ x hx
    exact (hoccupied x.1).mpr (Or.inr (h.clean hloaded x hx))
  · intro r t ht
    rw [hsequence] at ht
    by_cases hr : r = run.sequences.length
    · subst hr
      rw [Function.update_self, Option.some.injEq] at ht
      subst ht
      refine ⟨fun _ p => iff_of_false (hclean p) ?_, fun _ => hposition, fun p hp => absurd hp (hclean p)⟩
      rw [hposition]
      exact Nat.not_lt_zero p
    · rw [Function.update_of_ne hr] at ht
      exact h.holds r t ht
  · intro hunloading
    have hunloading : run.model.unloading = true := hunloading
    rw [hloaded] at hunloading
    cases hunloading

/-- A sequence is gone, with its slot and its cells. -/
theorem Sound.destroy {s : GgufSequence} {r : SequenceRef} {c' : κ} (h : Sound cells run)
    (hs : run.sequence r = some s) (hcells : cells c' = {x | x ∈ cells run.model.native ∧ x.1 ≠ s.nativeSlot}) :
    Sound cells ⟨run.model.mark c' s.nativeSlot .free, run.sequences.set r none⟩ := by
  have hmarked := h.leased.marked r _ (slotOf_eq hs)
  have hk := (List.getElem?_eq_some_iff.mp hmarked).1
  have hsequence := sequence_set run (run.model.mark c' s.nativeSlot .free) (lt_of_sequence hs) none
  have hoccupied : ∀ k, Occupied ⟨run.model.mark c' s.nativeSlot .free, run.sequences.set r none⟩ k ↔
      k ≠ s.nativeSlot ∧ run.Occupied k := by
    intro k
    rw [occupied_mark hk]
    split_ifs with hks
    · exact iff_of_false nofun fun hand => hand.1 hks
    · exact (and_iff_right hks).symm
  refine ⟨?_, ?_, ?_, ?_, ?_⟩
  · have hleased := h.leased.giveBack (slotOf_eq hs)
    rw [slotOf_update hsequence]
    exact hleased.congr fun k => (hoccupied k).symm
  · show (run.model.occupiedSlots.set s.nativeSlot .free).length ≤ u32Max
    rw [List.length_set]
    exact h.size
  · intro hloaded x hx
    change x ∈ cells c' at hx
    rw [hcells] at hx
    exact (hoccupied x.1).mpr ⟨hx.2, h.clean hloaded x hx.1⟩
  · intro r' t ht
    rw [hsequence] at ht
    by_cases hrr : r' = r
    · subst hrr
      rw [Function.update_self] at ht
      cases ht
    · rw [Function.update_of_ne hrr] at ht
      have hne : t.nativeSlot ≠ s.nativeSlot := fun heq =>
        hrr (h.leased.injective r' r _ (slotOf_eq ht) (heq ▸ slotOf_eq hs))
      have hmem : ∀ p, (t.nativeSlot, p) ∈ cells c' ↔ (t.nativeSlot, p) ∈ cells run.model.native := by
        intro p
        rw [hcells]
        exact and_iff_left hne
      have hholds := h.holds r' t ht
      exact ⟨fun hstate p => (hmem p).trans (hholds.filled hstate p), hholds.empty,
        fun p hp => hholds.bounded p ((hmem p).mp hp)⟩
  · intro hunloading k hk'
    exact h.unloaded hunloading k ((hoccupied k).mp hk').2

/-- An unload succeeds when no slot is occupied. -/
theorem prepareUnload_cases (n : NativeContext κ) (model : GgufModel κ) :
    (∃ e, model.prepareUnload n = (.error e, model)) ∨
      model.prepareUnload n = (.ok (), { model with native := n.clearKvCache model.native, unloading := true }) ∧
        ∀ k : ℕ, model.occupiedSlots[k]? ≠ some .occupied := by
  unfold GgufModel.prepareUnload
  split_ifs with h
  · exact Or.inl ⟨_, rfl⟩
  · refine Or.inr ⟨rfl, fun k hk => h (Or.inr ?_)⟩
    rw [List.contains_iff_mem]
    exact List.mem_of_getElem? hk

theorem sequence_none_of_free (h : Sound cells run) (hfree : ∀ k, ¬run.Occupied k) (r : SequenceRef) :
    run.sequence r = none := by
  cases hs : run.sequence r with
  | none => rfl
  | some s => exact absurd (h.leased.marked r _ (slotOf_eq hs)) (hfree _)

theorem Sound.unload (h : Sound cells run) (hfree : ∀ k, ¬run.Occupied k) (c' : κ) :
    Sound cells { run with model := { run.model with native := c', unloading := true } } := by
  refine ⟨h.leased, h.size, nofun, fun r s hs => ?_, fun _ => hfree⟩
  have hnone := sequence_none_of_free h hfree r
  exact absurd (hnone.symm.trans hs) nofun

/-- What an operation does to a run: nothing, or it makes, steps or destroys one
sequence, or unloads the model. -/
inductive Moved (n : NativeContext κ) (cells : κ → Set (ℕ × ℕ)) (run : GgufRun κ) : GgufRun κ → Prop
  | same : Moved n cells run run
  | created {id : SequenceId} {configuration : SequenceConfiguration} {s : GgufSequence} {model : GgufModel κ}
      (h : run.model.createSequence id configuration = (.ok s, model)) :
      Moved n cells run ⟨model, run.sequences ++ [some s]⟩
  | used {r : SequenceRef} {s : GgufSequence} {after : GgufSequence × GgufModel κ} (hs : run.sequence r = some s)
      (h : run.model.Steps cells s after) : Moved n cells run ⟨after.2, run.sequences.set r (some after.1)⟩
  | destroyed {r : SequenceRef} {s : GgufSequence} {c' : κ} (hs : run.sequence r = some s)
      (h : cells c' = {x | x ∈ cells run.model.native ∧ x.1 ≠ s.nativeSlot}) :
      Moved n cells run ⟨run.model.mark c' s.nativeSlot .free, run.sequences.set r none⟩
  | unloaded (hfree : ∀ k, ¬run.Occupied k) :
      Moved n cells run
        { run with model := { run.model with native := n.clearKvCache run.model.native, unloading := true } }

theorem step_moved (hn : n.Lawful cells) (hsize : run.model.occupiedSlots.length ≤ u32Max) (op : GgufOperation) :
    Moved n cells run (run.step n op).2 := by
  cases op with
  | plan configuration => exact .same
  | create id configuration =>
    unfold GgufRun.step
    dsimp only
    split
    next e model hcreate =>
      rw [createSequence_error hsize hcreate]
      exact .same
    next s model hcreate => exact .created hcreate
  | prefill r input logits cancellation =>
    unfold GgufRun.step
    dsimp only
    split
    · exact .same
    next s hs => exact .used hs (run.model.prefillChecked_steps hn s input logits cancellation)
  | decode r token logits cancellation =>
    unfold GgufRun.step
    dsimp only
    split
    · exact .same
    next s hs => exact .used hs (run.model.decodeChecked_steps hn s token logits cancellation)
  | reset r =>
    unfold GgufRun.step
    dsimp only
    split
    · exact .same
    next s hs => exact .used hs (run.model.resetSequence_steps hn s)
  | destroy r =>
    unfold GgufRun.step
    dsimp only
    split
    · exact .same
    next s hs =>
      obtain ⟨e, c', hdestroy, hcells⟩ | ⟨s', c', hdestroy, hcells, -⟩ := destroySequence_cases hn run.model s
      · rw [hdestroy]
        have hsteps : run.model.Steps cells s (s, { run.model with native := c' }) := ⟨c', rfl, .same hcells⟩
        exact .used hs hsteps
      · rw [hdestroy]
        exact .destroyed hs hcells
  | synchronize => exact .same
  | prepareUnload =>
    unfold GgufRun.step
    obtain ⟨e, hunload⟩ | ⟨hunload, hfree⟩ := prepareUnload_cases n run.model
    · rw [hunload]
      exact .same
    · rw [hunload]
      exact .unloaded hfree

/-- Every operation keeps the invariant. -/
theorem Sound.step (hn : n.Lawful cells) (h : Sound cells run) (op : GgufOperation) :
    Sound cells (run.step n op).2 := by
  have hmoved := step_moved hn h.size op
  generalize (run.step n op).2 = run' at hmoved ⊢
  cases hmoved with
  | same => exact h
  | created hcreate => exact (h.create hcreate).1
  | used hs hsteps => exact h.use hs hsteps
  | destroyed hs hcells => exact h.destroy hs hcells
  | unloaded hfree => exact h.unload hfree _

theorem Sound.after (hn : n.Lawful cells) : ∀ (ops : List GgufOperation) {run : GgufRun κ}, Sound cells run →
    Sound cells (run.after n ops)
  | [], _, h => h
  | op :: ops, _, h => Sound.after hn ops (h.step hn op)

/-- Once unloading, always unloading. -/
theorem unloading_step (hn : n.Lawful cells) (hsize : run.model.occupiedSlots.length ≤ u32Max) (op : GgufOperation)
    (h : run.model.unloading = true) : (run.step n op).2.model.unloading = true := by
  have hmoved := step_moved hn hsize op
  generalize (run.step n op).2 = run' at hmoved ⊢
  cases hmoved with
  | same => exact h
  | created hcreate =>
    have hloaded := (createSequence_ok hcreate).1
    rw [h] at hloaded
    cases hloaded
  | used hs hsteps =>
    obtain ⟨c', hmodel, -⟩ := hsteps
    rw [hmodel]
    exact h
  | destroyed hs hcells => exact h
  | unloaded hfree => rfl

theorem unloading_after (hn : n.Lawful cells) : ∀ (ops : List GgufOperation) {run : GgufRun κ}, Sound cells run →
    run.model.unloading = true → (run.after n ops).model.unloading = true
  | [], _, _, h => h
  | op :: ops, _, hsound, h => unloading_after hn ops (hsound.step hn op) (unloading_step hn hsound.size op h)

/-- Nothing succeeds on an unloading model. -/
theorem Sound.fails (h : Sound cells run) (hunloading : run.model.unloading = true) (op : GgufOperation) :
    (run.step n op).1.Fails := by
  have hnone := sequence_none_of_free h (h.unloaded hunloading)
  have hplan : ∀ configuration, run.model.planSequence configuration = .error .invalidState := by
    intro configuration
    rw [GgufModel.planSequence, Except.failIf, if_pos hunloading]
    rfl
  cases op with
  | plan configuration => exact ⟨_, hplan configuration⟩
  | create id configuration =>
    unfold GgufRun.step GgufModel.createSequence
    dsimp only
    rw [hplan]
    exact ⟨_, rfl⟩
  | prefill r input logits cancellation =>
    unfold GgufRun.step
    dsimp only
    rw [hnone r]
    trivial
  | decode r token logits cancellation =>
    unfold GgufRun.step
    dsimp only
    rw [hnone r]
    trivial
  | reset r =>
    unfold GgufRun.step
    dsimp only
    rw [hnone r]
    trivial
  | destroy r =>
    unfold GgufRun.step
    dsimp only
    rw [hnone r]
    trivial
  | synchronize =>
    refine ⟨.invalidState, ?_⟩
    rw [GgufModel.synchronize, Except.failIf, if_pos hunloading]
  | prepareUnload =>
    unfold GgufRun.step GgufModel.prepareUnload
    dsimp only
    rw [if_pos (Or.inl hunloading)]
    exact ⟨_, rfl⟩

/-! ### The slot table over a run -/

/-- Slots, sequences and cells of a run. -/
structure InStep (cells : κ → Set (ℕ × ℕ)) (run : GgufRun κ) : Prop where
  /-- Live sequences are in bijection with occupied slots. -/
  bijection : Set.BijOn (fun r => (run.slotOf r).getD 0) {r | (run.sequence r).isSome} {k | run.Occupied k}
  ready : ∀ r s, run.sequence r = some s → s.state = .ready →
    ∀ p, (s.nativeSlot, p) ∈ run.cellsOf cells ↔ p < s.position
  empty : ∀ r s, run.sequence r = some s → s.state = .empty → ∀ p, (s.nativeSlot, p) ∉ run.cellsOf cells
  bounded : ∀ r s, run.sequence r = some s → ∀ p, (s.nativeSlot, p) ∈ run.cellsOf cells → p < s.tokenCapacity

/-- What the next operations of a run do to slots and cells. -/
structure Transitions (n : NativeContext κ) (cells : κ → Set (ℕ × ℕ)) (run : GgufRun κ) : Prop where
  /-- A new sequence gets a free slot, with no cells in it. -/
  created : ∀ id configuration r run', run.step n (.create id configuration) = (.created (.ok r), run') →
    ∃ s, run'.sequence r = some s ∧ s.id = id ∧ ¬run.Occupied s.nativeSlot ∧
      ∀ p, (s.nativeSlot, p) ∉ run'.cellsOf cells
  /-- A failed destroy keeps the sequence and its slot. -/
  kept : ∀ r s e run', run.sequence r = some s → run.step n (.destroy r) = (.destroyed (.error e), run') →
    run'.sequence r = some s ∧ run'.Occupied s.nativeSlot
  /-- An unload succeeds only when no sequence is live, and nothing succeeds after it. -/
  unloaded : ∀ run', run.step n .prepareUnload = (.unloaded (.ok ()), run') →
    (∀ r, run.sequence r = none) ∧ ∀ ops op, ((run'.after n ops).step n op).1.Fails

theorem Sound.inStep (h : Sound cells run) : InStep cells run := by
  have hlive : {r | (run.sequence r).isSome} = {r | (run.slotOf r).isSome} := by
    ext r
    show (run.sequence r).isSome = true ↔ (run.slotOf r).isSome = true
    rw [slotOf, Option.isSome_map]
  refine ⟨?_, ?_, ?_, ?_⟩
  · rw [hlive]
    exact h.leased.bijective
  · intro r s hs hready p
    exact (h.holds r s hs).filled (by rw [hready]; nofun) p
  · intro r s hs hempty p hp
    have hfilled := ((h.holds r s hs).filled (by rw [hempty]; nofun) p).mp hp
    rw [(h.holds r s hs).empty hempty] at hfilled
    exact Nat.not_lt_zero p hfilled
  · intro r s hs p hp
    exact (h.holds r s hs).bounded p hp

theorem Sound.transitions (hn : n.Lawful cells) (h : Sound cells run) : Transitions n cells run := by
  refine ⟨?_, ?_, ?_⟩
  · intro id configuration r run' hstep
    unfold GgufRun.step at hstep
    dsimp only at hstep
    split at hstep
    · cases hstep
    next s model hcreate =>
      cases hstep
      obtain ⟨-, hslot, hclean⟩ := h.create hcreate
      refine ⟨s, ?_, (createSequence_ok hcreate).2.2.2.2.1, hslot, hclean⟩
      rw [sequence_append, Function.update_self]
  · intro r s e run' hs hstep
    unfold GgufRun.step at hstep
    simp only [hs] at hstep
    obtain ⟨e', c', hdestroy, -⟩ | ⟨s', c', hdestroy, -, -⟩ := destroySequence_cases hn run.model s
    · rw [hdestroy] at hstep
      cases hstep
      refine ⟨?_, h.leased.marked r _ (slotOf_eq hs)⟩
      rw [sequence_set run _ (lt_of_sequence hs), Function.update_self]
    · rw [hdestroy] at hstep
      cases hstep
  · intro run' hstep
    obtain ⟨e, hunload⟩ | ⟨hunload, hfree⟩ := prepareUnload_cases n run.model
    · unfold GgufRun.step at hstep
      rw [hunload] at hstep
      cases hstep
    · have hsound := h.unload hfree (n.clearKvCache run.model.native)
      unfold GgufRun.step at hstep
      rw [hunload] at hstep
      obtain ⟨-, rfl⟩ := Prod.mk.inj hstep
      exact ⟨sequence_none_of_free h hfree, fun ops op =>
        (hsound.after hn ops).fails (unloading_after hn ops hsound rfl) op⟩

/-- Over every run of a new model, slots, sequences and native cells stay in step. -/
theorem slots_in_step (hn : n.Lawful cells) {backend vocabularySize : ℕ} {execution : GgufExecutionConfiguration}
    {context : Option κ} {reserved : Bool} {model : GgufModel κ}
    (hnew : GgufModel.new n backend vocabularySize execution context reserved = some model)
    (hfresh : cells model.native = ∅) (ops : List GgufOperation) :
    InStep cells (GgufRun.after n ⟨model, []⟩ ops) ∧ Transitions n cells (GgufRun.after n ⟨model, []⟩ ops) := by
  have hsound := (Sound.new hnew hfresh).after hn ops
  exact ⟨hsound.inStep, hsound.transitions hn⟩

/-- A native context that lists its cells and never fails. -/
def listedContext : NativeContext (List (ℕ × ℕ)) where
  contextTokens _ := 64
  batchTokens _ := 8
  microBatchTokens _ := 8
  batchAccepts batch _ := batch.length < 8
  decode c batch := (true, c ++ batch.map fun entry => (entry.sequenceId, entry.position))
  getLogits _ := [0, 0]
  clearKvCacheSeq c k := (some true, c.filter fun x => x.1 ≠ k)
  clearKvCache _ := []

theorem listedContext_lawful : listedContext.Lawful fun c => {x | x ∈ c} where
  cleared := by
    intro c k c' h
    obtain ⟨-, rfl⟩ := Prod.mk.inj h
    ext x
    simp
  kept := by
    intro c k answer c' h hanswer
    exact absurd (Prod.mk.inj h).1.symm hanswer
  decoded := by
    intro c batch c' h
    obtain ⟨-, rfl⟩ := Prod.mk.inj h
    ext x
    simp [submitted, eq_comm]
  failed := by
    intro c batch c' h
    cases h

/-- Room for two sequences of up to 6 tokens. -/
def pairConfiguration : GgufExecutionConfiguration :=
  ⟨6, 3, 3, 2⟩

def pairModel : GgufModel (List (ℕ × ℕ)) := ⟨0, pairConfiguration, 2, [], [.free, .free], false⟩

/-- Two sequences are stepped and one is destroyed; a third takes its slot. -/
def pairOperations : List GgufOperation :=
  let configuration : SequenceConfiguration := ⟨⟨6, by decide, by decide⟩, ⟨3, by decide, by decide⟩⟩
  [.create 10 configuration, .create 11 configuration, .prefill 0 ⟨[1, 2, 3], true⟩ [0, 0] .running,
    .prefill 1 ⟨[4], false⟩ [] .running, .decode 0 5 [0, 0] .running, .destroy 1, .create 12 configuration]

theorem slots_in_step_pair :
    (GgufRun.after listedContext ⟨pairModel, []⟩ pairOperations).sequences.map (Option.map GgufSequence.position) =
        [some 4, none, some 0] ∧
      InStep (fun c => {x | x ∈ c}) (GgufRun.after listedContext ⟨pairModel, []⟩ pairOperations) ∧
      Transitions listedContext (fun c => {x | x ∈ c})
        (GgufRun.after listedContext ⟨pairModel, []⟩ pairOperations) := by
  have hnew : GgufModel.new listedContext 0 2 pairConfiguration (some []) true = some pairModel := rfl
  have hfresh : {x : ℕ × ℕ | x ∈ pairModel.native} = ∅ := Set.eq_empty_of_forall_notMem fun _ => List.not_mem_nil
  exact ⟨by decide +kernel, slots_in_step listedContext_lawful hnew hfresh pairOperations⟩

end GgufRun

end LlmApp
