/-
# What a step does to the native cells

All sequences of a GGUF model share one KV cache, in which a cell belongs to the
identifier of a sequence and a position. Of the native context it is assumed
what its cells are after each call (`NativeContext.Lawful`).

Whatever a step of a sequence does, it does to the sequence's own cells
(`CellChange`): it adds the next positions, adds some of them and finishes the
sequence, clears them, or leaves all as it is. So the other cells stay
(`CellChange.frame`), and a sequence that is not finished fills exactly its
positions (`CellChange.holds`).

Key definitions: `NativeContext.Lawful`, `GgufSequence.Holds`, `CellChange`,
`GgufModel.Steps`.
-/
import LlmApp.Gguf.Model

namespace LlmApp

variable {κ : Type} {n : NativeContext κ} {cells : κ → Set (ℕ × ℕ)}

/-! ### Native cells -/

/-- The cells that a batch is for. -/
def submitted (batch : List BatchEntry) : Set (ℕ × ℕ) := {x | ∃ entry ∈ batch, x = (entry.sequenceId, entry.position)}

/-- `cells` are the cells of the KV cache, each of a sequence identifier at a
position: what the native calls do to them. -/
structure NativeContext.Lawful (n : NativeContext κ) (cells : κ → Set (ℕ × ℕ)) : Prop where
  cleared : ∀ c k c', n.clearKvCacheSeq c k = (some true, c') → cells c' = {x | x ∈ cells c ∧ x.1 ≠ k}
  kept : ∀ c k answer c', n.clearKvCacheSeq c k = (answer, c') → answer ≠ some true → cells c' = cells c
  decoded : ∀ c batch c', n.decode c batch = (true, c') → cells c' = cells c ∪ submitted batch
  failed : ∀ c batch c', n.decode c batch = (false, c') → cells c ⊆ cells c' ∧ cells c' ⊆ cells c ∪ submitted batch

/-- The next `length` cells of a sequence. -/
def GgufSequence.next (s : GgufSequence) (length : ℕ) : Set (ℕ × ℕ) :=
  {x | ∃ i < length, x = (s.nativeSlot, s.position + i)}

/-- The cells of a sequence: all its positions so far unless it is finished, and
never one beyond its capacity. -/
structure GgufSequence.Holds (s : GgufSequence) (cells : Set (ℕ × ℕ)) : Prop where
  filled : s.state ≠ .finished → ∀ p, (s.nativeSlot, p) ∈ cells ↔ p < s.position
  empty : s.state = .empty → s.position = 0
  bounded : ∀ p, (s.nativeSlot, p) ∈ cells → p < s.tokenCapacity

/-! ### What a step does to its sequence -/

/-- A step of the sequence `s` on the native context `c`. -/
inductive CellChange (cells : κ → Set (ℕ × ℕ)) (s : GgufSequence) (c : κ) : GgufSequence → κ → Prop
  | same {c' : κ} (h : cells c' = cells c) : CellChange cells s c s c'
  | grown {c' : κ} (length : ℕ) (hlength : length ≤ s.tokenCapacity - s.position) (hstate : s.state ≠ .finished)
      (h : cells c' = cells c ∪ s.next length) :
      CellChange cells s c { s with position := s.position + length, state := .ready } c'
  | spoiled {c' : κ} (length : ℕ) (hlength : length ≤ s.tokenCapacity - s.position) (hkept : cells c ⊆ cells c')
      (h : cells c' ⊆ cells c ∪ s.next length) : CellChange cells s c { s with state := .finished } c'
  | cleared {c' : κ} (h : cells c' = {x | x ∈ cells c ∧ x.1 ≠ s.nativeSlot}) :
      CellChange cells s c { s with position := 0, state := .empty } c'

namespace CellChange

variable {s s' : GgufSequence} {c c' : κ}

theorem slot_eq (h : CellChange cells s c s' c') : s'.nativeSlot = s.nativeSlot := by
  cases h <;> rfl

theorem not_mem_next {length k p : ℕ} (hk : k ≠ s.nativeSlot) : (k, p) ∉ s.next length := by
  rintro ⟨i, -, hi⟩
  exact hk (Prod.mk.inj hi).1

theorem mem_next {length p : ℕ} :
    (s.nativeSlot, p) ∈ s.next length ↔ s.position ≤ p ∧ p < s.position + length := by
  constructor
  · rintro ⟨i, hi, heq⟩
    obtain ⟨-, rfl⟩ := Prod.mk.inj heq
    omega
  · rintro ⟨hle, hlt⟩
    refine ⟨p - s.position, by omega, ?_⟩
    rw [Nat.add_sub_cancel' hle]

/-- The other cells stay. -/
theorem frame (h : CellChange cells s c s' c') {k : ℕ} (hk : k ≠ s.nativeSlot) (p : ℕ) :
    (k, p) ∈ cells c' ↔ (k, p) ∈ cells c := by
  cases h with
  | same h => rw [h]
  | grown length _ _ h => rw [h, Set.mem_union, or_iff_left (not_mem_next hk)]
  | spoiled length _ hkept h =>
    constructor
    · intro hmem
      exact (h hmem).resolve_right (not_mem_next hk)
    · intro hmem
      exact hkept hmem
  | cleared h =>
    rw [h]
    exact and_iff_left hk

theorem holds (h : CellChange cells s c s' c') (hs : s.Holds (cells c)) : s'.Holds (cells c') := by
  cases h with
  | same h => rwa [h]
  | grown length hlength hstate h =>
    have hfilled := hs.filled hstate
    refine ⟨fun _ p => ?_, nofun, fun p hp => ?_⟩
    · show (s.nativeSlot, p) ∈ cells c' ↔ p < s.position + length
      rw [h, Set.mem_union, hfilled, mem_next]
      omega
    · show p < s.tokenCapacity
      rw [h, Set.mem_union] at hp
      rcases hp with hp | hp
      · exact hs.bounded p hp
      · have hp := mem_next.mp hp
        omega
  | spoiled length hlength hkept h =>
    refine ⟨fun hne => absurd rfl hne, nofun, fun p hp => ?_⟩
    show p < s.tokenCapacity
    rcases h hp with hp | hp
    · exact hs.bounded p hp
    · have hp := mem_next.mp hp
      omega
  | cleared h =>
    have hnone : ∀ p, (s.nativeSlot, p) ∉ cells c' := by
      intro p hp
      rw [h] at hp
      exact hp.2 rfl
    exact ⟨fun _ p => iff_of_false (hnone p) (Nat.not_lt_zero p), fun _ => rfl, fun p hp => absurd hp (hnone p)⟩

end CellChange

namespace GgufModel

variable (model : GgufModel κ)

/-- A call leaves all of the model but the native context, and changes that and
its sequence as a step does. -/
def Steps (cells : κ → Set (ℕ × ℕ)) (s : GgufSequence) (after : GgufSequence × GgufModel κ) : Prop :=
  ∃ c', after.2 = { model with native := c' } ∧ CellChange cells s model.native after.1 c'

theorem Steps.same (s : GgufSequence) : model.Steps cells s (s, model) := ⟨model.native, rfl, .same rfl⟩

theorem toI32_eq_some {value result : ℕ} : toI32 value = some result ↔ result = value ∧ value ≤ i32Max := by
  unfold toI32
  split_ifs with h
  · rw [Option.some.injEq]
    exact ⟨fun heq => ⟨heq.symm, h⟩, fun heq => heq.1.symm⟩
  · exact iff_of_false nofun fun heq => h heq.2

/-- The batch of a prefill is for the next positions, which are all `i32`. -/
theorem prefillBatch_ok {backend position sequenceId lastIndex : ℕ} {emitLogits : Bool} :
    ∀ {offset : ℕ} {tokens : List TokenId} {batch batch' : List BatchEntry},
    prefillBatch n backend position sequenceId lastIndex emitLogits offset tokens batch = .ok batch' →
      (∀ x, x ∈ submitted batch' ↔ x ∈ submitted batch ∨ ∃ i < tokens.length, x = (sequenceId, position + offset + i)) ∧
      (tokens ≠ [] → position + offset + tokens.length ≤ i32Max + 1)
  | offset, [], batch, batch', h => by
    obtain rfl := Except.ok.inj h
    simp
  | offset, token :: tokens, batch, batch', h => by
    simp only [prefillBatch, batchAdd, Except.bind_eq_ok, Except.okOr_eq_ok, Except.failIf_eq_ok, Except.pure_eq_ok,
      checkedAdd_eq_some, toI32_eq_some] at h
    obtain ⟨token', -, _, ⟨rfl, -⟩, _, ⟨rfl, hi32⟩, _, ⟨_, -, rfl⟩, h⟩ := h
    obtain ⟨hmem, hbound⟩ := prefillBatch_ok h
    constructor
    · intro x
      rw [hmem]
      constructor
      · rintro (⟨entry, hentry, rfl⟩ | ⟨i, hi, rfl⟩)
        · rcases List.mem_append.mp hentry with hentry | hentry
          · exact Or.inl ⟨entry, hentry, rfl⟩
          · obtain rfl := List.mem_singleton.mp hentry
            exact Or.inr ⟨0, Nat.succ_pos _, rfl⟩
        · refine Or.inr ⟨i + 1, Nat.succ_lt_succ hi, ?_⟩
          rw [show position + (offset + 1) + i = position + offset + (i + 1) by omega]
      · rintro (⟨entry, hentry, rfl⟩ | ⟨i, hi, rfl⟩)
        · exact Or.inl ⟨entry, List.mem_append_left _ hentry, rfl⟩
        · cases i with
          | zero => exact Or.inl ⟨_, List.mem_append_right _ (List.mem_singleton.mpr rfl), rfl⟩
          | succ i =>
            refine Or.inr ⟨i, Nat.lt_of_succ_lt_succ hi, ?_⟩
            rw [show position + (offset + 1) + i = position + offset + (i + 1) by omega]
    · intro _
      by_cases hnil : tokens = []
      · subst hnil
        rw [List.length_singleton]
        omega
      · have hbound := hbound hnil
        rw [List.length_cons]
        omega

theorem submitPrefill_ok {s : GgufSequence} {input : PrefillInput} {batch : List BatchEntry}
    (h : model.submitPrefill n s input = .ok batch) :
    submitted batch = s.next input.tokens.length ∧
      (input.tokens ≠ [] → s.position + input.tokens.length ≤ i32Max + 1) := by
  simp only [submitPrefill, Except.bind_eq_ok, Except.okOr_eq_ok, toI32_eq_some] at h
  obtain ⟨_, -, _, ⟨rfl, -⟩, h⟩ := h
  obtain ⟨hmem, hbound⟩ := prefillBatch_ok h
  refine ⟨Set.ext fun x => ?_, hbound⟩
  rw [hmem]
  constructor
  · rintro (⟨entry, hentry, -⟩ | hx)
    · exact absurd hentry List.not_mem_nil
    · exact hx
  · exact Or.inr

theorem submitDecode_ok {s : GgufSequence} {token : TokenId} {batch : List BatchEntry}
    (h : model.submitDecode n s token = .ok batch) : submitted batch = s.next 1 ∧ s.position ≤ i32Max := by
  simp only [submitDecode, batchAdd, Except.bind_eq_ok, Except.okOr_eq_ok, Except.failIf_eq_ok, Except.pure_eq_ok,
    toI32_eq_some] at h
  obtain ⟨_, -, _, ⟨rfl, -⟩, _, ⟨rfl, hi32⟩, _, -, _, -, rfl⟩ := h
  refine ⟨Set.ext fun x => ?_, hi32⟩
  constructor
  · rintro ⟨entry, hentry, rfl⟩
    obtain rfl := List.mem_singleton.mp hentry
    exact ⟨0, Nat.one_pos, rfl⟩
  · rintro ⟨i, hi, rfl⟩
    obtain rfl := Nat.lt_one_iff.mp hi
    exact ⟨_, List.mem_singleton.mpr rfl, rfl⟩

/-- A submission adds the cells of its batch, or fails and adds some of them. -/
theorem submit_cells (hn : n.Lawful cells) (batch : List BatchEntry) (wanted : Bool) (logits : List F32) :
    ∃ c', (model.submit n batch wanted logits).2.2 = { model with native := c' } ∧
      cells model.native ⊆ cells c' ∧ cells c' ⊆ cells model.native ∪ submitted batch ∧
      ∀ written, (model.submit n batch wanted logits).1 = .ok written →
        cells c' = cells model.native ∪ submitted batch := by
  unfold submit
  split
  next native hdecode =>
    obtain ⟨hkept, hadded⟩ := hn.failed _ _ _ hdecode
    exact ⟨native, rfl, hkept, hadded, nofun⟩
  next native hdecode =>
    have hcells := hn.decoded _ _ _ hdecode
    refine ⟨native, ?_, hcells ▸ Set.subset_union_left, hcells.subset, fun _ _ => hcells⟩
    dsimp only
    split <;> rfl

theorem prefillPrepared_steps (hn : n.Lawful cells) (s : GgufSequence) (input : PrefillInput) (logits : List F32)
    (hlength : input.tokens.length ≤ s.tokenCapacity - s.position) :
    model.Steps cells s (model.prefillPrepared n s input logits).2.2 := by
  unfold prefillPrepared
  split_ifs with hinvalid hmaximum
  · exact .same model s
  · exact .same model s
  unfold executePrefill
  cases hbatch : model.submitPrefill n s input with
  | error e => exact ⟨model.native, rfl, .spoiled 0 (Nat.zero_le _) le_rfl Set.subset_union_left⟩
  | ok batch =>
    obtain ⟨hcells, hi32⟩ := model.submitPrefill_ok hbatch
    obtain ⟨c', hmodel, hkept, hadded, hok⟩ := model.submit_cells hn batch input.emitLogits logits
    rw [hcells] at hadded hok
    dsimp only
    split
    next hsubmit =>
      rw [hsubmit] at hmodel
      exact ⟨c', hmodel, .spoiled _ hlength hkept hadded⟩
    next written _ _ hsubmit =>
      rw [hsubmit] at hmodel hok
      rw [not_or, not_or] at hinvalid
      have hposition : checkedAdd u64Max s.position input.tokens.length = some (s.position + input.tokens.length) := by
        refine checkedAdd_eq_some.mpr ⟨rfl, (hi32 hinvalid.2.2).trans ?_⟩
        decide
      rw [hposition]
      exact ⟨c', hmodel, .grown _ hlength hinvalid.2.1 (hok written rfl)⟩

theorem decodePrepared_steps (hn : n.Lawful cells) (s : GgufSequence) (token : TokenId) (logits : List F32)
    (hlength : 1 ≤ s.tokenCapacity - s.position) :
    model.Steps cells s (model.decodePrepared n s token logits).2.2 := by
  unfold decodePrepared
  split_ifs with hinvalid
  · exact .same model s
  rw [not_or, not_not] at hinvalid
  unfold executeDecode
  cases hbatch : model.submitDecode n s token with
  | error e => exact ⟨model.native, rfl, .spoiled 0 (Nat.zero_le _) le_rfl Set.subset_union_left⟩
  | ok batch =>
    obtain ⟨hcells, hi32⟩ := model.submitDecode_ok hbatch
    obtain ⟨c', hmodel, hkept, hadded, hok⟩ := model.submit_cells hn batch true logits
    rw [hcells] at hadded hok
    dsimp only
    split
    next hsubmit =>
      rw [hsubmit] at hmodel
      exact ⟨c', hmodel, .spoiled _ hlength hkept hadded⟩
    next written _ _ hsubmit =>
      rw [hsubmit] at hmodel hok
      have hposition : checkedAdd u64Max s.position 1 = some (s.position + 1) := by
        refine checkedAdd_eq_some.mpr ⟨rfl, (Nat.add_le_add_right hi32 1).trans ?_⟩
        decide
      rw [hposition]
      have hgrown := CellChange.grown (s := s) 1 hlength (by rw [hinvalid.2]; nofun) (hok written rfl)
      rw [← hinvalid.2] at hgrown
      exact ⟨c', hmodel, hgrown⟩

theorem prefillChecked_steps (hn : n.Lawful cells) (s : GgufSequence) (input : PrefillInput) (logits : List F32)
    (cancellation : CancellationStatus) : model.Steps cells s (model.prefillChecked n s input logits cancellation).2.2 := by
  unfold prefillChecked
  split
  · exact .same model s
  dsimp only
  split_ifs with hfinished havailable hlogits
  · exact .same model s
  · exact .same model s
  · exact .same model s
  have hsteps := model.prefillPrepared_steps hn s input logits (not_lt.mp havailable)
  split
  next hprepared => rwa [hprepared] at hsteps
  next hprepared => rwa [hprepared] at hsteps

theorem decodeChecked_steps (hn : n.Lawful cells) (s : GgufSequence) (token : TokenId) (logits : List F32)
    (cancellation : CancellationStatus) : model.Steps cells s (model.decodeChecked n s token logits cancellation).2.2 := by
  unfold decodeChecked
  split
  · exact .same model s
  dsimp only
  split_ifs with hready havailable hlogits
  · exact .same model s
  · exact .same model s
  · exact .same model s
  have hsteps := model.decodePrepared_steps hn s token logits (Nat.one_le_iff_ne_zero.mpr havailable)
  split
  next hprepared => rwa [hprepared] at hsteps
  next hprepared => rwa [hprepared] at hsteps

theorem resetSequence_steps (hn : n.Lawful cells) (s : GgufSequence) :
    model.Steps cells s (model.resetSequence n s).2 := by
  unfold resetSequence
  split_ifs
  · exact .same model s
  split
  · exact .same model s
  split
  next native hclear => exact ⟨native, rfl, .cleared (hn.cleared _ _ _ hclear)⟩
  next answer native hne hclear =>
    exact ⟨native, rfl, .same (hn.kept _ _ _ _ hclear fun heq => hne (by rw [heq]))⟩

end GgufModel

end LlmApp
