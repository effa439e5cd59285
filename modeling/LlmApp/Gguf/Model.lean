/-
# The GGUF model and its sequences

A loaded GGUF model owns one llama.cpp context, whose KV cache all its sequences
share. A sequence has a slot of the model's table, which is its sequence
identifier in the native cache, and counts the positions it has filled there.

The native context is code outside the repository. It is a state `κ` and the
methods that the model calls on it (`NativeContext`): what they return, and what
they do to the state, is a parameter. So is whether a token batch accepts one
more entry. The model clears its batch before each use, so here a batch is made
anew.

`prefillChecked` and `decodeChecked` are the functions of `domain-contracts`
through which the runtime steps a sequence, at this model.

Key definitions: `NativeContext`, `GgufModel`, `GgufSequence`,
`GgufModel.createSequence`, `GgufModel.prefillChecked`,
`GgufModel.decodeChecked`, `GgufModel.resetSequence`,
`GgufModel.destroySequence`, `GgufModel.prepareUnload`.
-/
import LlmApp.Backend
import LlmApp.Data.Except

namespace LlmApp

def i32Max : ℕ := 2147483647

/-- `i32::try_from(value)`. -/
def toI32 (value : ℕ) : Option ℕ := if value ≤ i32Max then some value else none

/-! ### The native context -/

/-- A token of a batch, where it goes in the cache, and whether its logits are wanted. -/
structure BatchEntry where
  token : ℕ
  position : ℕ
  sequenceId : ℕ
  logits : Bool
deriving DecidableEq, Repr

/-- The native methods. `clearKvCacheSeq` returns `none` for an error. -/
structure NativeContext (κ : Type) where
  contextTokens : κ → ℕ
  batchTokens : κ → ℕ
  microBatchTokens : κ → ℕ
  batchAccepts : List BatchEntry → BatchEntry → Bool
  decode : κ → List BatchEntry → Bool × κ
  getLogits : κ → List F32
  clearKvCacheSeq : κ → ℕ → Option Bool × κ
  clearKvCache : κ → κ

/-! ### The model -/

structure GgufExecutionConfiguration where
  contextTokensPerSequence : NonZeroU32
  maximumPrefillBatch : NonZeroU32
  microBatchTokens : NonZeroU32
  maximumSequences : NonZeroU32

inductive SlotState where
  | free | occupied
deriving DecidableEq, Repr

structure GgufModel (κ : Type) where
  backend : BackendId
  execution : GgufExecutionConfiguration
  vocabularySize : ℕ
  native : κ
  occupiedSlots : List SlotState
  unloading : Bool

/-- A sequence of the model. -/
structure GgufSequence where
  id : SequenceId
  nativeSlot : ℕ
  state : SequenceState
  position : ℕ
  tokenCapacity : ℕ
  maximumPrefill : ℕ
deriving DecidableEq, Repr

/-! ### Errors -/

def codeNumericOverflow : ℕ := 4
def codeBatchAdd : ℕ := 7
def codeDecode : ℕ := 8
def codeKvClear : ℕ := 9
def codeSequenceSlot : ℕ := 11

def batchSequenceError (backend : BackendId) : SequenceError := .backend ⟨backend, .invalidState, codeBatchAdd⟩
def decodeSequenceError (backend : BackendId) : SequenceError := .backend ⟨backend, .deviceExecution, codeDecode⟩
def kvClearError (backend : BackendId) : SequenceError := .backend ⟨backend, .foreignFunction, codeKvClear⟩
def sequenceSlotError (backend : BackendId) : SequenceError := .backend ⟨backend, .invalidState, codeSequenceSlot⟩
def numericModelError (backend : BackendId) : ModelError := .backend ⟨backend, .invalidModel, codeNumericOverflow⟩
def numericSequenceError (backend : BackendId) : SequenceError :=
  .backend ⟨backend, .invalidModel, codeNumericOverflow⟩

namespace GgufModel

variable {κ : Type} (n : NativeContext κ)

/-- The model around a new context, if there is one and it is as large as asked
for; `reserved` says whether the slot table was allocated. -/
def new (backend : BackendId) (vocabularySize : ℕ) (execution : GgufExecutionConfiguration) (context : Option κ)
    (reserved : Bool) : Option (GgufModel κ) := do
  let native ← context
  let expectedContext ← checkedMul u32Max execution.contextTokensPerSequence.get execution.maximumSequences.get
  guard (expectedContext ≤ n.contextTokens native ∧ execution.maximumPrefillBatch.get ≤ n.batchTokens native ∧
    execution.microBatchTokens.get ≤ n.microBatchTokens native)
  guard reserved
  return {
    backend, execution, vocabularySize, native
    occupiedSlots := List.replicate execution.maximumSequences.get .free
    unloading := false }

variable (model : GgufModel κ)

/-! ### Slots -/

def allocateSlot : Except ModelError ℕ × GgufModel κ :=
  match model.occupiedSlots.findIdx? (· = .free) with
  | none =>
    let available := model.occupiedSlots.length
    (.error (.capacityExhausted ⟨.activeSequences, saturatingAdd u64Max available 1, available⟩), model)
  | some index =>
    match model.occupiedSlots[index]? with
    | none => (.error (numericModelError model.backend), model)
    | some _ =>
      let model := { model with occupiedSlots := model.occupiedSlots.set index .occupied }
      if index ≤ u32Max then (.ok index, model) else (.error (numericModelError model.backend), model)

def validateNativeSlot (nativeSlot : ℕ) : Except SequenceError ℕ := do
  let state ← Except.okOr model.occupiedSlots[nativeSlot]? (sequenceSlotError model.backend)
  Except.failIf (state ≠ .occupied) (sequenceSlotError model.backend)
  return nativeSlot

def releaseNativeSlot (nativeSlot : ℕ) : Except SequenceError Unit × GgufModel κ :=
  match model.validateNativeSlot nativeSlot with
  | .error e => (.error e, model)
  | .ok index =>
    match n.clearKvCacheSeq model.native nativeSlot with
    | (some true, native) =>
      let model := { model with native := native }
      match model.occupiedSlots[index]? with
      | none => (.error (sequenceSlotError model.backend), model)
      | some _ => (.ok (), { model with occupiedSlots := model.occupiedSlots.set index .free })
    | (_, native) => (.error (kvClearError model.backend), { model with native := native })

/-! ### Steps -/

def tokenToNative (token : TokenId) (backend : BackendId) : Except SequenceError ℕ :=
  Except.okOr (toI32 token) (numericSequenceError backend)

/-- `copy_logits`: the logits slice after it, and how much of it was written. -/
def copyLogits (source destination : List F32) : Except SequenceError ℕ × List F32 :=
  if destination.length < source.length then
    (.error (.capacityExhausted ⟨.logits, source.length, destination.length⟩), destination)
  else (.ok source.length, source ++ destination.drop source.length)

/-- `batch.add(..)`. -/
def batchAdd (backend : BackendId) (batch : List BatchEntry) (entry : BatchEntry) :
    Except SequenceError (List BatchEntry) := do
  Except.failIf (n.batchAccepts batch entry = false) (batchSequenceError backend)
  return batch ++ [entry]

/-- The loop of `execute_prefill` over the tokens from `offset` on. -/
def prefillBatch (backend : BackendId) (position sequenceId lastIndex : ℕ) (emitLogits : Bool) :
    ℕ → List TokenId → List BatchEntry → Except SequenceError (List BatchEntry)
  | _, [], batch => .ok batch
  | offset, token :: tokens, batch => do
    let token ← tokenToNative token backend
    let absolutePosition ← Except.okOr (checkedAdd u64Max position offset) (numericSequenceError backend)
    let nativePosition ← Except.okOr (toI32 absolutePosition) (numericSequenceError backend)
    let batch ← batchAdd n backend batch ⟨token, nativePosition, sequenceId, emitLogits && offset = lastIndex⟩
    prefillBatch backend position sequenceId lastIndex emitLogits (offset + 1) tokens batch

/-- The batch that `execute_prefill` submits. -/
def submitPrefill (sequence : GgufSequence) (input : PrefillInput) : Except SequenceError (List BatchEntry) := do
  let _ ← model.validateNativeSlot sequence.nativeSlot
  let sequenceId ← Except.okOr (toI32 sequence.nativeSlot) (numericSequenceError model.backend)
  prefillBatch n model.backend sequence.position sequenceId (input.tokens.length - 1) input.emitLogits 0 input.tokens []

/-- Decode a batch and copy the logits if they are wanted: the end of
`execute_prefill` and of `execute_decode`. -/
def submit (batch : List BatchEntry) (wanted : Bool) (logits : List F32) :
    Except SequenceError ℕ × List F32 × GgufModel κ :=
  match n.decode model.native batch with
  | (false, native) => (.error (decodeSequenceError model.backend), logits, { model with native := native })
  | (true, native) =>
    let model := { model with native := native }
    if wanted then
      let (result, logits) := copyLogits (n.getLogits native) logits
      (result, logits, model)
    else (.ok 0, logits, model)

def executePrefill (sequence : GgufSequence) (input : PrefillInput) (logits : List F32) :
    Except SequenceError ℕ × List F32 × GgufModel κ :=
  match model.submitPrefill n sequence input with
  | .error e => (.error e, logits, model)
  | .ok batch => model.submit n batch input.emitLogits logits

/-- The batch that `execute_decode` submits. -/
def submitDecode (sequence : GgufSequence) (token : TokenId) : Except SequenceError (List BatchEntry) := do
  let _ ← model.validateNativeSlot sequence.nativeSlot
  let sequenceId ← Except.okOr (toI32 sequence.nativeSlot) (numericSequenceError model.backend)
  let position ← Except.okOr (toI32 sequence.position) (numericSequenceError model.backend)
  let token ← tokenToNative token model.backend
  batchAdd n model.backend [] ⟨token, position, sequenceId, true⟩

def executeDecode (sequence : GgufSequence) (token : TokenId) (logits : List F32) :
    Except SequenceError ℕ × List F32 × GgufModel κ :=
  match model.submitDecode n sequence token with
  | .error e => (.error e, logits, model)
  | .ok batch => model.submit n batch true logits

/-! ### The methods of the loaded model -/

def planSequence (configuration : SequenceConfiguration) : Except ModelError SequencePlan := do
  Except.failIf (model.unloading = true) .invalidState
  Except.failIf (model.execution.contextTokensPerSequence.get < configuration.maximumTokens.get ∨
    model.execution.maximumPrefillBatch.get < configuration.maximumPrefillBatch.get ∨
    configuration.maximumTokens.get < configuration.maximumPrefillBatch.get) .unsupported
  return ⟨configuration, 0, model.vocabularySize⟩

def createSequence (sequenceId : SequenceId) (configuration : SequenceConfiguration) :
    Except ModelError GgufSequence × GgufModel κ :=
  match model.planSequence configuration with
  | .error e => (.error e, model)
  | .ok _ =>
    match model.allocateSlot with
    | (.error e, model) => (.error e, model)
    | (.ok nativeSlot, model) =>
      (.ok {
        id := sequenceId
        nativeSlot
        state := .empty
        position := 0
        tokenCapacity := configuration.maximumTokens.get
        maximumPrefill := configuration.maximumPrefillBatch.get }, model)

def prefillBufferRequirements (input : PrefillInput) : ℕ := if input.emitLogits then model.vocabularySize else 0

def decodeBufferRequirements : ℕ := model.vocabularySize

def prefillPrepared (sequence : GgufSequence) (input : PrefillInput) (logits : List F32) :
    Except SequenceError PrefillOutcome × List F32 × GgufSequence × GgufModel κ :=
  if model.unloading = true ∨ sequence.state = .finished ∨ input.tokens = [] then
    (.error .invalidState, logits, sequence, model)
  else if sequence.maximumPrefill < input.tokens.length then
    (.error (.capacityExhausted ⟨.prefillBatch, input.tokens.length, sequence.maximumPrefill⟩), logits, sequence, model)
  else
  match model.executePrefill n sequence input logits with
  | (.error e, logits, model) => (.error e, logits, { sequence with state := .finished }, model)
  | (.ok written, logits, model) =>
    match checkedAdd u64Max sequence.position input.tokens.length with
    | none => (.error (numericSequenceError model.backend), logits, sequence, model)
    | some position =>
      (.ok (.ready input.tokens.length position written), logits,
        { sequence with position := position, state := .ready }, model)

def decodePrepared (sequence : GgufSequence) (token : TokenId) (logits : List F32) :
    Except SequenceError DecodeOutcome × List F32 × GgufSequence × GgufModel κ :=
  if model.unloading = true ∨ sequence.state ≠ .ready then (.error .invalidState, logits, sequence, model)
  else
  match model.executeDecode n sequence token logits with
  | (.error e, logits, model) => (.error e, logits, { sequence with state := .finished }, model)
  | (.ok written, logits, model) =>
    match checkedAdd u64Max sequence.position 1 with
    | none => (.error (numericSequenceError model.backend), logits, sequence, model)
    | some position => (.ok (.ready position written), logits, { sequence with position := position }, model)

def destroySequence (sequence : GgufSequence) : Except SequenceError Unit × GgufSequence × GgufModel κ :=
  match model.releaseNativeSlot n sequence.nativeSlot with
  | (.error e, model) => (.error e, sequence, model)
  | (.ok (), model) => (.ok (), { sequence with position := 0, state := .finished }, model)

def resetSequence (sequence : GgufSequence) : Except SequenceError Unit × GgufSequence × GgufModel κ :=
  if model.unloading = true ∨ sequence.state = .finished then (.error .invalidState, sequence, model)
  else
  match model.validateNativeSlot sequence.nativeSlot with
  | .error e => (.error e, sequence, model)
  | .ok _ =>
    match n.clearKvCacheSeq model.native sequence.nativeSlot with
    | (some true, native) =>
      (.ok (), { sequence with position := 0, state := .empty }, { model with native := native })
    | (_, native) => (.error (kvClearError model.backend), sequence, { model with native := native })

def synchronize : Except SynchronizationError Unit :=
  Except.failIf (model.unloading = true) .invalidState

def prepareUnload : Except SynchronizationError Unit × GgufModel κ :=
  if model.unloading = true ∨ model.occupiedSlots.contains .occupied = true then (.error .invalidState, model)
  else (.ok (), { model with native := n.clearKvCache model.native, unloading := true })

/-! ### Checked steps -/

/-- An error of the backend as `prefill_checked` and `decode_checked` return it. -/
def checkedError {Outcome : Type} (finished : FinishReason → Outcome) : SequenceError → Except SequenceError Outcome
  | .capacityExhausted capacity => .ok (finished (.bufferExhausted capacity))
  | .cancelled reason => .ok (finished (.cancelled reason))
  | error => .error error

def prefillChecked (sequence : GgufSequence) (input : PrefillInput) (logits : List F32)
    (cancellation : CancellationStatus) : Except SequenceError PrefillOutcome × List F32 × GgufSequence × GgufModel κ :=
  match cancellation.reason with
  | some reason => (.ok (.finished (.cancelled reason)), logits, sequence, model)
  | none =>
  if sequence.state = .finished then (.error .invalidState, logits, sequence, model)
  else
  let availableTokens := sequence.tokenCapacity - sequence.position
  if availableTokens < input.tokens.length then
    (.ok (.finished (.bufferExhausted ⟨.tokens, input.tokens.length, availableTokens⟩)), logits, sequence, model)
  else
  let required := model.prefillBufferRequirements input
  if logits.length < required then
    (.ok (.finished (.bufferExhausted ⟨.logits, required, logits.length⟩)), logits, sequence, model)
  else
  match model.prefillPrepared n sequence input logits with
  | (.ok outcome, rest) => (.ok outcome, rest)
  | (.error error, rest) => (checkedError .finished error, rest)

def decodeChecked (sequence : GgufSequence) (token : TokenId) (logits : List F32) (cancellation : CancellationStatus) :
    Except SequenceError DecodeOutcome × List F32 × GgufSequence × GgufModel κ :=
  match cancellation.reason with
  | some reason => (.ok (.finished (.cancelled reason)), logits, sequence, model)
  | none =>
  if sequence.state ≠ .ready then (.error .invalidState, logits, sequence, model)
  else
  let availableTokens := sequence.tokenCapacity - sequence.position
  if availableTokens = 0 then
    (.ok (.finished (.bufferExhausted ⟨.tokens, 1, 0⟩)), logits, sequence, model)
  else
  let required := model.decodeBufferRequirements
  if logits.length < required then
    (.ok (.finished (.bufferExhausted ⟨.logits, required, logits.length⟩)), logits, sequence, model)
  else
  match model.decodePrepared n sequence token logits with
  | (.ok outcome, rest) => (.ok outcome, rest)
  | (.error error, rest) => (checkedError .finished error, rest)

end GgufModel

end LlmApp
