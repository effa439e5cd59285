/-
# The generation scheduler

The tasks of all scheduled generations by request, the cursor of their
round-robin turns, admission with its validation and accounting, and the
cancellations that dispatch records on tasks. `GenerationScheduler::admit` is
`admitGeneration` here; its checks before the registry is asked are
`checkRequest`, and `allocates` says which of its host allocations succeed.

Key definitions: `GenerationScheduler`, `generationWorkspaceFootprint`,
`GenerationScheduler.admitGeneration`, `GenerationScheduler.advance`,
`GenerationScheduler.requestModelCancellation`.
-/
import LlmApp.Generation.Task

namespace LlmApp

structure GenerationAdmission where
  request : RequestStartReceipt
  schedulerQuantum : NonZeroU32
deriving DecidableEq, Repr

structure GenerationScheduler (τ : Type) where
  requests : OrdMap RequestId (GenerationTask τ)
  cursor : Option RequestId

/-! ### Workspaces -/

/-- `Vec::<T>::with_capacity(length)` in bytes, for elements of `size` bytes. -/
def allocationBytes (size length : ℕ) : Except RuntimeError ℕ :=
  Except.okOr (checkedMul u64Max length size) .memoryArithmeticOverflow

def sizeOfF32 : ℕ := 4
def sizeOfU32 : ℕ := 4
def sizeOfTokenId : ℕ := 4

/-- A code and a boxed slice. -/
def sizeOfGenerationStopSequence : ℕ := 24

def checkedSum (values : List ℕ) : Except RuntimeError ℕ :=
  values.foldlM (fun total value => Except.okOr (checkedAdd u64Max total value) .memoryArithmeticOverflow) 0

def stopTokenBytes : ℕ → List GenerationStopSequence → Except RuntimeError ℕ
  | total, [] => .ok total
  | total, stop :: stops => do
    let bytes ← allocationBytes sizeOfTokenId stop.tokens.length
    let total ← Except.okOr (checkedAdd u64Max total bytes) .memoryArithmeticOverflow
    stopTokenBytes total stops

def generationWorkspaceFootprint (vocabularySize historyCapacity generatedCapacity promptTokens
    eosTokens : ℕ) (stopSequences : List GenerationStopSequence) : Except RuntimeError MemoryFootprint := do
  let logits ← allocationBytes sizeOfF32 vocabularySize
  let samplingIndices ← allocationBytes sizeOfU32 vocabularySize
  let repetitionEpochs ← allocationBytes sizeOfU32 vocabularySize
  let history ← allocationBytes sizeOfTokenId historyCapacity
  let generated ← allocationBytes sizeOfTokenId generatedCapacity
  let prompt ← allocationBytes sizeOfTokenId promptTokens
  let eos ← allocationBytes sizeOfTokenId eosTokens
  let stopDescriptors ← allocationBytes sizeOfGenerationStopSequence stopSequences.length
  let stopTokens ← stopTokenBytes 0 stopSequences
  let hostWorkingBytes ← checkedSum
    [logits, samplingIndices, repetitionEpochs, history, generated, prompt, eos, stopDescriptors, stopTokens]
  return { hostWorkingBytes := hostWorkingBytes }

/-! ### Admission -/

def capacityError (resource : CapacityResource) (required available : ℕ) : RuntimeError :=
  .capacityExhausted ⟨resource, saturatingU64 required, saturatingU64 available⟩

def tokenCapacity (required available : ℕ) : RuntimeError := capacityError .tokens required available

/-- Reserve exactly `length` elements for `resource`. -/
def reserve (allocates : CapacityResource → Bool) (length : ℕ) (resource : CapacityResource) :
    Except RuntimeError Unit :=
  Except.failIf (allocates resource = false) (.capacityExhausted ⟨resource, saturatingU64 length, 0⟩)

/-- The checks of an admission before the registry is asked, and the sequence
capacity it needs. -/
def checkRequest (capacities : ℕ × ℕ) (request : GenerationRequest) : Except RuntimeError ℕ := do
  Except.failIf (request.promptTokens.isEmpty = true) (tokenCapacity 1 0)
  let maximumPrefillBatch := request.sequence.maximumPrefillBatch.get
  Except.failIf (maximumPrefillBatch < request.promptTokens.length)
    (tokenCapacity request.promptTokens.length maximumPrefillBatch)
  let (tokenOutputCapacity, recordOutputCapacity) := capacities
  Except.failIf (tokenOutputCapacity < request.outputCapacity.minimumTokens)
    (capacityError .tokens request.outputCapacity.minimumTokens tokenOutputCapacity)
  Except.failIf (recordOutputCapacity < request.outputCapacity.minimumRecords)
    (capacityError .outputRecords request.outputCapacity.minimumRecords recordOutputCapacity)
  Except.failIf ((request.stopSequences.any fun stop => stop.tokens.isEmpty) = true) (tokenCapacity 1 0)
  let sequenceCapacity := request.sequence.maximumTokens.get
  let requiredSequence ← Except.okOr
    (checkedAdd u64Max request.promptTokens.length request.maximumGeneratedTokens.get)
    RuntimeError.memoryArithmeticOverflow
  Except.failIf (sequenceCapacity < requiredSequence) (tokenCapacity requiredSequence sequenceCapacity)
  return requiredSequence

/-- What an admission reads of the model, and the task's sampler and workspace. -/
def prepareGeneration {σ τ : Type} (s : Sampling τ) (rt : InferenceRuntime σ) (handle : ModelHandle)
    (request : GenerationRequest) (requiredSequence : ℕ) :
    Except RuntimeError (ℕ × τ × MemoryFootprint) := do
  let snapshot ← rt.exactModelSnapshot handle
  Except.failIf (snapshot.degraded = true) (RuntimeError.modelDegraded handle.id)
  let vocabularySize := snapshot.descriptor.metadata.vocabularySize
  let sampler ← (s.new request.sampling request.seed).mapError RuntimeError.sampling
  let workspaceFootprint ← generationWorkspaceFootprint vocabularySize requiredSequence
    request.maximumGeneratedTokens.get request.promptTokens.length request.eosTokens.length
    request.stopSequences
  return (vocabularySize, sampler, workspaceFootprint)

/-- The host allocations of a task's workspace. -/
def reserveWorkspace (allocates : CapacityResource → Bool) (vocabularySize requiredSequence : ℕ)
    (request : GenerationRequest) : Except RuntimeError Unit := do
  reserve allocates vocabularySize .logits
  reserve allocates vocabularySize .samplingIndices
  reserve allocates vocabularySize .samplingMask
  reserve allocates requiredSequence .repetitionHistory
  reserve allocates request.maximumGeneratedTokens.get .tokens

namespace GenerationScheduler

variable {σ Source τ : Type}

def new : GenerationScheduler τ := ⟨.empty, none⟩

section State

variable (sch : GenerationScheduler τ)

def contains (requestId : RequestId) : Bool := sch.requests.contains requestId

/-- A task as admission makes it. -/
def newTask (handle : ModelHandle) (request : GenerationRequest) (vocabularySize : ℕ) (sampler : τ)
    (workspaceFootprint : MemoryFootprint) : GenerationTask τ where
  handle := handle
  workspaceFootprint := workspaceFootprint
  promptTokens := request.promptTokens
  maximumGeneratedTokens := request.maximumGeneratedTokens.get
  eosTokens := request.eosTokens
  stopSequences := request.stopSequences
  schedulerQuantum := request.schedulerQuantum
  sampler := sampler
  logits := List.replicate vocabularySize 0
  samplingIndices := List.replicate vocabularySize 0
  repetitionEpochs := List.replicate vocabularySize 0
  history := request.promptTokens
  generated := []
  phase := .prefill
  pendingToken := none
  cancellation := none
  pendingYield := none

/-- The registry's half of an admission: its preflight, the host allocations
between, and the start. -/
def startGeneration (b : Backend σ Source) (rt : InferenceRuntime σ) (allocates : CapacityResource → Bool)
    (handle : ModelHandle) (request : GenerationRequest) (requiredSequence vocabularySize : ℕ)
    (workspaceFootprint : MemoryFootprint) : Answer σ RequestStartReceipt :=
  match rt.preflightGenerationResources b handle request.requestId request.sequenceId request.sequence
      workspaceFootprint vocabularySize with
  | (.error e, rt) => (.error e, rt)
  | (.ok _, rt) =>
  match reserveWorkspace allocates vocabularySize requiredSequence request with
  | .error e => (.error e, rt)
  | .ok () =>
  match rt.startGenerationRequest b handle request.requestId request.sequenceId request.sequence
      workspaceFootprint vocabularySize with
  | (.error e, rt) => (.error e, rt)
  | (.ok receipt, rt) =>
  if receipt.logitsCapacity ≠ vocabularySize then
    let primary := RuntimeError.backendContractViolation
    let (cleanup, rt) := rt.failRequest b request.requestId .sequenceAdmission primary.failureClass
    match rt.releaseGenerationWorkspace workspaceFootprint with
    | (.error e, rt) => (.error e, rt)
    | (.ok (), rt) =>
    match cleanup with
    | .error e => (.error e, rt)
    | .ok () => (.error primary, rt)
  else (.ok receipt, rt)

/-- Admit a generation: its answer, and the scheduler and registry after it. -/
def admitGeneration (b : Backend σ Source) (s : Sampling τ) (rt : InferenceRuntime σ) (capacities : ℕ × ℕ)
    (allocates : CapacityResource → Bool) (handle : ModelHandle) (request : GenerationRequest) :
    Except RuntimeError GenerationAdmission × GenerationScheduler τ × InferenceRuntime σ :=
  if sch.contains request.requestId then (.error (.requestAlreadyActive request.requestId), sch, rt)
  else
  match checkRequest capacities request with
  | .error e => (.error e, sch, rt)
  | .ok requiredSequence =>
  match prepareGeneration s rt handle request requiredSequence with
  | .error e => (.error e, sch, rt)
  | .ok (vocabularySize, sampler, workspaceFootprint) =>
  match startGeneration b rt allocates handle request requiredSequence vocabularySize workspaceFootprint with
  | (.error e, rt) => (.error e, sch, rt)
  | (.ok receipt, rt) =>
    (.ok ⟨receipt, request.schedulerQuantum⟩,
      { sch with
        requests := sch.requests.insert request.requestId
          (newTask handle request vocabularySize sampler workspaceFootprint) }, rt)

/-! ### Cancellation -/

def requestCancellation (requestId : RequestId) (reason : CancellationReason) :
    Except RuntimeError Unit × GenerationScheduler τ :=
  match sch.requests.get? requestId with
  | none => (.error (.requestNotActive requestId), sch)
  | some task =>
    (.ok (), { sch with
      requests := sch.requests.insert requestId { task with cancellation := some reason } })

/-- Every task of the model, whatever its generation, is to be cancelled. -/
def requestModelCancellation (modelId : ModelId) (reason : CancellationReason) : GenerationScheduler τ :=
  { sch with
    requests := sch.requests.mapValues fun _ task =>
      if task.handle.id = modelId then { task with cancellation := some reason } else task }

theorem requestModelCancellation_get? (modelId : ModelId) (reason : CancellationReason)
    (requestId : RequestId) : (sch.requestModelCancellation modelId reason).requests.get? requestId =
      (sch.requests.get? requestId).map fun task =>
        if task.handle.id = modelId then { task with cancellation := some reason } else task :=
  OrdMap.get?_mapValues ..

/-- Drop every task: the first error of the releases of their workspaces. -/
def releaseAll : List (GenerationTask τ) → Option RuntimeError → InferenceRuntime σ → Answer σ Unit
  | [], none, rt => (.ok (), rt)
  | [], some e, rt => (.error e, rt)
  | task :: tasks, first, rt =>
    match rt.releaseGenerationWorkspace task.workspaceFootprint with
    | (.ok (), rt) => releaseAll tasks first rt
    | (.error e, rt) => releaseAll tasks (first.or (some e)) rt

def discardAll (rt : InferenceRuntime σ) : Except RuntimeError Unit × GenerationScheduler τ × InferenceRuntime σ :=
  let answer := releaseAll sch.requests.values none rt
  (answer.1, new, answer.2)

/-! ### Turns -/

/-- The next request after the cursor, or else the first. -/
def nextRequest : Option RequestId :=
  match sch.cursor.bind sch.requests.after? with
  | some (requestId, _) => some requestId
  | none => sch.requests.first?.map (·.1)

/-- What a turn of the scheduler returned and left. -/
structure Advanced (σ τ : Type) where
  result : SchedulerAdvance
  scheduler : GenerationScheduler τ
  runtime : InferenceRuntime σ
  output : TokenOutput GenerationOutputState

/-- The end of a completed task: its workspace is released. -/
def finishTask (rt : InferenceRuntime σ) (task : GenerationTask τ) : InferenceRuntime σ :=
  match rt.releaseGenerationWorkspace task.workspaceFootprint with
  | (.ok (), rt) => rt
  | (.error error, rt) => rt.recordMaintenanceError error

def advance (b : Backend σ Source) (s : Sampling τ) (rt : InferenceRuntime σ)
    (output : TokenOutput GenerationOutputState) : Advanced σ τ :=
  match sch.nextRequest with
  | none => ⟨idle, sch, rt, output⟩
  | some requestId =>
  let sch := { sch with cursor := some requestId }
  match sch.requests.get? requestId with
  | none => ⟨idle, sch, rt, output⟩
  | some task =>
  let turn := advanceTask b s rt requestId task output
  let sch := { sch with requests := sch.requests.insert requestId turn.task }
  if turn.result.completed = some requestId then
    ⟨turn.result, { sch with requests := sch.requests.erase requestId },
      finishTask turn.runtime turn.task, turn.output⟩
  else ⟨turn.result, sch, turn.runtime, turn.output⟩

end State

end GenerationScheduler

end LlmApp
