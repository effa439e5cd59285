/-
# The registry of the inference runtime

The errors, receipts and limits of the runtime, and its state: models in
slots with their active and quarantined sequences, models held only for
cleanup, four identity indices, the counters and the two footprint totals.

The maps are ordered by key, as the source's `BTreeMap`s are. A model and a
sequence are held by reference (`LlmApp.Backend`): a value in no slot and no
pending entry is a value the runtime has dropped.

Key definitions: `RuntimeError`, `ModelSlot`, `PendingModel`,
`InferenceRuntime`, `admitFootprint`, `checkedAddFootprint`,
`checkedSubFootprint`.
Key theorems: `checkedAddFootprint_ok`, `checkedSubFootprint_ok`.
-/
import LlmApp.Data.Except
import LlmApp.Data.OrdMap
import LlmApp.Lifecycle
import LlmApp.Backend

namespace LlmApp

/-! ### Failures -/

inductive RuntimeOperation where
  | modelAdmission | sequenceAdmission | prefill | decode | sampling | completion | cancellation
  | sequenceDestruction | modelUnload | shutdown
deriving DecidableEq, Repr

inductive FailureClass where
  | backendContract | load | model | sequence | synchronization | lifecycle | capacity | sampling
  | completion | cancellation | shutdown | invariant
deriving DecidableEq, Repr

/-- A primary failure and the cleanup failure that followed it. -/
structure CleanupFailureReport where
  primaryOperation : RuntimeOperation
  primaryFailure : FailureClass
  cleanupOperation : RuntimeOperation
  cleanupFailure : FailureClass
deriving DecidableEq, Repr

inductive CleanupResource where
  | model (modelId : ModelId)
  | sequence (modelId : ModelId) (requestId : RequestId) (sequenceId : SequenceId)
deriving DecidableEq, Repr

structure CleanupRetryState where
  resource : CleanupResource
  failure : CleanupFailureReport
  attempts : ℕ
  maximumAttempts : ℕ
deriving DecidableEq, Repr

def CleanupRetryState.exhausted (s : CleanupRetryState) : Bool := s.maximumAttempts ≤ s.attempts

/-- The result of one turn of cleanup maintenance. -/
inductive CleanupPoll where
  | idle
  | released (state : CleanupRetryState)
  | retryFailed (state : CleanupRetryState)
  | exhausted (state : CleanupRetryState)
deriving DecidableEq, Repr

inductive SamplingFailure where
  | invalidConfiguration | noCandidate | invalidInput
  | capacityExhausted (capacity : CapacityExhausted)
deriving DecidableEq, Repr

inductive MemoryKind where
  | host | device
deriving DecidableEq, Repr

inductive RuntimeError where
  | modelAlreadyLoaded (modelId : ModelId)
  | modelNotLoaded (modelId : ModelId)
  | staleModelHandle (provided current : ModelHandle)
  | requestAlreadyActive (requestId : RequestId)
  | requestNotActive (requestId : RequestId)
  | sequenceAlreadyActive (sequenceId : SequenceId)
  | modelGenerationExhausted (modelId : ModelId)
  | shuttingDown
  | loadedModelLimit (required available : ℕ)
  | memoryArithmeticOverflow
  | memoryArithmeticUnderflow
  | capacityExhausted (capacity : CapacityExhausted)
  | insufficientMemory (kind : MemoryKind) (requiredBytes availableBytes : ℕ)
  | load (error : LoadError)
  | model (error : ModelError)
  | sequence (error : SequenceError)
  | synchronization (error : SynchronizationError)
  | lifecycle (error : LifecycleError)
  | backendContractViolation
  | modelDegraded (modelId : ModelId)
  | sampling (failure : SamplingFailure)
  | cleanupFailed (report : CleanupFailureReport)
  | cleanupRetryExhausted (state : CleanupRetryState)
deriving DecidableEq, Repr

namespace RuntimeError

/-- The stable class used in cleanup reports. -/
def failureClass : RuntimeError → FailureClass
  | .load _ => .load
  | .model _ => .model
  | .sequence _ => .sequence
  | .synchronization _ => .synchronization
  | .lifecycle _ => .lifecycle
  | .capacityExhausted _ | .insufficientMemory .. | .loadedModelLimit .. => .capacity
  | .sampling _ => .sampling
  | .shuttingDown => .shutdown
  | .backendContractViolation => .backendContract
  | .cleanupFailed report => report.primaryFailure
  | .cleanupRetryExhausted state => state.failure.primaryFailure
  | .modelAlreadyLoaded _ | .modelNotLoaded _ | .staleModelHandle .. | .requestAlreadyActive _
  | .requestNotActive _ | .sequenceAlreadyActive _ | .modelGenerationExhausted _
  | .memoryArithmeticOverflow | .memoryArithmeticUnderflow | .modelDegraded _ => .invariant

/-- The error reports a retained resource: the pattern
`CleanupFailed(_) | CleanupRetryExhausted(_)` of the source. -/
def isCleanup : RuntimeError → Bool
  | .cleanupFailed _ | .cleanupRetryExhausted _ => true
  | _ => false

end RuntimeError

/-! ### Limits and receipts -/

structure CleanupRetryPolicy where
  maximumAttempts : NonZeroU32
deriving DecidableEq, Repr

structure RuntimeLimits where
  maximumLoadedModels : NonZeroU32
  maximumActiveRequests : NonZeroU32
  memoryBudget : MemoryBudget
  cleanupRetry : CleanupRetryPolicy
deriving DecidableEq, Repr

structure LoadReceipt where
  handle : ModelHandle
  descriptor : ModelDescriptor
  reservedFootprint : MemoryFootprint
deriving DecidableEq, Repr

structure RequestStartReceipt where
  requestId : RequestId
  sequenceId : SequenceId
  logitsCapacity : ℕ
  reservedFootprint : MemoryFootprint
deriving DecidableEq, Repr

structure PrefillReceipt where
  outcome : PrefillOutcome
  usage : GenerationUsage
deriving DecidableEq, Repr

structure DecodeReceipt where
  outcome : DecodeOutcome
  usage : GenerationUsage
deriving DecidableEq, Repr

inductive UnloadStatus where
  | alreadyAbsent | draining | unloaded
deriving DecidableEq, Repr

structure UnloadReceipt where
  handle : ModelHandle
  status : UnloadStatus
  cancelledRequests : ℕ
deriving DecidableEq, Repr

structure RuntimeSnapshot where
  loadedModels : ℕ
  activeRequests : ℕ
  reservedFootprint : MemoryFootprint
  generationWorkspaces : ℕ
  reservedGenerationWorkspace : MemoryFootprint
  pendingCleanupModels : ℕ
  pendingCleanupSequences : ℕ
  exhaustedCleanupModels : ℕ
  exhaustedCleanupSequences : ℕ
  lastCleanup : Option CleanupRetryState
  maintenanceError : Option RuntimeError
  shuttingDown : Bool
deriving DecidableEq, Repr

structure ModelSnapshot where
  handle : ModelHandle
  lifecycle : ModelLifecycleState
  descriptor : ModelDescriptor
  reservedFootprint : MemoryFootprint
  activeRequests : ℕ
  pendingCleanupSequences : ℕ
  exhaustedCleanupSequences : ℕ
  degraded : Bool
deriving DecidableEq, Repr

structure ShutdownReceipt where
  unloadedModels : ℕ
  cancelledRequests : ℕ
deriving DecidableEq, Repr

/-! ### The state -/

structure RequestSlot where
  sequence : BackendSequence
  backendFootprint : MemoryFootprint
  workspaceFootprint : MemoryFootprint
  usage : GenerationUsage
deriving DecidableEq, Repr

/-- A sequence whose destruction failed. -/
structure PendingSequence where
  requestId : RequestId
  sequenceId : SequenceId
  sequence : BackendSequence
  footprint : MemoryFootprint
  failure : CleanupFailureReport
  attempts : ℕ
deriving DecidableEq, Repr

structure ModelSlot where
  handle : ModelHandle
  descriptor : ModelDescriptor
  lifecycle : ModelLifecycle
  model : ModelRef
  modelFootprint : MemoryFootprint
  reservedFootprint : MemoryFootprint
  requests : OrdMap RequestId RequestSlot
  pendingSequences : OrdMap RequestId PendingSequence
  poisoned : Bool
  cancelledRequestsDuringUnload : ℕ
deriving DecidableEq, Repr

/-- A model whose unload preparation failed. -/
structure PendingModel where
  model : ModelRef
  footprint : MemoryFootprint
  failure : CleanupFailureReport
  attempts : ℕ
  cancelledRequests : ℕ
deriving DecidableEq, Repr

structure InferenceRuntime (σ : Type) where
  loader : BackendState σ
  limits : RuntimeLimits
  models : OrdMap ModelId ModelSlot
  pendingModels : OrdMap ModelId PendingModel
  requestIndex : OrdMap RequestId ModelId
  sequenceIndex : OrdMap SequenceId RequestId
  pendingRequestIndex : OrdMap RequestId ModelId
  pendingSequenceIndex : OrdMap SequenceId RequestId
  generations : OrdMap ModelId ModelGeneration
  reservedFootprint : MemoryFootprint
  reservedGenerationWorkspace : MemoryFootprint
  activeRequests : ℕ
  generationWorkspaces : ℕ
  pendingCleanupSequences : ℕ
  lastCleanup : Option CleanupRetryState
  maintenanceError : Option RuntimeError
  shuttingDown : Bool
deriving Repr

/-- The result of a runtime operation, and the runtime after it: an error
keeps what was changed before it. -/
abbrev Answer (σ α : Type) := Except RuntimeError α × InferenceRuntime σ

/-! ### Footprint arithmetic -/

/-- Field by field; the first field that does not fit is the error. -/
def checkedAddFootprint (left right : MemoryFootprint) : Except RuntimeError MemoryFootprint := do
  let field (a b : ℕ) := Except.okOr (checkedAdd u64Max a b) RuntimeError.memoryArithmeticOverflow
  return {
    hostWeightBytes := ← field left.hostWeightBytes right.hostWeightBytes
    deviceWeightBytes := ← field left.deviceWeightBytes right.deviceWeightBytes
    hostWorkingBytes := ← field left.hostWorkingBytes right.hostWorkingBytes
    deviceWorkingBytes := ← field left.deviceWorkingBytes right.deviceWorkingBytes
    cacheBytesPerToken := ← field left.cacheBytesPerToken right.cacheBytesPerToken }

def checkedSubFootprint (left right : MemoryFootprint) : Except RuntimeError MemoryFootprint := do
  let field (a b : ℕ) := Except.okOr (checkedSub a b) RuntimeError.memoryArithmeticUnderflow
  return {
    hostWeightBytes := ← field left.hostWeightBytes right.hostWeightBytes
    deviceWeightBytes := ← field left.deviceWeightBytes right.deviceWeightBytes
    hostWorkingBytes := ← field left.hostWorkingBytes right.hostWorkingBytes
    deviceWorkingBytes := ← field left.deviceWorkingBytes right.deviceWorkingBytes
    cacheBytesPerToken := ← field left.cacheBytesPerToken right.cacheBytesPerToken }

def admitFootprint (current additional : MemoryFootprint) (budget : MemoryBudget) :
    Except RuntimeError MemoryFootprint := do
  let next ← checkedAddFootprint current additional
  Except.failIf (budget.hostBytes < next.hostBytes)
    (.insufficientMemory .host next.hostBytes budget.hostBytes)
  Except.failIf (budget.deviceBytes < next.deviceBytes)
    (.insufficientMemory .device next.deviceBytes budget.deviceBytes)
  return next

def remainingBudget (limit : MemoryBudget) (used : MemoryFootprint) : MemoryBudget where
  hostBytes := limit.hostBytes - used.hostBytes
  deviceBytes := limit.deviceBytes - used.deviceBytes

theorem checkedAddFootprint_ok {a b c : MemoryFootprint} :
    checkedAddFootprint a b = .ok c ↔ a + b = c ∧ c.Fits := by
  simp only [checkedAddFootprint, Except.bind_eq_ok, Except.okOr_eq_ok, Except.pure_eq_ok,
    checkedAdd_eq_some, MemoryFootprint.Fits]
  constructor
  · rintro ⟨_, ⟨rfl, h1⟩, _, ⟨rfl, h2⟩, _, ⟨rfl, h3⟩, _, ⟨rfl, h4⟩, _, ⟨rfl, h5⟩, rfl⟩
    exact ⟨rfl, h1, h2, h3, h4, h5⟩
  · rintro ⟨rfl, h1, h2, h3, h4, h5⟩
    exact ⟨_, ⟨rfl, h1⟩, _, ⟨rfl, h2⟩, _, ⟨rfl, h3⟩, _, ⟨rfl, h4⟩, _, ⟨rfl, h5⟩, rfl⟩

theorem checkedSubFootprint_ok {a b c : MemoryFootprint} :
    checkedSubFootprint a b = .ok c ↔ c + b = a := by
  simp only [checkedSubFootprint, Except.bind_eq_ok, Except.okOr_eq_ok, Except.pure_eq_ok,
    checkedSub_eq_some]
  constructor
  · rintro ⟨_, h1, _, h2, _, h3, _, h4, _, h5, rfl⟩
    exact MemoryFootprint.ext h1 h2 h3 h4 h5
  · rintro rfl
    exact ⟨_, rfl, _, rfl, _, rfl, _, rfl, _, rfl, rfl⟩

theorem admitFootprint_ok {a b c : MemoryFootprint} {m : MemoryBudget} :
    admitFootprint a b m = .ok c ↔
      a + b = c ∧ c.Fits ∧ c.hostBytes ≤ m.hostBytes ∧ c.deviceBytes ≤ m.deviceBytes := by
  simp only [admitFootprint, Except.bind_eq_ok, checkedAddFootprint_ok, Except.failIf_eq_ok,
    Except.pure_eq_ok, not_lt]
  constructor
  · rintro ⟨_, ⟨h1, h2⟩, _, h3, _, h4, rfl⟩
    exact ⟨h1, h2, h3, h4⟩
  · rintro ⟨h1, h2, h3, h4⟩
    exact ⟨c, ⟨h1, h2⟩, (), h3, (), h4, rfl⟩

end LlmApp
