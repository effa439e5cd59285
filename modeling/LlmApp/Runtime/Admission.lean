/-
# Admission to the registry

The queries of `InferenceRuntime` and the operations that bring a model or a
sequence into it: `load_model`, `start_request`, `start_generation_request`
and the preflight of a generation. An admission prepares (the checks and the
backend's plan), validates what the backend made and commits. What fails
validation is cleaned up at once, or, where that fails too, quarantined.

The checks of `start_request_with_reservation` before the backend plans are
`checkStart`, those between the plan and the creation `checkPlan`, and the
quarantine that its two failed validations share is `rollbackSequence`.

Key definitions: `InferenceRuntime.new`, `InferenceRuntime.loadModel`,
`InferenceRuntime.startRequest`, `InferenceRuntime.startGenerationRequest`,
`InferenceRuntime.preflightGenerationResources`.
-/
import LlmApp.Runtime.State

namespace LlmApp

/-- `u32::try_from(value).unwrap_or(u32::MAX)`. -/
def saturatingU32 (value : ℕ) : ℕ := min u32Max value

def saturatingU64 (value : ℕ) : ℕ := min u64Max value

/-- The error of an operation that left a resource in quarantine. -/
def cleanupRetentionError (state : CleanupRetryState) : RuntimeError :=
  if state.exhausted then .cleanupRetryExhausted state else .cleanupFailed state.failure

namespace InferenceRuntime

variable {σ Source : Type}

def new (loader : σ) (limits : RuntimeLimits) : InferenceRuntime σ where
  loader := { world := loader }
  limits := limits
  models := .empty
  pendingModels := .empty
  requestIndex := .empty
  sequenceIndex := .empty
  pendingRequestIndex := .empty
  pendingSequenceIndex := .empty
  generations := .empty
  reservedFootprint := 0
  reservedGenerationWorkspace := 0
  activeRequests := 0
  generationWorkspaces := 0
  pendingCleanupSequences := 0
  lastCleanup := none
  maintenanceError := none
  shuttingDown := false

/-! ### Queries -/

section Queries

variable (rt : InferenceRuntime σ)

def maximumCleanupAttempts : ℕ := rt.limits.cleanupRetry.maximumAttempts.get

def rejectIfShuttingDown : Except RuntimeError Unit := Except.failIf (rt.shuttingDown = true) .shuttingDown

def modelLifecycleState (modelId : ModelId) : Option ModelLifecycleState :=
  (rt.models.get? modelId).map (·.lifecycle.state)

def isRequestActive (requestId : RequestId) : Bool := rt.requestIndex.contains requestId

def sequenceCleanupState (modelId : ModelId) (pending : PendingSequence) : CleanupRetryState where
  resource := .sequence modelId pending.requestId pending.sequenceId
  failure := pending.failure
  attempts := pending.attempts
  maximumAttempts := rt.maximumCleanupAttempts

def modelCleanupRetryState (modelId : ModelId) (pending : PendingModel) : CleanupRetryState where
  resource := .model modelId
  failure := pending.failure
  attempts := pending.attempts
  maximumAttempts := rt.maximumCleanupAttempts

def requestCleanupState (requestId : RequestId) : Option CleanupRetryState := do
  let modelId ← rt.pendingRequestIndex.get? requestId
  let slot ← rt.models.get? modelId
  let pending ← slot.pendingSequences.get? requestId
  return rt.sequenceCleanupState modelId pending

def requestCleanupFailure (requestId : RequestId) : Option CleanupFailureReport :=
  (rt.requestCleanupState requestId).map (·.failure)

def modelCleanupState (modelId : ModelId) : Option CleanupRetryState :=
  (rt.pendingModels.get? modelId).map (rt.modelCleanupRetryState modelId)

def isModelCleanupPending (modelId : ModelId) : Bool := rt.pendingModels.contains modelId

def modelCancelledRequestsDuringUnload (modelId : ModelId) : Option ℕ :=
  ((rt.models.get? modelId).map (·.cancelledRequestsDuringUnload)).or
    ((rt.pendingModels.get? modelId).map (·.cancelledRequests))

def ownsBackendResources : Bool := !rt.models.isEmpty || !rt.pendingModels.isEmpty

def recordMaintenanceError (error : RuntimeError) : InferenceRuntime σ :=
  { rt with maintenanceError := some error }

/-- The snapshot of one slot, as `model_snapshots` and `exact_model_snapshot`
both build it. -/
def snapshotOf (slot : ModelSlot) : ModelSnapshot where
  handle := slot.handle
  lifecycle := slot.lifecycle.state
  descriptor := slot.descriptor
  reservedFootprint := slot.reservedFootprint
  activeRequests := saturatingU32 slot.requests.size
  pendingCleanupSequences := saturatingU32 slot.pendingSequences.size
  exhaustedCleanupSequences := saturatingU32
    (slot.pendingSequences.values.countP fun p => rt.maximumCleanupAttempts ≤ p.attempts)
  degraded := slot.poisoned

def modelSnapshots : List ModelSnapshot := rt.models.values.map rt.snapshotOf

def snapshot : RuntimeSnapshot where
  loadedModels := saturatingU32 rt.models.size
  activeRequests := rt.activeRequests
  reservedFootprint := rt.reservedFootprint
  generationWorkspaces := rt.generationWorkspaces
  reservedGenerationWorkspace := rt.reservedGenerationWorkspace
  pendingCleanupModels := saturatingU32 rt.pendingModels.size
  pendingCleanupSequences := rt.pendingCleanupSequences
  exhaustedCleanupModels := saturatingU32
    (rt.pendingModels.values.countP fun p => rt.maximumCleanupAttempts ≤ p.attempts)
  exhaustedCleanupSequences := saturatingU32
    ((rt.models.values.flatMap fun slot => slot.pendingSequences.values).countP
      fun p => rt.maximumCleanupAttempts ≤ p.attempts)
  lastCleanup := rt.lastCleanup
  maintenanceError := rt.maintenanceError
  shuttingDown := rt.shuttingDown

/-- The slot of the exact generation `handle` names. -/
def exactModel (handle : ModelHandle) : Except RuntimeError ModelSlot := do
  let slot ← Except.okOr (rt.models.get? handle.id) (.modelNotLoaded handle.id)
  Except.failIf (slot.handle ≠ handle) (.staleModelHandle handle slot.handle)
  return slot

def exactModelSnapshot (handle : ModelHandle) : Except RuntimeError ModelSnapshot := do
  let slot ← rt.exactModel handle
  return rt.snapshotOf slot

def requestModelId (requestId : RequestId) : Except RuntimeError ModelId :=
  Except.okOr (rt.requestIndex.get? requestId) (.requestNotActive requestId)

def nextHandle (modelId : ModelId) : Except RuntimeError ModelHandle := do
  let current := (rt.generations.get? modelId).getD 0
  let next ← Except.okOr (checkedAdd u64Max current 1) (.modelGenerationExhausted modelId)
  return ⟨modelId, next⟩

end Queries

/-! ### Loading a model -/

/-- The checks of `load_model` before the loader is asked. -/
def checkLoad (rt : InferenceRuntime σ) (modelId : ModelId) : Except RuntimeError ModelHandle := do
  rt.rejectIfShuttingDown
  Except.failIf (rt.models.contains modelId = true ∨ rt.pendingModels.contains modelId = true)
    (.modelAlreadyLoaded modelId)
  Except.failIf (rt.limits.maximumLoadedModels.get ≤ rt.models.size + rt.pendingModels.size)
    (.loadedModelLimit
      (saturatingAdd u32Max (saturatingU32 (rt.models.size + rt.pendingModels.size)) 1)
      rt.limits.maximumLoadedModels.get)
  rt.nextHandle modelId

def loadModel (b : Backend σ Source) (rt : InferenceRuntime σ) (modelId : ModelId) (source : Source)
    (device : DeviceId) (deviceKind : DeviceKind) : Answer σ LoadReceipt :=
  match rt.checkLoad modelId with
  | .error e => (.error e, rt)
  | .ok handle =>
  let configuration : LoadConfiguration :=
    ⟨handle, device, deviceKind, remainingBudget rt.limits.memoryBudget rt.reservedFootprint⟩
  match ModelLifecycle.new.beginLoad with
  | (.error e, _) => (.error (.lifecycle e), rt)
  | (.ok _, lifecycle) =>
  match rt.loader.planLoad b source configuration with
  | (.error e, loader) => (.error (.load e), { rt with loader := loader })
  | (.ok plan, loader) =>
  match admitFootprint rt.reservedFootprint plan.expectedFootprint rt.limits.memoryBudget with
  | .error e => (.error e, { rt with loader := loader })
  | .ok nextReserved =>
  match loader.load b source configuration with
  | (.error e, loader) => (.error (.load e), { rt with loader := loader })
  | (.ok (model, loaded), loader) =>
  let validation : Except RuntimeError ModelLifecycle :=
    if loaded.handle ≠ handle ∨ loaded.metadata ≠ plan.descriptor.metadata then
      .error .backendContractViolation
    else
      match lifecycle.completeLoad with
      | (.ok _, lifecycle) => .ok lifecycle
      | (.error e, _) => .error (.lifecycle e)
  match validation with
  | .error primary =>
    match loader.prepareUnload b model with
    | (.error cleanup, loader) =>
      let report : CleanupFailureReport := ⟨.modelAdmission, primary.failureClass, .modelUnload,
        (RuntimeError.synchronization cleanup).failureClass⟩
      let state : CleanupRetryState := ⟨.model modelId, report, 1, rt.maximumCleanupAttempts⟩
      (.error (cleanupRetentionError state),
        { rt with
          loader := loader
          pendingModels := rt.pendingModels.insert modelId ⟨model, plan.expectedFootprint, report, 1, 0⟩
          generations := rt.generations.insert modelId handle.generation
          reservedFootprint := nextReserved
          lastCleanup := some state })
    | (.ok (), loader) => (.error primary, { rt with loader := loader })
  | .ok lifecycle =>
    let slot : ModelSlot := {
      handle := handle
      descriptor := plan.descriptor
      lifecycle := lifecycle
      model := model
      modelFootprint := plan.expectedFootprint
      reservedFootprint := plan.expectedFootprint
      requests := .empty
      pendingSequences := .empty
      poisoned := false
      cancelledRequestsDuringUnload := 0 }
    (.ok ⟨handle, plan.descriptor, plan.expectedFootprint⟩,
      { rt with
        loader := loader
        models := rt.models.insert modelId slot
        generations := rt.generations.insert modelId handle.generation
        reservedFootprint := nextReserved })

/-! ### Starting a request -/

/-- The identity and capacity checks that open both the preflight and the
start of a request. -/
def checkIdentities (rt : InferenceRuntime σ) (requestId : RequestId) (sequenceId : SequenceId) :
    Except RuntimeError Unit := do
  rt.rejectIfShuttingDown
  Except.failIf (rt.requestIndex.contains requestId = true ∨
    rt.pendingRequestIndex.contains requestId = true) (.requestAlreadyActive requestId)
  Except.failIf (rt.sequenceIndex.contains sequenceId = true ∨
    rt.pendingSequenceIndex.contains sequenceId = true) (.sequenceAlreadyActive sequenceId)
  let used := saturatingAdd u32Max rt.activeRequests rt.pendingCleanupSequences
  Except.failIf (rt.limits.maximumActiveRequests.get ≤ used)
    (.capacityExhausted ⟨.activeRequests, used + 1, rt.limits.maximumActiveRequests.get⟩)

/-- The bound of a model on its own sequences. -/
def checkSequences (slot : ModelSlot) : Except RuntimeError Unit :=
  let used := slot.requests.size + slot.pendingSequences.size
  Except.failIf (slot.descriptor.capabilities.maximumSequences ≤ used)
    (.capacityExhausted ⟨.activeSequences, saturatingAdd u64Max (saturatingU64 used) 1,
      slot.descriptor.capabilities.maximumSequences⟩)

/-- The checks of the same admission before the host allocates workspaces. -/
def preflightGenerationResources (b : Backend σ Source) (rt : InferenceRuntime σ)
    (handle : ModelHandle) (requestId : RequestId) (sequenceId : SequenceId)
    (configuration : SequenceConfiguration) (workspaceFootprint : MemoryFootprint)
    (expectedLogitsCapacity : ℕ) : Answer σ Unit :=
  let checks : Except RuntimeError ModelSlot := do
    rt.checkIdentities requestId sequenceId
    let slot ← rt.exactModel handle
    Except.failIf (slot.poisoned = true) (.modelDegraded handle.id)
    Except.failIf (slot.lifecycle.state.serving = false) (.lifecycle .invalidTransition)
    checkSequences slot
    return slot
  match checks with
  | .error e => (.error e, rt)
  | .ok slot =>
  match rt.loader.planSequence b slot.model configuration with
  | (.error e, loader) => (.error (.model e), { rt with loader := loader })
  | (.ok plan, loader) =>
    let admitted : Except RuntimeError Unit := do
      Except.failIf (plan.configuration ≠ configuration ∨ plan.logitsCapacity ≠ expectedLogitsCapacity)
        .backendContractViolation
      let committed ← checkedAddFootprint plan.expectedFootprint workspaceFootprint
      let _ ← admitFootprint rt.reservedFootprint committed rt.limits.memoryBudget
      return ()
    (admitted, { rt with loader := loader })

/-- What `start_request_with_reservation` holds before it asks for a plan. -/
structure StartReservation where
  nextActiveRequests : ℕ
  nextGenerationWorkspaces : ℕ
  nextReservedGenerationWorkspace : MemoryFootprint
  slot : ModelSlot

def checkStart (rt : InferenceRuntime σ) (handle : ModelHandle) (requestId : RequestId)
    (sequenceId : SequenceId) (workspaceFootprint : MemoryFootprint)
    (expectedLogitsCapacity : Option ℕ) : Except RuntimeError StartReservation := do
  rt.checkIdentities requestId sequenceId
  let nextActiveRequests ←
    Except.okOr (checkedAdd u32Max rt.activeRequests 1) .backendContractViolation
  let nextGenerationWorkspaces ←
    (if expectedLogitsCapacity.isSome then
      Except.okOr (checkedAdd u32Max rt.generationWorkspaces 1) .backendContractViolation
    else .ok rt.generationWorkspaces)
  let nextReservedGenerationWorkspace ←
    (if expectedLogitsCapacity.isSome then
      checkedAddFootprint rt.reservedGenerationWorkspace workspaceFootprint
    else .ok rt.reservedGenerationWorkspace)
  let slot ← rt.exactModel handle
  Except.failIf (slot.poisoned = true) (.modelDegraded handle.id)
  Except.failIf (slot.lifecycle.state.serving = false) (.lifecycle .invalidTransition)
  Except.failIf (slot.requests.contains requestId = true) (.requestAlreadyActive requestId)
  checkSequences slot
  return ⟨nextActiveRequests, nextGenerationWorkspaces, nextReservedGenerationWorkspace, slot⟩

/-- The footprints after the admission of a planned sequence. -/
structure StartFootprints where
  committed : MemoryFootprint
  backendNextReserved : MemoryFootprint
  committedNextReserved : MemoryFootprint
  backendNextSlotReserved : MemoryFootprint
  committedNextSlotReserved : MemoryFootprint

def checkPlan (rt : InferenceRuntime σ) (slot : ModelSlot) (plan : SequencePlan)
    (configuration : SequenceConfiguration) (workspaceFootprint : MemoryFootprint)
    (expectedLogitsCapacity : Option ℕ) : Except RuntimeError StartFootprints := do
  Except.failIf (plan.configuration ≠ configuration ∨
    expectedLogitsCapacity.any (fun expected => plan.logitsCapacity ≠ expected) = true)
    .backendContractViolation
  let committed ← checkedAddFootprint plan.expectedFootprint workspaceFootprint
  let backendNextReserved ←
    admitFootprint rt.reservedFootprint plan.expectedFootprint rt.limits.memoryBudget
  let committedNextReserved ← admitFootprint rt.reservedFootprint committed rt.limits.memoryBudget
  let backendNextSlotReserved ← checkedAddFootprint slot.reservedFootprint plan.expectedFootprint
  let committedNextSlotReserved ← checkedAddFootprint slot.reservedFootprint committed
  return ⟨committed, backendNextReserved, committedNextReserved, backendNextSlotReserved,
    committedNextSlotReserved⟩

/-- A created sequence that failed validation with `primary` is destroyed, or
quarantined if that fails. -/
def rollbackSequence (b : Backend σ Source) (rt : InferenceRuntime σ) (slot : ModelSlot)
    (modelId : ModelId) (requestId : RequestId) (sequenceId : SequenceId)
    (sequence : BackendSequence) (plan : SequencePlan) (footprints : StartFootprints)
    (primary : RuntimeError) : Answer σ RequestStartReceipt :=
  match rt.loader.destroySequence b slot.model sequence.ref with
  | (.ok (), loader) =>
    (.error primary, { rt with loader := loader, models := rt.models.insert modelId slot })
  | (.error cleanup, loader) =>
    let report : CleanupFailureReport := ⟨.sequenceAdmission, primary.failureClass,
      .sequenceDestruction, (RuntimeError.sequence cleanup).failureClass⟩
    let rt := { rt with
      loader := loader
      models := rt.models.insert modelId { slot with
        pendingSequences := slot.pendingSequences.insert requestId
          ⟨requestId, sequenceId, sequence, plan.expectedFootprint, report, 1⟩
        reservedFootprint := footprints.backendNextSlotReserved
        poisoned := true }
      pendingRequestIndex := rt.pendingRequestIndex.insert requestId modelId
      pendingSequenceIndex := rt.pendingSequenceIndex.insert sequenceId requestId }
    match checkedAdd u32Max rt.pendingCleanupSequences 1 with
    | none => (.error .backendContractViolation, rt)
    | some pendingCleanupSequences =>
      let state : CleanupRetryState :=
        ⟨.sequence modelId requestId sequenceId, report, 1, rt.maximumCleanupAttempts⟩
      (.error (cleanupRetentionError state),
        { rt with
          pendingCleanupSequences := pendingCleanupSequences
          reservedFootprint := footprints.backendNextReserved
          lastCleanup := some state })

def startRequestWithReservation (b : Backend σ Source) (rt : InferenceRuntime σ)
    (handle : ModelHandle) (requestId : RequestId) (sequenceId : SequenceId)
    (configuration : SequenceConfiguration) (workspaceFootprint : MemoryFootprint)
    (expectedLogitsCapacity : Option ℕ) : Answer σ RequestStartReceipt :=
  match rt.checkStart handle requestId sequenceId workspaceFootprint expectedLogitsCapacity with
  | .error e => (.error e, rt)
  | .ok reservation =>
  let slot := reservation.slot
  match rt.loader.planSequence b slot.model configuration with
  | (.error e, loader) => (.error (.model e), { rt with loader := loader })
  | (.ok plan, loader) =>
  match rt.checkPlan slot plan configuration workspaceFootprint expectedLogitsCapacity with
  | .error e => (.error e, { rt with loader := loader })
  | .ok footprints =>
  match loader.createSequence b slot.model sequenceId configuration with
  | (.error e, loader) => (.error (.model e), { rt with loader := loader })
  | (.ok sequence, loader) =>
  let rt := { rt with loader := loader }
  if sequence.id ≠ sequenceId ∨
      b.tokenCapacity loader.world sequence.ref ≠ plan.configuration.maximumTokens.get then
    rollbackSequence b rt slot handle.id requestId sequenceId sequence plan footprints
      .backendContractViolation
  else
  match slot.lifecycle.startRequest with
  | (.error e, lifecycle) =>
    rollbackSequence b rt { slot with lifecycle := lifecycle } handle.id requestId sequenceId sequence
      plan footprints (.lifecycle e)
  | (.ok _, lifecycle) =>
    (.ok ⟨requestId, sequenceId, plan.logitsCapacity, footprints.committed⟩,
      { rt with
        models := rt.models.insert handle.id { slot with
          lifecycle := lifecycle
          requests := slot.requests.insert requestId
            ⟨sequence, plan.expectedFootprint, workspaceFootprint, {}⟩
          reservedFootprint := footprints.committedNextSlotReserved }
        requestIndex := rt.requestIndex.insert requestId handle.id
        sequenceIndex := rt.sequenceIndex.insert sequenceId requestId
        activeRequests := reservation.nextActiveRequests
        reservedFootprint := footprints.committedNextReserved
        generationWorkspaces := reservation.nextGenerationWorkspaces
        reservedGenerationWorkspace := reservation.nextReservedGenerationWorkspace })

def startRequest (b : Backend σ Source) (rt : InferenceRuntime σ) (handle : ModelHandle)
    (requestId : RequestId) (sequenceId : SequenceId) (configuration : SequenceConfiguration) :
    Answer σ RequestStartReceipt :=
  rt.startRequestWithReservation b handle requestId sequenceId configuration 0 none

def startGenerationRequest (b : Backend σ Source) (rt : InferenceRuntime σ) (handle : ModelHandle)
    (requestId : RequestId) (sequenceId : SequenceId) (configuration : SequenceConfiguration)
    (workspaceFootprint : MemoryFootprint) (expectedLogitsCapacity : ℕ) :
    Answer σ RequestStartReceipt :=
  rt.startRequestWithReservation b handle requestId sequenceId configuration workspaceFootprint
    (some expectedLogitsCapacity)

/-- Release one generation task's host workspace. -/
def releaseGenerationWorkspace (rt : InferenceRuntime σ) (footprint : MemoryFootprint) :
    Answer σ Unit :=
  let next : Except RuntimeError (ℕ × MemoryFootprint × MemoryFootprint) := do
    let nextGenerationWorkspaces ←
      Except.okOr (checkedSub rt.generationWorkspaces 1) .backendContractViolation
    let nextReservedGenerationWorkspace ←
      checkedSubFootprint rt.reservedGenerationWorkspace footprint
    let nextReservedFootprint ← checkedSubFootprint rt.reservedFootprint footprint
    return (nextGenerationWorkspaces, nextReservedGenerationWorkspace, nextReservedFootprint)
  match next with
  | .error e => (.error e, rt)
  | .ok (nextGenerationWorkspaces, nextReservedGenerationWorkspace, nextReservedFootprint) =>
    (.ok (), { rt with
      generationWorkspaces := nextGenerationWorkspaces
      reservedGenerationWorkspace := nextReservedGenerationWorkspace
      reservedFootprint := nextReservedFootprint })

end InferenceRuntime

end LlmApp
