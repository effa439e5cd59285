/-
# Removal, quarantine and release

The operations of `InferenceRuntime` that take a sequence or a model out of
the registry. A request is removed by destroying its sequence; where that
fails the sequence moves to quarantine. The last request of a leaving model
releases the model; where its unload preparation fails the model moves to the
pending models. `pollCleanup` retries one quarantined resource.

The source's `loop`s run on fuel here: each turn of `cancelAllRequests` takes
one request out of the slot, and each turn of shutdown's `poll_cleanup` loop
uses one of the attempts left (`cleanupBudget`).

Key definitions: `InferenceRuntime.removeRequest`,
`InferenceRuntime.releaseModelWithPrimary`, `InferenceRuntime.cancelAllRequests`,
`InferenceRuntime.pollCleanup`, `InferenceRuntime.shutdown`.
-/
import LlmApp.Runtime.Admission

namespace LlmApp

/-- A cleanup failure is already kept in quarantine: it does not replace the
primary result. -/
def preservePrimaryCleanup : Except RuntimeError Unit → Except RuntimeError Unit
  | .ok () => .ok ()
  | .error e => if e.isCleanup then .ok () else .error e

namespace InferenceRuntime

variable {σ Source : Type} (b : Backend σ Source)

/-! ### Releasing a model -/

def releaseModelWithPrimary (rt : InferenceRuntime σ) (modelId : ModelId)
    (primaryOperation : RuntimeOperation) (primaryFailure : FailureClass) : Answer σ Unit :=
  match rt.models.get? modelId with
  | none => (.error (.modelNotLoaded modelId), rt)
  | some slot =>
  if slot.requests.isEmpty = false ∨ slot.pendingSequences.isEmpty = false ∨
      slot.lifecycle.state ≠ .unloading ∨ slot.reservedFootprint ≠ slot.modelFootprint then
    (.error (.lifecycle .invalidTransition), rt)
  else
  match rt.loader.prepareUnload b slot.model with
  | (.error cleanup, loader) =>
    let report : CleanupFailureReport := ⟨primaryOperation, primaryFailure, .modelUnload,
      (RuntimeError.synchronization cleanup).failureClass⟩
    let state : CleanupRetryState := ⟨.model modelId, report, 1, rt.maximumCleanupAttempts⟩
    (.error (cleanupRetentionError state),
      { rt with
        loader := loader
        models := rt.models.erase modelId
        pendingModels := rt.pendingModels.insert modelId
          ⟨slot.model, slot.modelFootprint, report, 1, slot.cancelledRequestsDuringUnload⟩
        lastCleanup := some state })
  | (.ok (), loader) =>
    match slot.lifecycle.completeUnload with
    | (.error e, lifecycle) =>
      (.error (.lifecycle e),
        { rt with
          loader := loader
          models := rt.models.insert modelId { slot with lifecycle := lifecycle } })
    | (.ok _, _) =>
      let rt := { rt with loader := loader, models := rt.models.erase modelId }
      match checkedSubFootprint rt.reservedFootprint slot.modelFootprint with
      | .error e => (.error e, rt)
      | .ok reserved => (.ok (), { rt with reservedFootprint := reserved })

def releaseModel (rt : InferenceRuntime σ) (modelId : ModelId) : Answer σ Unit :=
  rt.releaseModelWithPrimary b modelId .modelUnload .completion

/-! ### Removing a request -/

/-- The half of `remove_request` after a failed destruction. -/
def quarantineRequest (rt : InferenceRuntime σ) (modelId : ModelId) (slot : ModelSlot)
    (requestId : RequestId) (request : RequestSlot) (report : CleanupFailureReport) : Answer σ Unit :=
  let sequenceId := request.sequence.id
  match checkedSubFootprint slot.reservedFootprint request.workspaceFootprint with
  | .error e =>
    (.error e, { rt with
      models := rt.models.insert modelId { slot with requests := slot.requests.erase requestId } })
  | .ok reserved =>
  let finished := slot.lifecycle.finishRequest
  let rt := { rt with
    models := rt.models.insert modelId { slot with
      requests := slot.requests.erase requestId
      reservedFootprint := reserved
      pendingSequences := slot.pendingSequences.insert requestId
        ⟨requestId, sequenceId, request.sequence, request.backendFootprint, report, 1⟩
      poisoned := true
      lifecycle := finished.2 } }
  match finished.1 with
  | .error e => (.error (.lifecycle e), rt)
  | .ok _ =>
  let rt := { rt with
    requestIndex := rt.requestIndex.erase requestId
    sequenceIndex := rt.sequenceIndex.erase sequenceId
    pendingRequestIndex := rt.pendingRequestIndex.insert requestId modelId
    pendingSequenceIndex := rt.pendingSequenceIndex.insert sequenceId requestId }
  match checkedSub rt.activeRequests 1 with
  | none => (.error .backendContractViolation, rt)
  | some activeRequests =>
  let rt := { rt with activeRequests := activeRequests }
  match checkedAdd u32Max rt.pendingCleanupSequences 1 with
  | none => (.error .backendContractViolation, rt)
  | some pendingCleanupSequences =>
  let state : CleanupRetryState :=
    ⟨.sequence modelId requestId sequenceId, report, 1, rt.maximumCleanupAttempts⟩
  (.error (cleanupRetentionError state),
    { rt with pendingCleanupSequences := pendingCleanupSequences, lastCleanup := some state })

/-- The half of `remove_request` after a successful destruction, up to the
release of the model: the action the lifecycle asks for. -/
def forgetRequest (rt : InferenceRuntime σ) (modelId : ModelId) (slot : ModelSlot)
    (requestId : RequestId) (request : RequestSlot) : Answer σ LifecycleAction :=
  let sequenceId := request.sequence.id
  let removed := { slot with requests := slot.requests.erase requestId }
  match checkedAddFootprint request.backendFootprint request.workspaceFootprint with
  | .error e => (.error e, { rt with models := rt.models.insert modelId removed })
  | .ok totalFootprint =>
  match checkedSubFootprint slot.reservedFootprint totalFootprint with
  | .error e => (.error e, { rt with models := rt.models.insert modelId removed })
  | .ok reserved =>
  let finished := slot.lifecycle.finishRequest
  let rt := { rt with
    models := rt.models.insert modelId { removed with
      reservedFootprint := reserved
      lifecycle := finished.2 } }
  match finished.1 with
  | .error e => (.error (.lifecycle e), rt)
  | .ok action =>
  let rt := { rt with
    requestIndex := rt.requestIndex.erase requestId
    sequenceIndex := rt.sequenceIndex.erase sequenceId }
  match checkedSub rt.activeRequests 1 with
  | none => (.error .backendContractViolation, rt)
  | some activeRequests =>
  let rt := { rt with activeRequests := activeRequests }
  match checkedSubFootprint rt.reservedFootprint request.backendFootprint with
  | .error e => (.error e, rt)
  | .ok reserved => (.ok action, { rt with reservedFootprint := reserved })

def removeRequest (rt : InferenceRuntime σ) (requestId : RequestId)
    (primaryOperation : RuntimeOperation) (primaryFailure : FailureClass) : Answer σ Unit :=
  match rt.requestModelId requestId with
  | .error e => (.error e, rt)
  | .ok modelId =>
  match rt.models.get? modelId with
  | none => (.error (.modelNotLoaded modelId), rt)
  | some slot =>
  match slot.requests.get? requestId with
  | none => (.error (.requestNotActive requestId), rt)
  | some request =>
  match rt.loader.destroySequence b slot.model request.sequence.ref with
  | (.error cleanup, loader) =>
    quarantineRequest { rt with loader := loader } modelId slot requestId request
      ⟨primaryOperation, primaryFailure, .sequenceDestruction,
        (RuntimeError.sequence cleanup).failureClass⟩
  | (.ok (), loader) =>
    match forgetRequest { rt with loader := loader } modelId slot requestId request with
    | (.error e, rt) => (.error e, rt)
    | (.ok action, rt) =>
      if action = .releaseModel then
        rt.releaseModelWithPrimary b modelId primaryOperation primaryFailure
      else (.ok (), rt)

/-! ### Cancelling every request of a model -/

/-- The request with the least identity of a model's slot. -/
def firstRequest (rt : InferenceRuntime σ) (modelId : ModelId) : Option RequestId := do
  let slot ← rt.models.get? modelId
  let (requestId, _) ← slot.requests.first?
  return requestId

/-- The active requests of a model's slot. -/
def requestCount (rt : InferenceRuntime σ) (modelId : ModelId) : ℕ :=
  ((rt.models.get? modelId).map (·.requests.size)).getD 0

def setCancelledRequests (rt : InferenceRuntime σ) (modelId : ModelId) (cancelled : ℕ) :
    InferenceRuntime σ :=
  match rt.models.get? modelId with
  | some slot =>
    { rt with models := rt.models.insert modelId { slot with cancelledRequestsDuringUnload := cancelled } }
  | none => rt

def cancelAllRequestsLoop (modelId : ModelId) : ℕ → ℕ → InferenceRuntime σ → Answer σ ℕ
  | 0, cancelled, rt => (.ok cancelled, rt)
  | fuel + 1, cancelled, rt =>
    match rt.firstRequest modelId with
    | none => (.ok cancelled, rt)
    | some requestId =>
    match rt.removeRequest b requestId .cancellation .cancellation with
    | (.ok (), rt) =>
      let cancelled := saturatingAdd u32Max cancelled 1
      if rt.models.contains modelId then
        cancelAllRequestsLoop modelId fuel cancelled (rt.setCancelledRequests modelId cancelled)
      else (.ok cancelled, rt)
    | (.error e, rt) =>
      if e.isCleanup then
        (.error e, rt.setCancelledRequests modelId (saturatingAdd u32Max cancelled 1))
      else (.error e, rt)

def cancelAllRequests (rt : InferenceRuntime σ) (modelId : ModelId) : Answer σ ℕ :=
  match rt.models.get? modelId with
  | none => (.error (.modelNotLoaded modelId), rt)
  | some slot =>
    cancelAllRequestsLoop b modelId (rt.requestCount modelId) slot.cancelledRequestsDuringUnload rt

def cancelAllForShutdownLoop (modelId : ModelId) : ℕ → ℕ → InferenceRuntime σ → Answer σ ℕ
  | 0, cancelled, rt => (.ok cancelled, rt)
  | fuel + 1, cancelled, rt =>
    match rt.firstRequest modelId with
    | none => (.ok cancelled, rt)
    | some requestId =>
    match rt.removeRequest b requestId .shutdown .shutdown with
    | (.ok (), rt) => cancelAllForShutdownLoop modelId fuel (saturatingAdd u32Max cancelled 1) rt
    | (.error e, rt) =>
      if e.isCleanup then
        cancelAllForShutdownLoop modelId fuel (saturatingAdd u32Max cancelled 1) rt
      else (.error e, rt)

def cancelAllRequestsForShutdown (rt : InferenceRuntime σ) (modelId : ModelId) : Answer σ ℕ :=
  cancelAllForShutdownLoop b modelId (rt.requestCount modelId) 0 rt

/-- What the cancelling unload, the expired drain and a retried cancellation
do: cancel the model's requests, then release what is still resident. -/
def cancelAndRelease (rt : InferenceRuntime σ) (modelId : ModelId) (handle : ModelHandle) :
    Answer σ UnloadReceipt :=
  match rt.cancelAllRequests b modelId with
  | (.error e, rt) => (.error e, rt)
  | (.ok cancelledRequests, rt) =>
  if rt.models.contains modelId then
    match rt.releaseModelWithPrimary b modelId .cancellation .cancellation with
    | (.error e, rt) => (.error e, rt)
    | (.ok (), rt) => (.ok ⟨handle, .unloaded, cancelledRequests⟩, rt)
  else (.ok ⟨handle, .unloaded, cancelledRequests⟩, rt)

/-! ### Retrying one quarantined resource -/

/-- The first quarantined sequence, by model and request, with attempts left. -/
def retryableSequence (rt : InferenceRuntime σ) : Option (ModelId × RequestId) :=
  rt.models.entries.findSome? fun (modelId, slot) =>
    (slot.pendingSequences.find? fun _ pending => pending.attempts < rt.maximumCleanupAttempts).map
      fun (requestId, _) => (modelId, requestId)

/-- The first pending model with attempts left. -/
def retryableModel (rt : InferenceRuntime σ) : Option ModelId :=
  (rt.pendingModels.find? fun _ pending => pending.attempts < rt.maximumCleanupAttempts).map (·.1)

def failedRetry (state : CleanupRetryState) : CleanupPoll :=
  if state.exhausted then .exhausted state else .retryFailed state

/-- The half of `poll_cleanup` that retries a sequence. -/
def retrySequence (rt : InferenceRuntime σ) (modelId : ModelId) (requestId : RequestId) :
    Answer σ CleanupPoll :=
  match rt.models.get? modelId with
  | none => (.error (.modelNotLoaded modelId), rt)
  | some slot =>
  match slot.pendingSequences.get? requestId with
  | none => (.error .backendContractViolation, rt)
  | some pending =>
  match checkedAdd u32Max pending.attempts 1 with
  | none => (.error .backendContractViolation, rt)
  | some attempts =>
  let state : CleanupRetryState := ⟨.sequence modelId requestId pending.sequenceId, pending.failure,
    attempts, rt.maximumCleanupAttempts⟩
  match rt.loader.destroySequence b slot.model pending.sequence.ref with
  | (.error _, loader) =>
    (.ok (failedRetry state),
      { rt with
        loader := loader
        models := rt.models.insert modelId { slot with
          pendingSequences := slot.pendingSequences.insert requestId { pending with attempts := attempts } }
        lastCleanup := some state })
  | (.ok (), loader) =>
  let removed := { slot with pendingSequences := slot.pendingSequences.erase requestId }
  match checkedSubFootprint slot.reservedFootprint pending.footprint with
  | .error e =>
    (.error e,
      { rt with
        loader := loader
        models := rt.models.insert modelId removed
        lastCleanup := some state })
  | .ok reserved =>
  let rt := { rt with
    loader := loader
    models := rt.models.insert modelId { removed with
      reservedFootprint := reserved
      poisoned := !removed.pendingSequences.isEmpty }
    pendingRequestIndex := rt.pendingRequestIndex.erase requestId
    pendingSequenceIndex := rt.pendingSequenceIndex.erase pending.sequenceId
    lastCleanup := some state }
  match checkedSub rt.pendingCleanupSequences 1 with
  | none => (.error .backendContractViolation, rt)
  | some pendingCleanupSequences =>
  let rt := { rt with pendingCleanupSequences := pendingCleanupSequences }
  match checkedSubFootprint rt.reservedFootprint pending.footprint with
  | .error e => (.error e, rt)
  | .ok reserved =>
  let rt := { rt with reservedFootprint := reserved }
  if slot.lifecycle.state = .unloading then
    match rt.releaseModelWithPrimary b modelId pending.failure.primaryOperation
        pending.failure.primaryFailure with
    | (.ok (), rt) => (.ok (.released state), rt)
    | (.error e, rt) => if e.isCleanup then (.ok (.released state), rt) else (.error e, rt)
  else (.ok (.released state), rt)

/-- The half of `poll_cleanup` that retries a model. -/
def retryModel (rt : InferenceRuntime σ) (modelId : ModelId) : Answer σ CleanupPoll :=
  match rt.pendingModels.get? modelId with
  | none => (.error (.modelNotLoaded modelId), rt)
  | some pending =>
  match checkedAdd u32Max pending.attempts 1 with
  | none => (.error .backendContractViolation, rt)
  | some attempts =>
  let state : CleanupRetryState :=
    ⟨.model modelId, pending.failure, attempts, rt.maximumCleanupAttempts⟩
  match rt.loader.prepareUnload b pending.model with
  | (.error _, loader) =>
    (.ok (failedRetry state),
      { rt with
        loader := loader
        pendingModels := rt.pendingModels.insert modelId { pending with attempts := attempts }
        lastCleanup := some state })
  | (.ok (), loader) =>
  let rt := { rt with
    loader := loader
    pendingModels := rt.pendingModels.erase modelId
    lastCleanup := some state }
  match checkedSubFootprint rt.reservedFootprint pending.footprint with
  | .error e => (.error e, rt)
  | .ok reserved => (.ok (.released state), { rt with reservedFootprint := reserved })

def pollCleanup (rt : InferenceRuntime σ) : Answer σ CleanupPoll :=
  match rt.retryableSequence with
  | some (modelId, requestId) => rt.retrySequence b modelId requestId
  | none =>
  match rt.retryableModel with
  | none => (.ok .idle, rt)
  | some modelId => rt.retryModel b modelId

/-! ### Shutdown -/

/-- The first half of shutdown's pass over one model: its unload is accepted. -/
def shutdownUnload (rt : InferenceRuntime σ) (modelId : ModelId) (slot : ModelSlot) : Answer σ Unit :=
  match slot.lifecycle.state with
  | .ready =>
    match slot.lifecycle.requestUnload .cancelActive 0 with
    | (.error e, _) => (.error (.lifecycle e), rt)
    | (.ok action, lifecycle) =>
      let rt := { rt with models := rt.models.insert modelId { slot with lifecycle := lifecycle } }
      if action ≠ .releaseModel then (.error .backendContractViolation, rt) else (.ok (), rt)
  | .active _ =>
    match slot.lifecycle.requestUnload .cancelActive 0 with
    | (.error e, _) => (.error (.lifecycle e), rt)
    | (.ok _, lifecycle) =>
      (.ok (), { rt with models := rt.models.insert modelId { slot with lifecycle := lifecycle } })
  | .draining .. | .cancelling .. | .unloading => (.ok (), rt)
  | .absent | .loading | .failed .. => (.error (.lifecycle .invalidTransition), rt)

/-- Nothing is left on a model but the model. -/
def readyToRelease (rt : InferenceRuntime σ) (modelId : ModelId) : Bool :=
  (rt.models.get? modelId).any fun slot =>
    slot.requests.isEmpty && slot.pendingSequences.isEmpty && (slot.lifecycle.state = .unloading : Bool)

/-- The body of shutdown's pass over the resident models. -/
def shutdownModel (rt : InferenceRuntime σ) (modelId : ModelId) : Answer σ ℕ :=
  match rt.models.get? modelId with
  | none => (.ok 0, rt)
  | some slot =>
  match rt.shutdownUnload modelId slot with
  | (.error e, rt) => (.error e, rt)
  | (.ok (), rt) =>
  match rt.cancelAllRequestsForShutdown b modelId with
  | (.error e, rt) => (.error e, rt)
  | (.ok cancelled, rt) =>
  if rt.readyToRelease modelId then
    match rt.releaseModelWithPrimary b modelId .shutdown .shutdown with
    | (.ok (), rt) => (.ok cancelled, rt)
    | (.error e, rt) => if e.isCleanup then (.ok cancelled, rt) else (.error e, rt)
  else (.ok cancelled, rt)

def shutdownModels : List ModelId → ℕ → InferenceRuntime σ → Answer σ ℕ
  | [], cancelled, rt => (.ok cancelled, rt)
  | modelId :: modelIds, cancelled, rt =>
    match rt.shutdownModel b modelId with
    | (.error e, rt) => (.error e, rt)
    | (.ok more, rt) => shutdownModels modelIds (saturatingAdd u32Max cancelled more) rt

/-- A bound on the cleanup attempts still to come: what each quarantined
resource has left, and all of them for a model that can still be quarantined. -/
def cleanupBudget (rt : InferenceRuntime σ) : ℕ :=
  rt.models.total (fun _ slot => rt.maximumCleanupAttempts +
    slot.pendingSequences.total fun _ pending => rt.maximumCleanupAttempts - pending.attempts) +
  rt.pendingModels.total fun _ pending => rt.maximumCleanupAttempts - pending.attempts

/-- Poll until nothing is left to retry. -/
def exhaustCleanup : ℕ → InferenceRuntime σ → Answer σ Unit
  | 0, rt => (.ok (), rt)
  | fuel + 1, rt =>
    match rt.pollCleanup b with
    | (.error e, rt) => (.error e, rt)
    | (.ok .idle, rt) => (.ok (), rt)
    | (.ok _, rt) => exhaustCleanup fuel rt

def firstPendingCleanupState (rt : InferenceRuntime σ) : Option CleanupRetryState :=
  (rt.models.entries.findSome? fun (modelId, slot) =>
    slot.pendingSequences.first?.map fun (_, pending) => rt.sequenceCleanupState modelId pending).or
  (rt.pendingModels.first?.map fun (modelId, pending) => rt.modelCleanupRetryState modelId pending)

def shutdown (rt : InferenceRuntime σ) : Answer σ ShutdownReceipt :=
  let rt := { rt with shuttingDown := true }
  let initialModels := saturatingU32 (rt.models.size + rt.pendingModels.size)
  match shutdownModels b rt.models.keys 0 rt with
  | (.error e, rt) => (.error e, rt)
  | (.ok cancelledRequests, rt) =>
  match exhaustCleanup b rt.cleanupBudget rt with
  | (.error e, rt) => (.error e, rt)
  | (.ok (), rt) =>
  match rt.firstPendingCleanupState with
  | some state => (.error (.cleanupRetryExhausted state), rt)
  | none =>
  if rt.models.isEmpty = false ∨ rt.activeRequests ≠ 0 then (.error .backendContractViolation, rt)
  else (.ok ⟨initialModels, cancelledRequests⟩, rt)

end InferenceRuntime

end LlmApp
