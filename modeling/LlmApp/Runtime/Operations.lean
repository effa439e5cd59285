/-
# The remaining operations of the registry

The backend steps `prefill` and `decode` of an active request, its ends
(`complete_request`, `cancel_request`, `fail_request`), and the unload of a
model: requested with a policy, or carried on by `poll_unload_transition`.

`Operation` lists the operations a run of the runtime is made of, with their
arguments, and `Operation.apply` runs one.

Key definitions: `InferenceRuntime.prefill`, `InferenceRuntime.decode`,
`InferenceRuntime.unloadModel`, `InferenceRuntime.pollUnloadTransition`,
`Operation`.
-/
import LlmApp.Runtime.Cleanup

namespace LlmApp

def finishOperation : FinishReason → RuntimeOperation
  | .cancelled _ => .cancellation
  | _ => .completion

def finishFailureClass : FinishReason → FailureClass
  | .cancelled _ => .cancellation
  | .bufferExhausted _ => .capacity
  | .endOfSequence _ | .tokenLimit | .stopCondition => .completion

namespace InferenceRuntime

variable {σ Source : Type} (b : Backend σ Source)

/-! ### Backend steps -/

/-- End a request whose own result is `result`: a failed cleanup is kept in
quarantine and does not replace it. -/
def endWith {α : Type} (rt : InferenceRuntime σ) (requestId : RequestId) (operation : RuntimeOperation)
    (failure : FailureClass) (result : Except RuntimeError α) : Answer σ α :=
  match rt.removeRequest b requestId operation failure with
  | (cleanup, rt) =>
    match preservePrimaryCleanup cleanup with
    | .ok () => (result, rt)
    | .error e => (.error e, rt)

/-- The usage of an active request set to `usage`. -/
def setUsage (rt : InferenceRuntime σ) (modelId : ModelId) (slot : ModelSlot) (requestId : RequestId)
    (request : RequestSlot) (usage : GenerationUsage) : InferenceRuntime σ :=
  { rt with models := rt.models.insert modelId { slot with
      requests := slot.requests.insert requestId { request with usage := usage } } }

/-- One checked prefill of an active request: the receipt, the logits slice
and the runtime after it. -/
def prefill (rt : InferenceRuntime σ) (requestId : RequestId) (tokens : List TokenId)
    (emitLogits : Bool) (logits : List F32) :
    Except RuntimeError PrefillReceipt × List F32 × InferenceRuntime σ :=
  match rt.requestModelId requestId with
  | .error e => (.error e, logits, rt)
  | .ok modelId =>
  match rt.models.get? modelId with
  | none => (.error (.modelNotLoaded modelId), logits, rt)
  | some slot =>
  match slot.requests.get? requestId with
  | none => (.error (.requestNotActive requestId), logits, rt)
  | some request =>
  match rt.loader.prefillChecked b slot.model request.sequence.ref ⟨tokens, emitLogits⟩ logits
      .running with
  | (.ok (.ready consumedTokens position logitsWritten), logits, loader) =>
    let usage := { request.usage with
      promptTokens := saturatingAdd u64Max request.usage.promptTokens (saturatingU64 consumedTokens) }
    (.ok ⟨.ready consumedTokens position logitsWritten, usage⟩, logits,
      setUsage { rt with loader := loader } modelId slot requestId request usage)
  | (.ok (.finished reason), logits, loader) =>
    let ended := endWith b { rt with loader := loader } requestId (finishOperation reason)
      (finishFailureClass reason) (.ok (⟨.finished reason, request.usage⟩ : PrefillReceipt))
    (ended.1, logits, ended.2)
  | (.error error, logits, loader) =>
    let primary := RuntimeError.sequence error
    let ended := endWith b { rt with loader := loader } requestId .prefill primary.failureClass
      (.error primary)
    (ended.1, logits, ended.2)

/-- One checked decode step of an active request. -/
def decode (rt : InferenceRuntime σ) (requestId : RequestId) (token : TokenId) (logits : List F32) :
    Except RuntimeError DecodeReceipt × List F32 × InferenceRuntime σ :=
  match rt.requestModelId requestId with
  | .error e => (.error e, logits, rt)
  | .ok modelId =>
  match rt.models.get? modelId with
  | none => (.error (.modelNotLoaded modelId), logits, rt)
  | some slot =>
  match slot.requests.get? requestId with
  | none => (.error (.requestNotActive requestId), logits, rt)
  | some request =>
  match rt.loader.decodeChecked b slot.model request.sequence.ref token logits .running with
  | (.ok (.ready position logitsWritten), logits, loader) =>
    let usage := { request.usage with
      generatedTokens := saturatingAdd u64Max request.usage.generatedTokens 1 }
    (.ok ⟨.ready position logitsWritten, usage⟩, logits,
      setUsage { rt with loader := loader } modelId slot requestId request usage)
  | (.ok (.finished reason), logits, loader) =>
    let ended := endWith b { rt with loader := loader } requestId (finishOperation reason)
      (finishFailureClass reason) (.ok (⟨.finished reason, request.usage⟩ : DecodeReceipt))
    (ended.1, logits, ended.2)
  | (.error error, logits, loader) =>
    let primary := RuntimeError.sequence error
    let ended := endWith b { rt with loader := loader } requestId .decode primary.failureClass
      (.error primary)
    (ended.1, logits, ended.2)

/-! ### The ends of a request -/

def completeRequest (rt : InferenceRuntime σ) (requestId : RequestId) (reason : FinishReason) :
    Answer σ FinishReason :=
  match rt.removeRequest b requestId (finishOperation reason) (finishFailureClass reason) with
  | (.ok (), rt) => (.ok reason, rt)
  | (.error e, rt) => (.error e, rt)

def cancelRequest (rt : InferenceRuntime σ) (requestId : RequestId) (reason : CancellationReason) :
    Answer σ FinishReason :=
  match rt.removeRequest b requestId .cancellation .cancellation with
  | (.ok (), rt) => (.ok (.cancelled reason), rt)
  | (.error e, rt) => (.error e, rt)

def failRequest (rt : InferenceRuntime σ) (requestId : RequestId) (operation : RuntimeOperation)
    (failure : FailureClass) : Answer σ Unit :=
  rt.removeRequest b requestId operation failure

/-! ### Unloading a model -/

/-- The answer to an unload of a model that is not resident. -/
def absentUnloadReceipt (rt : InferenceRuntime σ) (handle : ModelHandle) :
    Except RuntimeError UnloadReceipt :=
  match rt.modelCleanupState handle.id with
  | some state =>
    match rt.generations.get? handle.id with
    | none => .error (.modelNotLoaded handle.id)
    | some generation =>
      let current : ModelHandle := ⟨handle.id, generation⟩
      if current ≠ handle then .error (.staleModelHandle handle current)
      else .error (if state.exhausted then .cleanupRetryExhausted state else .cleanupFailed state.failure)
  | none =>
    match rt.generations.get? handle.id with
    | none => .error (.modelNotLoaded handle.id)
    | some generation =>
      let current : ModelHandle := ⟨handle.id, generation⟩
      if current ≠ handle then .error (.staleModelHandle handle current)
      else .ok ⟨handle, .alreadyAbsent, 0⟩

def unloadModel (rt : InferenceRuntime σ) (handle : ModelHandle) (policy : UnloadPolicy)
    (now : MonotonicMillis) : Answer σ UnloadReceipt :=
  if rt.models.contains handle.id = false then (rt.absentUnloadReceipt handle, rt)
  else
  match rt.exactModel handle with
  | .error e => (.error e, rt)
  | .ok slot =>
  match slot.lifecycle.requestUnload policy now with
  | (.error e, lifecycle) =>
    (.error (.lifecycle e),
      { rt with models := rt.models.insert handle.id { slot with lifecycle := lifecycle } })
  | (.ok action, lifecycle) =>
  let rt := { rt with models := rt.models.insert handle.id { slot with lifecycle := lifecycle } }
  match action with
  | .none => (.ok ⟨handle, .draining, 0⟩, rt)
  | .cancelActive _ => rt.cancelAndRelease b handle.id handle
  | .releaseModel =>
    match rt.releaseModel b handle.id with
    | (.error e, rt) => (.error e, rt)
    | (.ok (), rt) => (.ok ⟨handle, .unloaded, 0⟩, rt)
  | .unloadComplete => (.ok ⟨handle, .alreadyAbsent, 0⟩, rt)

/-- What polling the drains found: nothing, an expired one, or a failed poll. -/
inductive DrainPoll where
  | none
  | expired (modelId : ModelId) (handle : ModelHandle)
  | failed (handle : ModelHandle) (error : LifecycleError)
deriving DecidableEq, Repr

/-- Poll the draining models among `modelIds` until one has expired. -/
def pollDrains (now : MonotonicMillis) : List ModelId → InferenceRuntime σ → DrainPoll × InferenceRuntime σ
  | [], rt => (.none, rt)
  | modelId :: modelIds, rt =>
    match rt.models.get? modelId with
    | none => pollDrains now modelIds rt
    | some slot =>
    match slot.lifecycle.state with
    | .draining .. =>
      match slot.lifecycle.poll now with
      | (result, lifecycle) =>
        let rt := { rt with models := rt.models.insert modelId { slot with lifecycle := lifecycle } }
        match result with
        | .ok (.cancelActive _) => (.expired modelId slot.handle, rt)
        | .ok _ => pollDrains now modelIds rt
        | .error e => (.failed slot.handle e, rt)
    | _ => pollDrains now modelIds rt

/-- The first model, by identity, whose lifecycle state satisfies `p`. -/
def firstInState (rt : InferenceRuntime σ) (p : ModelLifecycleState → Bool) :
    Option (ModelId × ModelHandle) :=
  (rt.models.find? fun _ slot => p slot.lifecycle.state).map fun e => (e.1, e.2.handle)

def isCancelling : ModelLifecycleState → Bool
  | .cancelling .. => true
  | _ => false

/-- Carry on at most one unload: an expired drain, a cancellation left
unfinished, or a release left undone. -/
def pollUnloadTransition (rt : InferenceRuntime σ) (now : MonotonicMillis) :
    Option (ModelHandle × Except RuntimeError UnloadReceipt) × InferenceRuntime σ :=
  match pollDrains now rt.models.keys rt with
  | (.failed handle e, rt) => (some (handle, .error (.lifecycle e)), rt)
  | (.expired modelId handle, rt) =>
    let answer := rt.cancelAndRelease b modelId handle
    (some (handle, answer.1), answer.2)
  | (.none, rt) =>
  match rt.firstInState isCancelling with
  | some (modelId, handle) =>
    let answer := rt.cancelAndRelease b modelId handle
    (some (handle, answer.1), answer.2)
  | none =>
  match rt.firstInState fun s => s = .unloading with
  | some (modelId, handle) =>
    match rt.releaseModel b modelId with
    | (.ok (), rt) => (some (handle, .ok ⟨handle, .unloaded, 0⟩), rt)
    | (.error e, rt) => (some (handle, .error e), rt)
  | none => (none, rt)

def poll (rt : InferenceRuntime σ) (now : MonotonicMillis) : Answer σ Bool :=
  match rt.pollUnloadTransition b now with
  | (some (_, .ok _), rt) => (.ok true, rt)
  | (some (_, .error e), rt) => (.error e, rt)
  | (none, rt) => (.ok false, rt)

end InferenceRuntime

/-! ### Runs -/

/-- An operation on the runtime, with its arguments. -/
inductive Operation (Source : Type) where
  | loadModel (modelId : ModelId) (source : Source) (device : DeviceId) (deviceKind : DeviceKind)
  | startRequest (handle : ModelHandle) (requestId : RequestId) (sequenceId : SequenceId)
      (configuration : SequenceConfiguration)
  | startGenerationRequest (handle : ModelHandle) (requestId : RequestId) (sequenceId : SequenceId)
      (configuration : SequenceConfiguration) (workspaceFootprint : MemoryFootprint)
      (expectedLogitsCapacity : ℕ)
  | preflightGenerationResources (handle : ModelHandle) (requestId : RequestId)
      (sequenceId : SequenceId) (configuration : SequenceConfiguration)
      (workspaceFootprint : MemoryFootprint) (expectedLogitsCapacity : ℕ)
  | prefill (requestId : RequestId) (tokens : List TokenId) (emitLogits : Bool) (logits : List F32)
  | decode (requestId : RequestId) (token : TokenId) (logits : List F32)
  | completeRequest (requestId : RequestId) (reason : FinishReason)
  | cancelRequest (requestId : RequestId) (reason : CancellationReason)
  | failRequest (requestId : RequestId) (operation : RuntimeOperation) (failure : FailureClass)
  | unloadModel (handle : ModelHandle) (policy : UnloadPolicy) (now : MonotonicMillis)
  | poll (now : MonotonicMillis)
  | pollCleanup
  | shutdown
  | releaseGenerationWorkspace (footprint : MemoryFootprint)

namespace Operation

variable {σ Source : Type}

/-- The runtime after an operation, whether it returned `Ok` or `Err`. -/
def apply (b : Backend σ Source) : Operation Source → InferenceRuntime σ → InferenceRuntime σ
  | .loadModel modelId source device deviceKind, rt =>
    (rt.loadModel b modelId source device deviceKind).2
  | .startRequest handle requestId sequenceId configuration, rt =>
    (rt.startRequest b handle requestId sequenceId configuration).2
  | .startGenerationRequest handle requestId sequenceId configuration workspace capacity, rt =>
    (rt.startGenerationRequest b handle requestId sequenceId configuration workspace capacity).2
  | .preflightGenerationResources handle requestId sequenceId configuration workspace capacity, rt =>
    (rt.preflightGenerationResources b handle requestId sequenceId configuration workspace capacity).2
  | .prefill requestId tokens emitLogits logits, rt =>
    (rt.prefill b requestId tokens emitLogits logits).2.2
  | .decode requestId token logits, rt => (rt.decode b requestId token logits).2.2
  | .completeRequest requestId reason, rt => (rt.completeRequest b requestId reason).2
  | .cancelRequest requestId reason, rt => (rt.cancelRequest b requestId reason).2
  | .failRequest requestId operation failure, rt => (rt.failRequest b requestId operation failure).2
  | .unloadModel handle policy now, rt => (rt.unloadModel b handle policy now).2
  | .poll now, rt => (rt.poll b now).2
  | .pollCleanup, rt => (rt.pollCleanup b).2
  | .shutdown, rt => (rt.shutdown b).2
  | .releaseGenerationWorkspace footprint, rt => (rt.releaseGenerationWorkspace footprint).2

end Operation

end LlmApp
