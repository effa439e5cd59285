/-
# Commands of the worker

The commands the worker accepts, the events it answers with, and `dispatch`,
which runs one command on the registry and the scheduler.

Key definitions: `RuntimeCommand`, `RuntimeEvent`, `dispatch`.
-/
import LlmApp.Generation.Scheduler

namespace LlmApp

/-- A command ticket is its number. -/
abbrev CommandTicket := ℕ

inductive RuntimeCommand (Source : Type) where
  | loadModel (ticket : CommandTicket) (modelId : ModelId) (source : Source) (device : DeviceId)
      (deviceKind : DeviceKind)
  | startRequest (ticket : CommandTicket) (handle : ModelHandle) (requestId : RequestId)
      (sequenceId : SequenceId) (configuration : SequenceConfiguration)
  | generate (ticket : CommandTicket) (handle : ModelHandle) (request : GenerationRequest)
  | prefill (ticket : CommandTicket) (requestId : RequestId) (tokens : List TokenId) (emitLogits : Bool)
      (logits : List F32)
  | decode (ticket : CommandTicket) (requestId : RequestId) (token : TokenId) (logits : List F32)
  | completeRequest (ticket : CommandTicket) (requestId : RequestId) (reason : FinishReason)
  | cancelRequest (ticket : CommandTicket) (requestId : RequestId) (reason : CancellationReason)
  | unloadModel (ticket : CommandTicket) (handle : ModelHandle) (policy : UnloadPolicy)
  | snapshot (ticket : CommandTicket)
  | shutdown (ticket : CommandTicket)
deriving DecidableEq, Repr

inductive RuntimeEvent where
  | modelLoaded (ticket : CommandTicket) (result : Except RuntimeError LoadReceipt)
  | requestStarted (ticket : CommandTicket) (result : Except RuntimeError RequestStartReceipt)
  | generationAdmitted (ticket : CommandTicket) (result : Except RuntimeError GenerationAdmission)
  | generationCancellationRequested (ticket : CommandTicket) (requestId : RequestId)
      (result : Except RuntimeError Unit)
  | prefillCompleted (ticket : CommandTicket) (requestId : RequestId)
      (result : Except RuntimeError PrefillReceipt) (logits : List F32)
  | decodeCompleted (ticket : CommandTicket) (requestId : RequestId)
      (result : Except RuntimeError DecodeReceipt) (logits : List F32)
  | requestFinished (ticket : CommandTicket) (requestId : RequestId)
      (result : Except RuntimeError FinishReason)
  | modelUnload (ticket : CommandTicket) (result : Except RuntimeError UnloadReceipt)
  | snapshot (ticket : CommandTicket) (runtime : RuntimeSnapshot) (models : List ModelSnapshot)
  | shutdown (ticket : CommandTicket) (result : Except RuntimeError ShutdownReceipt)
deriving Repr

/-- Whether the worker's exit drops the runtime or forgets it. -/
inductive WorkerStop where
  | dropRuntime
  | preserveRuntime
deriving DecidableEq, Repr

/-- What a dispatched command returned and left. -/
structure Dispatched (σ τ : Type) where
  event : RuntimeEvent
  stop : Option WorkerStop
  runtime : InferenceRuntime σ
  scheduler : GenerationScheduler τ

section

variable {σ Source τ : Type} (b : Backend σ Source) (s : Sampling τ)

/-- The shutdown of the registry and the scheduler together. -/
def dispatchShutdown (rt : InferenceRuntime σ) (sch : GenerationScheduler τ) (ticket : CommandTicket) :
    Dispatched σ τ :=
  match rt.shutdown b with
  | (result, rt) =>
  match sch.discardAll rt with
  | (discarded, sch, rt) =>
  let (result, rt) : Answer σ ShutdownReceipt :=
    match discarded with
    | .ok () => (result, rt)
    | .error error =>
      match result with
      | .ok _ => (.error error, rt)
      | .error e => (.error e, rt.recordMaintenanceError error)
  let stop := if result.isOk = false ∧ rt.ownsBackendResources = true then .preserveRuntime else .dropRuntime
  ⟨.shutdown ticket result, some stop, rt, sch⟩

/-- Run one command. `now` is the time it was taken at, `capacities` those of
the token output. -/
def dispatch (rt : InferenceRuntime σ) (sch : GenerationScheduler τ) (capacities : ℕ × ℕ)
    (allocates : CapacityResource → Bool) (now : MonotonicMillis) :
    RuntimeCommand Source → Dispatched σ τ
  | .loadModel ticket modelId source device deviceKind =>
    let answer := rt.loadModel b modelId source device deviceKind
    ⟨.modelLoaded ticket answer.1, none, answer.2, sch⟩
  | .startRequest ticket handle requestId sequenceId configuration =>
    let answer : Answer σ RequestStartReceipt :=
      if sch.contains requestId then (.error (.requestAlreadyActive requestId), rt)
      else rt.startRequest b handle requestId sequenceId configuration
    ⟨.requestStarted ticket answer.1, none, answer.2, sch⟩
  | .generate ticket handle request =>
    match sch.admitGeneration b s rt capacities allocates handle request with
    | (result, sch, rt) => ⟨.generationAdmitted ticket result, none, rt, sch⟩
  | .prefill ticket requestId tokens emitLogits logits =>
    match rt.prefill b requestId tokens emitLogits logits with
    | (result, logits, rt) => ⟨.prefillCompleted ticket requestId result logits, none, rt, sch⟩
  | .decode ticket requestId token logits =>
    match rt.decode b requestId token logits with
    | (result, logits, rt) => ⟨.decodeCompleted ticket requestId result logits, none, rt, sch⟩
  | .completeRequest ticket requestId reason =>
    let answer := rt.completeRequest b requestId reason
    ⟨.requestFinished ticket requestId answer.1, none, answer.2, sch⟩
  | .cancelRequest ticket requestId reason =>
    if sch.contains requestId then
      let answer := sch.requestCancellation requestId reason
      ⟨.generationCancellationRequested ticket requestId answer.1, none, rt, answer.2⟩
    else
      let answer := rt.cancelRequest b requestId reason
      ⟨.requestFinished ticket requestId answer.1, none, answer.2, sch⟩
  | .unloadModel ticket handle policy =>
    let sch := if policy = .cancelActive then sch.requestModelCancellation handle.id .modelUnload else sch
    let answer := rt.unloadModel b handle policy now
    ⟨.modelUnload ticket answer.1, none, answer.2, sch⟩
  | .snapshot ticket => ⟨.snapshot ticket rt.snapshot rt.modelSnapshots, none, rt, sch⟩
  | .shutdown ticket => dispatchShutdown b rt sch ticket

end

end LlmApp
