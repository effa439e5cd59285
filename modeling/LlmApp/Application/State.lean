/-
# The application's state

The state that the orchestrator shows its frontends, the events and the errors
it answers with. The texts of the errors are those of `error.rs`.

Key definitions: `ApplicationActivity`, `ApplicationState`, `ApplicationError`,
`ApplicationError.display`.
-/
import LlmApp.Lifecycle
import LlmApp.Workflow.Diagnostics

namespace LlmApp

/-! ### Failures -/

inductive ApplicationActivity where
  | idle | resolving | loading | unloading | shuttingDown
deriving DecidableEq, Repr

inductive ApplicationFailureKind where
  | hub | tokenizer | storage | modelSource | inference | worker
deriving DecidableEq, Repr

structure ApplicationFailure where
  kind : ApplicationFailureKind
  message : String
deriving DecidableEq, Repr

/-- `source` is the `Debug` text of an error. -/
def ApplicationFailure.fromDebug (kind : ApplicationFailureKind) (context source : String) : ApplicationFailure :=
  ⟨kind, context ++ ": " ++ source⟩

inductive ApplicationWorker where
  | inference | hub
deriving DecidableEq, Repr

/-- The fields that a shutdown can find invalid. -/
inductive ApplicationConfigurationField where
  | runtimeShutdownTimeout | runtimeJoinTimeout | hubShutdownTimeout
deriving DecidableEq, Repr

inductive ApplicationError where
  | invalidConfiguration (field : ApplicationConfigurationField)
  | busy (activity : ApplicationActivity)
  | modelAlreadyLoaded
  | noResolvedModel
  | noLoadedModel
  | unknownScalarType
  | selectionChanged
  | ticketExhausted
  | hubBusy
  | hubDisconnected
  | runtimeBusy
  | runtimeDisconnected
  | shutdownTimeout (worker : ApplicationWorker)
  | failure (failure : ApplicationFailure)
deriving DecidableEq, Repr

namespace ApplicationError

def activityText : ApplicationActivity → String
  | .idle => "Idle"
  | .resolving => "Resolving"
  | .loading => "Loading"
  | .unloading => "Unloading"
  | .shuttingDown => "ShuttingDown"

def fieldText : ApplicationConfigurationField → String
  | .runtimeShutdownTimeout => "RuntimeShutdownTimeout"
  | .runtimeJoinTimeout => "RuntimeJoinTimeout"
  | .hubShutdownTimeout => "HubShutdownTimeout"

def workerText : ApplicationWorker → String
  | .inference => "Inference"
  | .hub => "Hub"

def display : ApplicationError → String
  | .invalidConfiguration field => "invalid application configuration: " ++ fieldText field
  | .busy activity => "application operation is already active: " ++ activityText activity
  | .modelAlreadyLoaded => "unload the resident model before resolving another model"
  | .noResolvedModel => "no model artifacts have been resolved"
  | .noLoadedModel => "no model generation is loaded"
  | .unknownScalarType => "model configuration does not declare a supported floating-point scalar type"
  | .selectionChanged =>
    "repository or revision changed after resolution; resolve the current selection again"
  | .ticketExhausted => "command ticket space is exhausted"
  | .hubBusy => "Hub resolver queue is full"
  | .hubDisconnected => "Hub resolver is disconnected"
  | .runtimeBusy => "inference runtime queue is full"
  | .runtimeDisconnected => "inference runtime is disconnected"
  | .shutdownTimeout worker => workerText worker ++ " worker did not stop before its deadline"
  | .failure error => error.message

end ApplicationError

/-! ### The state -/

structure ResolvedModel where
  repository : String
  revision : String
  commit : String
  vocabularySize : ℕ
  scalarType : Option ScalarType
deriving DecidableEq, Repr

def ResolvedModel.matchesSelection (model : ResolvedModel) (repository revision : String) : Bool :=
  trimText repository = model.repository ∧ trimText revision = model.revision

structure ApplicationState.LoadedModel where
  handle : ModelHandle
  vocabularySize : ℕ
deriving DecidableEq, Repr

structure ApplicationState where
  activity : ApplicationActivity := .idle
  resolved : Option ResolvedModel := none
  loaded : Option ApplicationState.LoadedModel := none
  hubAvailable : Bool := true
  inferenceAvailable : Bool := true
deriving DecidableEq, Repr

namespace ApplicationState

variable (state : ApplicationState)

def beginResolving : ApplicationState := { state with activity := .resolving, resolved := none }

def beginLoading : ApplicationState := { state with activity := .loading }

def beginUnloading : ApplicationState := { state with activity := .unloading }

def beginShutdown : ApplicationState := { state with activity := .shuttingDown }

def setIdle : ApplicationState := { state with activity := .idle }

def setResolved (resolved : ResolvedModel) : ApplicationState :=
  { state with resolved := some resolved, activity := .idle }

def clearResolved : ApplicationState := { state with resolved := none }

def setLoaded (loaded : LoadedModel) : ApplicationState := { state with loaded := some loaded, activity := .idle }

def clearLoaded : ApplicationState := { state with loaded := none, activity := .idle }

def disconnectHub : ApplicationState := { state with hubAvailable := false }

def disconnectInference : ApplicationState := { state with inferenceAvailable := false }

end ApplicationState

/-! ### Events -/

inductive ApplicationEvent where
  | modelResolved (model : ResolvedModel) (persistenceWarning : Option ApplicationFailure)
  | modelResolutionFailed (failure : ApplicationFailure)
  | modelLoaded (model : ApplicationState.LoadedModel)
  | modelLoadFailed (failure : ApplicationFailure)
  | modelCompatibilityFailed (failure : ApplicationFailure)
  | modelDraining (handle : ModelHandle)
  | modelUnloaded (handle : ModelHandle) (cancelledRequests : ℕ)
  | modelUnloadFailed (failure : ApplicationFailure)
  | hubDisconnected
  | runtimeDisconnected
deriving DecidableEq, Repr

end LlmApp
