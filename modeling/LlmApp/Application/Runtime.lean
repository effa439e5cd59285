/-
# The application runtime

`ApplicationRuntime` in `runtime.rs`: one activity at a time, a worker that
resolves artifacts and a worker that runs models. Each function gets what the
channels, the tokenizer and the storage answer. `hubCommands` and
`inferenceCommands` are the commands its channels took.

Key definitions: `ApplicationRuntime`, `ApplicationRuntime.pollEvent`,
`ApplicationRuntime.processRuntimeEvent`.
-/
import LlmApp.Application.State
import LlmApp.Worker.Loop

namespace LlmApp

/-! ### Hub and source -/

structure HubModelReference where
  repository : String
  revision : String
deriving DecidableEq, Repr

/-- The failures of `HubModelReference::new`. -/
inductive HubReferenceError where
  | invalidRepository
  | invalidRevision
deriving DecidableEq, Repr

def HubReferenceError.display : HubReferenceError → String
  | .invalidRepository => "repository identifier is empty"
  | .invalidRevision => "revision identifier is empty"

def HubModelReference.new (repository revision : String) : Except HubReferenceError HubModelReference := do
  Except.failIf (trimText repository = "") .invalidRepository
  Except.failIf (trimText revision = "") .invalidRevision
  return ⟨trimText repository, trimText revision⟩

inductive ArtifactScalarType where
  | f32 | f16 | bf16
deriving DecidableEq, Repr

structure ResolvedModelArtifacts where
  repository : String
  revision : String
  commit : String
  declaredScalarType : Option ArtifactScalarType
  configPath : String
  tokenizerPath : String
  weightPaths : List String
deriving DecidableEq, Repr

inductive HubCommand where
  | resolve (reference : HubModelReference)
  | shutdown
deriving DecidableEq, Repr

/-- `HubEvent::Resolved`; a failure is its text. -/
structure HubEvent where
  resolved : Except String ResolvedModelArtifacts

inductive CandleScalarType where
  | f32 | f16 | bf16
deriving DecidableEq, Repr

structure CandleLlamaSource where
  configPath : String
  weightPaths : List String
  scalarType : CandleScalarType
deriving DecidableEq, Repr

/-- A source needs weights; its failure is `SourceError::MissingWeights`. -/
def CandleLlamaSource.new (configPath : String) (weightPaths : List String) (scalarType : CandleScalarType) :
    Except String CandleLlamaSource := do
  Except.failIf (weightPaths = []) "at least one weight file is required"
  return ⟨configPath, weightPaths, scalarType⟩

def domainScalarType : ArtifactScalarType → ScalarType
  | .f32 => .f32
  | .f16 => .f16
  | .bf16 => .bf16

def candleScalarType : ScalarType → Option CandleScalarType
  | .f32 => some .f32
  | .f16 => some .f16
  | .bf16 => some .bf16
  | _ => none

/-! ### The runtime -/

structure ApplicationPreferences where
  defaultRepository : String
  defaultRevision : String
  drainTimeoutMilliseconds : ℕ
deriving DecidableEq, Repr

/-- The tokenizer is its vocabulary's size. The thread handles say whether they
are still held. -/
structure ApplicationRuntime where
  state : ApplicationState := {}
  preferences : ApplicationPreferences
  resolvedArtifacts : Option ResolvedModelArtifacts := none
  tokenizer : Option ℕ := none
  nextTicket : ℕ := 1
  inferenceThread : Bool := true
  hubThread : Bool := true
  hubCommands : List HubCommand := []
  inferenceCommands : List (RuntimeCommand CandleLlamaSource) := []

/-- What a receive without waiting finds on a channel. -/
inductive TryReceive (α : Type) where
  | event (event : α)
  | empty
  | disconnected

/-- What a save of settings and one of a catalogue record answer, a failure by
its text. -/
structure StorageAnswer where
  saveSettings : Except String Unit
  upsertModel : Except String Unit

@[match_pattern] def modelId : ModelId := 1
@[match_pattern] def cpuDevice : DeviceId := 0

namespace ApplicationRuntime

def start (preferences : ApplicationPreferences) : ApplicationRuntime := { preferences }

variable (app : ApplicationRuntime)

def withState (f : ApplicationState → ApplicationState) : ApplicationRuntime := { app with state := f app.state }

def takeTicket : Except ApplicationError CommandTicket × ApplicationRuntime :=
  match checkedAdd u64Max app.nextTicket 1 with
  | none => (.error .ticketExhausted, app)
  | some nextTicket => (.ok app.nextTicket, { app with nextTicket := nextTicket })

def requireIdle : Except ApplicationError Unit :=
  Except.failIf (app.state.activity ≠ .idle) (.busy app.state.activity)

def submitInference (command : RuntimeCommand CandleLlamaSource) :
    SendResult → Except ApplicationError Unit × ApplicationRuntime
  | .sent => (.ok (), { app with inferenceCommands := app.inferenceCommands ++ [command] })
  | .full => (.error .runtimeBusy, app)
  | .disconnected => (.error .runtimeDisconnected, app.withState .disconnectInference)

def resolveModel (repository revision : String) (send : SendResult) :
    Except ApplicationError Unit × ApplicationRuntime :=
  let checks : Except ApplicationError HubModelReference := do
    app.requireIdle
    Except.failIf (app.state.loaded.isSome = true) .modelAlreadyLoaded
    Except.failIf (app.state.hubAvailable = false) .hubDisconnected
    (HubModelReference.new repository revision).mapError fun error => .failure ⟨.hub, error.display⟩
  match checks with
  | .error e => (.error e, app)
  | .ok reference =>
  match send with
  | .full => (.error .hubBusy, app)
  | .disconnected => (.error .hubDisconnected, app.withState .disconnectHub)
  | .sent =>
    (.ok (), { app with
      hubCommands := app.hubCommands ++ [.resolve reference]
      resolvedArtifacts := none
      tokenizer := none
      state := app.state.beginResolving })

/-- The checks of a load, and the source it loads from. -/
def loadSource (repository revision : String) : Except ApplicationError CandleLlamaSource := do
  app.requireIdle
  Except.failIf (app.state.loaded.isSome = true) .modelAlreadyLoaded
  Except.failIf (app.state.inferenceAvailable = false) .runtimeDisconnected
  let resolved ← Except.okOr app.state.resolved .noResolvedModel
  Except.failIf (resolved.matchesSelection repository revision = false) .selectionChanged
  let scalarType ← Except.okOr (resolved.scalarType.bind candleScalarType) .unknownScalarType
  let artifacts ← Except.okOr app.resolvedArtifacts .noResolvedModel
  (CandleLlamaSource.new artifacts.configPath artifacts.weightPaths scalarType).mapError
    fun error => .failure ⟨.modelSource, error⟩

def loadModel (repository revision : String) (submit : SendResult) :
    Except ApplicationError Unit × ApplicationRuntime :=
  match app.loadSource repository revision with
  | .error e => (.error e, app)
  | .ok source =>
  match app.takeTicket with
  | (.error e, app) => (.error e, app)
  | (.ok ticket, app) =>
  match app.submitInference (.loadModel ticket modelId source cpuDevice .cpu) submit with
  | (.error e, app) => (.error e, app)
  | (.ok (), app) => (.ok (), app.withState .beginLoading)

def submitUnload (handle : ModelHandle) (submit : SendResult) : Except ApplicationError Unit × ApplicationRuntime :=
  if h : 0 < app.preferences.drainTimeoutMilliseconds then
    match app.takeTicket with
    | (.error e, app) => (.error e, app)
    | (.ok ticket, app') =>
    match app'.submitInference
        (.unloadModel ticket handle (.drain ⟨app.preferences.drainTimeoutMilliseconds, h⟩)) submit with
    | (.error e, app) => (.error e, app)
    | (.ok (), app) => (.ok (), app.withState .beginUnloading)
  else (.error (.failure (.fromDebug .inference "invalid drain timeout" "ZeroDrainTimeout")), app)

def unloadModel (submit : SendResult) : Except ApplicationError Unit × ApplicationRuntime :=
  let checks : Except ApplicationError ModelHandle := do
    app.requireIdle
    let loaded ← Except.okOr app.state.loaded .noLoadedModel
    return loaded.handle
  match checks with
  | .error e => (.error e, app)
  | .ok handle => app.submitUnload handle submit

/-! ### Events -/

/-- The settings are saved, and the model's record if its scalar type is known. -/
def persistResolved (artifacts : ResolvedModelArtifacts) (storage : StorageAnswer) :
    Except String Unit × ApplicationRuntime :=
  let saved : Except String Unit := do
    storage.saveSettings
    if artifacts.declaredScalarType.isSome then storage.upsertModel else return ()
  (saved, { app with preferences := { app.preferences with
    defaultRepository := artifacts.repository, defaultRevision := artifacts.revision } })

/-- `tokenizer` is what reading the tokenizer's file gives. -/
def acceptResolvedArtifacts (artifacts : ResolvedModelArtifacts) (tokenizer : Except String ℕ)
    (storage : StorageAnswer) : ApplicationEvent × ApplicationRuntime :=
  match tokenizer with
  | .error error => (.modelResolutionFailed ⟨.tokenizer, error⟩, app.withState .setIdle)
  | .ok vocabularySize =>
    let resolved : ResolvedModel := ⟨artifacts.repository, artifacts.revision, artifacts.commit, vocabularySize,
      artifacts.declaredScalarType.map domainScalarType⟩
    let (saved, app) := app.persistResolved artifacts storage
    (.modelResolved resolved (saved.err.map fun error => ⟨.storage, error⟩),
      { app with
        resolvedArtifacts := some artifacts
        tokenizer := some vocabularySize
        state := app.state.setResolved resolved })

def processHubEvent (event : HubEvent) (tokenizer : Except String ℕ) (storage : StorageAnswer) :
    ApplicationEvent × ApplicationRuntime :=
  match event.resolved with
  | .ok artifacts => app.acceptResolvedArtifacts artifacts tokenizer storage
  | .error error => (.modelResolutionFailed ⟨.hub, error⟩, app.withState .setIdle)

def incompatibleText : String :=
  "tokenizer and model vocabulary sizes differ; deterministic unload was requested"

def rejectIncompatibleModel (handle : ModelHandle) (submit : SendResult) : ApplicationEvent × ApplicationRuntime :=
  let app := { app with state := app.state.clearResolved, resolvedArtifacts := none, tokenizer := none }
  match app.submitUnload handle submit with
  | (.error error, app) =>
    (.modelLoadFailed ⟨.inference, incompatibleText ++ "; automatic unload failed: " ++ error.display⟩,
      app.withState .setIdle)
  | (.ok (), app) => (.modelCompatibilityFailed ⟨.inference, incompatibleText⟩, app)

/-- `debug` is the `Debug` text of a runtime error. -/
def processModelLoaded (debug : RuntimeError → String) (result : Except RuntimeError LoadReceipt)
    (submit : SendResult) : ApplicationEvent × ApplicationRuntime :=
  match result with
  | .error error =>
    (.modelLoadFailed (.fromDebug .inference "model load failed" (debug error)), app.withState .setIdle)
  | .ok receipt =>
    let loaded : ApplicationState.LoadedModel := ⟨receipt.handle, receipt.descriptor.metadata.vocabularySize⟩
    let app := app.withState fun state => state.setLoaded loaded
    if app.tokenizer.any (fun size => size ≠ receipt.descriptor.metadata.vocabularySize) then
      app.rejectIncompatibleModel receipt.handle submit
    else (.modelLoaded loaded, app)

def processModelUnload (debug : RuntimeError → String) (result : Except RuntimeError UnloadReceipt) :
    ApplicationEvent × ApplicationRuntime :=
  match result with
  | .ok receipt =>
    match receipt.status with
    | .draining => (.modelDraining receipt.handle, app)
    | .alreadyAbsent | .unloaded =>
      (.modelUnloaded receipt.handle receipt.cancelledRequests, app.withState .clearLoaded)
  | .error error =>
    (.modelUnloadFailed (.fromDebug .inference "model unload failed" (debug error)), app.withState .setIdle)

def processRuntimeEvent (debug : RuntimeError → String) (event : RuntimeEvent) (submit : SendResult) :
    Option ApplicationEvent × ApplicationRuntime :=
  match event with
  | .modelLoaded _ result =>
    let (event, app) := app.processModelLoaded debug result submit
    (some event, app)
  | .modelUnload _ result =>
    let (event, app) := app.processModelUnload debug result
    (some event, app)
  | _ => (none, app)

/-- What the workers and the storage answer a poll. -/
structure PollAnswer where
  hub : TryReceive HubEvent
  inference : TryReceive RuntimeEvent
  tokenizer : Except String ℕ
  storage : StorageAnswer
  submit : SendResult

/-- The tokenizer's file and the storage answer as they do when nothing fails. -/
def PollAnswer.ofHub (event : HubEvent) (vocabularySize : ℕ) : PollAnswer :=
  ⟨.event event, .empty, .ok vocabularySize, ⟨.ok (), .ok ()⟩, .full⟩

def PollAnswer.ofInference (event : RuntimeEvent) : PollAnswer :=
  ⟨.empty, .event event, .error "", ⟨.ok (), .ok ()⟩, .full⟩

/-- The half of `poll_event` that reads the inference worker. -/
def pollInference (debug : RuntimeError → String) (answer : PollAnswer) :
    Option ApplicationEvent × ApplicationRuntime :=
  if app.state.inferenceAvailable then
    match answer.inference with
    | .event event => app.processRuntimeEvent debug event answer.submit
    | .empty => (none, app)
    | .disconnected =>
      (some .runtimeDisconnected, app.withState fun state =>
        if state.activity = .loading ∨ state.activity = .unloading then state.disconnectInference.setIdle
        else state.disconnectInference)
  else (none, app)

def pollEvent (debug : RuntimeError → String) (answer : PollAnswer) : Option ApplicationEvent × ApplicationRuntime :=
  if app.state.hubAvailable then
    match answer.hub with
    | .event event =>
      let (event, app) := app.processHubEvent event answer.tokenizer answer.storage
      (some event, app)
    | .empty => app.pollInference debug answer
    | .disconnected =>
      (some .hubDisconnected, app.withState fun state =>
        if state.activity = .resolving then state.disconnectHub.setIdle else state.disconnectHub)
  else app.pollInference debug answer

end ApplicationRuntime

end LlmApp
