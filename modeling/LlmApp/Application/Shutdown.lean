/-
# Shutdown of the application

`shutdown.rs`: both workers are asked to stop, and then waited for until their
deadlines. A worker that could not be asked, or did not answer in time, stays
marked as available.

Key definitions: `shutdownRuntimeWorker`, `ApplicationRuntime.shutdown`.
-/
import LlmApp.Application.Runtime

namespace LlmApp

/-- How a wait for a worker's thread goes: whether its deadline can be computed,
whether the thread ends before it, and its panic. -/
structure JoinAnswer where
  deadline : Bool
  finished : Bool
  panic : Option String
deriving DecidableEq, Repr

/-- What the workers answer a shutdown. Each submission and each receive comes
with whether there is time left: after a full queue, and before a receive. -/
structure ShutdownAnswer where
  hubSend : SendResult
  deadline : Bool
  submits : List (SendResult × Bool)
  receives : List (Bool × TryReceive RuntimeEvent)
  joinRuntime : JoinAnswer
  joinHub : JoinAnswer

inductive RuntimeShutdown where
  | disconnected
  | finished (result : Except RuntimeError ShutdownReceipt)

/-- Submit the shutdown until it is taken: whether it was, or the worker is gone. -/
def submitShutdown : List (SendResult × Bool) → Except ApplicationError Bool
  | [] => .error .runtimeBusy
  | (.sent, _) :: _ => .ok true
  | (.disconnected, _) :: _ => .ok false
  | (.full, remaining) :: answers => if remaining then submitShutdown answers else .error .runtimeBusy

/-- Receive until the answer to `ticket`. -/
def awaitShutdown (ticket : CommandTicket) :
    List (Bool × TryReceive RuntimeEvent) → Except ApplicationError RuntimeShutdown
  | [] => .error (.shutdownTimeout .inference)
  | (false, _) :: _ => .error (.shutdownTimeout .inference)
  | (true, .event (.shutdown eventTicket result)) :: answers =>
    if eventTicket = ticket then .ok (.finished result) else awaitShutdown ticket answers
  | (true, .disconnected) :: _ => .ok .disconnected
  | (true, .event _) :: answers => awaitShutdown ticket answers
  | (true, .empty) :: answers => awaitShutdown ticket answers

namespace ApplicationRuntime

variable (app : ApplicationRuntime)

def requestHubShutdown (send : SendResult) : Except ApplicationError Unit × ApplicationRuntime :=
  if app.state.hubAvailable then
    match send with
    | .sent =>
      (.ok (), { app with hubCommands := app.hubCommands ++ [.shutdown], state := app.state.disconnectHub })
    | .disconnected => (.ok (), app.withState .disconnectHub)
    | .full => (.error .hubBusy, app)
  else (.ok (), app)

def shutdownRuntimeWorker (ticket : CommandTicket) (answer : ShutdownAnswer) :
    Except ApplicationError RuntimeShutdown × ApplicationRuntime :=
  if answer.deadline then
    match submitShutdown answer.submits with
    | .error e => (.error e, app)
    | .ok false => (.ok .disconnected, app)
    | .ok true =>
      (awaitShutdown ticket answer.receives,
        { app with inferenceCommands := app.inferenceCommands ++ [.shutdown ticket] })
  else (.error (.invalidConfiguration .runtimeShutdownTimeout), app)

def normalizeRuntimeShutdown (debug : RuntimeError → String) : RuntimeShutdown → Except ApplicationError Unit
  | .disconnected => .ok ()
  | .finished (.ok _) => .ok ()
  | .finished (.error error) => .error (.failure (.fromDebug .inference "inference shutdown failed" (debug error)))

def shutdownRuntime (debug : RuntimeError → String) (answer : ShutdownAnswer) :
    Except ApplicationError Unit × ApplicationRuntime :=
  if app.state.inferenceAvailable then
    match app.takeTicket with
    | (.error e, app) => (.error e, app)
    | (.ok ticket, app) =>
    match app.shutdownRuntimeWorker ticket answer with
    | (.error e, app) => (.error e, app)
    | (.ok outcome, app) => (normalizeRuntimeShutdown debug outcome, app.withState .disconnectInference)
  else (.ok (), app)

def waitForThread (field : ApplicationConfigurationField) (worker : ApplicationWorker) (answer : JoinAnswer) :
    Except ApplicationError Unit := do
  Except.failIf (answer.deadline = false) (.invalidConfiguration field)
  Except.failIf (answer.finished = false) (.shutdownTimeout worker)
  match answer.panic with
  | none => return ()
  | some text => .error (.failure ⟨.worker, text⟩)

def joinRuntimeWorker (answer : JoinAnswer) : Except ApplicationError Unit × ApplicationRuntime :=
  if app.inferenceThread then
    (waitForThread .runtimeJoinTimeout .inference answer, { app with inferenceThread := false })
  else (.ok (), app)

def joinHubWorker (answer : JoinAnswer) : Except ApplicationError Unit × ApplicationRuntime :=
  if app.hubThread then (waitForThread .hubShutdownTimeout .hub answer, { app with hubThread := false })
  else (.ok (), app)

/-- The first error of the four parts. -/
def shutdown (debug : RuntimeError → String) (answer : ShutdownAnswer) :
    Except ApplicationError Unit × ApplicationRuntime :=
  if app.state.activity = .shuttingDown then (.ok (), app)
  else
    let app := app.withState .beginShutdown
    let (hub, app) := app.requestHubShutdown answer.hubSend
    let (runtime, app) := app.shutdownRuntime debug answer
    let (joinedRuntime, app) := app.joinRuntimeWorker answer.joinRuntime
    let (joinedHub, app) := app.joinHubWorker answer.joinHub
    match ((hub.err.or runtime.err).or joinedRuntime.err).or joinedHub.err with
    | none => (.ok (), app)
    | some e => (.error e, app)

end ApplicationRuntime

/-! ### Calls -/

/-- A call of the application, with what the workers answer it. -/
inductive ApplicationCall where
  | resolveModel (repository revision : String) (send : SendResult)
  | loadModel (repository revision : String) (submit : SendResult)
  | unloadModel (submit : SendResult)
  | pollEvent (answer : ApplicationRuntime.PollAnswer)
  | shutdown (answer : ShutdownAnswer)

/-- The runtime after a call. -/
def ApplicationRuntime.call (debug : RuntimeError → String) (app : ApplicationRuntime) :
    ApplicationCall → ApplicationRuntime
  | .resolveModel repository revision send => (app.resolveModel repository revision send).2
  | .loadModel repository revision submit => (app.loadModel repository revision submit).2
  | .unloadModel submit => (app.unloadModel submit).2
  | .pollEvent answer => (app.pollEvent debug answer).2
  | .shutdown answer => (app.shutdown debug answer).2

def ApplicationRuntime.callAll (debug : RuntimeError → String) (app : ApplicationRuntime)
    (calls : List ApplicationCall) : ApplicationRuntime :=
  calls.foldl (fun app call => app.call debug call) app

/-- The calls that start the load of a model whose tokenizer has ten entries. -/
def loadingCalls : List ApplicationCall :=
  let artifacts : ResolvedModelArtifacts := ⟨"repo", "main", "0", some .f32, "config", "tokenizer", ["weights"]⟩
  [.resolveModel "repo" "main" .sent, .pollEvent (.ofHub ⟨.ok artifacts⟩ 10), .loadModel "repo" "main" .sent]

/-- What that load gives. -/
def loadedReceipt : LoadReceipt := ⟨⟨1, 1⟩, ⟨0, ⟨.llama, .f32, .none, 10, 8⟩, ⟨0, 8, 1, 8⟩, {}⟩, {}⟩

/-- The call is one to start an operation, and was accepted. -/
def ApplicationRuntime.accepts (app : ApplicationRuntime) : ApplicationCall → Bool
  | .resolveModel repository revision send => (app.resolveModel repository revision send).1.isOk
  | .loadModel repository revision submit => (app.loadModel repository revision submit).1.isOk
  | .unloadModel submit => (app.unloadModel submit).1.isOk
  | .pollEvent _ | .shutdown _ => false

end LlmApp
