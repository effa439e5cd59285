/-
# The worker loop

`run_worker` as a state machine. A step is one section of the loop's body, or
one turn of its inner `for`, and the state names the section that comes next
(`WorkerLocation`). What the loop reads from outside comes in as the step's
input: the time, how the bounded event channel takes an event, and what the
command channel holds. A run is any list of inputs, so it meets any arrival of
commands and any pattern of full and free slots.

`Post` marks the replies among the events, `sent` records what the channel
took and `dispatched` the replies in the order of their commands. No function
of the loop reads the mark or the records.

Key definitions: `Worker`, `WorkerInput`, `Worker.dispatchCommand`,
`Worker.step`, `Worker.run`.
Key theorems: `Worker.run_along`, `Worker.run_invariant`.
-/
import LlmApp.Worker.Dispatch

namespace LlmApp

/-! ### State -/

/-- What is kept of an unload that completes later. -/
structure PendingUnload where
  handle : ModelHandle
  ticket : CommandTicket
  failureReported : Bool
  cancelledRequests : ℕ
deriving DecidableEq, Repr

/-- An event on its way out, and whether it is the reply to a command. -/
structure Post where
  event : RuntimeEvent
  reply : Bool

/-- How the worker ended: with the runtime dropped, or forgotten. -/
inductive WorkerExit where
  | dropped
  | forgotten
deriving DecidableEq, Repr

/-- The section of the loop that comes next; `receiving left` has `left` turns
of the inner loop ahead, `handled` says that a command was taken. -/
inductive WorkerLocation where
  | cleanup
  | maintenance
  | collection
  | publication
  | receiving (left : ℕ) (handled : Bool)
  | advancing (handled : Bool)
  | waiting
  | stopped (exit : WorkerExit)
deriving DecidableEq, Repr

structure Worker (σ τ : Type) where
  runtime : InferenceRuntime σ
  scheduler : GenerationScheduler τ
  output : TokenOutput GenerationOutputState
  eventBacklogCapacity : ℕ
  pendingEvent : Option Post
  queuedEvents : List Post
  stopAfterEvent : Option WorkerStop
  pendingUnloads : OrdMap ModelId PendingUnload
  maintenanceEvents : OrdMap ModelId RuntimeEvent
  location : WorkerLocation
  sent : List Post
  dispatched : List RuntimeEvent

/-- What `try_send` on the event channel returns. -/
inductive SendResult where
  | sent | full | disconnected
deriving DecidableEq, Repr

/-- What a receive on the command channel returns: a command, with the host
allocations that succeed while it runs; nothing (or a timeout); or the end. -/
inductive Received (Source : Type) where
  | command (command : RuntimeCommand Source) (allocates : CapacityResource → Bool)
  | empty
  | disconnected

structure WorkerInput (Source : Type) where
  now : MonotonicMillis
  send : SendResult
  received : Received Source

namespace WorkerInput

variable {Source : Type}

/-- A command arrives while the event channel is full. -/
def command (command : RuntimeCommand Source) : WorkerInput Source :=
  ⟨0, .full, .command command fun _ => true⟩

/-- No command arrives, and the event channel takes an event. -/
def quiet : WorkerInput Source := ⟨0, .sent, .empty⟩

/-- From the head of the loop through `commands`. -/
def commands (commands : List (RuntimeCommand Source)) : List (WorkerInput Source) :=
  List.replicate 4 quiet ++ commands.map command

end WorkerInput

/-! ### Maintenance -/

section Maintenance

variable {σ Source : Type}

def maintenanceEvent (b : Backend σ Source) (rt : InferenceRuntime σ) (now : MonotonicMillis)
    (pendingUnloads : OrdMap ModelId PendingUnload) :
    Option (ModelId × RuntimeEvent) × InferenceRuntime σ × OrdMap ModelId PendingUnload :=
  match rt.pollUnloadTransition b now with
  | (none, rt) => (none, rt, pendingUnloads)
  | (some (handle, result), rt) =>
  match pendingUnloads.get? handle.id with
  | none => (none, rt, pendingUnloads)
  | some pending =>
  match result with
  | .ok receipt =>
    (some (handle.id, .modelUnload pending.ticket (.ok receipt)), rt, pendingUnloads.erase handle.id)
  | .error error =>
    if pending.failureReported = false then
      (some (handle.id, .modelUnload pending.ticket (.error error)), rt,
        pendingUnloads.insert handle.id { pending with failureReported := true })
    else (none, rt, pendingUnloads)

/-- The model of a pending unload is neither resident nor pending cleanup. -/
def isUnloadComplete (rt : InferenceRuntime σ) (modelId : ModelId) : Bool :=
  (rt.modelLifecycleState modelId).isNone && !rt.isModelCleanupPending modelId

def completedUnload (pending : PendingUnload) : RuntimeEvent :=
  .modelUnload pending.ticket (.ok ⟨pending.handle, .unloaded, pending.cancelledRequests⟩)

/-- Move the completed unloads among `entries` from the one map to the other. -/
def collectUnloads (rt : InferenceRuntime σ) : List (ModelId × PendingUnload) →
    OrdMap ModelId PendingUnload × OrdMap ModelId RuntimeEvent →
    OrdMap ModelId PendingUnload × OrdMap ModelId RuntimeEvent
  | [], maps => maps
  | (modelId, pending) :: entries, (pendingUnloads, events) =>
    collectUnloads rt entries
      (if isUnloadComplete rt modelId then
        (pendingUnloads.erase modelId, events.insert modelId (completedUnload pending))
      else (pendingUnloads, events))

def collectNaturallyCompletedUnloads (rt : InferenceRuntime σ)
    (maps : OrdMap ModelId PendingUnload × OrdMap ModelId RuntimeEvent) :
    OrdMap ModelId PendingUnload × OrdMap ModelId RuntimeEvent :=
  collectUnloads rt maps.1.entries maps

def unloadCommandIdentity : RuntimeCommand Source → Option (ModelHandle × CommandTicket)
  | .unloadModel ticket handle _ => some (handle, ticket)
  | _ => none

/-- An unload of the model was accepted and is not complete. -/
def isUnloadPending (rt : InferenceRuntime σ) (modelId : ModelId) : Bool :=
  rt.isModelCleanupPending modelId || (rt.modelLifecycleState modelId).any (·.unloadAccepted)

def rememberPendingUnload (identity : Option (ModelHandle × CommandTicket)) (event : RuntimeEvent)
    (rt : InferenceRuntime σ) (pendingUnloads : OrdMap ModelId PendingUnload) :
    OrdMap ModelId PendingUnload :=
  match identity with
  | none => pendingUnloads
  | some (handle, ticket) =>
    if isUnloadPending rt handle.id then
      let (failureReported, cancelledRequests) :=
        match event with
        | .modelUnload _ (.ok receipt) => (false, receipt.cancelledRequests)
        | .modelUnload _ (.error _) =>
          (true, (rt.modelCancelledRequestsDuringUnload handle.id).getD 0)
        | _ => (false, 0)
      pendingUnloads.insert handle.id ⟨handle, ticket, failureReported, cancelledRequests⟩
    else pendingUnloads.erase handle.id

/-- The event of a drain that cancelled requests when it expired. -/
def cancelledByMaintenance : RuntimeEvent → Bool
  | .modelUnload _ (.ok receipt) => 0 < receipt.cancelledRequests
  | _ => false

end Maintenance

/-! ### Steps -/

namespace Worker

variable {σ Source τ : Type}

/-- A worker that has just been spawned. -/
def start (loader : σ) (limits : RuntimeLimits) (output : TokenOutput GenerationOutputState)
    (eventBacklogCapacity : ℕ) : Worker σ τ where
  runtime := .new loader limits
  scheduler := .new
  output := output
  eventBacklogCapacity := eventBacklogCapacity
  pendingEvent := none
  queuedEvents := []
  stopAfterEvent := none
  pendingUnloads := .empty
  maintenanceEvents := .empty
  location := .cleanup
  sent := []
  dispatched := []

section Sections

variable (b : Backend σ Source) (s : Sampling τ) (w : Worker σ τ)

def cleanup : Worker σ τ :=
  match w.runtime.pollCleanup b with
  | (.ok _, rt) => { w with runtime := rt, location := .maintenance }
  | (.error error, rt) => { w with runtime := rt.recordMaintenanceError error, location := .maintenance }

def maintain (now : MonotonicMillis) : Worker σ τ :=
  match maintenanceEvent b w.runtime now w.pendingUnloads with
  | (none, rt, pendingUnloads) =>
    { w with runtime := rt, pendingUnloads := pendingUnloads, location := .collection }
  | (some (modelId, event), rt, pendingUnloads) =>
    { w with
      runtime := rt
      pendingUnloads := pendingUnloads
      scheduler := if cancelledByMaintenance event then
          w.scheduler.requestModelCancellation modelId .drainTimeout
        else w.scheduler
      maintenanceEvents := w.maintenanceEvents.insert modelId event
      location := .collection }

/-- Fill the empty slot from the queue, or else from the maintenance events. -/
def refill : Worker σ τ :=
  match w.pendingEvent, w.queuedEvents with
  | some _, _ => w
  | none, event :: events => { w with pendingEvent := some event, queuedEvents := events }
  | none, [] =>
    match w.maintenanceEvents.first? with
    | none => w
    | some (modelId, event) =>
      { w with
        pendingEvent := some ⟨event, false⟩
        maintenanceEvents := w.maintenanceEvents.erase modelId }

def collect : Worker σ τ :=
  let maps := collectNaturallyCompletedUnloads w.runtime (w.pendingUnloads, w.maintenanceEvents)
  refill { w with pendingUnloads := maps.1, maintenanceEvents := maps.2, location := .publication }

def finishWorker (stop : WorkerStop) : Worker σ τ :=
  { w with location := .stopped (match stop with
      | .dropRuntime => .dropped
      | .preserveRuntime => .forgotten) }

def shutdownAfterDisconnect : Worker σ τ :=
  match w.runtime.shutdown b with
  | (result, rt) =>
    let exit := if result.isOk = false ∧ rt.ownsBackendResources = true then .forgotten else .dropped
    { w with runtime := rt, location := .stopped exit }

/-- After publication: the commands, or the head of the loop once stopping. -/
def afterPublication : Worker σ τ :=
  if w.stopAfterEvent.isSome then { w with location := .cleanup }
  else { w with location := .receiving 8 false }

def publish (send : SendResult) : Worker σ τ :=
  match w.pendingEvent with
  | none =>
    match w.stopAfterEvent with
    | some stop => if w.queuedEvents.isEmpty then w.finishWorker stop else w.afterPublication
    | none => w.afterPublication
  | some event =>
    match send with
    | .sent =>
      let w := { w with pendingEvent := none, sent := w.sent ++ [event] }
      match w.stopAfterEvent with
      | some stop => w.finishWorker stop
      | none => w.afterPublication
    | .full => w.afterPublication
    | .disconnected => shutdownAfterDisconnect b { w with pendingEvent := none }

/-- Put a reply into the slot, or behind it into the queue. -/
def post (event : RuntimeEvent) : Worker σ τ :=
  match w.pendingEvent with
  | none => { w with pendingEvent := some ⟨event, true⟩ }
  | some _ => { w with queuedEvents := w.queuedEvents ++ [⟨event, true⟩] }

/-- Run one command and keep its reply. -/
def dispatchCommand (command : RuntimeCommand Source) (allocates : CapacityResource → Bool)
    (now : MonotonicMillis) : Worker σ τ :=
  let d := dispatch b s w.runtime w.scheduler w.output.capacities allocates now command
  let w := { w with
    runtime := d.runtime
    scheduler := d.scheduler
    pendingUnloads := rememberPendingUnload (unloadCommandIdentity command) d.event d.runtime w.pendingUnloads
    dispatched := w.dispatched ++ [d.event] }
  match d.stop with
  | some stop =>
    { w with
      pendingEvent := some ⟨d.event, true⟩
      queuedEvents := []
      maintenanceEvents := .empty
      pendingUnloads := .empty
      stopAfterEvent := some stop }
  | none => w.post d.event

/-- One turn of the inner loop over commands. -/
def receive (left : ℕ) (handled : Bool) (input : WorkerInput Source) : Worker σ τ :=
  match left with
  | 0 => { w with location := .advancing handled }
  | left + 1 =>
    if w.eventBacklogCapacity ≤ w.queuedEvents.length then { w with location := .advancing handled }
    else
    match input.received with
    | .command command allocates =>
      let w := w.dispatchCommand b s command allocates input.now
      { w with location := if w.stopAfterEvent.isSome then .advancing true else .receiving left true }
    | .empty => { w with location := .advancing handled }
    | .disconnected => w.shutdownAfterDisconnect b

/-- The scheduler's turn. -/
def advance (handled : Bool) : Worker σ τ :=
  let advanced := w.scheduler.advance b s w.runtime w.output
  { w with
    scheduler := advanced.scheduler
    runtime := advanced.runtime
    output := advanced.output
    location :=
      if handled = false ∧ advanced.result.progressed = false ∧
          w.queuedEvents.length < w.eventBacklogCapacity then .waiting
      else .cleanup }

/-- Wait for one command when there is nothing else to do. -/
def wait (input : WorkerInput Source) : Worker σ τ :=
  match input.received with
  | .command command allocates =>
    { w.dispatchCommand b s command allocates input.now with location := .cleanup }
  | .empty => { w with location := .cleanup }
  | .disconnected => w.shutdownAfterDisconnect b

def step (input : WorkerInput Source) : Worker σ τ :=
  match w.location with
  | .cleanup => w.cleanup b
  | .maintenance => w.maintain b input.now
  | .collection => w.collect
  | .publication => w.publish b input.send
  | .receiving left handled => w.receive b s left handled input
  | .advancing handled => w.advance b s handled
  | .waiting => w.wait b s input
  | .stopped _ => w

end Sections

/-- The worker after the steps with `inputs`. -/
def run (b : Backend σ Source) (s : Sampling τ) (inputs : List (WorkerInput Source)) (w : Worker σ τ) :
    Worker σ τ :=
  inputs.foldl (fun w input => w.step b s input) w

section Run

variable (b : Backend σ Source) (s : Sampling τ)

/-- `P` holds at every step of a run. -/
def Along (P : Worker σ τ → WorkerInput Source → Prop) : List (WorkerInput Source) → Worker σ τ → Prop
  | [], _ => True
  | input :: inputs, w => P w input ∧ Along P inputs (w.step b s input)

/-- What each step keeps, where `P` holds, holds after any run along `P`. -/
theorem run_along {P : Worker σ τ → WorkerInput Source → Prop} {I : Worker σ τ → Prop}
    (hstep : ∀ {w : Worker σ τ} {input : WorkerInput Source}, I w → P w input → I (w.step b s input)) :
    ∀ (inputs : List (WorkerInput Source)) {w : Worker σ τ}, Along b s P inputs w → I w → I (run b s inputs w)
  | [], _, _, h => h
  | _ :: inputs, _, hp, h => run_along hstep inputs hp.2 (hstep h hp.1)

theorem run_invariant {I : Worker σ τ → Prop}
    (hstep : ∀ {w : Worker σ τ} (input : WorkerInput Source), I w → I (w.step b s input)) :
    ∀ (inputs : List (WorkerInput Source)) {w : Worker σ τ}, I w → I (run b s inputs w)
  | [], _, h => h
  | input :: inputs, _, h => run_invariant hstep inputs (hstep input h)

end Run

end Worker

end LlmApp
