/-
# One scheduled generation

A `GenerationTask` is all the scheduler keeps of one generation, and
`advanceTask` is one turn of it: publish what waits to be published, or record
a cancellation, or take one backend step and sample a token. A generation whose
work has ended is in its terminal phase, which publishes the outcome and then
what becomes of the sequence.

The sampler is a parameter (`Sampling`): its state, and what one draw returns.

Key definitions: `Sampling`, `GenerationTask`, `terminalPhase`,
`publishTerminal`, `stepTask`, `advanceTask`.
-/
import LlmApp.Output
import LlmApp.Runtime.Operations

namespace LlmApp

/-! ### Requests -/

structure GenerationStopSequence where
  code : ℕ
  tokens : List TokenId
deriving DecidableEq, Repr

structure GenerationOutputCapacityPolicy where
  minimumTokens : ℕ
  minimumRecords : ℕ
deriving DecidableEq, Repr

structure SamplingConfig where
  temperature : F32
  topK : ℕ
  topP : F32
  minP : F32
  repetitionPenalty : F32
  repetitionWindow : ℕ
deriving DecidableEq, Repr

/-- The sampling crate as generation uses it: a draw returns the token and
the sampler, logits, indices and epochs after it. -/
structure Sampling (τ : Type) where
  new : SamplingConfig → ℕ → Except SamplingFailure τ
  sample : τ → List F32 → List TokenId → List ℕ → List ℕ →
    Except SamplingFailure TokenId × τ × List F32 × List ℕ × List ℕ

/-- A sampler by its draws: the `n`-th draw returns what `draws n` says and
leaves the logits and the workspace as they are. -/
def Sampling.scripted (draws : ℕ → Except SamplingFailure TokenId) : Sampling ℕ where
  new _ _ := .ok 0
  sample n logits _ samplingIndices repetitionEpochs :=
    (draws n, n + 1, logits, samplingIndices, repetitionEpochs)

structure GenerationRequest where
  requestId : RequestId
  sequenceId : SequenceId
  promptTokens : List TokenId
  sequence : SequenceConfiguration
  maximumGeneratedTokens : NonZeroU32
  sampling : SamplingConfig
  seed : ℕ
  eosTokens : List TokenId
  stopSequences : List GenerationStopSequence
  schedulerQuantum : NonZeroU32
  outputCapacity : GenerationOutputCapacityPolicy
deriving DecidableEq, Repr

/-- A request for at most four tokens after a prompt of one, a token a turn. -/
def GenerationRequest.short (requestId : RequestId) : GenerationRequest where
  requestId := requestId
  sequenceId := requestId
  promptTokens := [1]
  sequence := ⟨8, 8⟩
  maximumGeneratedTokens := 4
  sampling := ⟨0, 0, 0, 0, 0, 0⟩
  seed := 0
  eosTokens := []
  stopSequences := []
  schedulerQuantum := 1
  outputCapacity := ⟨1, 1⟩

/-! ### Outcomes -/

inductive GenerationOutcome where
  | finished (reason : FinishReason)
  | failed (error : RuntimeError)
deriving DecidableEq, Repr

inductive GenerationOutputState where
  | yielded (reason : YieldReason)
  | terminal (outcome : GenerationOutcome)
  | cleanupPending (outcome : GenerationOutcome) (failure : CleanupFailureReport) (retry : CleanupRetryState)
  | cleanupExhausted (outcome : GenerationOutcome) (failure : CleanupFailureReport)
      (retry : CleanupRetryState)
  | released (outcome : GenerationOutcome)
deriving DecidableEq, Repr

structure TerminalPublication where
  outcome : GenerationOutcome
  initialCleanup : Option CleanupRetryState
  terminalPublished : Bool
  cleanupPublished : Bool
  exhaustionPublished : Bool
deriving DecidableEq, Repr

inductive GenerationPhase where
  | prefill
  | decode
  | terminal (publication : TerminalPublication)
deriving DecidableEq, Repr

structure GenerationTask (τ : Type) where
  handle : ModelHandle
  workspaceFootprint : MemoryFootprint
  promptTokens : List TokenId
  maximumGeneratedTokens : ℕ
  eosTokens : List TokenId
  stopSequences : List GenerationStopSequence
  schedulerQuantum : NonZeroU32
  sampler : τ
  logits : List F32
  samplingIndices : List ℕ
  repetitionEpochs : List ℕ
  history : List TokenId
  generated : List TokenId
  phase : GenerationPhase
  pendingToken : Option TokenId
  cancellation : Option CancellationReason
  pendingYield : Option YieldReason
deriving DecidableEq, Repr

structure SchedulerAdvance where
  progressed : Bool
  completed : Option RequestId
deriving DecidableEq, Repr

def progressed : SchedulerAdvance := ⟨true, none⟩

def idle : SchedulerAdvance := ⟨false, none⟩

section Terminal

variable {σ : Type} (rt : InferenceRuntime σ) (requestId : RequestId)

def cleanupStateFromError : RuntimeError → Option CleanupRetryState
  | .cleanupFailed _ => rt.requestCleanupState requestId
  | .cleanupRetryExhausted state => some state
  | _ => none

/-- A phase whose publication has not begun. -/
def GenerationPhase.unpublished (outcome : GenerationOutcome) (initialCleanup : Option CleanupRetryState) :
    GenerationPhase :=
  .terminal ⟨outcome, initialCleanup, false, false, false⟩

/-- The phase of a generation that ended with `outcome`, where its removal
from the registry returned `cleanupError`. -/
def terminalPhase (outcome : GenerationOutcome) (cleanupError : Option RuntimeError) : GenerationPhase :=
  let retainedCleanup := rt.requestCleanupState requestId
  match cleanupError with
  | some (.cleanupFailed report) =>
    match retainedCleanup.or (cleanupStateFromError rt requestId (.cleanupFailed report)) with
    | some cleanup => .unpublished outcome (some cleanup)
    | none => .unpublished (.failed (.cleanupFailed report)) none
  | some (.cleanupRetryExhausted state) =>
    .unpublished outcome
      (retainedCleanup.or (cleanupStateFromError rt requestId (.cleanupRetryExhausted state)))
  | some error => .unpublished (.failed error) retainedCleanup
  | none => .unpublished outcome retainedCleanup

def terminalPhaseFromRuntimeError (error : RuntimeError) : GenerationPhase :=
  .unpublished (.failed error)
    ((rt.requestCleanupState requestId).or (cleanupStateFromError rt requestId error))

def outputYield : OutputPushError → YieldReason
  | .capacityExhausted capacity => .outputBackpressure capacity
  | .consumerBusy | .poisoned | .invalidRecordKind => .outputBackpressure ⟨.outputRecords, 1, 0⟩

/-- One turn of a terminal phase: the next record of the terminal sequence. -/
def publishTerminal (output : TokenOutput GenerationOutputState) (terminal : TerminalPublication) :
    SchedulerAdvance × TokenOutput GenerationOutputState × TerminalPublication :=
  let released :=
    match output.tryPushState requestId (.released terminal.outcome) with
    | (.error _, output) => (idle, output, terminal)
    | (.ok (), output) => (⟨true, some requestId⟩, output, terminal)
  if terminal.terminalPublished = false then
    match output.tryPushState requestId (.terminal terminal.outcome) with
    | (.error _, output) => (idle, output, terminal)
    | (.ok (), output) => (progressed, output, { terminal with terminalPublished := true })
  else
  match terminal.initialCleanup with
  | none => released
  | some initialCleanup =>
  if terminal.cleanupPublished = false then
    let retry := (rt.requestCleanupState requestId).getD initialCleanup
    match output.tryPushState requestId (.cleanupPending terminal.outcome retry.failure retry) with
    | (.error _, output) => (idle, output, terminal)
    | (.ok (), output) => (progressed, output, { terminal with cleanupPublished := true })
  else
  match rt.requestCleanupState requestId with
  | none => released
  | some retry =>
    if retry.exhausted = true ∧ terminal.exhaustionPublished = false then
      match output.tryPushState requestId (.cleanupExhausted terminal.outcome retry.failure retry) with
      | (.error _, output) => (idle, output, terminal)
      | (.ok (), output) => (progressed, output, { terminal with exhaustionPublished := true })
    else (idle, output, terminal)

end Terminal

namespace GenerationTask

variable {τ : Type}

/-- The reason to finish after `token` was published, if there is one. -/
def finishAfterToken (task : GenerationTask τ) (token : TokenId) : Option FinishReason :=
  if task.eosTokens.contains token then some (.endOfSequence token)
  else if task.stopSequences.any fun stop =>
      stop.tokens.length ≤ task.generated.length &&
        task.generated.drop (task.generated.length - stop.tokens.length) = stop.tokens then
    some .stopCondition
  else if task.maximumGeneratedTokens ≤ task.generated.length then some .tokenLimit
  else none

end GenerationTask

/-! ### One turn -/

/-- What a turn of a task returned and left. -/
structure Turn (σ τ : Type) where
  result : SchedulerAdvance
  runtime : InferenceRuntime σ
  output : TokenOutput GenerationOutputState
  task : GenerationTask τ

section Turn

variable {σ Source τ : Type} (b : Backend σ Source) (s : Sampling τ) (rt : InferenceRuntime σ)
  (requestId : RequestId) (task : GenerationTask τ)

/-- The registry's answer to a recorded cancellation: the request is cancelled
if it is active; else a cleanup of it that has failed is the error. -/
def cancelTask (reason : CancellationReason) : GenerationPhase × InferenceRuntime σ :=
  let answer : Option RuntimeError × InferenceRuntime σ :=
    if rt.isRequestActive requestId then
      let answer := rt.cancelRequest b requestId reason
      (answer.1.err, answer.2)
    else ((rt.requestCleanupFailure requestId).map .cleanupFailed, rt)
  (terminalPhase answer.2 requestId (.finished (.cancelled reason)) answer.1, answer.2)

/-- End the request with `primary`. -/
def failTask (operation : RuntimeOperation) (failure : FailureClass) (primary : RuntimeError) :
    InferenceRuntime σ × GenerationTask τ :=
  let answer := rt.failRequest b requestId operation failure
  (answer.2, { task with phase := terminalPhase answer.2 requestId (.failed primary) answer.1.err })

/-- Sample a token from the logits of a backend step. -/
def sampleToken (logitsWritten : ℕ) : Bool × InferenceRuntime σ × GenerationTask τ :=
  if task.logits.length < logitsWritten then
    (false, failTask b rt requestId task .decode RuntimeError.backendContractViolation.failureClass
      .backendContractViolation)
  else
  match s.sample task.sampler (task.logits.take logitsWritten) task.history task.samplingIndices
      task.repetitionEpochs with
  | (sample, sampler, logits, samplingIndices, repetitionEpochs) =>
    let task := { task with
      sampler := sampler
      logits := BackendState.overwrite task.logits (logits.take logitsWritten)
      samplingIndices := BackendState.overwrite task.samplingIndices samplingIndices
      repetitionEpochs := BackendState.overwrite task.repetitionEpochs repetitionEpochs }
    match sample with
    | .error error => (false, failTask b rt requestId task .sampling .sampling (.sampling error))
    | .ok token =>
      (true, rt, { task with
        generated := task.generated ++ [token]
        history := task.history ++ [token]
        pendingToken := some token })

/-- What follows a backend step: sampling, or the end of the generation. -/
def afterBackend (result : Except RuntimeError (Except GenerationOutcome ℕ)) :
    Bool × InferenceRuntime σ × GenerationTask τ :=
  match result with
  | .ok (.ok logitsWritten) => sampleToken b s rt requestId task logitsWritten
  | .ok (.error outcome) => (false, rt, { task with phase := terminalPhase rt requestId outcome none })
  | .error error => (false, rt, { task with phase := terminalPhaseFromRuntimeError rt requestId error })

/-- The body of the loop over backend steps: whether it goes on. -/
def stepTask : Bool × InferenceRuntime σ × GenerationTask τ :=
  match task.phase with
  | .prefill =>
    match rt.prefill b requestId task.promptTokens true task.logits with
    | (result, logits, rt) =>
      afterBackend b s rt requestId { task with logits := logits } (result.map fun receipt =>
        match receipt.outcome with
        | .ready _ _ logitsWritten => .ok logitsWritten
        | .finished reason => .error (.finished reason))
  | .decode =>
    match task.generated.getLast? with
    | none =>
      (false, rt, { task with
        phase := terminalPhase rt requestId (.failed .backendContractViolation) none })
    | some token =>
      match rt.decode b requestId token task.logits with
      | (result, logits, rt) =>
        afterBackend b s rt requestId { task with logits := logits } (result.map fun receipt =>
          match receipt.outcome with
          | .ready _ logitsWritten => .ok logitsWritten
          | .finished reason => .error (.finished reason))
  | .terminal _ => (false, rt, task)

/-- At most `steps` backend steps, while no token waits to be published. -/
def stepTasks : ℕ → InferenceRuntime σ → GenerationTask τ → InferenceRuntime σ × GenerationTask τ
  | 0, rt, task => (rt, task)
  | steps + 1, rt, task =>
    if task.pendingToken.isSome ∨ task.cancellation.isSome then (rt, task)
    else
    match stepTask b s rt requestId task with
    | (false, rt, task) => (rt, task)
    | (true, rt, task) => stepTasks steps rt task

/-- Publish the token that waits, and finish or go on. -/
def publishToken (output : TokenOutput GenerationOutputState) (token : TokenId) : Turn σ τ :=
  match output.tryPushToken requestId token with
  | (.error error, output) =>
    ⟨idle, rt, output, { task with pendingYield := some (outputYield error) }⟩
  | (.ok (), output) =>
    let task := { task with pendingToken := none }
    match task.finishAfterToken token with
    | some reason =>
      let answer := rt.completeRequest b requestId reason
      ⟨progressed, answer.2, output,
        { task with phase := terminalPhase answer.2 requestId (.finished reason) answer.1.err }⟩
    | none => ⟨progressed, rt, output, { task with phase := .decode }⟩

/-- Publish the yield that waits: whether the turn goes on. -/
def publishYield (output : TokenOutput GenerationOutputState) :
    Bool × TokenOutput GenerationOutputState × GenerationTask τ :=
  match task.pendingYield with
  | none => (true, output, task)
  | some reason =>
    match output.tryPushState requestId (.yielded reason) with
    | (.ok (), output) => (true, output, { task with pendingYield := none })
    | (.error _, output) => (false, output, task)

def advanceTask (output : TokenOutput GenerationOutputState) : Turn σ τ :=
  match task.phase with
  | .terminal terminal =>
    match publishTerminal rt requestId output terminal with
    | (result, output, terminal) => ⟨result, rt, output, { task with phase := .terminal terminal }⟩
  | .prefill | .decode =>
  match task.cancellation with
  | some reason =>
    let answer := cancelTask b rt requestId reason
    ⟨progressed, answer.2, output, { task with cancellation := none, phase := answer.1 }⟩
  | none =>
  match publishYield requestId task output with
  | (false, output, task) => ⟨idle, rt, output, task⟩
  | (true, output, task) =>
  match task.pendingToken with
  | some token => publishToken b rt requestId task output token
  | none =>
    match stepTasks b s requestId task.schedulerQuantum.get rt task with
    | (rt, task) => ⟨progressed, rt, output, task⟩

end Turn

end LlmApp
