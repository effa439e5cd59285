/-
# The corrective workflow executor

The executor with its store, its event queue and its identity sequences, and
`execute` over any model and validator ports: the checks, the six identities of
tasks and of artifacts, the plan with its validation, and the six stages over
the task state table. A stage that a port works for is a loop of attempts; it
ends because an attempt that is made again has raised the attempts of its task
(`attempt_retry`).

Key definitions: `ModelTaskExecutor`, `ValidationTaskExecutor`, `WorkflowEvent`,
`CorrectiveWorkflowExecutor`, `runModelStage`, `runValidationStage`,
`runNormalizationStage`, `CorrectiveWorkflowExecutor.execute`.
-/
import LlmApp.Data.Fallible
import LlmApp.Workflow.Plan

namespace LlmApp

/-! ### Ports -/

structure ModelTaskRequest where
  workflow : WorkflowId
  attempt : TaskAttempt
  kind : TaskKind
  modelPolicy : ModelPolicy
  budget : TaskBudget
  inputArtifacts : List ArtifactId
deriving DecidableEq, Repr

structure ValidationTaskRequest where
  workflow : WorkflowId
  attempt : TaskAttempt
  kind : TaskKind
  budget : TaskBudget
  inputArtifacts : List ArtifactId
deriving DecidableEq, Repr

/-- A model port with its state. A failure is what its error displays. -/
structure ModelTaskExecutor (M : Type) where
  executeModelTask : M → ModelTaskRequest → ArtifactInputs → Except String String × M

/-- A validation port with its state. -/
structure ValidationTaskExecutor (V : Type) where
  executeValidationTask : V → ValidationTaskRequest → ArtifactInputs → Except String ValidationReport × V

/-! ### Events -/

inductive WorkflowStatus where
  | accepted | rejected
deriving DecidableEq, Repr

/-- `WorkflowOutcome`: its status with the identities. -/
structure WorkflowOutcome where
  status : WorkflowStatus
  workflow : WorkflowId
  revision : ArtifactId
  validation : ArtifactId
deriving DecidableEq, Repr

inductive WorkflowEvent where
  | stageStarted (workflow : WorkflowId) (stage : WorkflowStage) (attempt : TaskAttempt)
  | artifactCommitted (workflow : WorkflowId) (stage : WorkflowStage) (attempt : TaskAttempt)
      (artifact : ArtifactReference)
  | retryScheduled (workflow : WorkflowId) (stage : WorkflowStage) (failedAttempt nextAttempt : TaskAttempt)
  | completed (workflow : WorkflowId) (status : WorkflowStatus) (revision validation : ArtifactId)
deriving DecidableEq, Repr

/-! ### The executor -/

structure WorkflowExecutorLimits where
  artifacts : ℕ
  pendingEvents : ℕ
  specificationBytes : ℕ
deriving DecidableEq, Repr

structure CorrectiveWorkflowExecutor (M V : Type) where
  model : M
  validator : V
  artifacts : ArtifactStore
  events : List WorkflowEvent
  limits : WorkflowExecutorLimits
  nextWorkflowId : ℕ
  nextTaskId : ℕ
  nextArtifactId : ℕ

/-- An executor with the task state table of the execution that runs. -/
structure WorkflowRun (M V : Type) where
  executor : CorrectiveWorkflowExecutor M V
  table : TaskStateTable

/-- The identity and the value after it. -/
def allocateId (next : ℕ) (kind : WorkflowIdentifierKind) : Except WorkflowError (ℕ × ℕ) := do
  let following ← Except.okOr (checkedAdd u64Max next 1) (.identifierExhausted kind)
  return (next, following)

namespace CorrectiveWorkflowExecutor

variable {M V : Type}

def new (model : M) (validator : V) (limits : WorkflowExecutorLimits) : CorrectiveWorkflowExecutor M V :=
  ⟨model, validator, .new limits.artifacts, [], limits, 1, 1, 1⟩

def remainingEventCapacity (executor : CorrectiveWorkflowExecutor M V) : ℕ :=
  if executor.limits.pendingEvents ≤ executor.events.length then 0
  else executor.limits.pendingEvents - executor.events.length

def ensureEventCapacity (executor : CorrectiveWorkflowExecutor M V) : Except WorkflowError Unit :=
  Except.failIf (executor.remainingEventCapacity = 0) (.eventCapacityExceeded 1 executor.remainingEventCapacity)

def enqueueEvent (event : WorkflowEvent) : Fallible (CorrectiveWorkflowExecutor M V) WorkflowError Unit := do
  Fallible.check ensureEventCapacity
  Fallible.update fun executor => { executor with events := executor.events ++ [event] }

/-- `poll_event`. -/
def pollEvent (executor : CorrectiveWorkflowExecutor M V) :
    Option WorkflowEvent × CorrectiveWorkflowExecutor M V :=
  (executor.events.head?, { executor with events := executor.events.tail })

/-! ### Identities -/

def allocateWorkflowId : Fallible (CorrectiveWorkflowExecutor M V) WorkflowError WorkflowId := do
  let ids ← Fallible.check fun executor => allocateId executor.nextWorkflowId .workflow
  Fallible.update fun executor => { executor with nextWorkflowId := ids.2 }
  return ids.1

def allocateTaskId : Fallible (CorrectiveWorkflowExecutor M V) WorkflowError TaskId := do
  let ids ← Fallible.check fun executor => allocateId executor.nextTaskId .task
  Fallible.update fun executor => { executor with nextTaskId := ids.2 }
  return ids.1

def allocateArtifactId : Fallible (CorrectiveWorkflowExecutor M V) WorkflowError ArtifactId := do
  let ids ← Fallible.check fun executor => allocateId executor.nextArtifactId .artifact
  Fallible.update fun executor => { executor with nextArtifactId := ids.2 }
  return ids.1

def reserveTaskIds : Fallible (CorrectiveWorkflowExecutor M V) WorkflowError TaskIdentities := do
  let draft ← allocateTaskId
  let initialValidation ← allocateTaskId
  let normalize ← allocateTaskId
  let review ← allocateTaskId
  let revise ← allocateTaskId
  let finalValidation ← allocateTaskId
  return ⟨draft, initialValidation, normalize, review, revise, finalValidation⟩

def reserveOutputReferences : Fallible (CorrectiveWorkflowExecutor M V) WorkflowError ArtifactReferences := do
  let draft ← allocateArtifactId
  let rawValidation ← allocateArtifactId
  let normalizedDiagnostics ← allocateArtifactId
  let review ← allocateArtifactId
  let revision ← allocateArtifactId
  let finalValidation ← allocateArtifactId
  return ⟨⟨draft, .text, .draft⟩, ⟨rawValidation, .diagnostics, .rawDiagnostics⟩,
    ⟨normalizedDiagnostics, .diagnostics, .normalizedDiagnostics⟩, ⟨review, .text, .review⟩,
    ⟨revision, .text, .revision⟩, ⟨finalValidation, .diagnostics, .finalValidation⟩⟩

/-! ### Specifications -/

/-- The store takes an artifact that is made of a reference and a payload. -/
def insertArtifact (reference : ArtifactReference) (content : ArtifactContent) :
    Fallible (CorrectiveWorkflowExecutor M V) WorkflowError Unit := do
  let store ← Fallible.check fun executor => do
    let artifact ← Artifact.new reference content
    executor.artifacts.insert artifact
  Fallible.update fun executor => { executor with artifacts := store }

/-- The checks of `insert_specification`. -/
def checkSpecification (specification : String) (executor : CorrectiveWorkflowExecutor M V) :
    Except WorkflowError Unit := do
  let required ← Except.okOr (stringSize specification) .specificationSizeOverflow
  Except.failIf (executor.limits.specificationBytes < required)
    (.specificationCapacityExceeded required executor.limits.specificationBytes)

def insertSpecification (specification : String) :
    Fallible (CorrectiveWorkflowExecutor M V) WorkflowError ArtifactId := do
  Fallible.check (checkSpecification specification)
  let id ← allocateArtifactId
  insertArtifact ⟨id, .text, .specification⟩ (.specification specification)
  return id

def requireSpecification (specificationId : ArtifactId) (executor : CorrectiveWorkflowExecutor M V) :
    Except WorkflowError ArtifactReference := do
  let artifact ← Except.okOr (executor.artifacts.get specificationId) (.unknownSpecification specificationId)
  Except.failIf (artifact.reference.kind ≠ .text ∨ artifact.reference.role ≠ .specification ∨
    artifact.content.kind ≠ .specification) (.invalidSpecification artifact.reference)
  return artifact.reference

/-- The error names the artifact and the role it should have. -/
def requireRawValidation (artifactId : ArtifactId) (executor : CorrectiveWorkflowExecutor M V) :
    Except WorkflowError ValidationReport :=
  match (executor.artifacts.get artifactId).map Artifact.content with
  | some (.rawValidation report) => .ok report
  | _ => .error (.invalidCommittedArtifact artifactId .rawDiagnostics)

def admitExecution (c : CorrectiveWorkflowConfiguration) (executor : CorrectiveWorkflowExecutor M V) :
    Except WorkflowError Unit := do
  let artifactCapacity := executor.artifacts.remainingCapacity
  Except.failIf (artifactCapacity < workflowOutputCount) (.artifactCapacityExceeded workflowOutputCount artifactCapacity)
  let requiredEvents ← requiredEventCapacity c
  let availableEvents := executor.remainingEventCapacity
  Except.failIf (availableEvents < requiredEvents) (.eventCapacityExceeded requiredEvents availableEvents)

end CorrectiveWorkflowExecutor

/-! ### Stages -/

/-- The arguments of a stage. -/
structure StageTask where
  workflow : WorkflowId
  stage : WorkflowStage
  task : TaskId
  budget : TaskBudget
  inputArtifacts : List ArtifactId
  output : ArtifactReference
  maximumBytes : ℕ
deriving DecidableEq, Repr

section Stages

variable {M V ρ : Type} (graph : TaskGraph) (stage : StageTask)

def onExecutor {α : Type} (x : Fallible (CorrectiveWorkflowExecutor M V) WorkflowError α) :
    Fallible (WorkflowRun M V) WorkflowError α :=
  .onPart (·.executor) (fun executor run => { run with executor := executor }) id x

def onTable {α : Type} (x : TaskStateTable → Except TaskGraphError α × TaskStateTable) :
    Fallible (WorkflowRun M V) WorkflowError α :=
  .onPart (·.table) (fun table run => { run with table := table }) .taskGraph x

def commitOutput (attempt : TaskAttempt) (content : ArtifactContent) :
    Fallible (CorrectiveWorkflowExecutor M V) WorkflowError Unit := do
  Fallible.check fun executor => do
    let required ← Except.okOr (artifactContentSize content)
      (.artifactSizeOverflow stage.workflow stage.stage attempt.task stage.output.id)
    Except.failIf (stage.maximumBytes < required) (.outputCapacityExceeded stage.workflow stage.stage attempt.task
      stage.output.id required stage.maximumBytes)
    executor.ensureEventCapacity
  CorrectiveWorkflowExecutor.insertArtifact stage.output content
  CorrectiveWorkflowExecutor.enqueueEvent (.artifactCommitted stage.workflow stage.stage attempt stage.output)

/-- The start of an attempt, with its event. -/
def startAttempt : Fallible (WorkflowRun M V) WorkflowError TaskAttempt := do
  onExecutor (.check CorrectiveWorkflowExecutor.ensureEventCapacity)
  let attempt ← onTable fun table => table.start graph stage.task
  onExecutor (CorrectiveWorkflowExecutor.enqueueEvent (.stageStarted stage.workflow stage.stage attempt))
  return attempt

def handleOperationalFailure (attempt : TaskAttempt) (diagnostic : String) :
    Fallible (WorkflowRun M V) WorkflowError Unit := do
  onTable fun table => table.failAttempt graph attempt
  if attempt.number.get < stage.budget.maximumAttempts.get then
    let nextNumber ← Fallible.check fun _ =>
      Except.okOr ((checkedAdd u16Max attempt.number.get 1).bind NonZeroU16.new) (.identifierExhausted .task)
    onExecutor (CorrectiveWorkflowExecutor.enqueueEvent
      (.retryScheduled stage.workflow stage.stage attempt ⟨attempt.task, nextNumber⟩))
  else
    Fallible.throw (.taskExhausted stage.workflow stage.stage attempt.task attempt.number.get diagnostic)

/-- A call of a port, which sees the store through the inputs declared. -/
def callPort (call : CorrectiveWorkflowExecutor M V → TaskAttempt → ArtifactInputs →
    Except String ρ × CorrectiveWorkflowExecutor M V) (attempt : TaskAttempt) :
    Fallible (WorkflowRun M V) WorkflowError (Except String ρ) := fun run =>
  let (result, executor) := call run.executor attempt ⟨run.executor.artifacts, stage.inputArtifacts⟩
  (.ok result, { run with executor := executor })

/-- One turn of the loop of `run_model_stage` and `run_validation_stage`: what
the port returned, or nothing when the attempt is made again. -/
def runAttempt (call : CorrectiveWorkflowExecutor M V → TaskAttempt → ArtifactInputs →
    Except String ρ × CorrectiveWorkflowExecutor M V) (makeContent : ρ → ArtifactContent) :
    Fallible (WorkflowRun M V) WorkflowError (Option ρ) := do
  let attempt ← startAttempt graph stage
  let result ← callPort stage call attempt
  match result with
  | .ok value =>
    onExecutor (commitOutput stage attempt (makeContent value))
    onTable fun table => table.succeedAttempt graph attempt
    return some value
  | .error diagnostic =>
    handleOperationalFailure graph stage attempt diagnostic
    return none

/-! ### The loop of attempts ends -/

/-- The attempts that a task has begun. -/
def attemptsBegun (table : TaskStateTable) (t : TaskId) : ℕ := (table.state graph t).elim 0 (·.attempts)

/-- How many attempts a task could still begin, by the width of their number. -/
def attemptsLeft (t : TaskId) (run : WorkflowRun M V) : ℕ := u16Max - attemptsBegun graph run.table t

variable {graph stage}

theorem start_begins {table table' : TaskStateTable} {t : TaskId} {attempt : TaskAttempt}
    (h : table.start graph t = (.ok attempt, table')) :
    attemptsBegun graph table t < attemptsBegun graph table' t ∧ attemptsBegun graph table' t ≤ u16Max := by
  unfold TaskStateTable.start at h
  split at h
  · cases h
  next index number hcheck =>
  obtain ⟨-, rfl⟩ := Prod.mk.inj h
  simp only [TaskStateTable.checkStart, Except.bind_eq_ok, Except.okOr_eq_ok, Except.failIf_eq_ok,
    Except.pure_eq_ok] at hcheck
  obtain ⟨index', hindex, node, -, current, hcurrent, -, -, -, -, -, -, -, hlimit, number', hnumber, hsome⟩ := hcheck
  obtain ⟨rfl, rfl⟩ := Prod.mk.inj hsome
  have hlt := (List.getElem?_eq_some_iff.mp hcurrent).1
  have hold : attemptsBegun graph table t = current.attempts := by
    rw [attemptsBegun, TaskStateTable.state, hindex, Option.bind_some, hcurrent]
    rfl
  have hnew : attemptsBegun graph (table.set index' ⟨.running, number'.get⟩) t = number'.get := by
    rw [attemptsBegun, TaskStateTable.state, hindex, Option.bind_some, TaskStateTable.set, List.getElem?_set_self hlt]
    rfl
  have hmax := node.budget.maximumAttempts.le
  have hsum := NonZeroU16.new_eq_some.mp hnumber
  unfold saturatingAdd at hsum
  rw [hold, hnew]
  have hle := number'.le
  omega

theorem failAttempt_begun {table : TaskStateTable} (attempt : TaskAttempt) (t : TaskId) :
    attemptsBegun graph (table.failAttempt graph attempt).2 t = attemptsBegun graph table t := by
  unfold TaskStateTable.failAttempt
  split
  · rfl
  next index _ =>
  split
  · rfl
  split
  · rfl
  next node _ state hstate =>
  have hlt := (List.getElem?_eq_some_iff.mp hstate).1
  unfold attemptsBegun TaskStateTable.state TaskStateTable.set
  cases hindex : graph.nodeIndex t with
  | none => rfl
  | some i =>
    simp only [Option.bind_some]
    by_cases hi : i = index
    · subst hi
      rw [List.getElem?_set_self hlt, hstate]
      rfl
    · rw [List.getElem?_set_ne (Ne.symm hi)]

/-- An attempt that is made again has raised the attempts of its task. -/
theorem runAttempt_retry {call : CorrectiveWorkflowExecutor M V → TaskAttempt → ArtifactInputs →
    Except String ρ × CorrectiveWorkflowExecutor M V} {makeContent : ρ → ArtifactContent} (n : ℕ) :
    Ensures (fun run : WorkflowRun M V => attemptsLeft graph stage.task run = n)
      (runAttempt graph stage call makeContent)
      (fun r run => r = none → attemptsLeft graph stage.task run < n) fun _ _ => True := by
  refine Ensures.bind (Q := fun _ run => attemptsLeft graph stage.task run < n) ?_ fun attempt => ?_
  · -- The attempt begins.
    refine Ensures.bind (Q := fun _ run => attemptsLeft graph stage.task run = n) ?_ fun _ => ?_
    · refine Ensures.onPart (fun run _ _ hrun hcheck => ?_) fun _ _ _ _ _ => trivial
      obtain ⟨-, rfl⟩ := Prod.mk.inj hcheck
      exact hrun
    refine Ensures.bind (Q := fun _ run => attemptsLeft graph stage.task run < n) ?_ fun attempt => ?_
    · refine Ensures.onPart (fun run a table hrun hstart => ?_) fun _ _ _ _ _ => trivial
      obtain ⟨hlt, hle⟩ := start_begins hstart
      unfold attemptsLeft at hrun ⊢
      dsimp only
      omega
    refine Ensures.bind (Q := fun _ run => attemptsLeft graph stage.task run < n) ?_ fun _ => ?_
    · exact Ensures.onPart (fun _ _ _ hrun _ => hrun) fun _ _ _ _ _ => trivial
    · exact Ensures.pure fun _ => id
  refine Ensures.bind (Q := fun _ run => attemptsLeft graph stage.task run < n) ?_ fun result => ?_
  · exact ⟨fun hrun h => by cases h; exact hrun, fun _ _ => trivial⟩
  cases result with
  | ok value =>
    refine Ensures.bind (Q := fun _ _ => True) ⟨fun _ _ => trivial, fun _ _ => trivial⟩ fun _ => ?_
    refine Ensures.bind (Q := fun _ _ => True) ⟨fun _ _ => trivial, fun _ _ => trivial⟩ fun _ => ?_
    exact Ensures.pure fun _ _ hnone => by cases hnone
  | error diagnostic =>
    refine Ensures.bind (Q := fun _ run => attemptsLeft graph stage.task run < n) ?_ fun _ => ?_
    · -- To fail an attempt does not change how many were begun.
      refine Ensures.bind (Q := fun _ run => attemptsLeft graph stage.task run < n) ?_ fun _ => ?_
      · refine Ensures.onPart (fun run a table hrun hfail => ?_) fun _ _ _ _ _ => trivial
        have hbegun : attemptsBegun graph (run.table.failAttempt graph attempt).2 stage.task =
            attemptsBegun graph run.table stage.task := failAttempt_begun attempt stage.task
        rw [hfail] at hbegun
        unfold attemptsLeft at hrun ⊢
        dsimp only at hbegun ⊢
        omega
      split_ifs
      · refine Ensures.bind (Ensures.check (fun _ _ hrun _ => hrun) fun _ _ _ _ => trivial) fun _ => ?_
        exact Ensures.onPart (fun _ _ _ hrun _ => hrun) fun _ _ _ _ _ => trivial
      · exact Ensures.throw fun _ _ => trivial
    · exact Ensures.pure fun _ hrun _ => hrun

theorem attempt_retry {call : CorrectiveWorkflowExecutor M V → TaskAttempt → ArtifactInputs →
    Except String ρ × CorrectiveWorkflowExecutor M V} {makeContent : ρ → ArtifactContent} (run run' : WorkflowRun M V)
    (h : runAttempt graph stage call makeContent run = (.ok none, run')) :
    attemptsLeft graph stage.task run' < attemptsLeft graph stage.task run :=
  (runAttempt_retry _).ok rfl h rfl

/-- The loop of attempts of a stage. -/
def runAttempts (graph : TaskGraph) (stage : StageTask) (call : CorrectiveWorkflowExecutor M V → TaskAttempt →
    ArtifactInputs → Except String ρ × CorrectiveWorkflowExecutor M V) (makeContent : ρ → ArtifactContent) :
    Fallible (WorkflowRun M V) WorkflowError ρ :=
  .loop (runAttempt graph stage call makeContent) (attemptsLeft graph stage.task) attempt_retry

end Stages

section Ports

variable {M V : Type} (P : ModelTaskExecutor M) (Q : ValidationTaskExecutor V) (graph : TaskGraph) (stage : StageTask)

/-- The call of the model port. -/
def callModel (kind : TaskKind) (modelPolicy : ModelPolicy) (executor : CorrectiveWorkflowExecutor M V)
    (attempt : TaskAttempt) (inputs : ArtifactInputs) : Except String String × CorrectiveWorkflowExecutor M V :=
  let request := ⟨stage.workflow, attempt, kind, modelPolicy, stage.budget, stage.inputArtifacts⟩
  let (result, model) := P.executeModelTask executor.model request inputs
  (result, { executor with model := model })

/-- The call of the validation port. -/
def callValidator (kind : TaskKind) (executor : CorrectiveWorkflowExecutor M V) (attempt : TaskAttempt)
    (inputs : ArtifactInputs) : Except String ValidationReport × CorrectiveWorkflowExecutor M V :=
  let request := ⟨stage.workflow, attempt, kind, stage.budget, stage.inputArtifacts⟩
  let (result, validator) := Q.executeValidationTask executor.validator request inputs
  (result, { executor with validator := validator })

def runModelStage (kind : TaskKind) (modelPolicy : ModelPolicy) (makeContent : String → ArtifactContent) :
    Fallible (WorkflowRun M V) WorkflowError Unit := do
  let _ ← runAttempts graph stage (callModel P stage kind modelPolicy) makeContent

def runValidationStage (kind : TaskKind) (makeContent : ValidationReport → ArtifactContent) :
    Fallible (WorkflowRun M V) WorkflowError ValidationVerdict := do
  let report ← runAttempts graph stage (callValidator Q stage kind) makeContent
  return report.verdict

/-- The budget and the input of the stage name its task and the raw report. -/
def runNormalizationStage (input : ArtifactId) : Fallible (WorkflowRun M V) WorkflowError Unit := do
  let attempt ← startAttempt graph stage
  let report ← onExecutor (.check (CorrectiveWorkflowExecutor.requireRawValidation input))
  onExecutor (commitOutput stage attempt (.normalizedDiagnostics (normalizeValidationReport report)))
  onTable fun table => table.succeedAttempt graph attempt

end Ports

/-! ### Execution -/

/-- What the admission of an execution fixes. -/
structure WorkflowPlan where
  workflow : WorkflowId
  specification : ArtifactReference
  tasks : TaskIdentities
  artifacts : ArtifactReferences
  configuration : CorrectiveWorkflowConfiguration
deriving DecidableEq, Repr

namespace WorkflowPlan

variable (plan : WorkflowPlan)

def canonical : CanonicalPlan := .new plan.specification plan.tasks plan.artifacts plan.configuration

def draftStage : StageTask :=
  ⟨plan.workflow, .draft, plan.tasks.draft, plan.configuration.modelBudget, [plan.specification.id],
    plan.artifacts.draft, plan.configuration.artifactLimits.draft⟩

def initialValidationStage : StageTask :=
  ⟨plan.workflow, .initialValidation, plan.tasks.initialValidation, plan.configuration.validationBudget,
    [plan.artifacts.draft.id], plan.artifacts.rawValidation, plan.configuration.artifactLimits.rawValidation⟩

def normalizationStage : StageTask :=
  ⟨plan.workflow, .normalizeDiagnostics, plan.tasks.normalize, normalizationTaskBudget,
    [plan.artifacts.rawValidation.id], plan.artifacts.normalizedDiagnostics,
    plan.configuration.artifactLimits.normalizedDiagnostics⟩

def reviewStage : StageTask :=
  ⟨plan.workflow, .review, plan.tasks.review, plan.configuration.modelBudget,
    [plan.specification.id, plan.artifacts.draft.id, plan.artifacts.normalizedDiagnostics.id], plan.artifacts.review,
    plan.configuration.artifactLimits.review⟩

def reviseStage : StageTask :=
  ⟨plan.workflow, .revise, plan.tasks.revise, plan.configuration.modelBudget,
    [plan.specification.id, plan.artifacts.draft.id, plan.artifacts.normalizedDiagnostics.id, plan.artifacts.review.id],
    plan.artifacts.revision, plan.configuration.artifactLimits.revision⟩

def finalValidationStage : StageTask :=
  ⟨plan.workflow, .finalValidation, plan.tasks.finalValidation, plan.configuration.validationBudget,
    [plan.artifacts.revision.id], plan.artifacts.finalValidation, plan.configuration.artifactLimits.finalValidation⟩

/-- The outcome of a verdict. -/
def outcome (verdict : ValidationVerdict) : WorkflowOutcome :=
  let status := match verdict with
    | .passed => .accepted
    | .rejected => .rejected
  ⟨status, plan.workflow, plan.artifacts.revision.id, plan.artifacts.finalValidation.id⟩

end WorkflowPlan

namespace CorrectiveWorkflowExecutor

variable {M V : Type} (P : ModelTaskExecutor M) (Q : ValidationTaskExecutor V)

/-- The six stages and the completion. -/
def runStages (plan : WorkflowPlan) : Fallible (WorkflowRun M V) WorkflowError WorkflowOutcome := do
  let graph := plan.canonical.graph
  let c := plan.configuration
  runModelStage P graph plan.draftStage .draft c.modelPolicy .draft
  let _ ← runValidationStage Q graph plan.initialValidationStage c.initialValidation .rawValidation
  runNormalizationStage graph plan.normalizationStage plan.artifacts.rawValidation.id
  runModelStage P graph plan.reviewStage .review c.modelPolicy .review
  runModelStage P graph plan.reviseStage .revise c.modelPolicy .revision
  let verdict ← runValidationStage Q graph plan.finalValidationStage .validate .finalValidation
  let outcome := plan.outcome verdict
  onExecutor (enqueueEvent (.completed outcome.workflow outcome.status outcome.revision outcome.validation))
  return outcome

/-- The part of `execute` before it allocates an identity. -/
def checkExecution (specificationId : ArtifactId) (c : CorrectiveWorkflowConfiguration)
    (executor : CorrectiveWorkflowExecutor M V) : Except WorkflowError ArtifactReference := do
  c.validate
  let specification ← executor.requireSpecification specificationId
  executor.admitExecution c
  return specification

/-- The identities of an execution. -/
def reserveExecution (specification : ArtifactReference) (c : CorrectiveWorkflowConfiguration) :
    Fallible (CorrectiveWorkflowExecutor M V) WorkflowError WorkflowPlan := do
  let workflow ← allocateWorkflowId
  let tasks ← reserveTaskIds
  let artifacts ← reserveOutputReferences
  return ⟨workflow, specification, tasks, artifacts, c⟩

/-- The validation of the plan, and its initial table. -/
def validatePlan (plan : CanonicalPlan) : Except TaskGraphError TaskStateTable := do
  validateGraph plan.graph ⟨List.replicate taskCount 0, List.replicate taskCount 0⟩
  validateArtifactFlow plan.graph plan.flow
  TaskStateTable.new plan.graph (List.replicate taskCount .default)

/-- The stages run on a table of their own. -/
def executePlan (plan : WorkflowPlan) : Fallible (CorrectiveWorkflowExecutor M V) WorkflowError WorkflowOutcome := do
  let table ← Fallible.check fun _ => (validatePlan plan.canonical).mapError .taskGraph
  fun executor =>
    let (result, run) := runStages P Q plan ⟨executor, table⟩
    (result, run.executor)

def execute (specificationId : ArtifactId) (c : CorrectiveWorkflowConfiguration) :
    Fallible (CorrectiveWorkflowExecutor M V) WorkflowError WorkflowOutcome := do
  let specification ← Fallible.check (checkExecution specificationId c)
  let plan ← reserveExecution specification c
  executePlan P Q plan

end CorrectiveWorkflowExecutor

end LlmApp
