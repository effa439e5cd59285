/-
# The canonical plan

The configuration of a corrective workflow with its checks, and the graph of six
tasks that is built from it: nodes, dependencies, inputs and outputs over the
identities reserved for one execution.

Key definitions: `CorrectiveWorkflowConfiguration`, `TaskIdentities`,
`ArtifactReferences`, `CanonicalPlan.new`, `requiredEventCapacity`.
-/
import LlmApp.Workflow.Artifact

namespace LlmApp

/-! ### Configuration -/

structure WorkflowArtifactLimits where
  draft : ℕ
  rawValidation : ℕ
  normalizedDiagnostics : ℕ
  review : ℕ
  revision : ℕ
  finalValidation : ℕ
deriving DecidableEq, Repr

structure CorrectiveWorkflowConfiguration where
  initialValidation : TaskKind
  modelPolicy : ModelPolicy
  modelBudget : TaskBudget
  validationBudget : TaskBudget
  artifactLimits : WorkflowArtifactLimits
deriving DecidableEq, Repr

namespace CorrectiveWorkflowConfiguration

def validateBudget (budgetClass : WorkflowBudgetClass) (budget : TaskBudget) : Except WorkflowError Unit := do
  Except.failIf (budget.maximumInputTokens = 0) (.invalidConfiguration (.zeroMaximumInputTokens budgetClass))
  Except.failIf (budget.maximumOutputTokens = 0) (.invalidConfiguration (.zeroMaximumOutputTokens budgetClass))

def validateLimit (role : ArtifactRole) (maximum : ℕ) : Except WorkflowError Unit :=
  Except.failIf (maximum = 0) (.invalidConfiguration (.zeroArtifactLimit role))

def validate (c : CorrectiveWorkflowConfiguration) : Except WorkflowError Unit := do
  Except.failIf (c.initialValidation ≠ .compileCheck ∧ c.initialValidation ≠ .validate)
    (.invalidConfiguration (.invalidInitialValidation c.initialValidation))
  Except.failIf (c.modelPolicy = .deterministic) (.invalidConfiguration .deterministicModelPolicy)
  validateBudget .model c.modelBudget
  validateBudget .validation c.validationBudget
  validateLimit .draft c.artifactLimits.draft
  validateLimit .rawDiagnostics c.artifactLimits.rawValidation
  validateLimit .normalizedDiagnostics c.artifactLimits.normalizedDiagnostics
  validateLimit .review c.artifactLimits.review
  validateLimit .revision c.artifactLimits.revision
  validateLimit .finalValidation c.artifactLimits.finalValidation

end CorrectiveWorkflowConfiguration

/-! ### Capacities -/

def taskCount : ℕ := 6
def workflowOutputCount : ℕ := taskCount
def modelTaskCount : ℕ := 3
def validationTaskCount : ℕ := 2
def eventsPerRetryableAttempt : ℕ := 2
def normalizationEventCount : ℕ := 2
def completionEventCount : ℕ := 1

/-- `NORMALIZATION_TASK_BUDGET`: no tokens, and one attempt. -/
def normalizationTaskBudget : TaskBudget := ⟨0, 0, 1⟩

/-- `usize` arithmetic. -/
def retryableTaskEventCapacity (maximumAttempts : NonZeroU16) (tasks : ℕ) : Except WorkflowError ℕ :=
  Except.okOr ((checkedMul u64Max maximumAttempts.get eventsPerRetryableAttempt).bind fun perTask =>
    checkedMul u64Max perTask tasks) .eventCapacityOverflow

def requiredEventCapacity (c : CorrectiveWorkflowConfiguration) : Except WorkflowError ℕ := do
  let modelEvents ← retryableTaskEventCapacity c.modelBudget.maximumAttempts modelTaskCount
  let validationEvents ← retryableTaskEventCapacity c.validationBudget.maximumAttempts validationTaskCount
  Except.okOr ((checkedAdd u64Max modelEvents validationEvents).bind fun total =>
    (checkedAdd u64Max total normalizationEventCount).bind fun total =>
      checkedAdd u64Max total completionEventCount) .eventCapacityOverflow

/-! ### Identities -/

structure TaskIdentities where
  draft : TaskId
  initialValidation : TaskId
  normalize : TaskId
  review : TaskId
  revise : TaskId
  finalValidation : TaskId
deriving DecidableEq, Repr

structure ArtifactReferences where
  draft : ArtifactReference
  rawValidation : ArtifactReference
  normalizedDiagnostics : ArtifactReference
  review : ArtifactReference
  revision : ArtifactReference
  finalValidation : ArtifactReference
deriving DecidableEq, Repr

/-! ### The plan -/

structure CanonicalPlan where
  nodes : List TaskNode
  dependencies : List TaskDependency
  workflowInputs : List ArtifactReference
  taskInputs : List TaskArtifactInput
  taskOutputs : List TaskArtifactOutput
deriving DecidableEq, Repr

namespace CanonicalPlan

def new (specification : ArtifactReference) (tasks : TaskIdentities) (artifacts : ArtifactReferences)
    (c : CorrectiveWorkflowConfiguration) : CanonicalPlan where
  nodes := [
    ⟨tasks.draft, .draft, c.modelPolicy, c.modelBudget, ⟨.text, c.artifactLimits.draft⟩⟩,
    ⟨tasks.initialValidation, c.initialValidation, .deterministic, c.validationBudget,
      ⟨.diagnostics, c.artifactLimits.rawValidation⟩⟩,
    ⟨tasks.normalize, .normalizeDiagnostics, .deterministic, normalizationTaskBudget,
      ⟨.diagnostics, c.artifactLimits.normalizedDiagnostics⟩⟩,
    ⟨tasks.review, .review, c.modelPolicy, c.modelBudget, ⟨.text, c.artifactLimits.review⟩⟩,
    ⟨tasks.revise, .revise, c.modelPolicy, c.modelBudget, ⟨.text, c.artifactLimits.revision⟩⟩,
    ⟨tasks.finalValidation, .validate, .deterministic, c.validationBudget,
      ⟨.diagnostics, c.artifactLimits.finalValidation⟩⟩]
  dependencies := [
    ⟨tasks.draft, tasks.initialValidation⟩,
    ⟨tasks.initialValidation, tasks.normalize⟩,
    ⟨tasks.draft, tasks.review⟩,
    ⟨tasks.normalize, tasks.review⟩,
    ⟨tasks.draft, tasks.revise⟩,
    ⟨tasks.normalize, tasks.revise⟩,
    ⟨tasks.review, tasks.revise⟩,
    ⟨tasks.revise, tasks.finalValidation⟩]
  workflowInputs := [specification]
  taskInputs := [
    ⟨tasks.draft, specification⟩,
    ⟨tasks.initialValidation, artifacts.draft⟩,
    ⟨tasks.normalize, artifacts.rawValidation⟩,
    ⟨tasks.review, specification⟩,
    ⟨tasks.review, artifacts.draft⟩,
    ⟨tasks.review, artifacts.normalizedDiagnostics⟩,
    ⟨tasks.revise, specification⟩,
    ⟨tasks.revise, artifacts.draft⟩,
    ⟨tasks.revise, artifacts.normalizedDiagnostics⟩,
    ⟨tasks.revise, artifacts.review⟩,
    ⟨tasks.finalValidation, artifacts.revision⟩]
  taskOutputs := [
    ⟨tasks.draft, artifacts.draft⟩,
    ⟨tasks.initialValidation, artifacts.rawValidation⟩,
    ⟨tasks.normalize, artifacts.normalizedDiagnostics⟩,
    ⟨tasks.review, artifacts.review⟩,
    ⟨tasks.revise, artifacts.revision⟩,
    ⟨tasks.finalValidation, artifacts.finalValidation⟩]

def graph (plan : CanonicalPlan) : TaskGraph := ⟨plan.nodes, plan.dependencies⟩

def flow (plan : CanonicalPlan) : ArtifactFlow := ⟨plan.workflowInputs, plan.taskInputs, plan.taskOutputs⟩

end CanonicalPlan

end LlmApp
