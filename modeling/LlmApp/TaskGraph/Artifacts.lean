/-
# Artifacts come from where the graph says

An artifact flow declares what the workflow is given, what every task produces
and what it consumes. `validate_artifact_flow` is exact: it accepts the flows
that are `ArtifactFlow.Sound`. So in every run a task that can start, runs or
has succeeded consumes artifacts of the workflow and of succeeded tasks only.

Key definitions: `ArtifactFlow`, `validateArtifactFlow`, `ArtifactFlow.Sound`.
Key theorems: `validateArtifactFlow_eq_ok`, `ArtifactFlow.Sound.provenance`,
`artifactFlow_exact`.
-/
import LlmApp.TaskGraph.Ready

namespace LlmApp

structure TaskArtifactOutput where
  producer : TaskId
  artifact : ArtifactReference
deriving DecidableEq, Repr

structure ArtifactFlow where
  workflowInputs : List ArtifactReference
  taskInputs : List TaskArtifactInput
  taskOutputs : List TaskArtifactOutput
deriving DecidableEq, Repr

/-! ### Validation -/

def validateConsumers (graph : TaskGraph) : List TaskArtifactInput → Except TaskGraphError Unit
  | [] => .ok ()
  | input :: rest => do
    Except.failIf (graph.node input.consumer = none) (.unknownTask input.consumer)
    validateConsumers graph rest

def validateProducers (graph : TaskGraph) : List TaskArtifactOutput → Except TaskGraphError Unit
  | [] => .ok ()
  | output :: rest => do
    Except.failIf (graph.node output.producer = none) (.unknownTask output.producer)
    validateProducers graph rest

def validateArtifactTasks (graph : TaskGraph) (flow : ArtifactFlow) : Except TaskGraphError Unit := do
  validateConsumers graph flow.taskInputs
  validateProducers graph flow.taskOutputs

def validateWorkflowInputs : List ArtifactReference → Except TaskGraphError Unit
  | [] => .ok ()
  | input :: tail => do
    Except.failIf (tail.any (fun other => other.id = input.id) = true) (.duplicateWorkflowInput input.id)
    validateWorkflowInputs tail

def validateTaskOutputs (flow : ArtifactFlow) : List TaskArtifactOutput → Except TaskGraphError Unit
  | [] => .ok ()
  | output :: tail => do
    Except.failIf (flow.workflowInputs.any (fun input => input.id = output.artifact.id) = true)
      (.workflowInputProducedByTask output.artifact.id)
    Except.failIf (tail.any (fun other => other.artifact.id = output.artifact.id) = true)
      (.duplicateArtifactProducer output.artifact.id)
    validateTaskOutputs flow tail

def validateTaskOutputContracts (flow : ArtifactFlow) : List TaskNode → Except TaskGraphError Unit
  | [] => .ok ()
  | node :: rest =>
    match flow.taskOutputs.filter fun output => output.producer = node.id with
    | [] => .error (.missingTaskOutput node.id)
    | output :: more => do
      Except.failIf (more ≠ []) (.duplicateTaskOutput node.id)
      Except.failIf (output.artifact.kind ≠ node.output.kind)
        (.taskOutputKindMismatch node.id node.output.kind output.artifact.kind)
      validateTaskOutputContracts flow rest

def validateArtifactReference (expected actual : ArtifactReference) : Except TaskGraphError Unit :=
  Except.failIf (expected ≠ actual) (.artifactReferenceMismatch expected actual)

/-- The source of one input: a workflow input, or the output of a prerequisite. -/
def validateSource (graph : TaskGraph) (flow : ArtifactFlow) (input : TaskArtifactInput) : Except TaskGraphError Unit :=
  match flow.workflowInputs.find? fun source => source.id = input.artifact.id with
  | some source => validateArtifactReference source input.artifact
  | none =>
  match flow.taskOutputs.find? fun output => output.artifact.id = input.artifact.id with
  | none => .error (.unknownArtifact input.artifact.id)
  | some output => do
    validateArtifactReference output.artifact input.artifact
    Except.failIf (output.producer = input.consumer) (.selfArtifactConsumption input.consumer input.artifact.id)
    Except.failIf (graph.dependencies.any (fun dependency => dependency.prerequisite = output.producer ∧
      dependency.dependent = input.consumer) = false)
      (.missingArtifactDependency output.producer input.consumer input.artifact.id)

def validateTaskInputs (graph : TaskGraph) (flow : ArtifactFlow) : List TaskArtifactInput → Except TaskGraphError Unit
  | [] => .ok ()
  | input :: tail => do
    Except.failIf (tail.any (fun other => other = input) = true) (.duplicateTaskArtifactInput input)
    validateSource graph flow input
    validateTaskInputs graph flow tail

def validateArtifactFlow (graph : TaskGraph) (flow : ArtifactFlow) : Except TaskGraphError Unit := do
  validateArtifactTasks graph flow
  validateWorkflowInputs flow.workflowInputs
  validateTaskOutputs flow flow.taskOutputs
  validateTaskOutputContracts flow graph.nodes
  validateTaskInputs graph flow flow.taskInputs

/-! ### What it accepts -/

namespace ArtifactFlow

variable (graph : TaskGraph) (flow : ArtifactFlow)

/-- The one output of a task. -/
def Produces (t : TaskId) (output : TaskArtifactOutput) : Prop :=
  (flow.taskOutputs.filter fun o => o.producer = t) = [output]

/-- An input is a workflow input or the output of a direct prerequisite. -/
def Sourced (input : TaskArtifactInput) : Prop :=
  input.artifact ∈ flow.workflowInputs ∨ ∃ output ∈ flow.taskOutputs, output.artifact = input.artifact ∧
    output.producer ≠ input.consumer ∧ graph.Requires output.producer input.consumer

structure Sound : Prop where
  consumers : ∀ input ∈ flow.taskInputs, input.consumer ∈ graph.taskIds
  producers : ∀ output ∈ flow.taskOutputs, output.producer ∈ graph.taskIds
  inputsOnce : (flow.workflowInputs.map (·.id)).Nodup
  notProduced : ∀ output ∈ flow.taskOutputs, ∀ input ∈ flow.workflowInputs, input.id ≠ output.artifact.id
  producedOnce : (flow.taskOutputs.map (·.artifact.id)).Nodup
  contracts : ∀ node ∈ graph.nodes, ∃ output, flow.Produces node.id output ∧ output.artifact.kind = node.output.kind
  bindingsOnce : flow.taskInputs.Nodup
  sourced : ∀ input ∈ flow.taskInputs, flow.Sourced graph input

end ArtifactFlow

section Exact

open Except

variable {graph : TaskGraph} {flow : ArtifactFlow} {u : Unit}

theorem validateConsumers_eq_ok : ∀ {inputs : List TaskArtifactInput},
    validateConsumers graph inputs = .ok u ↔ ∀ input ∈ inputs, input.consumer ∈ graph.taskIds
  | [] => by simp [validateConsumers]
  | input :: rest => by
    simp only [validateConsumers, bind_eq_ok, failIf_eq_ok, TaskGraph.node_eq_none, not_not, validateConsumers_eq_ok,
      List.forall_mem_cons, exists_const]

theorem validateProducers_eq_ok : ∀ {outputs : List TaskArtifactOutput},
    validateProducers graph outputs = .ok u ↔ ∀ output ∈ outputs, output.producer ∈ graph.taskIds
  | [] => by simp [validateProducers]
  | output :: rest => by
    simp only [validateProducers, bind_eq_ok, failIf_eq_ok, TaskGraph.node_eq_none, not_not, validateProducers_eq_ok,
      List.forall_mem_cons, exists_const]

theorem validateWorkflowInputs_eq_ok : ∀ {inputs : List ArtifactReference},
    validateWorkflowInputs inputs = .ok u ↔ (inputs.map (·.id)).Nodup
  | [] => by simp [validateWorkflowInputs]
  | input :: tail => by
    rw [validateWorkflowInputs, bind_eq_ok, List.map_cons, List.nodup_cons]
    simp only [failIf_eq_ok, validateWorkflowInputs_eq_ok, List.any_eq_true, decide_eq_true_eq, exists_const,
      List.mem_map]

theorem validateTaskOutputs_eq_ok : ∀ {outputs : List TaskArtifactOutput}, validateTaskOutputs flow outputs = .ok u ↔
    (∀ output ∈ outputs, ∀ input ∈ flow.workflowInputs, input.id ≠ output.artifact.id) ∧
      (outputs.map (·.artifact.id)).Nodup
  | [] => by simp [validateTaskOutputs]
  | output :: tail => by
    simp only [validateTaskOutputs, bind_eq_ok, failIf_eq_ok, validateTaskOutputs_eq_ok, List.any_eq_true,
      decide_eq_true_eq, not_exists, not_and, exists_const, List.forall_mem_cons, List.map_cons, List.nodup_cons,
      List.mem_map]
    constructor
    · rintro ⟨h1, h2, h3, h4⟩
      exact ⟨⟨h1, h3⟩, h2, h4⟩
    · rintro ⟨⟨h1, h3⟩, h2, h4⟩
      exact ⟨h1, h2, h3, h4⟩

theorem validateTaskOutputContracts_eq_ok : ∀ {nodes : List TaskNode},
    validateTaskOutputContracts flow nodes = .ok u ↔
      ∀ node ∈ nodes, ∃ output, flow.Produces node.id output ∧ output.artifact.kind = node.output.kind
  | [] => by simp [validateTaskOutputContracts]
  | node :: rest => by
    rw [validateTaskOutputContracts, List.forall_mem_cons]
    unfold ArtifactFlow.Produces
    cases hfilter : flow.taskOutputs.filter fun o => o.producer = node.id with
    | nil => simp
    | cons output more =>
      simp only [bind_eq_ok, failIf_eq_ok, not_not, exists_const, validateTaskOutputContracts_eq_ok, List.cons.injEq]
      constructor
      · rintro ⟨rfl, hkind, hrest⟩
        exact ⟨⟨output, ⟨rfl, rfl⟩, hkind⟩, hrest⟩
      · rintro ⟨⟨_, ⟨rfl, rfl⟩, hkind⟩, hrest⟩
        exact ⟨rfl, hkind, hrest⟩

/-- In a list with distinct keys the entry of a key is found. -/
theorem find?_of_mem {α κ : Type} [DecidableEq κ] {key : α → κ} {l : List α} (h : (l.map key).Nodup) {a : α}
    (ha : a ∈ l) : (l.find? fun x => key x = key a) = some a := by
  cases hfind : l.find? fun x => key x = key a with
  | none => simpa using List.find?_eq_none.mp hfind a ha
  | some b =>
    have hkey : key b = key a := by simpa using List.find?_some hfind
    rw [List.inj_on_of_nodup_map h (List.mem_of_find?_eq_some hfind) ha hkey]

theorem validateSource_eq_ok (hinputs : (flow.workflowInputs.map (·.id)).Nodup)
    (hproduced : ∀ output ∈ flow.taskOutputs, ∀ input ∈ flow.workflowInputs, input.id ≠ output.artifact.id)
    (honce : (flow.taskOutputs.map (·.artifact.id)).Nodup) {input : TaskArtifactInput} :
    validateSource graph flow input = .ok u ↔ flow.Sourced graph input := by
  have hrequires : ∀ output : TaskArtifactOutput, (graph.dependencies.any (fun dependency =>
      dependency.prerequisite = output.producer ∧ dependency.dependent = input.consumer) = false) ↔
        ¬graph.Requires output.producer input.consumer := by
    intro output
    rw [← Bool.not_eq_true, List.any_eq_true]
    refine not_congr ⟨?_, fun h => ⟨_, h, by simp⟩⟩
    rintro ⟨d, hd, h⟩
    obtain ⟨h1, h2⟩ := of_decide_eq_true h
    rw [TaskGraph.Requires, ← h1, ← h2]
    exact hd
  constructor
  · intro h
    unfold validateSource at h
    split at h
    · next source hfind =>
      rw [validateArtifactReference, failIf_eq_ok, not_not] at h
      exact Or.inl (h ▸ List.mem_of_find?_eq_some hfind)
    · next hfind =>
      split at h
      · cases h
      next output hfind =>
      simp only [validateArtifactReference, bind_eq_ok, failIf_eq_ok, not_not, exists_const, hrequires] at h
      exact Or.inr ⟨output, List.mem_of_find?_eq_some hfind, h⟩
  · rintro (hmem | ⟨output, hmem, hartifact, hne, hreq⟩)
    · have hfind := find?_of_mem hinputs hmem
      simp only [validateSource, hfind]
      simp [validateArtifactReference, failIf]
    · have hnone : (flow.workflowInputs.find? fun source => source.id = input.artifact.id) = none := by
        rw [List.find?_eq_none]
        intro source hsource
        rw [← hartifact]
        simpa using hproduced output hmem source hsource
      have hfind := find?_of_mem honce hmem
      rw [hartifact] at hfind
      simp only [validateSource, hnone, hfind, validateArtifactReference, bind_eq_ok, failIf_eq_ok, not_not,
        exists_const, hrequires]
      exact ⟨hartifact, hne, hreq⟩

theorem validateTaskInputs_eq_ok (hinputs : (flow.workflowInputs.map (·.id)).Nodup)
    (hproduced : ∀ output ∈ flow.taskOutputs, ∀ input ∈ flow.workflowInputs, input.id ≠ output.artifact.id)
    (honce : (flow.taskOutputs.map (·.artifact.id)).Nodup) : ∀ {inputs : List TaskArtifactInput},
    validateTaskInputs graph flow inputs = .ok u ↔ inputs.Nodup ∧ ∀ input ∈ inputs, flow.Sourced graph input
  | [] => by simp [validateTaskInputs]
  | input :: tail => by
    simp only [validateTaskInputs, bind_eq_ok, failIf_eq_ok, validateSource_eq_ok hinputs hproduced honce,
      validateTaskInputs_eq_ok hinputs hproduced honce, List.any_eq_true, decide_eq_true_eq, exists_eq_right,
      exists_const, List.nodup_cons, List.forall_mem_cons]
    constructor
    · rintro ⟨h1, h2, h3, h4⟩
      exact ⟨⟨h1, h3⟩, h2, h4⟩
    · rintro ⟨⟨h1, h3⟩, h2, h4⟩
      exact ⟨h1, h2, h3, h4⟩

/-- The validators together cover the specification of a flow. -/
theorem validateArtifactFlow_eq_ok : validateArtifactFlow graph flow = .ok u ↔ flow.Sound graph := by
  simp only [validateArtifactFlow, validateArtifactTasks, bind_eq_ok, validateConsumers_eq_ok, validateProducers_eq_ok,
    validateWorkflowInputs_eq_ok, validateTaskOutputs_eq_ok, validateTaskOutputContracts_eq_ok, exists_const]
  constructor
  · rintro ⟨⟨h1, h2⟩, h3, ⟨h4, h5⟩, h6, h7⟩
    obtain ⟨h7, h8⟩ := (validateTaskInputs_eq_ok h3 h4 h5).mp h7
    exact ⟨h1, h2, h3, h4, h5, h6, h7, h8⟩
  · intro h
    exact ⟨⟨h.consumers, h.producers⟩, h.inputsOnce, ⟨h.notProduced, h.producedOnce⟩, h.contracts,
      (validateTaskInputs_eq_ok h.inputsOnce h.notProduced h.producedOnce).mpr ⟨h.bindingsOnce, h.sourced⟩⟩

end Exact

/-! ### Provenance -/

/-- An artifact is given to the workflow, or it is the one output of a task that
has succeeded. -/
def Available (flow : ArtifactFlow) (v : TaskView) (artifact : ArtifactReference) : Prop :=
  artifact ∈ flow.workflowInputs ∨ ∃ output, flow.Produces output.producer output ∧ output.artifact = artifact ∧
    ∃ s, v output.producer = some s ∧ s.status = .succeeded

/-- What a task consumes is available once its prerequisites have succeeded. -/
theorem ArtifactFlow.Sound.provenance {graph : TaskGraph} {flow : ArtifactFlow} (h : flow.Sound graph) {v : TaskView}
    {input : TaskArtifactInput} (hinput : input ∈ flow.taskInputs) (hdone : PrerequisitesDone graph v input.consumer) :
    Available flow v input.artifact := by
  obtain hgiven | ⟨output, houtput, hartifact, -, hreq⟩ := h.sourced input hinput
  · exact Or.inl hgiven
  · obtain ⟨node, hnode, hid⟩ := List.mem_map.mp (h.producers output houtput)
    obtain ⟨only, honly, -⟩ := h.contracts node hnode
    rw [hid] at honly
    have hmem : output ∈ flow.taskOutputs.filter fun o => o.producer = output.producer :=
      List.mem_filter.mpr ⟨houtput, by simp⟩
    rw [honly] at hmem
    obtain rfl := List.mem_singleton.mp hmem
    exact Or.inr ⟨output, honly, hartifact, hdone output.producer hreq⟩

/-- Validation of an artifact flow is exact, and in every run on its graph the
inputs of a task that runs, has succeeded or can start are available. -/
theorem artifactFlow_exact (graph : TaskGraph) (scratch : GraphValidationScratch)
    (haccepted : validateGraph graph scratch = .ok ()) (flow : ArtifactFlow) :
    (validateArtifactFlow graph flow = .ok () ↔ flow.Sound graph) ∧
    (validateArtifactFlow graph flow = .ok () → ∀ (ops : List TaskOperation), ∀ input ∈ flow.taskInputs,
      let table := (TaskRun.all graph ops).table
      ((∃ s, table.state graph input.consumer = some s ∧ (s.status = .running ∨ s.status = .succeeded)) ∨
        ∃ attempt, (table.start graph input.consumer).1 = .ok attempt) →
      Available flow (table.state graph) input.artifact) := by
  refine ⟨validateArtifactFlow_eq_ok, fun hflow ops input hinput => ?_⟩
  intro table hbegun
  have hw := (validateGraph_sound haccepted).1
  have h := TaskRun.all_holds hw ops
  refine (validateArtifactFlow_eq_ok.mp hflow).provenance hinput ?_
  obtain ⟨s, hs, hstatus⟩ | hstart := hbegun
  · exact h.invariant.prerequisites hs (by rcases hstatus with h | h <;> rw [h] <;> rfl)
  · obtain ⟨_, _, _, _, _, hdone, _⟩ := (TaskStateTable.start_ok_iff hw h.aligned).mp hstart
    exact hdone

/-- A review can start after its draft, which is then available to it. -/
theorem artifactFlow_exact_review :
    let budget : TaskBudget := ⟨1024, 512, ⟨2, by decide, by decide⟩⟩
    let graph : TaskGraph := ⟨[⟨1, .draft, .anyCompatible, budget, ⟨.text, 4096⟩⟩,
      ⟨2, .review, .anyCompatible, budget, ⟨.text, 4096⟩⟩], [⟨1, 2⟩]⟩
    let draft : ArtifactReference := ⟨11, .text, .draft⟩
    let flow : ArtifactFlow := ⟨[⟨10, .text, .specification⟩], [⟨1, ⟨10, .text, .specification⟩⟩, ⟨2, draft⟩],
      [⟨1, draft⟩, ⟨2, ⟨12, .text, .review⟩⟩]⟩
    let run := TaskRun.all graph [.start 1, .succeedAttempt ⟨1, ⟨1, by decide, by decide⟩⟩]
    Available flow (run.table.state graph) draft := by
  intro budget graph draft flow run
  have haccepted : validateGraph graph ⟨[0, 0], [0, 0]⟩ = .ok () := by
    refine validateGraph_ok (by decide) (by decide) (Acyclic.of_rank id fun p t h => ?_)
    obtain ⟨rfl, rfl⟩ := TaskDependency.mk.inj (List.mem_singleton.mp h)
    decide
  have hflow : validateArtifactFlow graph flow = .ok () := by decide +kernel
  refine (artifactFlow_exact graph ⟨[0, 0], [0, 0]⟩ haccepted flow).2 hflow _ ⟨2, draft⟩ (by simp [flow]) ?_
  exact Or.inr ⟨⟨2, ⟨1, by decide, by decide⟩⟩, by decide +kernel⟩

end LlmApp
