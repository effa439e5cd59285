/-
# The canonical plan is a pipeline

The identities that an execution reserves are consecutive, so its plan is one of
`WorkflowPlan.numbered`. Such a plan always passes the validation of its graph
and of its artifact flow (`numbered_valid`), and its tasks stand in the order of
the stages, each with its prerequisites before it (`numbered_pipeline`). On a
table where the stages before one have succeeded that stage can be started,
ended and started again within its budget (`Progress.start`,
`Progress.succeedAttempt`, `Progress.failAttempt`).

Key definitions: `WorkflowPlan.numbered`, `Pipeline`, `Progress`.
-/
import LlmApp.TaskGraph.Artifacts
import LlmApp.Workflow.Executor

namespace LlmApp

open CorrectiveWorkflowExecutor

/-! ### Stages in a row -/

def WorkflowPlan.stages (plan : WorkflowPlan) : List StageTask :=
  [plan.draftStage, plan.initialValidationStage, plan.normalizationStage, plan.reviewStage, plan.reviseStage,
    plan.finalValidationStage]

/-- The nodes of the graph are the tasks of the stages, in order, and a stage
requires only tasks of stages before it. -/
structure Pipeline (graph : TaskGraph) (stages : List StageTask) : Prop where
  wellFormed : graph.WellFormed
  nodes : (graph.nodes.map fun node => (node.id, node.budget)) = stages.map fun stage => (stage.task, stage.budget)
  ordered : ∀ {before : List StageTask} {stage : StageTask} {rest : List StageTask}, stages = before ++ stage :: rest →
    ∀ p, graph.Requires p stage.task → p ∈ before.map (·.task)

/-! ### Plans over consecutive identities -/

/-- The plan over the identities from `task` and from `artifact` on. -/
def WorkflowPlan.numbered (workflow : WorkflowId) (task : TaskId) (artifact : ArtifactId)
    (specification : ArtifactReference) (c : CorrectiveWorkflowConfiguration) : WorkflowPlan where
  workflow := workflow
  specification := specification
  tasks := ⟨task, task + 1, task + 2, task + 3, task + 4, task + 5⟩
  artifacts := ⟨⟨artifact, .text, .draft⟩, ⟨artifact + 1, .diagnostics, .rawDiagnostics⟩,
    ⟨artifact + 2, .diagnostics, .normalizedDiagnostics⟩, ⟨artifact + 3, .text, .review⟩,
    ⟨artifact + 4, .text, .revision⟩, ⟨artifact + 5, .diagnostics, .finalValidation⟩⟩
  configuration := c

section Numbered

variable (workflow task artifact : ℕ) (specification : ArtifactReference) (c : CorrectiveWorkflowConfiguration)

theorem numbered_taskIds : (WorkflowPlan.numbered workflow task artifact specification c).canonical.graph.taskIds =
    List.range' task 6 := rfl

theorem numbered_requires {p q : ℕ}
    (h : (WorkflowPlan.numbered workflow task artifact specification c).canonical.graph.Requires p q) :
    p < q ∧ task ≤ p ∧ q < task + 6 := by
  simp only [TaskGraph.Requires, WorkflowPlan.canonical, WorkflowPlan.numbered, CanonicalPlan.new, CanonicalPlan.graph,
    List.mem_cons, TaskDependency.mk.injEq, List.not_mem_nil, or_false] at h
  obtain ⟨rfl, rfl⟩ | ⟨rfl, rfl⟩ | ⟨rfl, rfl⟩ | ⟨rfl, rfl⟩ | ⟨rfl, rfl⟩ | ⟨rfl, rfl⟩ | ⟨rfl, rfl⟩ | ⟨rfl, rfl⟩ := h <;>
    omega

theorem numbered_wellFormed :
    (WorkflowPlan.numbered workflow task artifact specification c).canonical.graph.WellFormed where
  distinct := by
    rw [numbered_taskIds]
    exact List.nodup_range'
  declared d hd := by
    obtain ⟨hlt, hle, hmax⟩ := numbered_requires workflow task artifact specification c (p := d.prerequisite)
      (q := d.dependent) hd
    rw [numbered_taskIds, List.mem_range'_1, List.mem_range'_1]
    exact ⟨⟨hle, hlt.trans hmax⟩, hle.trans hlt.le, hmax⟩
  irreflexive d hd :=
    (numbered_requires workflow task artifact specification c (p := d.prerequisite) (q := d.dependent) hd).1.ne
  once := by
    simp [WorkflowPlan.canonical, WorkflowPlan.numbered, CanonicalPlan.new, CanonicalPlan.graph]

/-- What is before an element in an increasing list is what is less. -/
theorem mem_before {l r : List ℕ} {a p : ℕ} (hsorted : (l ++ a :: r).Pairwise (· < ·)) (hp : p ∈ l ++ a :: r)
    (hlt : p < a) : p ∈ l := by
  obtain hp | hp := List.mem_append.mp hp
  · exact hp
  · obtain rfl | hp := List.mem_cons.mp hp
    · exact absurd hlt (lt_irrefl _)
    · have hgt := List.rel_of_pairwise_cons (List.pairwise_append.mp hsorted).2.1 hp
      exact absurd hlt (lt_asymm hgt)

theorem numbered_pipeline : Pipeline (WorkflowPlan.numbered workflow task artifact specification c).canonical.graph
    (WorkflowPlan.numbered workflow task artifact specification c).stages where
  wellFormed := numbered_wellFormed workflow task artifact specification c
  nodes := rfl
  ordered {before stage rest} hstages p hp := by
    obtain ⟨hlt, hle, hmax⟩ := numbered_requires workflow task artifact specification c hp
    have htasks : before.map (·.task) ++ stage.task :: rest.map (·.task) = List.range' task 6 := by
      rw [← List.map_cons, ← List.map_append, ← hstages]
      rfl
    refine mem_before (a := stage.task) (r := rest.map (·.task)) ?_ ?_ hlt
    · rw [htasks]
      exact List.pairwise_lt_range'
    · rw [htasks, List.mem_range'_1]
      omega

theorem numbered_sound (hspecification : specification.id < artifact) :
    (WorkflowPlan.numbered workflow task artifact specification c).canonical.flow.Sound
      (WorkflowPlan.numbered workflow task artifact specification c).canonical.graph where
  consumers := by
    rw [numbered_taskIds]
    simp [WorkflowPlan.numbered, WorkflowPlan.canonical, CanonicalPlan.new, CanonicalPlan.flow]
  producers := by
    rw [numbered_taskIds]
    simp [WorkflowPlan.numbered, WorkflowPlan.canonical, CanonicalPlan.new, CanonicalPlan.flow]
  inputsOnce := List.nodup_singleton _
  notProduced := by
    have hlt : ∀ n : ℕ, specification.id ≠ artifact + n := fun n => (Nat.lt_add_right n hspecification).ne
    simp [WorkflowPlan.numbered, WorkflowPlan.canonical, CanonicalPlan.new, CanonicalPlan.flow, hlt, hspecification.ne]
  producedOnce := by
    have hids : (WorkflowPlan.numbered workflow task artifact specification c).canonical.flow.taskOutputs.map
        (·.artifact.id) = List.range' artifact 6 := rfl
    rw [hids]
    exact List.nodup_range'
  contracts := by
    simp [WorkflowPlan.numbered, WorkflowPlan.canonical, CanonicalPlan.new, CanonicalPlan.flow, CanonicalPlan.graph,
      ArtifactFlow.Produces]
  bindingsOnce := by
    have hne : ∀ (n : ℕ) kind role, specification ≠ ⟨artifact + n, kind, role⟩ := fun n kind role h =>
      (Nat.lt_add_right n hspecification).ne (congrArg ArtifactReference.id h)
    have hdraft := hne 0 .text .draft
    rw [Nat.add_zero] at hdraft
    simp [WorkflowPlan.numbered, WorkflowPlan.canonical, CanonicalPlan.new, CanonicalPlan.flow, hne, hdraft]
  sourced := by
    simp [WorkflowPlan.numbered, WorkflowPlan.canonical, CanonicalPlan.new, CanonicalPlan.flow, CanonicalPlan.graph,
      ArtifactFlow.Sourced, TaskGraph.Requires]

/-- The plan over new identities passes its validation, and starts from a table
of pending tasks. -/
theorem numbered_valid (hspecification : specification.id < artifact) :
    validatePlan (WorkflowPlan.numbered workflow task artifact specification c).canonical =
      .ok ⟨List.replicate taskCount .default⟩ := by
  have hw := numbered_wellFormed workflow task artifact specification c
  have hchecks : checkGraph (WorkflowPlan.numbered workflow task artifact specification c).canonical.graph
      ⟨List.replicate taskCount 0, List.replicate taskCount 0⟩ = .ok () :=
    checkGraph_eq_ok.mpr ⟨⟨le_rfl, le_rfl⟩, hw⟩
  have hacyclic : Acyclic (WorkflowPlan.numbered workflow task artifact specification c).canonical.graph.Requires :=
    Acyclic.of_rank id fun p q h => (numbered_requires workflow task artifact specification c h).1
  have hedges : (WorkflowPlan.numbered workflow task artifact specification c).canonical.graph.dependencies.length ≤
      u32Max := by
    show 8 ≤ u32Max
    decide
  unfold validatePlan
  rw [validateGraph_ok hedges hchecks hacyclic,
    (validateArtifactFlow_eq_ok (u := ())).mpr (numbered_sound workflow task artifact specification c hspecification)]
  rfl

end Numbered

/-! ### The table of a pipeline -/

/-- The first `done` tasks have succeeded, the next one is in state `s`, and those
after it have not begun. -/
structure Progress (graph : TaskGraph) (done : ℕ) (s : TaskRuntimeState) (table : TaskStateTable) : Prop where
  aligned : table.Aligned graph
  succeeded : ∀ j < done, ∃ n, table.states[j]? = some ⟨.succeeded, n⟩
  current : done < graph.nodes.length → table.states[done]? = some s
  pending : ∀ j, done < j → j < graph.nodes.length → table.states[j]? = some .default

namespace Progress

variable {graph : TaskGraph} {stages before rest : List StageTask} {stage : StageTask} {table : TaskStateTable}
  {done : ℕ} {s s' : TaskRuntimeState}

theorem initial (graph : TaskGraph) :
    Progress graph 0 .default ⟨List.replicate graph.nodes.length .default⟩ where
  aligned := List.length_replicate
  succeeded _ hj := absurd hj (Nat.not_lt_zero _)
  current hlt := by rw [List.getElem?_replicate, if_pos hlt]
  pending j _ hlt := by rw [List.getElem?_replicate, if_pos hlt]

theorem set (h : Progress graph done s table) (s' : TaskRuntimeState) : Progress graph done s' (table.set done s') where
  aligned := h.aligned.set _ _
  succeeded j hj := by
    rw [TaskStateTable.set, List.getElem?_set_ne hj.ne']
    exact h.succeeded j hj
  current hlt := by
    rw [← h.aligned] at hlt
    exact List.getElem?_set_self hlt
  pending j hj hlt := by
    rw [TaskStateTable.set, List.getElem?_set_ne hj.ne]
    exact h.pending j hj hlt

/-- A task that has succeeded is one more. -/
theorem next {n : ℕ} (h : Progress graph done ⟨.succeeded, n⟩ table) (hdone : done < graph.nodes.length) :
    Progress graph (done + 1) .default table where
  aligned := h.aligned
  succeeded j hj := by
    obtain hj | rfl := Nat.lt_succ_iff_lt_or_eq.mp hj
    · exact h.succeeded j hj
    · exact ⟨n, h.current hdone⟩
  current hlt := h.pending _ done.lt_succ_self hlt
  pending j hj hlt := h.pending j (Nat.lt_of_succ_lt hj) hlt

end Progress

namespace Pipeline

variable {graph : TaskGraph} {stages before rest : List StageTask} {stage : StageTask} {table : TaskStateTable}
  {s : TaskRuntimeState}

/-- The node of a stage. -/
theorem node (h : Pipeline graph stages) (hstages : stages = before ++ stage :: rest) :
    ∃ node, graph.nodes[before.length]? = some node ∧ node.id = stage.task ∧ node.budget = stage.budget := by
  have hget : (graph.nodes.map fun node => (node.id, node.budget))[before.length]? = some (stage.task, stage.budget) := by
    rw [h.nodes, hstages]
    simp
  rw [List.getElem?_map] at hget
  obtain ⟨node, hnode, heq⟩ := Option.map_eq_some_iff.mp hget
  obtain ⟨hid, hbudget⟩ := Prod.mk.inj heq
  exact ⟨node, hnode, hid, hbudget⟩

theorem lt_length (h : Pipeline graph stages) (hstages : stages = before ++ stage :: rest) :
    before.length < graph.nodes.length := by
  obtain ⟨node, hnode, -⟩ := h.node hstages
  exact (List.getElem?_eq_some_iff.mp hnode).1

theorem taskIds (h : Pipeline graph stages) : graph.taskIds = stages.map (·.task) := by
  have hfst := congrArg (List.map Prod.fst) h.nodes
  rw [List.map_map, List.map_map] at hfst
  exact hfst

/-- What a stage requires has succeeded once the stages before it have. -/
theorem prerequisitesDone (h : Pipeline graph stages) (hstages : stages = before ++ stage :: rest)
    (hprogress : Progress graph before.length s table) : PrerequisitesDone graph (table.state graph) stage.task := by
  intro p hp
  obtain ⟨j, hj⟩ := List.mem_iff_getElem?.mp (h.ordered hstages p hp)
  have hlt : j < before.length := by
    simpa using (List.getElem?_eq_some_iff.mp hj).1
  have hget : graph.taskIds[j]? = some p := by
    rw [h.taskIds, hstages, List.map_append, List.getElem?_append_left (by simpa using hlt)]
    exact hj
  obtain ⟨n, hn⟩ := hprogress.succeeded j hlt
  exact ⟨_, (TaskStateTable.state_eq h.wellFormed hget).trans hn, rfl⟩

/-- The stage can be started while its budget is not used up. -/
theorem start (h : Pipeline graph stages) (hstages : stages = before ++ stage :: rest)
    (hprogress : Progress graph before.length s table) (hstatus : s.status = .pending ∨ s.status = .failed)
    (hlt : s.attempts < stage.budget.maximumAttempts.get) :
    ∃ number : NonZeroU16, number.get = s.attempts + 1 ∧ table.start graph stage.task =
      (.ok ⟨stage.task, number⟩, table.set before.length ⟨.running, s.attempts + 1⟩) := by
  obtain ⟨node, hnode, hid, hbudget⟩ := h.node hstages
  have hmax := stage.budget.maximumAttempts.le
  have hnumber : ∃ number : NonZeroU16, number.get = s.attempts + 1 :=
    ⟨⟨s.attempts + 1, Nat.succ_pos _, by omega⟩, rfl⟩
  obtain ⟨number, hnumber⟩ := hnumber
  have hcheck : TaskStateTable.checkStart graph table stage.task = .ok (before.length, number) :=
    (TaskStateTable.checkStart_eq_ok h.wellFormed hprogress.aligned).mpr ⟨node, s, hnode, hid,
      hprogress.current (h.lt_length hstages), hstatus, h.prerequisitesDone hstages hprogress, hbudget ▸ hlt, hnumber⟩
  refine ⟨number, hnumber, ?_⟩
  rw [TaskStateTable.start, hcheck]
  dsimp only
  rw [hnumber]

theorem validateAttempt (h : Pipeline graph stages) (hstages : stages = before ++ stage :: rest) {number : NonZeroU16}
    (hprogress : Progress graph before.length ⟨.running, number.get⟩ table) :
    TaskStateTable.validateAttempt graph table ⟨stage.task, number⟩ = .ok before.length := by
  obtain ⟨node, hnode, hid, -⟩ := h.node hstages
  exact (TaskStateTable.validateAttempt_eq_ok h.wellFormed).mpr ⟨TaskGraph.taskIds_getElem?.mpr ⟨node, hnode, hid⟩, _,
    hprogress.current (h.lt_length hstages), rfl, rfl⟩

theorem succeedAttempt (h : Pipeline graph stages) (hstages : stages = before ++ stage :: rest) {number : NonZeroU16}
    (hprogress : Progress graph before.length ⟨.running, number.get⟩ table) :
    table.succeedAttempt graph ⟨stage.task, number⟩ =
      (.ok (), table.set before.length ⟨.succeeded, number.get⟩) := by
  simp only [TaskStateTable.succeedAttempt, h.validateAttempt hstages hprogress,
    hprogress.current (h.lt_length hstages)]

/-- A failed attempt is the last one if the budget is used up. -/
theorem failAttempt (h : Pipeline graph stages) (hstages : stages = before ++ stage :: rest) {number : NonZeroU16}
    (hprogress : Progress graph before.length ⟨.running, number.get⟩ table) :
    table.failAttempt graph ⟨stage.task, number⟩ = (.ok (), table.set before.length
      ⟨if stage.budget.maximumAttempts.get ≤ number.get then .exhausted else .failed, number.get⟩) := by
  obtain ⟨node, hnode, -, hbudget⟩ := h.node hstages
  simp only [TaskStateTable.failAttempt, h.validateAttempt hstages hprogress,
    hprogress.current (h.lt_length hstages), hnode, hbudget]

end Pipeline

end LlmApp
