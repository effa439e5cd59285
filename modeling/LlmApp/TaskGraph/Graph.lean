/-
# Task graphs and their validation

The nodes and dependencies of a workflow, and `validate_graph`: first the
checks of the declarations, each a scan of the rest of its slice, then Kahn's
traversal over the caller's scratch. The scratch has any contents before the
call; what it holds afterwards is not part of the result.

The traversal is a loop over the queue that ends because a visit only takes
from the incoming counts what it adds to the queue (`releaseAll_potential`).

Key definitions: `TaskGraph`, `GraphValidationScratch`, `TaskGraphError`,
`validateGraph`.
-/
import LlmApp.Contracts
import LlmApp.Data.Except

namespace LlmApp

/-! ### Declarations -/

inductive TaskKind where
  | draft | review | compileCheck | validate | normalizeDiagnostics | revise | aggregate
  | other (code : ℕ)
deriving DecidableEq, Repr

inductive ArtifactKind where
  | text | sourceCode | diagnostics | tokens
  | other (code : ℕ)
deriving DecidableEq, Repr

inductive ArtifactRole where
  | specification | draft | rawDiagnostics | normalizedDiagnostics | review | revision | finalValidation
  | other (code : ℕ)
deriving DecidableEq, Repr

structure TaskOutputContract where
  kind : ArtifactKind
  maximumBytes : ℕ
deriving DecidableEq, Repr

inductive ModelPolicy where
  | exact (modelId : ModelId)
  | preferredBackend (backend : BackendId)
  | anyCompatible | deterministic
deriving DecidableEq, Repr

structure TaskBudget where
  maximumInputTokens : ℕ
  maximumOutputTokens : ℕ
  maximumAttempts : NonZeroU16
deriving DecidableEq, Repr

structure TaskNode where
  id : TaskId
  kind : TaskKind
  modelPolicy : ModelPolicy
  budget : TaskBudget
  output : TaskOutputContract
deriving DecidableEq, Repr

/-- `prerequisite` must succeed before `dependent` can start. -/
structure TaskDependency where
  prerequisite : TaskId
  dependent : TaskId
deriving DecidableEq, Repr

structure ArtifactReference where
  id : ArtifactId
  kind : ArtifactKind
  role : ArtifactRole
deriving DecidableEq, Repr

structure TaskArtifactInput where
  consumer : TaskId
  artifact : ArtifactReference
deriving DecidableEq, Repr

structure TaskGraph where
  nodes : List TaskNode
  dependencies : List TaskDependency
deriving DecidableEq, Repr

namespace TaskGraph

def node (graph : TaskGraph) (taskId : TaskId) : Option TaskNode := graph.nodes.find? fun n => n.id = taskId

def nodeIndex (graph : TaskGraph) (taskId : TaskId) : Option ℕ := graph.nodes.findIdx? fun n => n.id = taskId

end TaskGraph

/-! ### Failures -/

/-- One started execution attempt of a task. -/
structure TaskAttempt where
  task : TaskId
  number : NonZeroU16
deriving DecidableEq, Repr

inductive TaskStatus where
  | pending | running | succeeded | failed | exhausted | cancelled | blocked
deriving DecidableEq, Repr

inductive TaskGraphError where
  | duplicateTask (task : TaskId)
  | duplicateDependency (dependency : TaskDependency)
  | unknownTask (task : TaskId)
  | selfDependency (task : TaskId)
  | cycleDetected
  | capacityExhausted (capacity : CapacityExhausted)
  | stateLengthMismatch (required available : ℕ)
  | invalidTransition (task : TaskId) (state : TaskStatus)
  | attemptLimitReached (task : TaskId)
  | duplicateWorkflowInput (artifact : ArtifactId)
  | workflowInputProducedByTask (artifact : ArtifactId)
  | duplicateArtifactProducer (artifact : ArtifactId)
  | missingTaskOutput (task : TaskId)
  | duplicateTaskOutput (task : TaskId)
  | taskOutputKindMismatch (task : TaskId) (expected actual : ArtifactKind)
  | unknownArtifact (artifact : ArtifactId)
  | artifactReferenceMismatch (expected actual : ArtifactReference)
  | duplicateTaskArtifactInput (input : TaskArtifactInput)
  | selfArtifactConsumption (task : TaskId) (artifact : ArtifactId)
  | missingArtifactDependency (producer consumer : TaskId) (artifact : ArtifactId)
  | invalidAttempt (attempt : TaskAttempt) (active : Option TaskAttempt) (state : TaskStatus)
deriving DecidableEq, Repr

def nodeCapacity (required available : ℕ) : TaskGraphError := .capacityExhausted ⟨.taskNodes, required, available⟩

/-! ### The checks of the declarations -/

/-- Caller-owned scratch. -/
structure GraphValidationScratch where
  incomingCounts : List ℕ
  queue : List ℕ

def validateScratch (required : ℕ) (scratch : GraphValidationScratch) : Except TaskGraphError Unit :=
  let available := min scratch.incomingCounts.length scratch.queue.length
  Except.failIf (available < required) (nodeCapacity required available)

def validateNodes : List TaskNode → Except TaskGraphError Unit
  | [] => .ok ()
  | left :: tail => do
    Except.failIf (tail.any (fun right => right.id = left.id) = true) (.duplicateTask left.id)
    validateNodes tail

def validateDependencies (graph : TaskGraph) : List TaskDependency → Except TaskGraphError Unit
  | [] => .ok ()
  | dependency :: tail => do
    Except.failIf (graph.node dependency.prerequisite = none) (.unknownTask dependency.prerequisite)
    Except.failIf (graph.node dependency.dependent = none) (.unknownTask dependency.dependent)
    Except.failIf (dependency.prerequisite = dependency.dependent) (.selfDependency dependency.prerequisite)
    Except.failIf (tail.any (fun right => right = dependency) = true) (.duplicateDependency dependency)
    validateDependencies graph tail

/-- The checks of `validate_graph` before its traversal. -/
def checkGraph (graph : TaskGraph) (scratch : GraphValidationScratch) : Except TaskGraphError Unit := do
  validateScratch graph.nodes.length scratch
  validateNodes graph.nodes
  validateDependencies graph graph.dependencies

/-! ### The traversal -/

def writeQueue (queue : List ℕ) (position value : ℕ) : Except TaskGraphError (List ℕ) :=
  if position < queue.length then .ok (queue.set position value)
  else .error (nodeCapacity (saturatingAdd u64Max position 1) queue.length)

/-- The entry of the counts that a dependency touches: its index and its value. -/
def dependentCount (graph : TaskGraph) (counts : List ℕ) (dependency : TaskDependency) :
    Except TaskGraphError (ℕ × ℕ) := do
  let dependentIndex ← Except.okOr (graph.nodeIndex dependency.dependent) (.unknownTask dependency.dependent)
  let count ← Except.okOr counts[dependentIndex]?
    (nodeCapacity (saturatingAdd u64Max dependentIndex 1) counts.length)
  return (dependentIndex, count)

def countIncoming (graph : TaskGraph) (counts : List ℕ) (dependency : TaskDependency) :
    Except TaskGraphError (List ℕ) := do
  let (dependentIndex, current) ← dependentCount graph counts dependency
  let next ← Except.okOr (checkedAdd u32Max current 1) (.capacityExhausted ⟨.taskEdges, u32Max + 1, current⟩)
  return counts.set dependentIndex next

/-- The arrays of the traversal, and how much of the queue is in use. -/
structure Traversal where
  counts : List ℕ
  queue : List ℕ
  queueLength : ℕ

/-- Queue the entry `(count, index)` of the counts if nothing comes into it. -/
def seedQueue (s : Traversal) (entry : ℕ × ℕ) : Except TaskGraphError Traversal :=
  if entry.1 = 0 then do
    let queue ← writeQueue s.queue s.queueLength entry.2
    return { s with queue := queue, queueLength := s.queueLength + 1 }
  else .ok s

/-- The prerequisite of `dependency` was visited. -/
def releaseDependent (graph : TaskGraph) (s : Traversal) (dependency : TaskDependency) :
    Except TaskGraphError Traversal := do
  let (dependentIndex, count) ← dependentCount graph s.counts dependency
  Except.failIf (count = 0) (.duplicateDependency dependency)
  let counts := s.counts.set dependentIndex (count - 1)
  if count - 1 = 0 then
    let queue ← writeQueue s.queue s.queueLength dependentIndex
    return ⟨counts, queue, s.queueLength + 1⟩
  else return { s with counts := counts }

def releaseAll (graph : TaskGraph) (node : TaskNode) (s : Traversal) : Except TaskGraphError Traversal :=
  (graph.dependencies.filter fun dependency => dependency.prerequisite = node.id).foldlM
    (releaseDependent graph) s

/-- What is queued and what has yet to come in. -/
def Traversal.potential (s : Traversal) : ℕ := s.queueLength + s.counts.sum

theorem sum_set_pred : ∀ {counts : List ℕ} {i c : ℕ}, counts[i]? = some c → 0 < c →
    (counts.set i (c - 1)).sum + 1 = counts.sum
  | [], _, _, h, _ => by simp at h
  | d :: counts, 0, c, h, hc => by
    simp only [List.getElem?_cons_zero, Option.some.injEq] at h
    simp only [List.set_cons_zero, List.sum_cons]
    omega
  | d :: counts, i + 1, c, h, hc => by
    have hi : counts[i]? = some c := by simpa using h
    have ih := sum_set_pred hi hc
    simp only [List.set_cons_succ, List.sum_cons]
    omega

theorem releaseDependent_potential {graph : TaskGraph} {s s' : Traversal} {dependency : TaskDependency}
    (h : releaseDependent graph s dependency = .ok s') : s'.potential ≤ s.potential := by
  simp only [releaseDependent, dependentCount, Except.bind_eq_ok, Except.okOr_eq_ok, Except.failIf_eq_ok,
    Except.pure_eq_ok] at h
  obtain ⟨⟨i, c⟩, ⟨_, -, _, hget, heq⟩, _, hc, h⟩ := h
  obtain ⟨rfl, rfl⟩ := Prod.mk.inj heq
  have hsum := sum_set_pred hget (Nat.pos_of_ne_zero hc)
  unfold Traversal.potential
  split_ifs at h
  · simp only [Except.bind_eq_ok, Except.pure_eq_ok] at h
    obtain ⟨_, -, rfl⟩ := h
    simp only
    omega
  · rw [Except.pure_eq_ok] at h
    subst h
    simp only
    omega

theorem releaseAll_potential {graph : TaskGraph} {node : TaskNode} {s s' : Traversal}
    (h : releaseAll graph node s = .ok s') : s'.potential ≤ s.potential :=
  Except.foldlM_ok (fun _ t => t.potential ≤ s.potential) le_rfl
    (fun _ _ _ _ _ _ hle hstep => (releaseDependent_potential hstep).trans hle) h

/-- Visit the queue from `head` on: how many nodes were visited. -/
def traverse (graph : TaskGraph) (head visited : ℕ) (s : Traversal) : Except TaskGraphError ℕ :=
  if _hhead : head < s.queueLength then
    match s.queue[head]? with
    | none => .error (nodeCapacity (saturatingAdd u64Max head 1) s.queue.length)
    | some nodeIndex =>
    match graph.nodes[nodeIndex]? with
    | none => .error (nodeCapacity (saturatingAdd u64Max nodeIndex 1) graph.nodes.length)
    | some node =>
    match hrelease : releaseAll graph node s with
    | .error e => .error e
    | .ok s' => traverse graph (head + 1) (visited + 1) s'
  else .ok visited
termination_by s.potential - head
decreasing_by
  have h := releaseAll_potential hrelease
  have : s.queueLength ≤ s.potential := Nat.le_add_right _ _
  omega

/-- The traversal of `validate_graph`, after its checks. -/
def sortGraph (graph : TaskGraph) (scratch : GraphValidationScratch) : Except TaskGraphError Unit := do
  Except.failIf (scratch.incomingCounts.length < graph.nodes.length)
    (nodeCapacity graph.nodes.length scratch.incomingCounts.length)
  let zeros := (scratch.incomingCounts.take graph.nodes.length).map fun _ => 0
  let counts ← graph.dependencies.foldlM (countIncoming graph) zeros
  let s ← counts.zipIdx.foldlM seedQueue ⟨counts, scratch.queue, 0⟩
  let visited ← traverse graph 0 0 s
  Except.failIf (visited ≠ graph.nodes.length) .cycleDetected

def validateGraph (graph : TaskGraph) (scratch : GraphValidationScratch) : Except TaskGraphError Unit := do
  checkGraph graph scratch
  sortGraph graph scratch

end LlmApp
