/-
# The runtime state of a workflow

`TaskStateTable` holds a status and the number of attempts for every node of a
graph, in the order of the nodes. An operation returns its result and the table
after it, which on an error is the table as far as the source has written it.

`TaskOperation` lists the operations a run is made of; `TaskRun` keeps the
table with the log of what was asked and answered.

Key definitions: `TaskStateTable`, `TaskStateTable.start`,
`TaskStateTable.succeedAttempt`, `TaskStateTable.failAttempt`,
`TaskStateTable.cancel`, `TaskStateTable.propagateBlocked`,
`TaskStateTable.readyTasks`, `TaskOperation`, `TaskRun`.
-/
import LlmApp.TaskGraph.Graph

namespace LlmApp

/-- `NonZeroU16::new`. -/
def NonZeroU16.new (value : ℕ) : Option NonZeroU16 :=
  if h : 0 < value ∧ value ≤ u16Max then some ⟨value, h.1, h.2⟩ else none

theorem NonZeroU16.new_eq_some {value : ℕ} {n : NonZeroU16} : NonZeroU16.new value = some n ↔ n.get = value := by
  unfold NonZeroU16.new
  split_ifs with h
  · rw [Option.some.injEq, NonZeroU16.ext_iff]
    exact eq_comm
  · simp only [false_iff]
    rintro rfl
    exact h ⟨n.pos, n.le⟩

structure TaskRuntimeState where
  status : TaskStatus
  attempts : ℕ
deriving DecidableEq, Repr

def TaskRuntimeState.default : TaskRuntimeState := ⟨.pending, 0⟩

structure TaskStateTable where
  states : List TaskRuntimeState
deriving DecidableEq, Repr

/-! ### Prerequisites -/

section Prerequisites

variable (graph : TaskGraph) (states : List TaskRuntimeState)

/-- Whether the prerequisite of one of the dependencies has a status of `p`. -/
def anyPrerequisite (p : TaskStatus → Bool) : List TaskDependency → Except TaskGraphError Bool
  | [] => .ok false
  | dependency :: rest => do
    let index ← Except.okOr (graph.nodeIndex dependency.prerequisite) (.unknownTask dependency.prerequisite)
    let state ← Except.okOr states[index]? (.stateLengthMismatch graph.nodes.length states.length)
    if p state.status then return true else anyPrerequisite p rest

def prerequisitesSucceeded (taskId : TaskId) : Except TaskGraphError Bool := do
  let unfinished ← anyPrerequisite graph states (fun status => status ≠ .succeeded)
    (graph.dependencies.filter fun dependency => dependency.dependent = taskId)
  return !unfinished

/-- The statuses that never let a dependent run. -/
def TaskStatus.unsuccessful : TaskStatus → Bool
  | .exhausted | .cancelled | .blocked => true
  | .pending | .running | .succeeded | .failed => false

def hasUnsuccessfulPrerequisite (taskId : TaskId) : Except TaskGraphError Bool :=
  anyPrerequisite graph states TaskStatus.unsuccessful
    (graph.dependencies.filter fun dependency => dependency.dependent = taskId)

end Prerequisites

namespace TaskStateTable

variable (graph : TaskGraph) (table : TaskStateTable)

def new (states : List TaskRuntimeState) : Except TaskGraphError TaskStateTable :=
  if states.length ≠ graph.nodes.length then
    .error (.stateLengthMismatch graph.nodes.length states.length)
  else .ok ⟨states⟩

def state (taskId : TaskId) : Option TaskRuntimeState :=
  (graph.nodeIndex taskId).bind fun index => table.states[index]?

def set (index : ℕ) (state : TaskRuntimeState) : TaskStateTable := ⟨table.states.set index state⟩

/-! ### Attempts -/

/-- The checks of `start`: the index of the task and the number of its attempt. -/
def checkStart (taskId : TaskId) : Except TaskGraphError (ℕ × NonZeroU16) := do
  let index ← Except.okOr (graph.nodeIndex taskId) (.unknownTask taskId)
  let node ← Except.okOr graph.nodes[index]? (.unknownTask taskId)
  let current ← Except.okOr table.states[index]? (.unknownTask taskId)
  Except.failIf (current.status ≠ .pending ∧ current.status ≠ .failed) (.invalidTransition taskId current.status)
  let succeeded ← prerequisitesSucceeded graph table.states taskId
  Except.failIf (succeeded = false) (.invalidTransition taskId current.status)
  Except.failIf (node.budget.maximumAttempts.get ≤ current.attempts) (.attemptLimitReached taskId)
  let number ← Except.okOr (NonZeroU16.new (saturatingAdd u16Max current.attempts 1)) (.attemptLimitReached taskId)
  return (index, number)

def start (taskId : TaskId) : Except TaskGraphError TaskAttempt × TaskStateTable :=
  match checkStart graph table taskId with
  | .error e => (.error e, table)
  | .ok (index, number) => (.ok ⟨taskId, number⟩, table.set index ⟨.running, number.get⟩)

def validateAttempt (attempt : TaskAttempt) : Except TaskGraphError ℕ := do
  let index ← Except.okOr (graph.nodeIndex attempt.task) (.unknownTask attempt.task)
  let state ← Except.okOr table.states[index]? (.unknownTask attempt.task)
  let active := (NonZeroU16.new state.attempts).map fun number => (⟨attempt.task, number⟩ : TaskAttempt)
  Except.failIf (state.status ≠ .running ∨ active ≠ some attempt) (.invalidAttempt attempt active state.status)
  return index

def succeedAttempt (attempt : TaskAttempt) : Except TaskGraphError Unit × TaskStateTable :=
  match validateAttempt graph table attempt with
  | .error e => (.error e, table)
  | .ok index =>
  match table.states[index]? with
  | none => (.error (.unknownTask attempt.task), table)
  | some state => (.ok (), table.set index { state with status := .succeeded })

def failAttempt (attempt : TaskAttempt) : Except TaskGraphError Unit × TaskStateTable :=
  match validateAttempt graph table attempt with
  | .error e => (.error e, table)
  | .ok index =>
  match graph.nodes[index]? with
  | none => (.error (.unknownTask attempt.task), table)
  | some node =>
  match table.states[index]? with
  | none => (.error (.unknownTask attempt.task), table)
  | some state =>
    let status := if node.budget.maximumAttempts.get ≤ state.attempts then .exhausted else .failed
    (.ok (), table.set index { state with status := status })

/-! ### Cancellation -/

def cancel (taskId : TaskId) : Except TaskGraphError Unit × TaskStateTable :=
  match graph.nodeIndex taskId with
  | none => (.error (.unknownTask taskId), table)
  | some index =>
  match table.states[index]? with
  | none => (.error (.unknownTask taskId), table)
  | some state =>
  match state.status with
  | .pending | .failed | .running => (.ok (), table.set index { state with status := .cancelled })
  | .succeeded | .exhausted | .cancelled | .blocked =>
    (.error (.invalidTransition taskId state.status), table)

/-! ### Blocked tasks -/

/-- One pass over the nodes: how many tasks it has blocked. -/
def blockPass : List (TaskNode × ℕ) → ℕ → TaskStateTable → Except TaskGraphError ℕ × TaskStateTable
  | [], changed, table => (.ok changed, table)
  | (node, index) :: rest, changed, table =>
    match table.states[index]? with
    | none => (.error (.stateLengthMismatch graph.nodes.length table.states.length), table)
    | some current =>
    if current.status ≠ .pending then blockPass rest changed table
    else
    match hasUnsuccessfulPrerequisite graph table.states node.id with
    | .error e => (.error e, table)
    | .ok false => blockPass rest changed table
    | .ok true => blockPass rest (changed + 1) (table.set index { current with status := .blocked })

def pendingTasks : ℕ := table.states.countP fun state => state.status = .pending

theorem countP_set_pending : ∀ {states : List TaskRuntimeState} {i : ℕ} {s s' : TaskRuntimeState},
    states[i]? = some s → s.status = .pending → s'.status ≠ .pending →
    ((states.set i s').countP fun state => state.status = .pending) + 1 =
      states.countP fun state => state.status = .pending
  | [], _, _, _, h, _, _ => by simp at h
  | x :: states, 0, s, s', h, hs, hs' => by
    simp only [List.getElem?_cons_zero, Option.some.injEq] at h
    subst h
    simp [hs, hs']
  | x :: states, i + 1, s, s', h, hs, hs' => by
    have hi : states[i]? = some s := by simpa using h
    have ih := countP_set_pending hi hs hs'
    simp only [List.set_cons_succ, List.countP_cons]
    omega

/-- A pass takes the tasks it blocks out of the pending ones. -/
theorem blockPass_pending : ∀ {nodes : List (TaskNode × ℕ)} {changed changed' : ℕ} {table table' : TaskStateTable},
    blockPass graph nodes changed table = (.ok changed', table') →
    table'.pendingTasks + changed' = table.pendingTasks + changed
  | [], _, _, _, _, h => by
    obtain ⟨h1, rfl⟩ := Prod.mk.inj h
    rw [Except.ok.inj h1]
  | (node, index) :: rest, changed, changed', table, table', h => by
    rw [blockPass] at h
    split at h
    · cases h
    next current hcurrent =>
    split_ifs at h with hpending
    · exact blockPass_pending h
    split at h
    · cases h
    · exact blockPass_pending h
    · have ih := blockPass_pending h
      have hblocked : ({ current with status := .blocked } : TaskRuntimeState).status ≠ .pending := nofun
      have hset := countP_set_pending hcurrent (not_not.mp hpending) hblocked
      simp only [pendingTasks, set] at ih ⊢
      omega

/-- Passes until one blocks nothing. -/
def propagateLoop (total : ℕ) (table : TaskStateTable) : Except TaskGraphError ℕ × TaskStateTable :=
  match _hpass : blockPass graph graph.nodes.zipIdx 0 table with
  | (.error e, table') => (.error e, table')
  | (.ok changed, table') =>
    if _hchanged : changed = 0 then (.ok (saturatingAdd u64Max total changed), table')
    else propagateLoop (saturatingAdd u64Max total changed) table'
termination_by table.pendingTasks
decreasing_by
  have := blockPass_pending graph _hpass
  omega

theorem propagateLoop_eq {total changed : ℕ} {table table' : TaskStateTable}
    (h : blockPass graph graph.nodes.zipIdx 0 table = (.ok changed, table')) :
    propagateLoop graph total table = if changed = 0 then (.ok (saturatingAdd u64Max total changed), table')
      else propagateLoop graph (saturatingAdd u64Max total changed) table' := by
  rw [propagateLoop]
  split
  · next h' => cases h.symm.trans h'
  · next h' =>
    cases h.symm.trans h'
    split_ifs <;> rfl

def propagateBlocked : Except TaskGraphError ℕ × TaskStateTable := propagateLoop graph 0 table

/-! ### Ready tasks -/

def readyLoop : List (TaskNode × ℕ) → ℕ → List TaskId → Except TaskGraphError ℕ × List TaskId
  | [], written, output => (.ok written, output)
  | (node, index) :: rest, written, output =>
    match table.states[index]? with
    | none => (.error (.stateLengthMismatch graph.nodes.length table.states.length), output)
    | some state =>
    if ¬(state.status = .pending ∨ state.status = .failed) then readyLoop rest written output
    else
    match prerequisitesSucceeded graph table.states node.id with
    | .error e => (.error e, output)
    | .ok succeeded =>
    if succeeded = true ∧ state.attempts < node.budget.maximumAttempts.get then
      if written < output.length then readyLoop rest (written + 1) (output.set written node.id)
      else (.error (nodeCapacity (saturatingAdd u64Max written 1) output.length), output)
    else readyLoop rest written output

/-- How many ready tasks were written into `output`, and `output` after it. -/
def readyTasks (output : List TaskId) : Except TaskGraphError ℕ × List TaskId :=
  readyLoop graph table graph.nodes.zipIdx 0 output

end TaskStateTable

/-! ### Runs -/

inductive TaskOperation where
  | start (taskId : TaskId)
  | succeedAttempt (attempt : TaskAttempt)
  | failAttempt (attempt : TaskAttempt)
  | cancel (taskId : TaskId)
  | propagateBlocked
deriving DecidableEq, Repr

/-- What an operation returned. -/
inductive TaskAnswer where
  | started (attempt : TaskAttempt)
  | done
  | blocked (changed : ℕ)
  | rejected (error : TaskGraphError)
deriving DecidableEq, Repr

def TaskAnswer.of {α : Type} (accepted : α → TaskAnswer) : Except TaskGraphError α → TaskAnswer
  | .ok a => accepted a
  | .error e => .rejected e

def TaskOperation.apply (graph : TaskGraph) (table : TaskStateTable) : TaskOperation → TaskAnswer × TaskStateTable
  | .start taskId => (table.start graph taskId).map (.of .started) id
  | .succeedAttempt attempt => (table.succeedAttempt graph attempt).map (.of fun _ => .done) id
  | .failAttempt attempt => (table.failAttempt graph attempt).map (.of fun _ => .done) id
  | .cancel taskId => (table.cancel graph taskId).map (.of fun _ => .done) id
  | .propagateBlocked => (table.propagateBlocked graph).map (.of .blocked) id

/-- A table with the operations it has seen. -/
structure TaskRun where
  log : List (TaskOperation × TaskAnswer)
  table : TaskStateTable

namespace TaskRun

variable (graph : TaskGraph)

def start : TaskRun := ⟨[], ⟨List.replicate graph.nodes.length .default⟩⟩

def step (run : TaskRun) (op : TaskOperation) : TaskRun :=
  ⟨run.log ++ [(op, (op.apply graph run.table).1)], (op.apply graph run.table).2⟩

/-- The run of the operations on the default table. -/
def all (ops : List TaskOperation) : TaskRun := ops.foldl (step graph) (start graph)

end TaskRun

end LlmApp
