/-
# What holds in every run of a workflow

A table is read as a view: the state of each task. Every operation either
leaves the view, makes one change to it or blocks some pending tasks
(`TaskOperation.apply_step`), and what a change can do is said once
(`Change`, `Blocks`). The invariant of the states and what became of the
attempts follow from that for every run.

Key definitions: `PrerequisitesDone`, `TaskRuntimeState.Fits`, `ViewInvariant`,
`Change`, `TaskStep`, `Tied`.
Key theorems: `TaskOperation.apply_step`, `TaskStep.invariant`, `TaskStep.final`,
`TaskStep.tied`, `taskRun_invariant`.
-/
import LlmApp.TaskGraph.Table
import LlmApp.TaskGraph.Validation

namespace LlmApp

open Relation

/-- What is known of every task. -/
abbrev TaskView := TaskId → Option TaskRuntimeState

/-! ### Tables as views -/

namespace TaskStateTable

variable {graph : TaskGraph} {table : TaskStateTable} {t : TaskId} {s : TaskRuntimeState} {i : ℕ}

/-- One state for every node. -/
def Aligned (graph : TaskGraph) (table : TaskStateTable) : Prop := table.states.length = graph.nodes.length

theorem state_eq (hw : graph.WellFormed) (hi : graph.taskIds[i]? = some t) : table.state graph t = table.states[i]? := by
  rw [state, (TaskGraph.nodeIndex_eq_some hw.distinct).mpr hi]
  rfl

theorem state_undeclared (ht : t ∉ graph.taskIds) : table.state graph t = none := by
  have hnone : graph.nodeIndex t = none := by
    simpa [TaskGraph.nodeIndex, TaskGraph.taskIds] using ht
  rw [state, hnone]
  rfl

/-- The position of a task in the graph and in the table. -/
theorem exists_state (hw : graph.WellFormed) (hl : table.Aligned graph) (ht : t ∈ graph.taskIds) :
    ∃ i s, graph.nodeIndex t = some i ∧ graph.taskIds[i]? = some t ∧ table.states[i]? = some s ∧
      table.state graph t = some s := by
  obtain ⟨i, hindex, hlt, hi⟩ := TaskGraph.exists_nodeIndex hw.distinct ht
  rw [← hl] at hlt
  have hget := List.getElem?_eq_getElem hlt
  exact ⟨i, _, hindex, hi, hget, (state_eq hw hi).trans hget⟩

theorem Aligned.set (hl : table.Aligned graph) (i : ℕ) (s : TaskRuntimeState) : (table.set i s).Aligned graph := by
  rw [Aligned, TaskStateTable.set, List.length_set]
  exact hl

/-- A changed entry changes the view at its task. -/
theorem state_set (hw : graph.WellFormed) (hi : graph.taskIds[i]? = some t) (hs : i < table.states.length)
    (s' : TaskRuntimeState) :
    (table.set i s').state graph = Function.update (table.state graph) t (some s') := by
  funext u
  by_cases hu : u ∈ graph.taskIds
  · obtain ⟨j, -, -, hj⟩ := TaskGraph.exists_nodeIndex hw.distinct hu
    rw [state_eq hw hj]
    by_cases hij : i = j
    · subst hij
      obtain rfl : t = u := Option.some.inj (hi.symm.trans hj)
      rw [Function.update_self]
      exact List.getElem?_set_self hs
    · have hne : u ≠ t := by
        rintro rfl
        exact hij ((List.getElem?_inj (List.getElem?_eq_some_iff.mp hi).1 hw.distinct).mp (hi.trans hj.symm))
      rw [Function.update_of_ne hne, state_eq hw hj]
      exact List.getElem?_set_ne hij
  · have hne : u ≠ t := by
      rintro rfl
      exact hu (List.mem_of_getElem? hi)
    rw [Function.update_of_ne hne, state_undeclared hu, state_undeclared hu]

end TaskStateTable

/-! ### The prerequisites of a task -/

section Prerequisites

variable (graph : TaskGraph) (v : TaskView) (t : TaskId)

/-- Every direct prerequisite has succeeded. -/
def PrerequisitesDone : Prop := ∀ p, graph.Requires p t → ∃ s, v p = some s ∧ s.status = .succeeded

/-- A direct prerequisite has a status that never lets the task run. -/
def HasUnsuccessful : Prop := ∃ p s, graph.Requires p t ∧ v p = some s ∧ s.status.unsuccessful = true

variable {graph} {table : TaskStateTable} {t}

theorem anyPrerequisite_eq (hw : graph.WellFormed) (hl : table.Aligned graph) (p : TaskStatus → Bool) :
    ∀ {ds : List TaskDependency}, ds ⊆ graph.dependencies →
      ∃ b, anyPrerequisite graph table.states p ds = .ok b ∧
        (b = true ↔ ∃ d ∈ ds, ∃ s, table.state graph d.prerequisite = some s ∧ p s.status = true)
  | [], _ => ⟨false, rfl, by simp⟩
  | d :: ds, hsub => by
    obtain ⟨i, s, hindex, -, hget, hs⟩ :=
      TaskStateTable.exists_state hw hl (hw.declared d (hsub List.mem_cons_self)).1
    obtain ⟨b, hb, hiff⟩ := anyPrerequisite_eq hw hl p (List.subset_of_cons_subset hsub)
    simp only [anyPrerequisite, hindex, hget, Except.okOr_some, Except.ok_bind]
    by_cases hp : p s.status = true
    · refine ⟨true, by simp [hp, pure, Except.pure], ?_⟩
      simp only [true_iff]
      exact ⟨d, List.mem_cons_self, s, hs, hp⟩
    · refine ⟨b, by simp [hp, hb], ?_⟩
      rw [hiff]
      constructor
      · rintro ⟨d', hd', h⟩
        exact ⟨d', List.mem_cons_of_mem _ hd', h⟩
      · rintro ⟨d', hd', s', hs', hp'⟩
        obtain rfl | hd' := List.mem_cons.mp hd'
        · obtain rfl : s = s' := Option.some.inj (hs.symm.trans hs')
          exact absurd hp' hp
        · exact ⟨d', hd', s', hs', hp'⟩

theorem prerequisitesSucceeded_eq (hw : graph.WellFormed) (hl : table.Aligned graph) :
    ∃ b, prerequisitesSucceeded graph table.states t = .ok b ∧
      (b = true ↔ PrerequisitesDone graph (table.state graph) t) := by
  obtain ⟨b, hb, hiff⟩ := anyPrerequisite_eq hw hl (fun status => status ≠ .succeeded)
    (List.filter_sublist (l := graph.dependencies) (p := fun d => d.dependent = t)).subset
  refine ⟨!b, by rw [prerequisitesSucceeded, hb]; rfl, ?_⟩
  rw [Bool.not_eq_true', ← Bool.not_eq_true, hiff]
  constructor
  · intro h p hp
    obtain ⟨i, s, -, -, -, hs⟩ := TaskStateTable.exists_state hw hl (hw.declared _ hp).1
    refine ⟨s, hs, ?_⟩
    by_contra hne
    exact h ⟨⟨p, t⟩, List.mem_filter.mpr ⟨hp, by simp⟩, s, hs, by simpa using hne⟩
  · rintro h ⟨d, hd, s, hs, hne⟩
    obtain ⟨hd, ht⟩ := List.mem_filter.mp hd
    obtain ⟨s', hs', hdone⟩ := h d.prerequisite (by
      rw [TaskGraph.Requires, ← of_decide_eq_true ht]
      exact hd)
    obtain rfl : s = s' := Option.some.inj (hs.symm.trans hs')
    simp [hdone] at hne

theorem hasUnsuccessfulPrerequisite_eq (hw : graph.WellFormed) (hl : table.Aligned graph) :
    ∃ b, hasUnsuccessfulPrerequisite graph table.states t = .ok b ∧
      (b = true ↔ HasUnsuccessful graph (table.state graph) t) := by
  obtain ⟨b, hb, hiff⟩ := anyPrerequisite_eq hw hl TaskStatus.unsuccessful
    (List.filter_sublist (l := graph.dependencies) (p := fun d => d.dependent = t)).subset
  refine ⟨b, hb, ?_⟩
  rw [hiff]
  constructor
  · rintro ⟨d, hd, s, hs, h⟩
    obtain ⟨hd, ht⟩ := List.mem_filter.mp hd
    refine ⟨d.prerequisite, s, ?_, hs, h⟩
    rw [TaskGraph.Requires, ← of_decide_eq_true ht]
    exact hd
  · rintro ⟨p, s, hp, hs, h⟩
    exact ⟨⟨p, t⟩, List.mem_filter.mpr ⟨hp, by simp⟩, s, hs, h⟩

end Prerequisites

/-! ### Changes -/

/-- The statuses that a task never leaves. -/
def TaskStatus.final : TaskStatus → Bool
  | .succeeded | .exhausted | .cancelled | .blocked => true
  | .pending | .running | .failed => false

/-- What an accepted operation did to a task. -/
inductive TaskEvent where
  | started (attempt : TaskAttempt)
  | completed (attempt : TaskAttempt)
  | cancelled (taskId : TaskId)
deriving DecidableEq, Repr

namespace TaskEvent

/-- The event of an entry of the log, if it is one. -/
def of : TaskOperation × TaskAnswer → Option TaskEvent
  | (_, .started attempt) => some (.started attempt)
  | (.succeedAttempt attempt, .done) | (.failAttempt attempt, .done) => some (.completed attempt)
  | (.cancel taskId, .done) => some (.cancelled taskId)
  | _ => none

def startedAttempt : TaskEvent → Option TaskAttempt
  | .started attempt => some attempt
  | _ => none

def completedAttempt : TaskEvent → Option TaskAttempt
  | .completed attempt => some attempt
  | _ => none

/-- The task it happened to. -/
def task : TaskEvent → TaskId
  | .started attempt | .completed attempt => attempt.task
  | .cancelled taskId => taskId

/-- The event supersedes an attempt that was started before, uses it or cancels
its task. -/
def Ends (attempt : TaskAttempt) : TaskEvent → Prop
  | .started later => later.task = attempt.task
  | .completed used => used = attempt
  | .cancelled taskId => taskId = attempt.task

end TaskEvent

section Changes

variable (graph : TaskGraph) (v : TaskView)

/-- The attempt is the running one of its task. -/
def Accepts (attempt : TaskAttempt) : Prop :=
  ∃ s, v attempt.task = some s ∧ s.status = .running ∧ s.attempts = attempt.number.get

/-- `start` would succeed. -/
def Startable (t : TaskId) : Prop := ∃ node s, graph.node t = some node ∧ v t = some s ∧
  (s.status = .pending ∨ s.status = .failed) ∧ PrerequisitesDone graph v t ∧
  s.attempts < node.budget.maximumAttempts.get

/-- The one change of an accepted operation. -/
inductive Change : TaskEvent → TaskView → Prop
  | started {t : TaskId} {node : TaskNode} {s : TaskRuntimeState} {number : NonZeroU16}
      (hnode : graph.node t = some node) (hs : v t = some s) (hstatus : s.status = .pending ∨ s.status = .failed)
      (hdone : PrerequisitesDone graph v t) (hlt : s.attempts < node.budget.maximumAttempts.get)
      (hnumber : number.get = s.attempts + 1) :
      Change (.started ⟨t, number⟩) (Function.update v t (some ⟨.running, number.get⟩))
  | succeeded {attempt : TaskAttempt} {s : TaskRuntimeState} (hs : v attempt.task = some s)
      (hrunning : s.status = .running) (hnumber : s.attempts = attempt.number.get) :
      Change (.completed attempt) (Function.update v attempt.task (some { s with status := .succeeded }))
  | failed {attempt : TaskAttempt} {node : TaskNode} {s : TaskRuntimeState} (hnode : graph.node attempt.task = some node)
      (hs : v attempt.task = some s) (hrunning : s.status = .running) (hnumber : s.attempts = attempt.number.get) :
      Change (.completed attempt) (Function.update v attempt.task (some { s with
        status := if node.budget.maximumAttempts.get ≤ s.attempts then .exhausted else .failed }))
  | cancelled {t : TaskId} {s : TaskRuntimeState} (hs : v t = some s)
      (hstatus : s.status = .pending ∨ s.status = .failed ∨ s.status = .running) :
      Change (.cancelled t) (Function.update v t (some { s with status := .cancelled }))

/-- A pending task with an unsuccessful prerequisite was blocked. -/
inductive Blocks : TaskView → TaskView → Prop
  | intro {v : TaskView} {t : TaskId} {s : TaskRuntimeState} (hs : v t = some s) (hpending : s.status = .pending)
      (hp : HasUnsuccessful graph v t) :
      Blocks v (Function.update v t (some { s with status := .blocked }))

/-- What an operation does, with its answer. -/
inductive TaskStep : TaskOperation × TaskAnswer → TaskView → Prop
  | rejected (op : TaskOperation) (e : TaskGraphError) : TaskStep (op, .rejected e) v
  | changed {entry : TaskOperation × TaskAnswer} {event : TaskEvent} {v' : TaskView}
      (hevent : TaskEvent.of entry = some event) (h : Change graph v event v') : TaskStep entry v'
  | blocked {changed : ℕ} {v' : TaskView} (h : ReflTransGen (Blocks graph) v v') :
      TaskStep (.propagateBlocked, .blocked changed) v'

end Changes

/-! ### It is what happens -/

namespace TaskStateTable

variable {graph : TaskGraph} {table : TaskStateTable} {t : TaskId}

theorem checkStart_eq_ok (hw : graph.WellFormed) (hl : table.Aligned graph) {i : ℕ} {number : NonZeroU16} :
    checkStart graph table t = .ok (i, number) ↔ ∃ node s, graph.nodes[i]? = some node ∧ node.id = t ∧
      table.states[i]? = some s ∧ (s.status = .pending ∨ s.status = .failed) ∧
      PrerequisitesDone graph (table.state graph) t ∧ s.attempts < node.budget.maximumAttempts.get ∧
      number.get = s.attempts + 1 := by
  obtain ⟨b, hb, hiff⟩ := prerequisitesSucceeded_eq (t := t) hw hl
  simp only [checkStart, hb, Except.bind_eq_ok, Except.okOr_eq_ok, Except.failIf_eq_ok, Except.pure_eq_ok,
    Except.ok.injEq, exists_eq_left', NonZeroU16.new_eq_some, TaskGraph.nodeIndex_eq_some hw.distinct,
    TaskGraph.taskIds_getElem?]
  constructor
  · rintro ⟨j, ⟨node, hnode, hid⟩, node', hnode', s, hs, _, hstatus, _, hdone, _, hlt, n, hn, heq⟩
    obtain ⟨rfl, rfl⟩ := Prod.mk.inj heq
    obtain rfl : node = node' := Option.some.inj (hnode.symm.trans hnode')
    have hmax := node.budget.maximumAttempts.le
    refine ⟨node, s, hnode, hid, hs, ?_, hiff.mp (by simpa using hdone), by omega, ?_⟩
    · by_contra hnot
      exact hstatus ⟨fun h => hnot (Or.inl h), fun h => hnot (Or.inr h)⟩
    · rw [hn, saturatingAdd]
      omega
  · rintro ⟨node, s, hnode, hid, hs, hstatus, hdone, hlt, hnumber⟩
    have hmax := node.budget.maximumAttempts.le
    refine ⟨i, ⟨node, hnode, hid⟩, node, hnode, s, hs, (), ?_, (), by simp [hiff.mpr hdone], (), by omega,
      number, ?_, rfl⟩
    · rintro ⟨h1, h2⟩
      exact hstatus.elim h1 h2
    · rw [hnumber, saturatingAdd]
      omega

/-- The node at the index of a task. -/
theorem node_of_index (hw : graph.WellFormed) {i : ℕ} {node : TaskNode} (hnode : graph.nodes[i]? = some node) :
    graph.node node.id = some node := by
  rw [TaskGraph.node, List.find?_eq_some_iff_getElem]
  obtain ⟨hi, hget⟩ := List.getElem?_eq_some_iff.mp hnode
  refine ⟨by simp, i, hi, hget, fun j hj => ?_⟩
  simp only [Bool.not_eq_true', decide_eq_false_iff_not]
  intro hid
  have h1 : graph.taskIds[j]? = some node.id := TaskGraph.taskIds_getElem?.mpr ⟨_, List.getElem?_eq_getElem _, hid⟩
  have h2 : graph.taskIds[i]? = some node.id := TaskGraph.taskIds_getElem?.mpr ⟨node, hnode, rfl⟩
  have := (List.getElem?_inj (List.getElem?_eq_some_iff.mp h1).1 hw.distinct).mp (h1.trans h2.symm)
  omega

theorem start_step (hw : graph.WellFormed) (hl : table.Aligned graph) :
    (∃ e, table.start graph t = (.error e, table)) ∨
      ∃ number, (table.start graph t).1 = .ok ⟨t, number⟩ ∧ (table.start graph t).2.Aligned graph ∧
        Change graph (table.state graph) (.started ⟨t, number⟩) ((table.start graph t).2.state graph) := by
  unfold start
  split
  · exact Or.inl ⟨_, rfl⟩
  next i number h =>
  obtain ⟨node, s, hnode, rfl, hs, hstatus, hdone, hlt, hnumber⟩ := (checkStart_eq_ok hw hl).mp h
  have hi : graph.taskIds[i]? = some node.id := TaskGraph.taskIds_getElem?.mpr ⟨node, hnode, rfl⟩
  refine Or.inr ⟨number, rfl, hl.set _ _, ?_⟩
  rw [state_set hw hi (List.getElem?_eq_some_iff.mp hs).1]
  exact .started (node_of_index hw hnode) ((state_eq hw hi).trans hs) hstatus hdone hlt hnumber

theorem validateAttempt_eq_ok (hw : graph.WellFormed) {attempt : TaskAttempt} {i : ℕ} :
    validateAttempt graph table attempt = .ok i ↔ graph.taskIds[i]? = some attempt.task ∧
      ∃ s, table.states[i]? = some s ∧ s.status = .running ∧ s.attempts = attempt.number.get := by
  simp only [validateAttempt, Except.bind_eq_ok, Except.okOr_eq_ok, Except.failIf_eq_ok, Except.pure_eq_ok,
    TaskGraph.nodeIndex_eq_some hw.distinct, not_or, not_not]
  constructor
  · rintro ⟨j, hj, s, hs, _, ⟨hrunning, hactive⟩, rfl⟩
    obtain ⟨number, hnumber, heq⟩ := Option.map_eq_some_iff.mp hactive
    refine ⟨hj, s, hs, hrunning, ?_⟩
    rw [← heq]
    exact (NonZeroU16.new_eq_some.mp hnumber).symm
  · rintro ⟨hi, s, hs, hrunning, hnumber⟩
    refine ⟨i, hi, s, hs, (), ⟨hrunning, ?_⟩, rfl⟩
    rw [NonZeroU16.new_eq_some.mpr hnumber.symm]
    rfl

/-- An attempt is valid exactly when it is the running one of its task. -/
theorem validateAttempt_cases (hw : graph.WellFormed) (table : TaskStateTable) (attempt : TaskAttempt) :
    (∃ i s, validateAttempt graph table attempt = .ok i ∧ graph.taskIds[i]? = some attempt.task ∧
      table.states[i]? = some s ∧ s.status = .running ∧ s.attempts = attempt.number.get) ∨
    (¬Accepts (table.state graph) attempt ∧ ∃ e, validateAttempt graph table attempt = .error e) := by
  cases h : validateAttempt graph table attempt with
  | ok i =>
    obtain ⟨hi, s, hs⟩ := (validateAttempt_eq_ok hw).mp h
    exact Or.inl ⟨i, s, rfl, hi, hs⟩
  | error e =>
    refine Or.inr ⟨?_, e, rfl⟩
    rintro ⟨s, hs, hrunning⟩
    obtain ⟨i, hindex, hget⟩ := Option.bind_eq_some_iff.mp hs
    have hi := (TaskGraph.nodeIndex_eq_some hw.distinct).mp hindex
    cases h.symm.trans ((validateAttempt_eq_ok hw).mpr ⟨hi, s, hget, hrunning⟩)

theorem succeedAttempt_step (hw : graph.WellFormed) (hl : table.Aligned graph) (attempt : TaskAttempt) :
    (¬Accepts (table.state graph) attempt ∧ ∃ e, table.succeedAttempt graph attempt = (.error e, table)) ∨
      ((table.succeedAttempt graph attempt).1 = .ok () ∧ (table.succeedAttempt graph attempt).2.Aligned graph ∧
        Change graph (table.state graph) (.completed attempt)
          ((table.succeedAttempt graph attempt).2.state graph)) := by
  obtain ⟨i, s, hvalid, hi, hs, hrunning, hnumber⟩ | ⟨hnot, e, hvalid⟩ := validateAttempt_cases hw table attempt
  · simp only [succeedAttempt, hvalid, hs]
    refine Or.inr ⟨trivial, hl.set _ _, ?_⟩
    rw [state_set hw hi (List.getElem?_eq_some_iff.mp hs).1]
    exact .succeeded ((state_eq hw hi).trans hs) hrunning hnumber
  · simp only [succeedAttempt, hvalid]
    exact Or.inl ⟨hnot, e, rfl⟩

theorem failAttempt_step (hw : graph.WellFormed) (hl : table.Aligned graph) (attempt : TaskAttempt) :
    (¬Accepts (table.state graph) attempt ∧ ∃ e, table.failAttempt graph attempt = (.error e, table)) ∨
      ((table.failAttempt graph attempt).1 = .ok () ∧ (table.failAttempt graph attempt).2.Aligned graph ∧
        Change graph (table.state graph) (.completed attempt)
          ((table.failAttempt graph attempt).2.state graph)) := by
  obtain ⟨i, s, hvalid, hi, hs, hrunning, hnumber⟩ | ⟨hnot, e, hvalid⟩ := validateAttempt_cases hw table attempt
  · obtain ⟨node, hnode, hid⟩ := TaskGraph.taskIds_getElem?.mp hi
    simp only [failAttempt, hvalid, hs, hnode]
    refine Or.inr ⟨trivial, hl.set _ _, ?_⟩
    rw [state_set hw hi (List.getElem?_eq_some_iff.mp hs).1]
    exact .failed (hid ▸ node_of_index hw hnode) ((state_eq hw hi).trans hs) hrunning hnumber
  · simp only [failAttempt, hvalid]
    exact Or.inl ⟨hnot, e, rfl⟩

theorem cancel_step (hw : graph.WellFormed) (hl : table.Aligned graph) :
    (∃ e, table.cancel graph t = (.error e, table)) ∨
      ((table.cancel graph t).1 = .ok () ∧ (table.cancel graph t).2.Aligned graph ∧
        Change graph (table.state graph) (.cancelled t) ((table.cancel graph t).2.state graph)) := by
  unfold cancel
  split
  · exact Or.inl ⟨_, rfl⟩
  next i hindex =>
  split
  · exact Or.inl ⟨_, rfl⟩
  next s hs =>
  have hi := (TaskGraph.nodeIndex_eq_some hw.distinct).mp hindex
  have hchange : ∀ hstatus : s.status = .pending ∨ s.status = .failed ∨ s.status = .running,
      (table.set i { s with status := .cancelled }).Aligned graph ∧ Change graph (table.state graph) (.cancelled t)
        ((table.set i { s with status := .cancelled }).state graph) := by
    intro hstatus
    refine ⟨hl.set _ _, ?_⟩
    rw [state_set hw hi (List.getElem?_eq_some_iff.mp hs).1]
    exact .cancelled ((state_eq hw hi).trans hs) hstatus
  split
  case h_1 h => exact Or.inr ⟨rfl, hchange (Or.inl h)⟩
  case h_2 h => exact Or.inr ⟨rfl, hchange (Or.inr (Or.inl h))⟩
  case h_3 h => exact Or.inr ⟨rfl, hchange (Or.inr (Or.inr h))⟩
  all_goals exact Or.inl ⟨_, rfl⟩

/-- A pass over the nodes succeeds. -/
theorem blockPass_step (hw : graph.WellFormed) : ∀ {nodes : List (TaskNode × ℕ)},
    (∀ entry ∈ nodes, graph.nodes[entry.2]? = some entry.1) → ∀ (changed : ℕ) {table : TaskStateTable},
      table.Aligned graph → ∃ n, (blockPass graph nodes changed table).1 = .ok n ∧
        (blockPass graph nodes changed table).2.Aligned graph ∧
        ReflTransGen (Blocks graph) (table.state graph) ((blockPass graph nodes changed table).2.state graph)
  | [], _, changed, _, hl => ⟨changed, rfl, hl, .refl⟩
  | (node, i) :: rest, hnodes, changed, table, hl => by
    have hnode : graph.nodes[i]? = some node := hnodes _ List.mem_cons_self
    have hrest : ∀ entry ∈ rest, graph.nodes[entry.2]? = some entry.1 :=
      fun entry he => hnodes entry (List.mem_cons_of_mem _ he)
    have hi : graph.taskIds[i]? = some node.id := TaskGraph.taskIds_getElem?.mpr ⟨node, hnode, rfl⟩
    have hlt : i < table.states.length := by
      rw [hl]
      exact (List.getElem?_eq_some_iff.mp hnode).1
    have hs := List.getElem?_eq_getElem hlt
    obtain ⟨b, hb, hiff⟩ := hasUnsuccessfulPrerequisite_eq (t := node.id) hw hl
    rw [blockPass, hs]
    by_cases hpending : table.states[i].status = .pending
    · cases b with
      | false =>
        simp only [hpending, ne_eq, not_true_eq_false, if_false, hb]
        exact blockPass_step hw hrest changed hl
      | true =>
        simp only [hpending, ne_eq, not_true_eq_false, if_false, hb]
        obtain ⟨n, h1, h2, h3⟩ := blockPass_step hw hrest (changed + 1)
          (hl.set i { table.states[i] with status := .blocked })
        refine ⟨n, h1, h2, .head ?_ h3⟩
        rw [state_set hw hi hlt]
        exact .intro ((state_eq hw hi).trans hs) hpending (hiff.mp rfl)
    · simp only [hpending, ne_eq, not_false_eq_true, if_true]
      exact blockPass_step hw hrest changed hl

theorem propagateLoop_step (hw : graph.WellFormed) (total : ℕ) (table : TaskStateTable) (hl : table.Aligned graph) :
    ∃ n, (propagateLoop graph total table).1 = .ok n ∧ (propagateLoop graph total table).2.Aligned graph ∧
      ReflTransGen (Blocks graph) (table.state graph) ((propagateLoop graph total table).2.state graph) := by
  have hnodes : ∀ entry ∈ graph.nodes.zipIdx, graph.nodes[entry.2]? = some entry.1 :=
    fun entry he => List.mk_mem_zipIdx_iff_getElem?.mp he
  obtain ⟨changed, h1, h2, h3⟩ := blockPass_step hw hnodes 0 hl
  have hpass : blockPass graph graph.nodes.zipIdx 0 table =
      (.ok changed, (blockPass graph graph.nodes.zipIdx 0 table).2) := Prod.ext h1 rfl
  rw [propagateLoop_eq graph hpass]
  generalize (blockPass graph graph.nodes.zipIdx 0 table).2 = table' at hpass h2 h3 ⊢
  by_cases hzero : changed = 0
  · rw [if_pos hzero]
    exact ⟨_, rfl, h2, h3⟩
  · have hfewer : table'.pendingTasks < table.pendingTasks := by
      have := blockPass_pending graph hpass
      omega
    rw [if_neg hzero]
    obtain ⟨n, h4, h5, h6⟩ := propagateLoop_step hw (saturatingAdd u64Max total changed) table' h2
    exact ⟨n, h4, h5, h3.trans h6⟩
termination_by table.pendingTasks
decreasing_by exact hfewer

end TaskStateTable

/-- What an operation on a table does. -/
theorem TaskOperation.apply_step {graph : TaskGraph} (hw : graph.WellFormed) {table : TaskStateTable}
    (hl : table.Aligned graph) (op : TaskOperation) :
    (op.apply graph table).2.Aligned graph ∧
      (∀ e, (op.apply graph table).1 = .rejected e → (op.apply graph table).2 = table) ∧
      TaskStep graph (table.state graph) (op, (op.apply graph table).1) ((op.apply graph table).2.state graph) := by
  cases op with
  | start t =>
    obtain ⟨e, h⟩ | ⟨number, hok, halign, hchange⟩ := TaskStateTable.start_step (t := t) hw hl
    · simp only [apply, h, Prod.map, TaskAnswer.of, id]
      exact ⟨hl, fun _ _ => trivial, .rejected _ e⟩
    · simp only [apply, Prod.map, hok, TaskAnswer.of, id]
      exact ⟨halign, nofun, .changed rfl hchange⟩
  | succeedAttempt attempt =>
    obtain ⟨-, e, h⟩ | ⟨hok, halign, hchange⟩ := TaskStateTable.succeedAttempt_step hw hl attempt
    · simp only [apply, h, Prod.map, TaskAnswer.of, id]
      exact ⟨hl, fun _ _ => trivial, .rejected _ e⟩
    · simp only [apply, Prod.map, hok, TaskAnswer.of, id]
      exact ⟨halign, nofun, .changed rfl hchange⟩
  | failAttempt attempt =>
    obtain ⟨-, e, h⟩ | ⟨hok, halign, hchange⟩ := TaskStateTable.failAttempt_step hw hl attempt
    · simp only [apply, h, Prod.map, TaskAnswer.of, id]
      exact ⟨hl, fun _ _ => trivial, .rejected _ e⟩
    · simp only [apply, Prod.map, hok, TaskAnswer.of, id]
      exact ⟨halign, nofun, .changed rfl hchange⟩
  | cancel t =>
    obtain ⟨e, h⟩ | ⟨hok, halign, hchange⟩ := TaskStateTable.cancel_step (t := t) hw hl
    · simp only [apply, h, Prod.map, TaskAnswer.of, id]
      exact ⟨hl, fun _ _ => trivial, .rejected _ e⟩
    · simp only [apply, Prod.map, hok, TaskAnswer.of, id]
      exact ⟨halign, nofun, .changed rfl hchange⟩
  | propagateBlocked =>
    obtain ⟨n, hok, halign, hblocks⟩ := TaskStateTable.propagateLoop_step hw 0 table hl
    simp only [apply, Prod.map, TaskStateTable.propagateBlocked, hok, TaskAnswer.of, id]
    exact ⟨halign, nofun, .blocked hblocks⟩

/-- Only the running attempt of its task is accepted. -/
theorem TaskOperation.apply_rejects {graph : TaskGraph} (hw : graph.WellFormed) {table : TaskStateTable}
    {attempt : TaskAttempt} (h : ¬Accepts (table.state graph) attempt) :
    (∃ e, ((TaskOperation.succeedAttempt attempt).apply graph table).1 = .rejected e) ∧
      ∃ e, ((TaskOperation.failAttempt attempt).apply graph table).1 = .rejected e := by
  obtain ⟨i, s, hvalid, hi, hs, hrunning, hnumber⟩ | ⟨-, e, hvalid⟩ :=
    TaskStateTable.validateAttempt_cases hw table attempt
  · exact absurd ⟨s, (TaskStateTable.state_eq hw hi).trans hs, hrunning, hnumber⟩ h
  · simp [apply, TaskStateTable.succeedAttempt, TaskStateTable.failAttempt, hvalid, TaskAnswer.of]

/-! ### The invariant of the states -/

/-- The attempts of a task agree with its status and stay within its budget. -/
structure TaskRuntimeState.Fits (s : TaskRuntimeState) (maximum : ℕ) : Prop where
  le : s.attempts ≤ maximum
  pending : s.status = .pending → s.attempts = 0
  running : s.status = .running → 0 < s.attempts
  failed : s.status = .failed → 0 < s.attempts ∧ s.attempts < maximum
  exhausted : s.status = .exhausted → s.attempts = maximum

/-- The statuses of a task that has had its prerequisites. -/
def TaskStatus.begun : TaskStatus → Bool
  | .running | .succeeded | .failed | .exhausted => true
  | .pending | .cancelled | .blocked => false

structure ViewInvariant (graph : TaskGraph) (v : TaskView) : Prop where
  fits {t : TaskId} {node : TaskNode} {s : TaskRuntimeState} (hnode : graph.node t = some node) (hs : v t = some s) :
    s.Fits node.budget.maximumAttempts.get
  prerequisites {t : TaskId} {s : TaskRuntimeState} (hs : v t = some s) (hbegun : s.status.begun = true) :
    PrerequisitesDone graph v t

section Invariant

variable {graph : TaskGraph} {v v' : TaskView}

/-- One state replaces a state that is not final. -/
structure Replaces (v : TaskView) (t : TaskId) (s s' : TaskRuntimeState) (v' : TaskView) : Prop where
  old : v t = some s
  notFinal : s.status.final = false
  new : v' = Function.update v t (some s')

/-- A change starts one more attempt of its task, or ends the running one. -/
theorem Change.effect {event : TaskEvent} (h : Change graph v event v') : ∃ s s', Replaces v event.task s s' v' ∧
    ((∃ number, event = .started ⟨event.task, number⟩ ∧ s' = ⟨.running, number.get⟩ ∧ number.get = s.attempts + 1) ∨
      (∀ attempt, event ≠ .started attempt) ∧ s'.attempts = s.attempts ∧ s'.status ≠ .running) := by
  cases h with
  | started _ hs hstatus _ _ hnumber =>
    exact ⟨_, _, ⟨hs, by rcases hstatus with h | h <;> rw [h] <;> rfl, rfl⟩, Or.inl ⟨_, rfl, rfl, hnumber⟩⟩
  | succeeded hs hrunning _ => exact ⟨_, _, ⟨hs, by rw [hrunning]; rfl, rfl⟩, Or.inr ⟨nofun, rfl, nofun⟩⟩
  | failed _ hs hrunning _ =>
    refine ⟨_, _, ⟨hs, by rw [hrunning]; rfl, rfl⟩, Or.inr ⟨nofun, rfl, ?_⟩⟩
    simp only
    split_ifs <;> simp
  | cancelled hs hstatus =>
    exact ⟨_, _, ⟨hs, by rcases hstatus with h | h | h <;> rw [h] <;> rfl, rfl⟩, Or.inr ⟨nofun, rfl, nofun⟩⟩

theorem Blocks.effect (h : Blocks graph v v') : ∃ t s, Replaces v t s { s with status := .blocked } v' := by
  obtain ⟨hs, hpending, -⟩ := h
  exact ⟨_, _, hs, by rw [hpending]; rfl, rfl⟩

namespace Replaces

variable {t u : TaskId} {s s' q : TaskRuntimeState}

theorem final (h : Replaces v t s s' v') (hq : v u = some q) (hfinal : q.status.final = true) : v' u = some q := by
  have hne : u ≠ t := by
    rintro rfl
    obtain rfl : s = q := Option.some.inj (h.old.symm.trans hq)
    rw [h.notFinal] at hfinal
    cases hfinal
  rw [h.new, Function.update_of_ne hne, hq]

theorem done (h : Replaces v t s s' v') (hdone : PrerequisitesDone graph v u) : PrerequisitesDone graph v' u := by
  intro p hp
  obtain ⟨q, hq, hstatus⟩ := hdone p hp
  exact ⟨q, h.final hq (by rw [hstatus]; rfl), hstatus⟩

/-- The invariant is kept if the new state keeps it. -/
theorem invariant (h : Replaces v t s s' v') (hi : ViewInvariant graph v)
    (hfits : ∀ node, graph.node t = some node → s.Fits node.budget.maximumAttempts.get →
      s'.Fits node.budget.maximumAttempts.get)
    (hbegun : s'.status.begun = true → PrerequisitesDone graph v t) : ViewInvariant graph v' := by
  refine ⟨fun {u node q} hnode hq => ?_, fun {u q} hq hb => h.done ?_⟩
  · by_cases hut : u = t
    · subst hut
      rw [h.new, Function.update_self] at hq
      rw [← Option.some.inj hq]
      exact hfits node hnode (hi.fits hnode h.old)
    · rw [h.new, Function.update_of_ne hut] at hq
      exact hi.fits hnode hq
  · by_cases hut : u = t
    · subst hut
      rw [h.new, Function.update_self] at hq
      rw [← Option.some.inj hq] at hb
      exact hbegun hb
    · rw [h.new, Function.update_of_ne hut] at hq
      exact hi.prerequisites hq hb

end Replaces

theorem Change.invariant {event : TaskEvent} (h : Change graph v event v') (hi : ViewInvariant graph v) :
    ViewInvariant graph v' := by
  cases h with
  | @started t node s number hnode hs hstatus hdone hlt hnumber =>
    have hreplaces : Replaces v t s ⟨.running, number.get⟩ _ :=
      ⟨hs, by rcases hstatus with h | h <;> rw [h] <;> rfl, rfl⟩
    refine hreplaces.invariant hi (fun node' hnode' _ => ?_) fun _ => hdone
    obtain rfl : node = node' := Option.some.inj (hnode.symm.trans hnode')
    exact ⟨by simp only; omega, nofun, fun _ => number.pos, nofun, nofun⟩
  | @succeeded attempt s hs hrunning hnumber =>
    have hreplaces : Replaces v attempt.task s { s with status := .succeeded } _ :=
      ⟨hs, by rw [hrunning]; rfl, rfl⟩
    refine hreplaces.invariant hi (fun node hnode hfits => ?_) fun _ => hi.prerequisites hs (by rw [hrunning]; rfl)
    exact ⟨hfits.le, nofun, nofun, nofun, nofun⟩
  | @failed attempt node s hnode hs hrunning hnumber =>
    have hreplaces : Replaces v attempt.task s { s with
        status := if node.budget.maximumAttempts.get ≤ s.attempts then .exhausted else .failed } _ :=
      ⟨hs, by rw [hrunning]; rfl, rfl⟩
    refine hreplaces.invariant hi (fun node' hnode' hfits => ?_) fun _ => hi.prerequisites hs (by rw [hrunning]; rfl)
    obtain rfl : node = node' := Option.some.inj (hnode.symm.trans hnode')
    have hpos := hfits.running hrunning
    have hle := hfits.le
    split_ifs with hspent
    · exact ⟨hle, nofun, nofun, nofun, fun _ => le_antisymm hle hspent⟩
    · exact ⟨hle, nofun, nofun, fun _ => ⟨hpos, not_le.mp hspent⟩, nofun⟩
  | @cancelled t s hs hstatus =>
    have hreplaces : Replaces v t s { s with status := .cancelled } _ :=
      ⟨hs, by rcases hstatus with h | h | h <;> rw [h] <;> rfl, rfl⟩
    refine hreplaces.invariant hi (fun node hnode hfits => ?_) nofun
    exact ⟨hfits.le, nofun, nofun, nofun, nofun⟩

theorem Blocks.invariant (h : Blocks graph v v') (hi : ViewInvariant graph v) : ViewInvariant graph v' := by
  obtain ⟨t, s, hreplaces⟩ := h.effect
  refine hreplaces.invariant hi (fun node hnode hfits => ?_) nofun
  exact ⟨hfits.le, nofun, nofun, nofun, nofun⟩

/-- Every operation keeps the invariant. -/
theorem TaskStep.invariant {entry : TaskOperation × TaskAnswer} (h : TaskStep graph v entry v')
    (hi : ViewInvariant graph v) : ViewInvariant graph v' := by
  cases h with
  | rejected => exact hi
  | changed _ h => exact h.invariant hi
  | blocked h =>
    induction h with
    | refl => exact hi
    | tail _ h ih => exact h.invariant ih

/-- No operation changes a task that has reached its end. -/
theorem TaskStep.final {entry : TaskOperation × TaskAnswer} (h : TaskStep graph v entry v') {t : TaskId}
    {s : TaskRuntimeState} (hs : v t = some s) (hfinal : s.status.final = true) : v' t = some s := by
  cases h with
  | rejected => exact hs
  | changed _ h =>
    obtain ⟨_, _, h, -⟩ := h.effect
    exact h.final hs hfinal
  | blocked h =>
    induction h with
    | refl => exact hs
    | tail _ h ih =>
      obtain ⟨_, _, h⟩ := h.effect
      exact h.final ih hfinal

end Invariant

/-! ### What becomes of the attempts -/

/-- What a view says of the attempts in the events before it. -/
structure Tied (events : List TaskEvent) (v : TaskView) : Prop where
  started {attempt : TaskAttempt} (h : .started attempt ∈ events) :
    ∃ s, v attempt.task = some s ∧ attempt.number.get ≤ s.attempts
  startedOnce : (events.filterMap TaskEvent.startedAttempt).Nodup
  completed {attempt : TaskAttempt} (h : .completed attempt ∈ events) :
    .started attempt ∈ events ∧ ¬Accepts v attempt
  completedOnce : (events.filterMap TaskEvent.completedAttempt).Nodup
  current {attempt : TaskAttempt} (h : Accepts v attempt) : .started attempt ∈ events
  ended {before after : List TaskEvent} {attempt : TaskAttempt} (h : events = before ++ .started attempt :: after)
    {event : TaskEvent} (hevent : event ∈ after) (hends : event.Ends attempt) : ¬Accepts v attempt

section Attempts

variable {graph : TaskGraph} {v v' : TaskView} {event : TaskEvent} {attempt : TaskAttempt} {events : List TaskEvent}

theorem Replaces.accepts_ne {t : TaskId} {s s' : TaskRuntimeState} (h : Replaces v t s s' v') (ht : attempt.task ≠ t) :
    Accepts v' attempt ↔ Accepts v attempt := by
  rw [Accepts, Accepts, h.new, Function.update_of_ne ht]

theorem Replaces.accepts {t : TaskId} {s s' : TaskRuntimeState} (h : Replaces v t s s' v') (ht : attempt.task = t) :
    Accepts v' attempt ↔ s'.status = .running ∧ s'.attempts = attempt.number.get := by
  rw [Accepts, h.new, ht, Function.update_self]
  simp

/-- The attempts of a task are counted up. -/
theorem Replaces.attempts {t u : TaskId} {s s' q : TaskRuntimeState} (h : Replaces v t s s' v')
    (hle : s.attempts ≤ s'.attempts) (hq : v u = some q) : ∃ q', v' u = some q' ∧ q.attempts ≤ q'.attempts := by
  by_cases hut : u = t
  · subst hut
    obtain rfl : s = q := Option.some.inj (h.old.symm.trans hq)
    exact ⟨s', by rw [h.new, Function.update_self], hle⟩
  · exact ⟨q, by rw [h.new, Function.update_of_ne hut, hq], le_rfl⟩

theorem Change.attempts (h : Change graph v event v') {u : TaskId} {q : TaskRuntimeState} (hq : v u = some q) :
    ∃ q', v' u = some q' ∧ q.attempts ≤ q'.attempts := by
  obtain ⟨s, s', hreplaces, ⟨number, -, rfl, hnumber⟩ | ⟨-, hsame, -⟩⟩ := h.effect
  · exact hreplaces.attempts (by simp only; omega) hq
  · exact hreplaces.attempts hsame.ge hq

/-- A change makes no attempt the running one but the one it starts. -/
theorem Change.accepts (h : Change graph v event v') (ha : Accepts v' attempt) :
    Accepts v attempt ∨ event = .started attempt := by
  obtain ⟨s, s', hreplaces, heffect⟩ := h.effect
  by_cases ht : attempt.task = event.task
  · rw [hreplaces.accepts ht] at ha
    obtain ⟨number, hevent, rfl, -⟩ | ⟨-, -, hnot⟩ := heffect
    · have hnumber : number = attempt.number := NonZeroU16.ext ha.2
      refine Or.inr ?_
      rw [hevent, ← ht, hnumber]
    · exact absurd ha.1 hnot
  · exact Or.inl ((hreplaces.accepts_ne ht).mp ha)

/-- A started attempt is new. -/
theorem Change.new (h : Change graph v (.started attempt) v') (ht : Tied events v) : .started attempt ∉ events := by
  intro hmem
  obtain ⟨q, hq, hle⟩ := ht.started hmem
  obtain ⟨s, s', hreplaces, ⟨number, hevent, -, hnumber⟩ | ⟨hnot, -⟩⟩ := h.effect
  · obtain rfl : s = q := Option.some.inj (hreplaces.old.symm.trans hq)
    have : attempt.number = number := congrArg TaskAttempt.number (TaskEvent.started.inj hevent)
    rw [this] at hle
    omega
  · exact hnot attempt rfl

/-- Only the running attempt is completed. -/
theorem Change.completes (h : Change graph v (.completed attempt) v') : Accepts v attempt := by
  cases h with
  | succeeded hs hrunning hnumber => exact ⟨_, hs, hrunning, hnumber⟩
  | failed _ hs hrunning hnumber => exact ⟨_, hs, hrunning, hnumber⟩

/-- An event ends the attempts of its task that were started before it. -/
theorem Change.ends (h : Change graph v event v') (ht : Tied events v) (hmem : .started attempt ∈ events)
    (hends : event.Ends attempt) : ¬Accepts v' attempt := by
  obtain ⟨q, hq, hle⟩ := ht.started hmem
  have htask : attempt.task = event.task := by
    cases event with
    | started later => exact hends.symm
    | completed used => exact congrArg TaskAttempt.task hends.symm
    | cancelled taskId => exact hends.symm
  obtain ⟨s, s', hreplaces, heffect⟩ := h.effect
  rw [hreplaces.accepts htask]
  rintro ⟨hrunning, hattempts⟩
  obtain rfl : s = q := Option.some.inj (hreplaces.old.symm.trans (htask ▸ hq))
  obtain ⟨number, -, rfl, hnumber⟩ | ⟨-, -, hnot⟩ := heffect
  · simp only at hattempts
    omega
  · exact hnot hrunning

/-- An attempt that was started and is no longer running does not run again. -/
theorem Change.dead (h : Change graph v event v') (ht : Tied events v) (hmem : .started attempt ∈ events)
    (hdead : ¬Accepts v attempt) : ¬Accepts v' attempt := by
  intro ha
  obtain ha | rfl := h.accepts ha
  · exact hdead ha
  · exact h.new ht hmem

/-- A list stays without repetition when its last entry is new to it. -/
theorem nodup_filterMap_concat {α β : Type} {f : α → Option β} {l : List α} {a : α} (hl : (l.filterMap f).Nodup)
    (hnew : ∀ b, f a = some b → ∀ x ∈ l, f x ≠ some b) : ((l ++ [a]).filterMap f).Nodup := by
  rw [List.filterMap_append]
  cases ha : f a with
  | none => simpa [ha] using hl
  | some b =>
    refine List.nodup_append.mpr ⟨hl, by simp [ha], ?_⟩
    rintro c hc d hd rfl
    obtain ⟨x, hx, hxc⟩ := List.mem_filterMap.mp hc
    obtain rfl : c = b := by simpa [ha] using hd
    exact hnew c ha x hx hxc

theorem TaskEvent.startedAttempt_eq_some {attempt : TaskAttempt} :
    event.startedAttempt = some attempt ↔ event = .started attempt := by
  cases event <;> simp [TaskEvent.startedAttempt]

theorem TaskEvent.completedAttempt_eq_some {attempt : TaskAttempt} :
    event.completedAttempt = some attempt ↔ event = .completed attempt := by
  cases event <;> simp [TaskEvent.completedAttempt]

theorem Change.tied (h : Change graph v event v') (ht : Tied events v) : Tied (events ++ [event]) v' := by
  constructor
  · intro attempt hmem
    obtain hmem | hmem := List.mem_append.mp hmem
    · obtain ⟨s, hs, hle⟩ := ht.started hmem
      obtain ⟨s', hs', hle'⟩ := h.attempts hs
      exact ⟨s', hs', hle.trans hle'⟩
    · obtain rfl := List.mem_singleton.mp hmem
      obtain ⟨s, s', hreplaces, ⟨number, hevent, rfl, -⟩ | ⟨hnot, -⟩⟩ := h.effect
      · refine ⟨_, by rw [hreplaces.new]; exact Function.update_self .., ?_⟩
        have : attempt.number = number := congrArg TaskAttempt.number (TaskEvent.started.inj hevent)
        rw [this]
      · exact absurd rfl (hnot attempt)
  · refine nodup_filterMap_concat ht.startedOnce fun attempt hevent e he hstarted => ?_
    rw [TaskEvent.startedAttempt_eq_some] at hevent hstarted
    subst hevent hstarted
    exact h.new ht he
  · intro attempt hmem
    obtain hmem | hmem := List.mem_append.mp hmem
    · obtain ⟨hstarted, hdead⟩ := ht.completed hmem
      exact ⟨List.mem_append_left _ hstarted, h.dead ht hstarted hdead⟩
    · obtain rfl := List.mem_singleton.mp hmem
      have hstarted := ht.current h.completes
      exact ⟨List.mem_append_left _ hstarted, h.ends ht hstarted rfl⟩
  · refine nodup_filterMap_concat ht.completedOnce fun attempt hevent e he hcompleted => ?_
    rw [TaskEvent.completedAttempt_eq_some] at hevent hcompleted
    subst hevent hcompleted
    exact (ht.completed he).2 h.completes
  · intro attempt ha
    obtain ha | rfl := h.accepts ha
    · exact List.mem_append_left _ (ht.current ha)
    · exact List.mem_append_right _ (List.mem_singleton_self _)
  · intro before after attempt hsplit e he hends
    -- The events after the start end with the new one.
    obtain rfl | ⟨after', last, rfl⟩ := after.eq_nil_or_concat'
    · cases he
    · rw [← List.cons_append, ← List.append_assoc] at hsplit
      obtain ⟨rfl, hlast⟩ := List.append_inj' hsplit rfl
      obtain rfl := List.singleton_inj.mp hlast
      have hstarted : TaskEvent.started attempt ∈ before ++ .started attempt :: after' := by simp
      obtain he | he := List.mem_append.mp he
      · exact h.dead ht hstarted (ht.ended rfl he hends)
      · obtain rfl := List.mem_singleton.mp he
        exact h.ends ht hstarted hends

theorem Blocks.tied (h : Blocks graph v v') (ht : Tied events v) : Tied events v' := by
  obtain ⟨t, s, hreplaces⟩ := h.effect
  have hkept : ∀ {attempt}, Accepts v' attempt → Accepts v attempt := by
    intro attempt ha
    by_cases htask : attempt.task = t
    · rw [hreplaces.accepts htask] at ha
      cases ha.1
    · exact (hreplaces.accepts_ne htask).mp ha
  constructor
  · intro attempt hmem
    obtain ⟨q, hq, hle⟩ := ht.started hmem
    obtain ⟨q', hq', hle'⟩ := hreplaces.attempts le_rfl hq
    exact ⟨q', hq', hle.trans hle'⟩
  · exact ht.startedOnce
  · exact fun hmem => ⟨(ht.completed hmem).1, fun ha => (ht.completed hmem).2 (hkept ha)⟩
  · exact ht.completedOnce
  · exact fun ha => ht.current (hkept ha)
  · exact fun hsplit _ hmem hends ha => ht.ended hsplit hmem hends (hkept ha)

/-- Every operation keeps the events and the view tied. -/
theorem TaskStep.tied {entry : TaskOperation × TaskAnswer} (h : TaskStep graph v entry v') (ht : Tied events v) :
    Tied (events ++ (TaskEvent.of entry).toList) v' := by
  cases h with
  | rejected op e =>
    have hnone : TaskEvent.of (op, .rejected e) = none := by cases op <;> rfl
    rw [hnone, Option.toList_none, List.append_nil]
    exact ht
  | changed hevent h =>
    rw [hevent]
    exact h.tied ht
  | blocked h =>
    rw [show TaskEvent.of (.propagateBlocked, .blocked _) = none from rfl, Option.toList_none, List.append_nil]
    induction h with
    | refl => exact ht
    | tail _ h ih => exact h.tied ih

end Attempts

/-! ### Every run -/

namespace TaskRun

variable {graph : TaskGraph} {run : TaskRun}

/-- The events of the log. -/
def events (run : TaskRun) : List TaskEvent := run.log.filterMap TaskEvent.of

/-- What holds after every operation of a run. -/
structure Holds (graph : TaskGraph) (run : TaskRun) : Prop where
  aligned : run.table.Aligned graph
  invariant : ViewInvariant graph (run.table.state graph)
  tied : Tied run.events (run.table.state graph)

theorem start_holds : Holds graph (start graph) := by
  have hstate : ∀ {t s}, (start graph).table.state graph t = some s → s = .default := by
    intro t s hs
    obtain ⟨i, -, hi⟩ := Option.bind_eq_some_iff.mp hs
    exact List.eq_of_mem_replicate (List.mem_of_getElem? hi)
  refine ⟨List.length_replicate, ⟨?_, ?_⟩, ⟨nofun, List.nodup_nil, nofun, List.nodup_nil, ?_, ?_⟩⟩
  · intro t node s _ hs
    rw [hstate hs]
    exact ⟨Nat.zero_le _, fun _ => rfl, nofun, nofun, nofun⟩
  · intro t s hs hbegun
    rw [hstate hs] at hbegun
    cases hbegun
  · rintro attempt ⟨s, hs, hrunning, -⟩
    rw [hstate hs] at hrunning
    cases hrunning
  · intro before after attempt hsplit
    cases before <;> cases hsplit

theorem Holds.step (hw : graph.WellFormed) (h : Holds graph run) (op : TaskOperation) : Holds graph (run.step graph op) := by
  obtain ⟨haligned, -, hstep⟩ := op.apply_step hw h.aligned
  refine ⟨haligned, hstep.invariant h.invariant, ?_⟩
  have hevents : (run.step graph op).events = run.events ++ (TaskEvent.of (op, (op.apply graph run.table).1)).toList := by
    rw [events, TaskRun.step, List.filterMap_append, events]
    cases htoken : TaskEvent.of (op, (op.apply graph run.table).1) <;> simp [htoken]
  rw [hevents]
  exact hstep.tied h.tied

/-- The operations of a run keep what holds, and the tasks that have ended. -/
theorem Holds.steps (hw : graph.WellFormed) : ∀ (ops : List TaskOperation) {run : TaskRun}, Holds graph run →
    Holds graph (ops.foldl (TaskRun.step graph) run) ∧
      ∀ t s, run.table.state graph t = some s → s.status.final = true →
        (ops.foldl (TaskRun.step graph) run).table.state graph t = some s
  | [], _, h => ⟨h, fun _ _ hs _ => hs⟩
  | op :: ops, run, h => by
    obtain ⟨hrest, hfinal⟩ := Holds.steps hw ops (h.step hw op)
    refine ⟨hrest, fun t s hs hend => hfinal t s ?_ hend⟩
    exact (op.apply_step hw h.aligned).2.2.final hs hend

theorem all_holds (hw : graph.WellFormed) (ops : List TaskOperation) : Holds graph (all graph ops) :=
  (start_holds.steps hw ops).1

end TaskRun

/-- In every run on an accepted graph: the states keep their invariant, no task
leaves its end, an attempt is started once, completed at most once and rejected
after it was superseded, used or cancelled, and a rejected operation changes
nothing. -/
theorem taskRun_invariant (graph : TaskGraph) (scratch : GraphValidationScratch)
    (haccepted : validateGraph graph scratch = .ok ()) (ops : List TaskOperation) :
    let run := TaskRun.all graph ops
    ViewInvariant graph (run.table.state graph) ∧
    (∀ ops' t s, run.table.state graph t = some s → s.status.final = true →
      (TaskRun.all graph (ops ++ ops')).table.state graph t = some s) ∧
    (run.events.filterMap TaskEvent.startedAttempt).Nodup ∧
    (run.events.filterMap TaskEvent.completedAttempt).Nodup ∧
    (∀ before attempt after, run.events = before ++ .started attempt :: after →
      (∃ event ∈ after, event.Ends attempt) →
      (∃ e, ((TaskOperation.succeedAttempt attempt).apply graph run.table).1 = .rejected e) ∧
        ∃ e, ((TaskOperation.failAttempt attempt).apply graph run.table).1 = .rejected e) ∧
    (∀ (op : TaskOperation) e, (op.apply graph run.table).1 = .rejected e →
      (op.apply graph run.table).2 = run.table) := by
  intro run
  have hw := (validateGraph_sound haccepted).1
  have h := TaskRun.all_holds hw ops
  refine ⟨h.invariant, ?_, h.tied.startedOnce, h.tied.completedOnce, ?_, ?_⟩
  · intro ops' t s hs hfinal
    rw [TaskRun.all, List.foldl_append]
    exact (h.steps hw ops').2 t s hs hfinal
  · rintro before attempt after hsplit ⟨event, hevent, hends⟩
    exact TaskOperation.apply_rejects hw (h.tied.ended hsplit hevent hends)
  · intro op
    exact (op.apply_step hw h.aligned).2.1

/-- A draft that failed once and is retried, with the token of its first
attempt still around. -/
theorem taskRun_invariant_retry :
    let budget : TaskBudget := ⟨1024, 512, ⟨2, by decide, by decide⟩⟩
    let graph : TaskGraph := ⟨[⟨1, .draft, .anyCompatible, budget, ⟨.text, 4096⟩⟩], []⟩
    let first : TaskAttempt := ⟨1, ⟨1, by decide, by decide⟩⟩
    let run := TaskRun.all graph [.start 1, .failAttempt first, .start 1]
    ViewInvariant graph (run.table.state graph) ∧
      ∃ e, ((TaskOperation.succeedAttempt first).apply graph run.table).1 = .rejected e := by
  intro budget graph first run
  have haccepted : validateGraph graph ⟨[0], [0]⟩ = .ok () := by
    refine validateGraph_ok (by decide) (by decide) (Acyclic.of_rank id fun p t h => ?_)
    cases h
  have h := taskRun_invariant graph ⟨[0], [0]⟩ haccepted [.start 1, .failAttempt first, .start 1]
  refine ⟨h.1, (h.2.2.2.2.1 [] first [.completed first, .started ⟨1, ⟨2, by decide, by decide⟩⟩] ?_ ?_).1⟩
  · decide +kernel
  · exact ⟨.completed first, List.mem_cons_self, rfl⟩

end LlmApp
