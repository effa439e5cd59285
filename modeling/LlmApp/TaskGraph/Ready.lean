/-
# Ready tasks and progress

`ready_tasks` lists the tasks that `start` accepts. After `propagate_blocked`
no pending task has an unsuccessful prerequisite, so when no task runs and none
is ready, none is left: among the unfinished tasks of an acyclic graph one has
all its prerequisites behind it.

Key theorems: `start_ok_iff`, `readyTasks_spec`, `propagateLoop_fixed`,
`taskRun_progress`.
-/
import LlmApp.TaskGraph.Runs

namespace LlmApp

namespace TaskStateTable

variable {graph : TaskGraph} {table : TaskStateTable}

theorem index_of_node {t : TaskId} {node : TaskNode} (h : graph.node t = some node) :
    ∃ i : ℕ, graph.nodes[i]? = some node ∧ node.id = t := by
  unfold TaskGraph.node at h
  have hid : node.id = t := by simpa using List.find?_some h
  obtain ⟨i, hi⟩ := List.mem_iff_getElem?.mp (List.mem_of_find?_eq_some h)
  exact ⟨i, hi, hid⟩

theorem start_ok_iff (hw : graph.WellFormed) (hl : table.Aligned graph) {t : TaskId} :
    (∃ attempt, (table.start graph t).1 = .ok attempt) ↔ Startable graph (table.state graph) t := by
  have hok : (∃ attempt, (table.start graph t).1 = .ok attempt) ↔
      ∃ i number, checkStart graph table t = .ok (i, number) := by
    unfold start
    split
    · next e h => simp [h]
    · next i number h => simp [h]
  rw [hok]
  constructor
  · rintro ⟨i, number, h⟩
    obtain ⟨node, s, hnode, rfl, hs, hstatus, hdone, hlt, -⟩ := (checkStart_eq_ok hw hl).mp h
    have hi : graph.taskIds[i]? = some node.id := TaskGraph.taskIds_getElem?.mpr ⟨node, hnode, rfl⟩
    exact ⟨node, s, node_of_index hw hnode, (state_eq hw hi).trans hs, hstatus, hdone, hlt⟩
  · rintro ⟨node, s, hnode, hs, hstatus, hdone, hlt⟩
    obtain ⟨i, hi, rfl⟩ := index_of_node hnode
    have hti : graph.taskIds[i]? = some node.id := TaskGraph.taskIds_getElem?.mpr ⟨node, hi, rfl⟩
    have hmax := node.budget.maximumAttempts.le
    exact ⟨i, ⟨s.attempts + 1, by omega, by omega⟩, (checkStart_eq_ok hw hl).mpr
      ⟨node, s, hi, rfl, (state_eq hw hti).symm.trans hs, hstatus, hdone, hlt, rfl⟩⟩

/-! ### Ready tasks -/

/-- The loop of `ready_tasks` writes the startable tasks of the nodes it reads,
if there is room for them. -/
theorem readyLoop_spec (hw : graph.WellFormed) (hl : table.Aligned graph) : ∀ {nodes : List (TaskNode × ℕ)},
    (∀ entry ∈ nodes, graph.nodes[entry.2]? = some entry.1) →
    ∃ ready : List TaskId, ready.Sublist (nodes.map fun entry => entry.1.id) ∧
      (∀ t, t ∈ ready ↔ t ∈ nodes.map (fun entry => entry.1.id) ∧ Startable graph (table.state graph) t) ∧
      ∀ written output, written ≤ output.length →
        (written + ready.length ≤ output.length → ∃ output', readyLoop graph table nodes written output =
          (.ok (written + ready.length), output') ∧
          output'.take (written + ready.length) = output.take written ++ ready) ∧
        (output.length < written + ready.length → ∃ e output', readyLoop graph table nodes written output =
          (.error e, output'))
  | [], _ => ⟨[], .slnil, by simp, fun written output hle =>
      ⟨fun _ => ⟨output, rfl, by simp⟩, fun hlt => absurd hlt (not_lt.mpr hle)⟩⟩
  | (node, i) :: rest, hnodes => by
    classical
    have hnode : graph.nodes[i]? = some node := hnodes _ List.mem_cons_self
    have hi : graph.taskIds[i]? = some node.id := TaskGraph.taskIds_getElem?.mpr ⟨node, hnode, rfl⟩
    have hlt : i < table.states.length := by
      rw [hl]
      exact (List.getElem?_eq_some_iff.mp hnode).1
    have hs := List.getElem?_eq_getElem hlt
    have hstate := (state_eq hw hi).trans hs
    obtain ⟨b, hb, hiff⟩ := prerequisitesSucceeded_eq (t := node.id) hw hl
    have hrest : ∀ entry ∈ rest, graph.nodes[entry.2]? = some entry.1 :=
      fun entry he => hnodes entry (List.mem_cons_of_mem _ he)
    obtain ⟨ready, hsub, hmem, hwrite⟩ := readyLoop_spec hw hl hrest
    have hstartable : Startable graph (table.state graph) node.id ↔
        (table.states[i].status = .pending ∨ table.states[i].status = .failed) ∧ b = true ∧
          table.states[i].attempts < node.budget.maximumAttempts.get := by
      rw [hiff, Startable]
      constructor
      · rintro ⟨node', s', hnode', hs', h⟩
        obtain rfl : node = node' := Option.some.inj ((node_of_index hw hnode).symm.trans hnode')
        obtain rfl : table.states[i] = s' := Option.some.inj (hstate.symm.trans hs')
        exact h
      · exact fun h => ⟨node, _, node_of_index hw hnode, hstate, h⟩
    have hloop : ∀ written output, readyLoop graph table ((node, i) :: rest) written output =
        if Startable graph (table.state graph) node.id then
          if written < output.length then readyLoop graph table rest (written + 1) (output.set written node.id)
          else (.error (nodeCapacity (saturatingAdd u64Max written 1) output.length), output)
        else readyLoop graph table rest written output := by
      intro written output
      rw [readyLoop, hs]
      simp only [hb, hstartable]
      by_cases hstatus : table.states[i].status = .pending ∨ table.states[i].status = .failed
      · simp only [hstatus, not_true_eq_false, if_false, true_and]
      · simp only [hstatus, not_false_eq_true, if_true, false_and, if_false]
    by_cases hready : Startable graph (table.state graph) node.id
    · refine ⟨node.id :: ready, by simpa using hsub.cons_cons node.id, fun t => ?_, fun written output hle => ?_⟩
      · simp only [List.mem_cons, List.map_cons, hmem]
        constructor
        · rintro (rfl | ⟨h, hstart⟩)
          · exact ⟨Or.inl rfl, hready⟩
          · exact ⟨Or.inr h, hstart⟩
        · rintro ⟨rfl | h, hstart⟩
          · exact Or.inl rfl
          · exact Or.inr ⟨h, hstart⟩
      · rw [hloop, if_pos hready, List.length_cons]
        by_cases hroom : written < output.length
        · rw [if_pos hroom]
          obtain ⟨hok, herr⟩ := hwrite (written + 1) (output.set written node.id) (by rw [List.length_set]; omega)
          rw [List.length_set] at hok herr
          refine ⟨fun h => ?_, fun h => herr (by omega)⟩
          obtain ⟨output', hloop', htake⟩ := hok (by omega)
          rw [take_set_succ hroom, List.append_assoc] at htake
          refine ⟨output', ?_, ?_⟩
          · rw [hloop']
            congr 2
            omega
          · rw [show written + (ready.length + 1) = written + 1 + ready.length by omega, htake]
            rfl
        · rw [if_neg hroom]
          exact ⟨fun h => by omega, fun _ => ⟨_, _, rfl⟩⟩
    · refine ⟨ready, by simpa using hsub.cons node.id, fun t => ?_, fun written output hle => ?_⟩
      · simp only [List.map_cons, List.mem_cons, hmem]
        constructor
        · rintro ⟨h, hstart⟩
          exact ⟨Or.inr h, hstart⟩
        · rintro ⟨rfl | h, hstart⟩
          · exact absurd hstart hready
          · exact ⟨h, hstart⟩
      · rw [hloop, if_neg hready]
        exact hwrite written output hle

theorem readyTasks_spec (hw : graph.WellFormed) (hl : table.Aligned graph) :
    ∃ ready : List TaskId, ready.Nodup ∧ (∀ t, t ∈ ready ↔ Startable graph (table.state graph) t) ∧
      ∀ output : List TaskId,
        (ready.length ≤ output.length → ∃ output', table.readyTasks graph output = (.ok ready.length, output') ∧
          output'.take ready.length = ready) ∧
        (output.length < ready.length → ∃ e output', table.readyTasks graph output = (.error e, output')) := by
  have hnodes : ∀ entry ∈ graph.nodes.zipIdx, graph.nodes[entry.2]? = some entry.1 :=
    fun entry he => List.mk_mem_zipIdx_iff_getElem?.mp he
  obtain ⟨ready, hsub, hmem, hwrite⟩ := readyLoop_spec hw hl hnodes
  have hids : (graph.nodes.zipIdx.map fun entry => entry.1.id) = graph.taskIds := by
    rw [TaskGraph.taskIds, ← List.zipIdx_map_fst 0 graph.nodes, List.map_map, List.zipIdx_map_fst]
    rfl
  rw [hids] at hsub
  refine ⟨ready, hsub.nodup hw.distinct, fun t => ?_, fun output => ?_⟩
  · rw [hmem, hids]
    refine and_iff_right_of_imp ?_
    rintro ⟨node, s, hnode, -⟩
    by_contra hnot
    rw [TaskGraph.node_eq_none.mpr hnot] at hnode
    cases hnode
  · simpa [readyTasks] using hwrite 0 output (Nat.zero_le _)

/-! ### Blocked tasks -/

theorem blockPass_le : ∀ {nodes : List (TaskNode × ℕ)} {changed changed' : ℕ} {table table' : TaskStateTable},
    blockPass graph nodes changed table = (.ok changed', table') → changed ≤ changed'
  | [], _, _, _, _, h => (Except.ok.inj (Prod.mk.inj h).1).le
  | (node, index) :: rest, changed, changed', table, table', h => by
    rw [blockPass] at h
    split at h
    · cases h
    split_ifs at h
    · exact blockPass_le h
    split at h
    · cases h
    · exact blockPass_le h
    · exact (Nat.le_succ _).trans (blockPass_le h)

/-- A pass that blocks nothing found nothing to block. -/
theorem blockPass_fixed (hw : graph.WellFormed) (hl : table.Aligned graph) : ∀ {nodes : List (TaskNode × ℕ)}
    {changed : ℕ} {table' : TaskStateTable}, blockPass graph nodes changed table = (.ok changed, table') →
      table' = table ∧ ∀ entry ∈ nodes, ∀ s, table.states[entry.2]? = some s → s.status = .pending →
        ¬HasUnsuccessful graph (table.state graph) entry.1.id
  | [], _, _, h => ⟨((Prod.mk.inj h).2).symm, by simp⟩
  | (node, i) :: rest, changed, table', h => by
    rw [blockPass] at h
    split at h
    · cases h
    next current hcurrent =>
    split_ifs at h with hpending
    · obtain ⟨htable, hrest⟩ := blockPass_fixed hw hl h
      refine ⟨htable, fun entry he s hs hstatus => ?_⟩
      obtain rfl | he := List.mem_cons.mp he
      · obtain rfl : current = s := Option.some.inj (hcurrent.symm.trans hs)
        exact absurd hstatus hpending
      · exact hrest entry he s hs hstatus
    · obtain ⟨b, hb, hiff⟩ := hasUnsuccessfulPrerequisite_eq (t := node.id) hw hl
      rw [hb] at h
      cases b with
      | false =>
        obtain ⟨htable, hrest⟩ := blockPass_fixed hw hl h
        refine ⟨htable, fun entry he s hs hstatus => ?_⟩
        obtain rfl | he := List.mem_cons.mp he
        · rw [← hiff]
          exact Bool.false_ne_true
        · exact hrest entry he s hs hstatus
      | true =>
        have := blockPass_le h
        omega

/-- After the propagation no pending task has an unsuccessful prerequisite. -/
theorem propagateLoop_fixed (hw : graph.WellFormed) (total : ℕ) (table : TaskStateTable) (hl : table.Aligned graph)
    {t : TaskId} {s : TaskRuntimeState} (hs : (propagateLoop graph total table).2.state graph t = some s)
    (hpending : s.status = .pending) :
    ¬HasUnsuccessful graph ((propagateLoop graph total table).2.state graph) t := by
  have hnodes : ∀ entry ∈ graph.nodes.zipIdx, graph.nodes[entry.2]? = some entry.1 :=
    fun entry he => List.mk_mem_zipIdx_iff_getElem?.mp he
  obtain ⟨changed, h1, h2, -⟩ := blockPass_step hw hnodes 0 hl
  have hpass : blockPass graph graph.nodes.zipIdx 0 table =
      (.ok changed, (blockPass graph graph.nodes.zipIdx 0 table).2) := Prod.ext h1 rfl
  rw [propagateLoop_eq graph hpass] at hs ⊢
  generalize (blockPass graph graph.nodes.zipIdx 0 table).2 = table' at hpass h2 hs ⊢
  by_cases hzero : changed = 0
  · subst hzero
    obtain ⟨rfl, hfixed⟩ := blockPass_fixed hw hl hpass
    rw [if_pos rfl] at hs ⊢
    obtain ⟨i, hindex, hget⟩ := Option.bind_eq_some_iff.mp hs
    obtain ⟨node, hnode, rfl⟩ := TaskGraph.taskIds_getElem?.mp ((TaskGraph.nodeIndex_eq_some hw.distinct).mp hindex)
    exact hfixed (node, i) (List.mk_mem_zipIdx_iff_getElem?.mpr hnode) s hget hpending
  · have hfewer : table'.pendingTasks < table.pendingTasks := by
      have := blockPass_pending graph hpass
      omega
    rw [if_neg hzero] at hs ⊢
    exact propagateLoop_fixed hw _ table' h2 hs hpending
termination_by table.pendingTasks
decreasing_by exact hfewer

end TaskStateTable

/-! ### Progress -/

section Progress

variable {graph : TaskGraph} {v : TaskView}

theorem TaskStatus.final_cases {status : TaskStatus} (h : status.final = true) :
    status = .succeeded ∨ status.unsuccessful = true := by
  cases status <;> first | exact Or.inl rfl | exact Or.inr rfl | cases h

/-- When nothing is left to block, to run or to wait for, every task has ended. -/
theorem ViewInvariant.all_final (hw : graph.WellFormed) (hacyclic : Acyclic graph.Requires)
    (hi : ViewInvariant graph v) (hstates : ∀ t ∈ graph.taskIds, ∃ s, v t = some s)
    (hblocked : ∀ t s, v t = some s → s.status = .pending → ¬HasUnsuccessful graph v t)
    (hrunning : ∀ t s, v t = some s → s.status ≠ .running) (hready : ∀ t, ¬Startable graph v t) :
    ∀ t ∈ graph.taskIds, ∃ s, v t = some s ∧ s.status.final = true := by
  classical
  by_contra hnot
  simp only [not_forall] at hnot
  obtain ⟨t, ht, hlive⟩ := hnot
  let live := graph.taskIds.toFinset.filter fun u => ¬∃ s, v u = some s ∧ s.status.final = true
  have hmem : ∀ u, u ∈ live ↔ u ∈ graph.taskIds ∧ ¬∃ s, v u = some s ∧ s.status.final = true := by
    simp [live]
  obtain ⟨u, hu, hmin⟩ := hacyclic.exists_minimal (s := live) ⟨t, (hmem t).mpr ⟨ht, hlive⟩⟩
  obtain ⟨hu, hlive⟩ := (hmem u).mp hu
  obtain ⟨s, hs⟩ := hstates u hu
  obtain ⟨node, hnode⟩ : ∃ node, graph.node u = some node :=
    Option.ne_none_iff_exists'.mp fun h => TaskGraph.node_eq_none.mp h hu
  have hfits := hi.fits hnode hs
  have hmax := node.budget.maximumAttempts.pos
  cases hstatus : s.status with
  | running => exact hrunning u s hs hstatus
  | failed =>
    have hdone := hi.prerequisites hs (by rw [hstatus]; rfl)
    exact hready u ⟨node, s, hnode, hs, Or.inr hstatus, hdone, (hfits.failed hstatus).2⟩
  | pending =>
    -- Its prerequisites have ended, since it is a first unfinished task.
    have hdone : PrerequisitesDone graph v u := by
      intro p hp
      have hended : ∃ q, v p = some q ∧ q.status.final = true := by
        by_contra hplive
        exact hmin p ((hmem p).mpr ⟨(hw.declared _ hp).1, hplive⟩) hp
      obtain ⟨q, hq, hfinal⟩ := hended
      obtain hsucceeded | hunsuccessful := TaskStatus.final_cases hfinal
      · exact ⟨q, hq, hsucceeded⟩
      · exact absurd ⟨p, q, hp, hq, hunsuccessful⟩ (hblocked u s hs hstatus)
    exact hready u ⟨node, s, hnode, hs, Or.inl hstatus, hdone, by rw [hfits.pending hstatus]; exact hmax⟩
  | succeeded => exact hlive ⟨s, hs, by rw [hstatus]; rfl⟩
  | exhausted => exact hlive ⟨s, hs, by rw [hstatus]; rfl⟩
  | cancelled => exact hlive ⟨s, hs, by rw [hstatus]; rfl⟩
  | blocked => exact hlive ⟨s, hs, by rw [hstatus]; rfl⟩

end Progress

/-- In every run on an accepted graph: the ready tasks are those that can be
started, and once nothing runs and nothing is ready after a propagation, every
task has ended. -/
theorem taskRun_progress (graph : TaskGraph) (scratch : GraphValidationScratch)
    (haccepted : validateGraph graph scratch = .ok ()) (ops : List TaskOperation) :
    let table := (TaskRun.all graph ops).table
    (∃ ready : List TaskId, ready.Nodup ∧
      (∀ t, t ∈ ready ↔ ∃ attempt, (table.start graph t).1 = .ok attempt) ∧
      ∀ output : List TaskId, ready.length ≤ output.length → ∃ output',
        table.readyTasks graph output = (.ok ready.length, output') ∧ output'.take ready.length = ready) ∧
    let settled := (table.propagateBlocked graph).2
    (∀ t s, settled.state graph t = some s → s.status ≠ .running) →
      (∃ output, (settled.readyTasks graph output).1 = .ok 0) →
      ∀ t ∈ graph.taskIds, ∃ s, settled.state graph t = some s ∧ s.status.final = true := by
  intro table
  obtain ⟨hw, hacyclic⟩ := validateGraph_sound haccepted
  have h := TaskRun.all_holds hw ops
  obtain ⟨ready, hnodup, hmem, hwrite⟩ := TaskStateTable.readyTasks_spec hw h.aligned
  refine ⟨⟨ready, hnodup, fun t => ?_, fun output => (hwrite output).1⟩, ?_⟩
  · rw [hmem, TaskStateTable.start_ok_iff hw h.aligned]
  intro settled hrunning hnone
  have hsettled : TaskRun.Holds graph ((TaskRun.all graph ops).step graph .propagateBlocked) :=
    h.step hw .propagateBlocked
  have htable : ((TaskRun.all graph ops).step graph .propagateBlocked).table = settled := rfl
  refine ViewInvariant.all_final hw hacyclic (htable ▸ hsettled.invariant) ?_ ?_ hrunning ?_
  · intro t ht
    obtain ⟨i, s, -, -, -, hs⟩ := TaskStateTable.exists_state hw (htable ▸ hsettled.aligned) ht
    exact ⟨s, hs⟩
  · exact fun t s hs hpending => TaskStateTable.propagateLoop_fixed hw 0 table h.aligned hs hpending
  · -- Nothing is listed although there is room, so nothing is ready.
    obtain ⟨output, hnone⟩ := hnone
    obtain ⟨listed, -, hlisted, hspec⟩ := TaskStateTable.readyTasks_spec hw (htable ▸ hsettled.aligned)
    have hempty : listed = [] := by
      obtain hroom | hfull := Nat.lt_or_ge output.length listed.length
      · obtain ⟨e, output', herr⟩ := (hspec output).2 hroom
        rw [herr] at hnone
        cases hnone
      · obtain ⟨output', hok, -⟩ := (hspec output).1 hfull
        rw [hok] at hnone
        exact List.length_eq_zero_iff.mp (Except.ok.inj hnone)
    intro t ht
    have := (hlisted t).mpr ht
    rw [hempty] at this
    cases this

/-- A review whose draft was cancelled is blocked, and then nothing is left. -/
theorem taskRun_progress_cancelled :
    let budget : TaskBudget := ⟨1024, 512, ⟨2, by decide, by decide⟩⟩
    let graph : TaskGraph := ⟨[⟨1, .draft, .anyCompatible, budget, ⟨.text, 4096⟩⟩,
      ⟨2, .review, .anyCompatible, budget, ⟨.text, 4096⟩⟩], [⟨1, 2⟩]⟩
    let table := (TaskRun.all graph [.cancel 1]).table
    (∃ ready : List TaskId, ready.Nodup ∧ ∀ t, t ∈ ready ↔ ∃ attempt, (table.start graph t).1 = .ok attempt) ∧
      ∀ t ∈ graph.taskIds, ∃ s, (table.propagateBlocked graph).2.state graph t = some s ∧ s.status.final = true := by
  intro budget graph table
  have haccepted : validateGraph graph ⟨[0, 0], [0, 0]⟩ = .ok () := by
    refine validateGraph_ok (by decide) (by decide) (Acyclic.of_rank id fun p t h => ?_)
    obtain ⟨rfl, rfl⟩ := TaskDependency.mk.inj (List.mem_singleton.mp h)
    decide
  have hfirst : TaskStateTable.blockPass graph graph.nodes.zipIdx 0 table =
      (.ok 1, ⟨[⟨.cancelled, 0⟩, ⟨.blocked, 0⟩]⟩) := rfl
  have hsecond : TaskStateTable.blockPass graph graph.nodes.zipIdx 0 ⟨[⟨.cancelled, 0⟩, ⟨.blocked, 0⟩]⟩ =
      (.ok 0, ⟨[⟨.cancelled, 0⟩, ⟨.blocked, 0⟩]⟩) := rfl
  have hsettled : (table.propagateBlocked graph).2 = ⟨[⟨.cancelled, 0⟩, ⟨.blocked, 0⟩]⟩ := by
    rw [TaskStateTable.propagateBlocked, TaskStateTable.propagateLoop_eq graph hfirst, if_neg Nat.one_ne_zero,
      TaskStateTable.propagateLoop_eq graph hsecond, if_pos rfl]
  have h := taskRun_progress graph ⟨[0, 0], [0, 0]⟩ haccepted [.cancel 1]
  obtain ⟨⟨ready, hnodup, hmem, -⟩, hprogress⟩ := h
  refine ⟨⟨ready, hnodup, hmem⟩, hprogress ?_ ⟨[], ?_⟩⟩
  · intro t s hs
    rw [show (TaskStateTable.propagateBlocked graph (TaskRun.all graph [.cancel 1]).table).2 = _ from hsettled] at hs
    obtain ⟨i, -, hi⟩ := Option.bind_eq_some_iff.mp hs
    have hmem := List.mem_of_getElem? hi
    simp only [List.mem_cons, List.not_mem_nil, or_false] at hmem
    rcases hmem with rfl | rfl <;> simp
  · rw [show (TaskStateTable.propagateBlocked graph (TaskRun.all graph [.cancel 1]).table).2 = _ from hsettled]
    rfl

end LlmApp
