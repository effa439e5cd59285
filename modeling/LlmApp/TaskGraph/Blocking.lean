/-
# Blocked tasks are the reachable ones

`propagateBlocked` blocks one task after another, in the order of the nodes, and
passes over them until a pass blocks nothing. The statuses it ends with do not
depend on that order: the blocked tasks are those that an unsuccessful one
reaches through pending tasks (`propagateBlocked_view`), whence
`propagateBlocked_exact`.

Key definitions: `Unsuccessful`, `Pending`, `BlockedFrom`, `TaskView.block`.
Key theorems: `blocks_marks`, `propagateBlocked_view`, `propagateBlocked_count`,
`propagateBlocked_exact`.
-/
import LlmApp.Data.Marking
import LlmApp.TaskGraph.Ready

namespace LlmApp

open Relation

/-! ### Views -/

section Views

variable (graph : TaskGraph) (v : TaskView)

/-- The tasks that never let a dependent run. -/
def Unsuccessful : Set TaskId := {t | ∃ s, v t = some s ∧ s.status.unsuccessful = true}

def Pending : Set TaskId := {t | ∃ s, v t = some s ∧ s.status = .pending}

/-- What unsuccessful tasks reach, along dependencies and through pending tasks. -/
def BlockedFrom : Set TaskId := ReachedFrom graph.Requires (Pending v) (Unsuccessful v)

open Classical in
/-- The pending tasks of `M` blocked. -/
noncomputable def TaskView.block (M : Set TaskId) : TaskView := fun t =>
  (v t).map fun s => if s.status = .pending ∧ t ∈ M then { s with status := .blocked } else s

variable {graph v} {v' : TaskView} {M M' : Set TaskId} {t : TaskId} {s : TaskRuntimeState}

theorem not_unsuccessful (h : t ∈ Pending v) : t ∉ Unsuccessful v := by
  rintro ⟨s, hs, hno⟩
  obtain ⟨s', hs', hpending⟩ := h
  obtain rfl : s = s' := Option.some.inj (hs.symm.trans hs')
  rw [hpending] at hno
  cases hno

namespace TaskView

theorem block_of_mem (hs : v t = some s) (hpending : s.status = .pending) (ht : t ∈ M) :
    TaskView.block v M t = some { s with status := .blocked } := by
  rw [TaskView.block, hs, Option.map_some, if_pos ⟨hpending, ht⟩]

theorem block_of_notMem (ht : t ∈ Pending v → t ∉ M) : TaskView.block v M t = v t := by
  unfold TaskView.block
  cases hs : v t with
  | none => rfl
  | some s => rw [Option.map_some, if_neg fun h => ht ⟨s, hs, h.1⟩ h.2]

/-- Only whether a pending task is in the set matters. -/
theorem block_at (h : t ∈ Pending v → (t ∈ M ↔ t ∈ M')) : TaskView.block v M t = TaskView.block v M' t := by
  by_cases ht : t ∈ Pending v ∧ t ∈ M
  · obtain ⟨hpending, hM⟩ := ht
    have hM' := (h hpending).mp hM
    obtain ⟨s, hs, hpending⟩ := hpending
    rw [block_of_mem hs hpending hM, block_of_mem hs hpending hM']
  · have hM : t ∈ Pending v → t ∉ M := fun hpending hM => ht ⟨hpending, hM⟩
    rw [block_of_notMem hM, block_of_notMem fun hpending => mt (h hpending).mpr (hM hpending)]

/-- Blocking leaves the pending tasks outside the set pending, and no others. -/
theorem mem_pending_block : t ∈ Pending (TaskView.block v M) ↔ t ∈ Pending v ∧ t ∉ M := by
  by_cases ht : t ∈ Pending v ∧ t ∈ M
  · obtain ⟨⟨s, hs, hpending⟩, hM⟩ := ht
    refine iff_of_false ?_ fun h => h.2 hM
    rintro ⟨s', hs', hpending'⟩
    rw [block_of_mem hs hpending hM, Option.some.injEq] at hs'
    subst hs'
    cases hpending'
  · have hM : t ∈ Pending v → t ∉ M := fun hpending hM => ht ⟨hpending, hM⟩
    rw [show t ∈ Pending (TaskView.block v M) ↔ t ∈ Pending v by
      simp only [Pending, Set.mem_ofPred_eq, block_of_notMem hM]]
    exact ⟨fun h => ⟨h, hM h⟩, And.left⟩

theorem block_insert (hs : v t = some s) (hpending : s.status = .pending) :
    TaskView.block v (insert t M) = Function.update (TaskView.block v M) t (some { s with status := .blocked }) := by
  funext u
  by_cases hu : u = t
  · subst hu
    rw [Function.update_self, block_of_mem hs hpending (Set.mem_insert _ _)]
  · rw [Function.update_of_ne hu]
    exact block_at fun _ => ⟨fun h => h.resolve_left hu, Or.inr⟩

/-- The tasks that blocking changes. -/
theorem block_ne : TaskView.block v M t ≠ v t ↔ t ∈ Pending v ∧ t ∈ M := by
  constructor
  · intro hne
    by_contra ht
    exact hne (block_of_notMem fun hpending hM => ht ⟨hpending, hM⟩)
  · rintro ⟨⟨s, hs, hpending⟩, hM⟩
    rw [block_of_mem hs hpending hM, hs]
    intro heq
    have hstatus := congrArg TaskRuntimeState.status (Option.some.inj heq)
    rw [hpending] at hstatus
    cases hstatus

end TaskView

theorem mem_pending : t ∈ Pending v ↔ ((v t).any fun s => s.status = .pending) = true := by
  simp [Pending, Option.any_eq_true]

/-- A task counts as pending when it stays pending or is changed. -/
theorem count_block (ids : List TaskId) : (ids.countP fun t => (v t).any fun s => s.status = .pending) =
    (ids.countP fun t => (TaskView.block v M t).any fun s => s.status = .pending) +
      ids.countP fun t => TaskView.block v M t ≠ v t := by
  induction ids with
  | nil => simp
  | cons t ids ih =>
    rw [List.countP_cons, List.countP_cons, List.countP_cons, ih]
    by_cases hpending : t ∈ Pending v
    · rw [if_pos (mem_pending.mp hpending)]
      by_cases hM : t ∈ M
      · rw [if_neg (mt mem_pending.mpr fun h => (TaskView.mem_pending_block.mp h).2 hM),
          if_pos (decide_eq_true (TaskView.block_ne.mpr ⟨hpending, hM⟩))]
        omega
      · rw [if_pos (mem_pending.mp (TaskView.mem_pending_block.mpr ⟨hpending, hM⟩)),
          if_neg (mt of_decide_eq_true fun h => hM (TaskView.block_ne.mp h).2)]
        omega
    · rw [if_neg (mt mem_pending.mpr hpending),
        if_neg (mt mem_pending.mpr fun h => hpending (TaskView.mem_pending_block.mp h).1),
        if_neg (mt of_decide_eq_true fun h => hpending (TaskView.block_ne.mp h).1)]
      omega

theorem hasUnsuccessful_iff : HasUnsuccessful graph v t ↔ ∃ p ∈ Unsuccessful v, graph.Requires p t := by
  constructor
  · rintro ⟨p, s, hp, hs, hno⟩
    exact ⟨p, ⟨s, hs, hno⟩, hp⟩
  · rintro ⟨p, ⟨s, hs, hno⟩, hp⟩
    exact ⟨p, s, hp, hs, hno⟩

/-- A task that is blocked joins the unsuccessful ones. -/
theorem unsuccessful_update {s' : TaskRuntimeState} (hno : s'.status.unsuccessful = true) :
    Unsuccessful (Function.update v t (some s')) = insert t (Unsuccessful v) := by
  ext u
  rw [Set.mem_insert_iff]
  by_cases hu : u = t
  · subst hu
    exact iff_of_true ⟨s', Function.update_self .., hno⟩ (.inl rfl)
  · simp only [Unsuccessful, Set.mem_ofPred_eq, Function.update_of_ne hu, hu, false_or]

/-- Blocking one task after another spreads marks from the unsuccessful tasks
there were, and changes nothing else. -/
theorem blocks_marks (h : ReflTransGen (Blocks graph) v v') :
    ReflTransGen (Marks graph.Requires (Pending v)) (Unsuccessful v) (Unsuccessful v') ∧
      v' = TaskView.block v (Unsuccessful v') := by
  induction h with
  | refl =>
    refine ⟨.refl, ?_⟩
    funext t
    rw [TaskView.block_of_notMem not_unsuccessful]
  | @tail w w' _ hblocks ih =>
    obtain ⟨hmarks, hview⟩ := ih
    obtain @⟨t, s, hs, hpending, hp⟩ := hblocks
    obtain ⟨p, hp, hrequires⟩ := hasUnsuccessful_iff.mp hp
    have ht : t ∈ Pending v ∧ t ∉ Unsuccessful w := by
      rw [← TaskView.mem_pending_block, ← hview]
      exact ⟨s, hs, hpending⟩
    have hvt : v t = some s := by
      rw [← TaskView.block_of_notMem (v := v) (M := Unsuccessful w) fun _ => ht.2, ← hview]
      exact hs
    rw [unsuccessful_update rfl, TaskView.block_insert hvt hpending, ← hview]
    exact ⟨hmarks.tail (.mark ht.1 hp hrequires), rfl⟩

/-- Once no pending task is left to block, those that were reached are blocked. -/
theorem blocks_eq (h : ReflTransGen (Blocks graph) v v')
    (hfixed : ∀ t ∈ Pending v', ¬HasUnsuccessful graph v' t) : v' = TaskView.block v (BlockedFrom graph v) := by
  obtain ⟨hmarks, hview⟩ := blocks_marks h
  have hmarked : Unsuccessful v' = Unsuccessful v ∪ BlockedFrom graph v := by
    refine marked_eq hmarks fun t ht p hp hrequires => ?_
    by_contra hnot
    refine hfixed t ?_ (hasUnsuccessful_iff.mpr ⟨p, hp, hrequires⟩)
    rw [hview]
    exact TaskView.mem_pending_block.mpr ⟨ht, hnot⟩
  rw [hview, hmarked]
  funext t
  refine TaskView.block_at fun ht => ?_
  rw [Set.mem_union, or_iff_right (not_unsuccessful ht)]

end Views

/-! ### Tables -/

namespace TaskStateTable

variable {graph : TaskGraph} {table : TaskStateTable}

theorem propagateBlocked_view (hw : graph.WellFormed) (hl : table.Aligned graph) :
    (table.propagateBlocked graph).2.state graph =
      TaskView.block (table.state graph) (BlockedFrom graph (table.state graph)) := by
  obtain ⟨n, -, -, hblocks⟩ := propagateLoop_step hw 0 table hl
  refine blocks_eq hblocks ?_
  rintro t ⟨s, hs, hpending⟩
  exact propagateLoop_fixed hw 0 table hl hs hpending

/-- The tasks of a pass and of the loop come out of the pending ones. -/
theorem propagateLoop_count (hw : graph.WellFormed) (total : ℕ) (table : TaskStateTable) (hl : table.Aligned graph)
    (hroom : total + table.pendingTasks ≤ u64Max) {n : ℕ} (hn : (propagateLoop graph total table).1 = .ok n) :
    n + (propagateLoop graph total table).2.pendingTasks = total + table.pendingTasks := by
  have hnodes : ∀ entry ∈ graph.nodes.zipIdx, graph.nodes[entry.2]? = some entry.1 :=
    fun entry he => List.mk_mem_zipIdx_iff_getElem?.mp he
  obtain ⟨changed, h1, h2, -⟩ := blockPass_step hw hnodes 0 hl
  have hpass : blockPass graph graph.nodes.zipIdx 0 table =
      (.ok changed, (blockPass graph graph.nodes.zipIdx 0 table).2) := Prod.ext h1 rfl
  rw [propagateLoop_eq graph hpass] at hn ⊢
  generalize (blockPass graph graph.nodes.zipIdx 0 table).2 = table' at hpass h2 hn ⊢
  have hpending := blockPass_pending graph hpass
  have hadd : saturatingAdd u64Max total changed = total + changed := by
    rw [saturatingAdd]
    omega
  rw [hadd] at hn ⊢
  by_cases hzero : changed = 0
  · rw [if_pos hzero] at hn ⊢
    obtain rfl := Except.ok.inj hn
    simp only
    omega
  · have hfewer : table'.pendingTasks < table.pendingTasks := by omega
    rw [if_neg hzero] at hn ⊢
    have ih := propagateLoop_count hw (total + changed) table' h2 (by omega) hn
    omega
termination_by table.pendingTasks
decreasing_by exact hfewer

/-- The states of a table are those of its tasks, in their order. -/
theorem map_state (hw : graph.WellFormed) (hl : table.Aligned graph) :
    graph.taskIds.map (table.state graph) = table.states.map some := by
  refine List.ext_getElem? fun i => ?_
  rw [List.getElem?_map, List.getElem?_map]
  cases hi : graph.taskIds[i]? with
  | none =>
    rw [List.getElem?_eq_none_iff, TaskGraph.length_taskIds, ← hl] at hi
    rw [List.getElem?_eq_none hi]
    rfl
  | some t =>
    have hlt : i < table.states.length := by
      rw [hl, ← TaskGraph.length_taskIds]
      exact (List.getElem?_eq_some_iff.mp hi).1
    rw [Option.map_some, state_eq hw hi, List.getElem?_eq_getElem hlt]
    rfl

theorem pendingTasks_eq (hw : graph.WellFormed) (hl : table.Aligned graph) : table.pendingTasks =
    graph.taskIds.countP fun t => (table.state graph t).any fun s => s.status = .pending := by
  have hcount := congrArg (List.countP fun o : Option TaskRuntimeState => o.any fun s => s.status = .pending)
    (map_state hw hl)
  rw [List.countP_map, List.countP_map] at hcount
  exact hcount.symm

/-- The result is the number of tasks that were changed. -/
theorem propagateBlocked_count (hw : graph.WellFormed) (hl : table.Aligned graph)
    (hsize : graph.nodes.length ≤ u64Max) :
    (table.propagateBlocked graph).1 = .ok (graph.taskIds.countP fun t =>
      (table.propagateBlocked graph).2.state graph t ≠ table.state graph t) := by
  obtain ⟨n, hn, hl', -⟩ := propagateLoop_step hw 0 table hl
  have hview := propagateBlocked_view hw hl
  rw [propagateBlocked] at hview ⊢
  have hpending : table.pendingTasks ≤ u64Max := by
    refine le_trans List.countP_le_length ?_
    rw [hl]
    exact hsize
  have hcount := propagateLoop_count hw 0 table hl (by omega) hn
  rw [pendingTasks_eq hw hl, pendingTasks_eq hw hl'] at hcount
  rw [hn]
  rw [hview] at hcount ⊢
  have hsplit := count_block (v := table.state graph) (M := BlockedFrom graph (table.state graph)) graph.taskIds
  congr 1
  omega

theorem eq_of_state (hw : graph.WellFormed) {table' : TaskStateTable} (hl : table.Aligned graph)
    (hl' : table'.Aligned graph) (h : table'.state graph = table.state graph) : table' = table := by
  have hstates : table'.states.map some = table.states.map some := by
    rw [← map_state hw hl, ← map_state hw hl', h]
  rw [mk.injEq]
  exact List.map_injective_iff.mpr (Option.some_injective _) hstates

/-- The propagation leaves nothing to block. -/
theorem propagateBlocked_again (hw : graph.WellFormed) (hl : table.Aligned graph) (hsize : graph.nodes.length ≤ u64Max) :
    (table.propagateBlocked graph).2.propagateBlocked graph = (.ok 0, (table.propagateBlocked graph).2) := by
  obtain ⟨n, -, hl', -⟩ := propagateLoop_step hw 0 table hl
  have hfixed : ∀ t ∈ Pending ((table.propagateBlocked graph).2.state graph),
      ¬HasUnsuccessful graph ((table.propagateBlocked graph).2.state graph) t := by
    rintro t ⟨s, hs, hpending⟩
    exact propagateLoop_fixed hw 0 table hl hs hpending
  rw [← propagateBlocked] at hl'
  generalize (table.propagateBlocked graph).2 = settled at hl' hfixed ⊢
  obtain ⟨n', -, hl'', -⟩ := propagateLoop_step hw 0 settled hl'
  have hreached : BlockedFrom graph (settled.state graph) ⊆ Unsuccessful (settled.state graph) := by
    refine reached_subset subset_rfl fun t ht p hp hrequires => ?_
    exact absurd (hasUnsuccessful_iff.mpr ⟨p, hp, hrequires⟩) (hfixed t ht)
  have hview : (settled.propagateBlocked graph).2.state graph = settled.state graph := by
    rw [propagateBlocked_view hw hl']
    funext t
    exact TaskView.block_of_notMem fun hpending hM => not_unsuccessful hpending (hreached hM)
  refine Prod.ext ?_ (eq_of_state hw hl' hl'' hview)
  rw [propagateBlocked_count hw hl' hsize, hview]
  simp

end TaskStateTable

/-! ### Another order of the lists -/

section Orders

variable {graph graph' : TaskGraph} (hnodes : graph'.nodes.Perm graph.nodes)
  (hdependencies : graph'.dependencies.Perm graph.dependencies)

include hnodes in
theorem taskIds_perm : graph'.taskIds.Perm graph.taskIds := hnodes.map _

include hdependencies in
theorem requires_perm : graph'.Requires = graph.Requires := by
  funext p t
  exact propext hdependencies.mem_iff

include hnodes hdependencies in
theorem wellFormed_perm (hw : graph.WellFormed) : graph'.WellFormed := by
  have hids := taskIds_perm hnodes
  refine ⟨hids.nodup_iff.mpr hw.distinct, fun d hd => ?_, fun d hd => ?_, hdependencies.nodup_iff.mpr hw.once⟩
  · obtain ⟨hp, ht⟩ := hw.declared d (hdependencies.mem_iff.mp hd)
    exact ⟨hids.mem_iff.mpr hp, hids.mem_iff.mpr ht⟩
  · exact hw.irreflexive d (hdependencies.mem_iff.mp hd)

end Orders

/-- On an accepted graph, with any statuses: the propagation returns the number
of tasks it blocks, which are the pending ones that an unsuccessful one reaches
through pending ones, finds nothing more to block afterwards, and does the same
for every order of the nodes and the dependencies. -/
theorem propagateBlocked_exact (graph : TaskGraph) (scratch : GraphValidationScratch)
    (haccepted : validateGraph graph scratch = .ok ()) (hsize : graph.nodes.length ≤ u64Max) (table : TaskStateTable)
    (hlength : table.states.length = graph.nodes.length) :
    ∃ n settled, table.propagateBlocked graph = (.ok n, settled) ∧
      settled.states.length = graph.nodes.length ∧
      settled.state graph = TaskView.block (table.state graph) (BlockedFrom graph (table.state graph)) ∧
      n = (graph.taskIds.countP fun t => settled.state graph t ≠ table.state graph t) ∧
      settled.propagateBlocked graph = (.ok 0, settled) ∧
      ∀ (graph' : TaskGraph) (table' : TaskStateTable), graph'.nodes.Perm graph.nodes →
        graph'.dependencies.Perm graph.dependencies → table'.states.length = graph'.nodes.length →
        table'.state graph' = table.state graph → ∃ settled', table'.propagateBlocked graph' = (.ok n, settled') ∧
          settled'.state graph' = settled.state graph := by
  have hw := (validateGraph_sound haccepted).1
  obtain ⟨n, hn, hl, -⟩ := TaskStateTable.propagateLoop_step hw 0 table hlength
  have hview := TaskStateTable.propagateBlocked_view hw hlength
  have hcount := TaskStateTable.propagateBlocked_count hw hlength hsize
  refine ⟨_, _, Prod.ext hcount rfl, hl, hview, rfl, TaskStateTable.propagateBlocked_again hw hlength hsize, ?_⟩
  intro graph' table' hnodes hdependencies hlength' hstate
  have hw' := wellFormed_perm hnodes hdependencies hw
  have hview' := TaskStateTable.propagateBlocked_view hw' hlength'
  have hcount' := TaskStateTable.propagateBlocked_count hw' hlength' (hnodes.length_eq.trans_le hsize)
  have hsame : BlockedFrom graph' (table.state graph) = BlockedFrom graph (table.state graph) := by
    rw [BlockedFrom, BlockedFrom, requires_perm hdependencies]
  rw [hstate, hsame, ← hview] at hview'
  rw [hview', hstate, (taskIds_perm hnodes).countP_eq] at hcount'
  exact ⟨_, Prod.ext hcount' rfl, hview'⟩

/-- An exhausted draft blocks its review, and that blocks the revision. -/
theorem propagateBlocked_exact_chain :
    let budget : TaskBudget := ⟨1024, 512, ⟨2, by decide, by decide⟩⟩
    let graph : TaskGraph := ⟨[⟨1, .draft, .anyCompatible, budget, ⟨.text, 4096⟩⟩,
      ⟨2, .review, .anyCompatible, budget, ⟨.text, 4096⟩⟩, ⟨3, .revise, .anyCompatible, budget, ⟨.text, 4096⟩⟩],
      [⟨1, 2⟩, ⟨2, 3⟩]⟩
    ∃ n settled, TaskStateTable.propagateBlocked graph ⟨[⟨.exhausted, 2⟩, ⟨.pending, 0⟩, ⟨.pending, 0⟩]⟩ =
      (.ok n, settled) ∧ settled.propagateBlocked graph = (.ok 0, settled) := by
  intro budget graph
  have haccepted : validateGraph graph ⟨[0, 0, 0], [0, 0, 0]⟩ = .ok () := by
    refine validateGraph_ok (by decide) (by decide) (Acyclic.of_rank id fun p t h => ?_)
    obtain h | h := List.mem_pair.mp h
    · obtain ⟨rfl, rfl⟩ := TaskDependency.mk.inj h
      decide
    · obtain ⟨rfl, rfl⟩ := TaskDependency.mk.inj h
      decide
  obtain ⟨n, settled, h, -, -, -, hagain, -⟩ := propagateBlocked_exact graph ⟨[0, 0, 0], [0, 0, 0]⟩ haccepted
    (by decide) ⟨[⟨.exhausted, 2⟩, ⟨.pending, 0⟩, ⟨.pending, 0⟩]⟩ rfl
  exact ⟨n, settled, h, hagain⟩

end LlmApp
