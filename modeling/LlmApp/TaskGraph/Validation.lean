/-
# Validation of a task graph is exact

`validate_graph` accepts a graph exactly when its declarations are well formed
(`TaskGraph.WellFormed`) and no task requires itself, directly or through
others. The traversal keeps the number of dependencies still coming into every
task; the tasks it has visited are in an order in which each comes after its
prerequisites, so they hold no cycle, and every task it does not reach has
another such prerequisite, so they hold one.

Key definitions: `TaskGraph.WellFormed`, `TaskGraph.Requires`,
`Traversal.Invariant`.
Key theorems: `checkGraph_eq_ok`, `traverse_ok`, `sortGraph_eq`,
`validateGraph_exact`.
-/
import LlmApp.Data.Acyclic
import LlmApp.Data.Buffer
import LlmApp.TaskGraph.Graph

namespace LlmApp

open Relation

namespace TaskGraph

variable (graph : TaskGraph)

def taskIds : List TaskId := graph.nodes.map (·.id)

/-- `p` is a direct prerequisite of `t`. -/
def Requires (p t : TaskId) : Prop := ⟨p, t⟩ ∈ graph.dependencies

/-- What the checks before the traversal establish. -/
structure WellFormed : Prop where
  distinct : graph.taskIds.Nodup
  declared : ∀ d ∈ graph.dependencies, d.prerequisite ∈ graph.taskIds ∧ d.dependent ∈ graph.taskIds
  irreflexive : ∀ d ∈ graph.dependencies, d.prerequisite ≠ d.dependent
  once : graph.dependencies.Nodup

variable {graph}

theorem node_eq_none {t : TaskId} : graph.node t = none ↔ t ∉ graph.taskIds := by
  simp [node, taskIds]

@[simp] theorem length_taskIds : graph.taskIds.length = graph.nodes.length := List.length_map _

theorem nodeIndex_eq_some (h : graph.taskIds.Nodup) {t : TaskId} {i : ℕ} :
    graph.nodeIndex t = some i ↔ graph.taskIds[i]? = some t := by
  have heq : graph.nodeIndex t = graph.taskIds.findIdx? (· = t) := by
    rw [taskIds, List.findIdx?_map]
    rfl
  rw [heq, List.findIdx?_eq_some_iff_getElem]
  constructor
  · rintro ⟨hi, hti, -⟩
    rw [List.getElem?_eq_getElem hi]
    simpa using hti
  · intro hi
    obtain ⟨hlt, hti⟩ := List.getElem?_eq_some_iff.mp hi
    refine ⟨hlt, by simpa using hti, fun j hj hjt => ?_⟩
    have : j = i := (List.Nodup.getElem_inj_iff h).mp ((by simpa using hjt : graph.taskIds[j] = t).trans hti.symm)
    omega

theorem exists_nodeIndex (h : graph.taskIds.Nodup) {t : TaskId} (ht : t ∈ graph.taskIds) :
    ∃ i, graph.nodeIndex t = some i ∧ i < graph.nodes.length ∧ graph.taskIds[i]? = some t := by
  obtain ⟨i, hi⟩ := List.mem_iff_getElem?.mp ht
  have hlt : i < graph.taskIds.length := (List.getElem?_eq_some_iff.mp hi).1
  exact ⟨i, (nodeIndex_eq_some h).mpr hi, by simpa using hlt, hi⟩

theorem taskIds_getElem? {i : ℕ} {t : TaskId} :
    graph.taskIds[i]? = some t ↔ ∃ node, graph.nodes[i]? = some node ∧ node.id = t := by
  simp [taskIds]

end TaskGraph

/-! ### The checks before the traversal -/

section Checks

open Except

variable {graph : TaskGraph} {scratch : GraphValidationScratch}

theorem validateNodes_eq_ok {u : Unit} : ∀ {nodes : List TaskNode},
    validateNodes nodes = .ok u ↔ (nodes.map (·.id)).Nodup
  | [] => by simp [validateNodes]
  | left :: tail => by
    rw [validateNodes, bind_eq_ok, List.map_cons, List.nodup_cons]
    simp only [failIf_eq_ok, validateNodes_eq_ok, List.any_eq_true, decide_eq_true_eq, exists_const, List.mem_map]

theorem validateDependencies_eq_ok {u : Unit} : ∀ {ds : List TaskDependency}, validateDependencies graph ds = .ok u ↔
    (∀ d ∈ ds, (d.prerequisite ∈ graph.taskIds ∧ d.dependent ∈ graph.taskIds) ∧ d.prerequisite ≠ d.dependent) ∧
      ds.Nodup
  | [] => by simp [validateDependencies]
  | d :: tail => by
    simp only [validateDependencies, bind_eq_ok, failIf_eq_ok, validateDependencies_eq_ok, TaskGraph.node_eq_none,
      not_not, List.any_eq_true, decide_eq_true_eq, exists_eq_right, List.mem_cons, forall_eq_or_imp,
      List.nodup_cons]
    constructor
    · rintro ⟨_, h1, _, h2, _, h3, _, h4, h5, h6⟩
      exact ⟨⟨⟨⟨h1, h2⟩, h3⟩, h5⟩, h4, h6⟩
    · rintro ⟨⟨⟨⟨h1, h2⟩, h3⟩, h5⟩, h4, h6⟩
      exact ⟨(), h1, (), h2, (), h3, (), h4, h5, h6⟩

theorem validateScratch_eq_ok {required : ℕ} {u : Unit} : validateScratch required scratch = .ok u ↔
    required ≤ scratch.incomingCounts.length ∧ required ≤ scratch.queue.length := by
  simp [validateScratch, failIf_eq_ok]

theorem checkGraph_eq_ok {u : Unit} : checkGraph graph scratch = .ok u ↔
    (graph.nodes.length ≤ scratch.incomingCounts.length ∧ graph.nodes.length ≤ scratch.queue.length) ∧
      graph.WellFormed := by
  simp only [checkGraph, bind_eq_ok, validateScratch_eq_ok, validateNodes_eq_ok, validateDependencies_eq_ok]
  constructor
  · rintro ⟨_, hscratch, _, hnodes, hdeps, hnodup⟩
    exact ⟨hscratch, hnodes, fun d hd => (hdeps d hd).1, fun d hd => (hdeps d hd).2, hnodup⟩
  · rintro ⟨hscratch, h⟩
    exact ⟨(), hscratch, (), h.distinct, fun d hd => ⟨h.declared d hd, h.irreflexive d hd⟩, h.once⟩

/-- No check reports a cycle. -/
theorem checkGraph_errors : ErrorsIn (· ≠ .cycleDetected) (checkGraph graph scratch) := by
  have hnodes : ∀ nodes, ErrorsIn (· ≠ .cycleDetected) (validateNodes nodes) := by
    intro nodes
    induction nodes with
    | nil => exact errorsIn_ok
    | cons left tail ih => exact (errorsIn_failIf (by simp)).bind fun _ => ih
  have hdeps : ∀ ds, ErrorsIn (· ≠ .cycleDetected) (validateDependencies graph ds) := by
    intro ds
    induction ds with
    | nil => exact errorsIn_ok
    | cons d tail ih =>
      refine (errorsIn_failIf (by simp)).bind fun _ => (errorsIn_failIf (by simp)).bind fun _ => ?_
      exact (errorsIn_failIf (by simp)).bind fun _ => (errorsIn_failIf (by simp)).bind fun _ => ih
  refine ErrorsIn.bind (errorsIn_failIf (by simp [nodeCapacity])) fun _ => ?_
  exact (hnodes _).bind fun _ => hdeps _

end Checks

/-! ### The arrays of the traversal -/

namespace TaskGraph

variable (graph : TaskGraph)

/-- The dependencies still coming into a task once those of `gone` were released. -/
def incoming (gone : List TaskDependency) (t : TaskId) : ℕ :=
  graph.dependencies.countP fun d => d.dependent = t ∧ d ∉ gone

/-- The dependencies of the tasks that have one of `ids` as prerequisite. -/
def leaving (ids : List TaskId) : List TaskDependency :=
  graph.dependencies.filter fun d => d.prerequisite ∈ ids

variable {graph} {gone : List TaskDependency} {t : TaskId}

/-- To release a dependency takes one from the count of its dependent. -/
theorem incoming_release (hw : graph.WellFormed) {d : TaskDependency} (hd : d ∈ graph.dependencies)
    (hnew : d ∉ gone) : graph.incoming gone d.dependent = graph.incoming (gone ++ [d]) d.dependent + 1 := by
  have hcount : ∀ l : List TaskDependency, l.Nodup → d ∈ l →
      (l.countP fun x => x.dependent = d.dependent ∧ x ∉ gone) =
        (l.countP fun x => x.dependent = d.dependent ∧ x ∉ gone ++ [d]) + 1 := by
    intro l hl hmem
    induction l with
    | nil => cases hmem
    | cons x l ih =>
      obtain ⟨hx, hl⟩ := List.nodup_cons.mp hl
      rw [List.countP_cons, List.countP_cons]
      by_cases hxd : x = d
      · subst hxd
        have hrest : (l.countP fun y => y.dependent = x.dependent ∧ y ∉ gone) =
            l.countP fun y => y.dependent = x.dependent ∧ y ∉ gone ++ [x] := by
          refine List.countP_congr fun y hy => ?_
          have hne : y ≠ x := fun h => hx (h ▸ hy)
          simp [hne]
        rw [hrest]
        simp [hnew]
      · have hmem : d ∈ l := (List.mem_cons.mp hmem).resolve_left (Ne.symm hxd)
        rw [ih hl hmem]
        simp only [List.mem_append, List.mem_singleton, hxd, or_false]
        omega
  exact hcount _ hw.once hd

theorem incoming_release_ne {d : TaskDependency} (ht : t ≠ d.dependent) :
    graph.incoming (gone ++ [d]) t = graph.incoming gone t := by
  refine List.countP_congr fun x _ => ?_
  have hne : x.dependent = t → x ≠ d := fun hx hd => ht (hx ▸ congrArg _ hd)
  by_cases hx : x.dependent = t
  · simp [hx, hne hx]
  · simp [hx]

theorem incoming_congr {gone' : List TaskDependency}
    (h : ∀ d ∈ graph.dependencies, d ∈ gone ↔ d ∈ gone') : graph.incoming gone t = graph.incoming gone' t :=
  List.countP_congr fun d hd => by simp [h d hd]

theorem incoming_eq_zero : graph.incoming gone t = 0 ↔ ∀ d ∈ graph.dependencies, d.dependent = t → d ∈ gone := by
  simp [incoming, List.countP_eq_zero]

/-- A table of the tasks, changed at one of them. -/
theorem table_set (hw : graph.taskIds.Nodup) {α : Type} {table : List α} {f g : TaskId → α} {i : ℕ} {v : α}
    (h : ∀ (j : ℕ) u, graph.taskIds[j]? = some u → table[j]? = some (f u)) (hi : graph.taskIds[i]? = some t)
    (ht : g t = v) (hother : ∀ u, u ≠ t → g u = f u) :
    ∀ (j : ℕ) u, graph.taskIds[j]? = some u → (table.set i v)[j]? = some (g u) := by
  intro j u hj
  have hlt : j < table.length := (List.getElem?_eq_some_iff.mp (h j u hj)).1
  by_cases hij : i = j
  · subst hij
    obtain rfl : t = u := Option.some.inj (hi.symm.trans hj)
    rw [List.getElem?_set_self hlt, ht]
  · have hne : u ≠ t := by
      rintro rfl
      exact hij ((List.getElem?_inj (List.getElem?_eq_some_iff.mp hi).1 hw).mp (hi.trans hj.symm))
    rw [List.getElem?_set_ne hij, h j u hj, hother u hne]

end TaskGraph

/-- The part of the queue in use. -/
def Traversal.queued (s : Traversal) : List ℕ := s.queue.take s.queueLength

/-- What holds of the arrays once the dependencies of `gone` were released: the
counts are those of the others, and the queue holds the tasks with none. -/
structure Traversal.Invariant (graph : TaskGraph) (gone : List TaskDependency) (s : Traversal) : Prop where
  length : s.counts.length = graph.nodes.length
  counts : ∀ (i : ℕ) t, graph.taskIds[i]? = some t → s.counts[i]? = some (graph.incoming gone t)
  room : graph.nodes.length ≤ s.queue.length
  used : s.queued.length = s.queueLength
  nodup : s.queued.Nodup
  queued : ∀ i, i ∈ s.queued ↔ s.counts[i]? = some 0

theorem writeQueue_eq_ok {queue : List ℕ} {position : ℕ} (h : position < queue.length) (value : ℕ) :
    writeQueue queue position value = .ok (queue.set position value) := by
  simp [writeQueue, h]

namespace Traversal.Invariant

variable {graph : TaskGraph} {gone : List TaskDependency} {s : Traversal}

theorem congr (h : s.Invariant graph gone) {gone' : List TaskDependency}
    (hgone : ∀ d ∈ graph.dependencies, d ∈ gone ↔ d ∈ gone') : s.Invariant graph gone' :=
  { h with counts := fun i t ht => by rw [h.counts i t ht, TaskGraph.incoming_congr hgone] }

/-- A task that is not queued has room in the queue. -/
theorem queueLength_lt (h : s.Invariant graph gone) {i : ℕ} (hi : i < graph.nodes.length) (hnew : i ∉ s.queued) :
    s.queueLength < graph.nodes.length := by
  have hnodup : (i :: s.queued).Nodup := List.nodup_cons.mpr ⟨hnew, h.nodup⟩
  have hsub : i :: s.queued ⊆ List.range graph.nodes.length := by
    intro j hj
    rw [List.mem_range]
    obtain rfl | hj := List.mem_cons.mp hj
    · exact hi
    · rw [← h.length]
      exact (List.getElem?_eq_some_iff.mp ((h.queued j).mp hj)).1
  have hle := (hnodup.subperm hsub).length_le
  rw [List.length_cons, List.length_range, h.used] at hle
  omega

end Traversal.Invariant

/-! ### Its loops -/

section Loops

variable {graph : TaskGraph} {gone : List TaskDependency} {s : Traversal}

/-- The counts of what comes into every task, among the dependencies done. -/
def Counted (graph : TaskGraph) (done : List TaskDependency) (counts : List ℕ) : Prop :=
  counts.length = graph.nodes.length ∧
    ∀ (i : ℕ) t, graph.taskIds[i]? = some t → counts[i]? = some (done.countP fun d => d.dependent = t)

theorem Counted.all {counts : List ℕ} (h : Counted graph graph.dependencies counts) (i : ℕ) (t : TaskId)
    (ht : graph.taskIds[i]? = some t) : counts[i]? = some (graph.incoming [] t) := by
  rw [h.2 i t ht]
  simp [TaskGraph.incoming]

/-- One more dependency is counted, unless the count is full. -/
theorem Counted.step (hw : graph.WellFormed) {done : List TaskDependency} {counts : List ℕ} {d : TaskDependency}
    (h : Counted graph done counts) (hd : d ∈ graph.dependencies) :
    ∃ i, countIncoming graph counts d = (do
        let next ← Except.okOr (checkedAdd u32Max (done.countP fun x => x.dependent = d.dependent) 1)
          (.capacityExhausted ⟨.taskEdges, u32Max + 1, done.countP fun x => x.dependent = d.dependent⟩)
        return counts.set i next) ∧
      Counted graph (done ++ [d]) (counts.set i ((done.countP fun x => x.dependent = d.dependent) + 1)) := by
  obtain ⟨i, hindex, hi, hti⟩ := TaskGraph.exists_nodeIndex hw.distinct (hw.declared d hd).2
  have hget := h.2 i _ hti
  refine ⟨i, ?_, by rw [List.length_set, h.1], ?_⟩
  · simp only [countIncoming, dependentCount, hindex, hget, Except.okOr_some, Except.ok_bind, pure, Except.pure]
  · refine TaskGraph.table_set hw.distinct h.2 hti (by simp) ?_
    intro u hu
    simp [Ne.symm hu]

/-- The first loop counts all of them. -/
theorem countIncoming_loop (hw : graph.WellFormed) {zeros counts : List ℕ} (hzeros : Counted graph [] zeros)
    (h : graph.dependencies.foldlM (countIncoming graph) zeros = .ok counts) :
    Counted graph graph.dependencies counts := by
  refine Except.foldlM_ok (Counted graph) hzeros ?_ h
  intro done d rest a a' hdeps hdone hstep
  obtain ⟨i, heq, hnext⟩ := hdone.step hw (d := d) (by simp [hdeps])
  rw [heq, Except.bind_eq_ok] at hstep
  obtain ⟨next, hadd, ha'⟩ := hstep
  obtain ⟨rfl, -⟩ := checkedAdd_eq_some.mp (Except.okOr_eq_ok.mp hadd)
  rw [Except.pure_eq_ok] at ha'
  exact ha' ▸ hnext

theorem countIncoming_loop_ok (hw : graph.WellFormed) (hedges : graph.dependencies.length ≤ u32Max) {zeros : List ℕ}
    (hzeros : Counted graph [] zeros) :
    ∃ counts, graph.dependencies.foldlM (countIncoming graph) zeros = .ok counts := by
  obtain ⟨counts, h, -⟩ := Except.foldlM_invariant (Counted graph) (l := graph.dependencies)
    (f := countIncoming graph) hzeros (by
      intro done d rest a hdeps hdone
      obtain ⟨i, heq, hnext⟩ := hdone.step hw (d := d) (by simp [hdeps])
      have hlt : (done.countP fun x => x.dependent = d.dependent) + 1 ≤ u32Max := by
        have h1 := List.countP_le_length (p := fun x : TaskDependency => x.dependent = d.dependent) (l := done)
        have h2 := congrArg List.length hdeps
        simp only [List.length_append, List.length_cons] at h2
        omega
      rw [heq, checkedAdd_eq_some.mpr ⟨rfl, hlt⟩]
      exact ⟨_, rfl, hnext⟩)
  exact ⟨counts, h⟩

/-- The second loop queues the tasks that nothing comes into. -/
theorem seedQueue_loop {counts queue : List ℕ} (hlength : counts.length = graph.nodes.length)
    (hcounts : ∀ (i : ℕ) t, graph.taskIds[i]? = some t → counts[i]? = some (graph.incoming [] t))
    (hroom : graph.nodes.length ≤ queue.length) :
    ∃ s, counts.zipIdx.foldlM seedQueue ⟨counts, queue, 0⟩ = .ok s ∧ s.Invariant graph [] := by
  obtain ⟨s, hs, rfl, hqueue, hused, hqueued⟩ := Except.foldlM_invariant (l := counts.zipIdx) (f := seedQueue)
    (a := ⟨counts, queue, 0⟩)
    (fun done s => s.counts = counts ∧ s.queue.length = queue.length ∧ s.queueLength ≤ done.length ∧
      s.queued = (done.filter fun entry => entry.1 = 0).map (·.2)) ⟨rfl, rfl, le_rfl, rfl⟩ (by
      rintro done ⟨count, index⟩ rest s hdone ⟨hs, hqueue, hused, hqueued⟩
      have hlt : s.queueLength < s.queue.length := by
        have h := congrArg List.length hdone
        simp only [List.length_zipIdx, List.length_append, List.length_cons] at h
        omega
      unfold seedQueue
      by_cases hzero : count = 0
      · rw [if_pos hzero, writeQueue_eq_ok hlt]
        refine ⟨_, rfl, hs, by simpa using hqueue, by simpa using hused, ?_⟩
        unfold Traversal.queued at hqueued ⊢
        rw [take_set_succ hlt, hqueued]
        simp [hzero]
      · rw [if_neg hzero]
        exact ⟨s, rfl, hs, hqueue, hused.trans (by simp), by simp [hqueued, hzero]⟩)
  refine ⟨s, hs, hlength, hcounts, hqueue ▸ hroom, ?_, ?_, ?_⟩
  · rw [Traversal.queued, List.length_take, List.length_zipIdx, hlength] at *
    omega
  · rw [hqueued]
    have hsub := (List.filter_sublist (p := fun entry : ℕ × ℕ => entry.1 = 0) (l := s.counts.zipIdx)).map Prod.snd
    rw [List.zipIdx_map_snd] at hsub
    exact List.Nodup.sublist hsub (List.nodup_range' ..)
  · intro i
    rw [hqueued, List.mem_map]
    constructor
    · rintro ⟨⟨count, index⟩, hmem, rfl⟩
      obtain ⟨hmem, hzero⟩ := List.mem_filter.mp hmem
      rw [List.mk_mem_zipIdx_iff_getElem?] at hmem
      rw [hmem]
      simpa using hzero
    · intro hi
      exact ⟨(0, i), List.mem_filter.mpr ⟨List.mk_mem_zipIdx_iff_getElem?.mpr hi, by simp⟩, rfl⟩

theorem releaseDependent_ok (hw : graph.WellFormed) (h : s.Invariant graph gone) {d : TaskDependency}
    (hd : d ∈ graph.dependencies) (hnew : d ∉ gone) :
    ∃ s', releaseDependent graph s d = .ok s' ∧ s'.Invariant graph (gone ++ [d]) ∧ s.queued <+: s'.queued := by
  obtain ⟨i, hindex, hi, hti⟩ := TaskGraph.exists_nodeIndex hw.distinct (hw.declared d hd).2
  have hget := h.counts i _ hti
  rw [TaskGraph.incoming_release hw hd hnew] at hget
  have hlt : i < s.counts.length := by rw [h.length]; exact hi
  have hfresh : i ∉ s.queued := by
    rw [h.queued, hget]
    simp
  have hcounts : ∀ (j : ℕ) u, graph.taskIds[j]? = some u →
      (s.counts.set i (graph.incoming (gone ++ [d]) d.dependent))[j]? = some (graph.incoming (gone ++ [d]) u) :=
    TaskGraph.table_set hw.distinct h.counts hti rfl fun u hu => TaskGraph.incoming_release_ne hu
  have hset : ∀ j, (s.counts.set i (graph.incoming (gone ++ [d]) d.dependent))[j]? = some 0 ↔
      (j = i ∧ graph.incoming (gone ++ [d]) d.dependent = 0) ∨ j ∈ s.queued := by
    intro j
    rw [h.queued j]
    by_cases hij : i = j
    · subst hij
      rw [List.getElem?_set_self hlt, hget]
      simp
    · rw [List.getElem?_set_ne hij]
      simp [Ne.symm hij]
  have hstep : releaseDependent graph s d =
      (if graph.incoming (gone ++ [d]) d.dependent = 0 then do
        let queue ← writeQueue s.queue s.queueLength i
        return ⟨s.counts.set i (graph.incoming (gone ++ [d]) d.dependent), queue, s.queueLength + 1⟩
      else return { s with counts := s.counts.set i (graph.incoming (gone ++ [d]) d.dependent) }) := by
    simp [releaseDependent, dependentCount, hindex, hget, pure, Except.pure, Except.failIf]
  rw [hstep]
  by_cases hzero : graph.incoming (gone ++ [d]) d.dependent = 0
  · have hspace : s.queueLength < s.queue.length := (h.queueLength_lt hi hfresh).trans_le h.room
    have hqueued : (s.queue.set s.queueLength i).take (s.queueLength + 1) = s.queued ++ [i] :=
      take_set_succ hspace i
    rw [if_pos hzero, writeQueue_eq_ok hspace]
    refine ⟨_, rfl, ⟨by rw [List.length_set, h.length], hcounts, by rw [List.length_set]; exact h.room, ?_, ?_, ?_⟩,
      ?_⟩
    · rw [Traversal.queued, hqueued, List.length_append, h.used]
      rfl
    · rw [Traversal.queued, hqueued]
      exact List.nodup_append.mpr ⟨h.nodup, List.nodup_singleton _, by
        intro a ha b hb
        rw [List.mem_singleton.mp hb]
        exact fun hab => hfresh (hab ▸ ha)⟩
    · intro j
      rw [Traversal.queued, hqueued, hset]
      simp [hzero, or_comm]
    · rw [Traversal.queued, Traversal.queued, hqueued]
      exact List.prefix_append _ _
  · rw [if_neg hzero]
    refine ⟨_, rfl, ⟨by rw [List.length_set, h.length], hcounts, h.room, h.used, h.nodup, fun j => ?_⟩,
      List.prefix_refl _⟩
    rw [hset]
    simp only [hzero, and_false, false_or]
    rfl

/-- A visit releases the dependencies on the visited task. -/
theorem releaseAll_ok (hw : graph.WellFormed) {ids : List TaskId} {node : TaskNode}
    (h : s.Invariant graph (graph.leaving ids)) (hnew : node.id ∉ ids) :
    ∃ s', releaseAll graph node s = .ok s' ∧ s'.Invariant graph (graph.leaving (ids ++ [node.id])) ∧
      s.queued <+: s'.queued := by
  obtain ⟨s', hs', hinv, hprefix⟩ := Except.foldlM_invariant (f := releaseDependent graph) (a := s)
    (l := graph.dependencies.filter fun d => d.prerequisite = node.id)
    (fun done t => t.Invariant graph (graph.leaving ids ++ done) ∧ s.queued <+: t.queued)
    ⟨by rw [List.append_nil]; exact h, List.prefix_refl _⟩ (by
      rintro done d rest t hsplit ⟨hinv, hprefix⟩
      have hmem : d ∈ graph.dependencies.filter fun d => d.prerequisite = node.id := by simp [hsplit]
      obtain ⟨hd, hnode⟩ := List.mem_filter.mp hmem
      have hnodup : (done ++ d :: rest).Nodup := hsplit ▸ hw.once.filter _
      have hdone : d ∉ done := fun h => (List.nodup_append.mp hnodup).2.2 d h d List.mem_cons_self rfl
      have hgone : d ∉ graph.leaving ids ++ done := by
        rw [List.mem_append, not_or]
        refine ⟨fun h => hnew ?_, hdone⟩
        have hpre := (List.mem_filter.mp h).2
        rw [← of_decide_eq_true hnode]
        exact of_decide_eq_true hpre
      obtain ⟨t', ht', hinv', hprefix'⟩ := releaseDependent_ok hw hinv hd hgone
      exact ⟨t', ht', by rw [← List.append_assoc]; exact hinv', hprefix.trans hprefix'⟩)
  refine ⟨s', hs', hinv.congr fun d hd => ?_, hprefix⟩
  simp [TaskGraph.leaving, hd]

end Loops

/-! ### The traversal -/

/-- The first tasks of the queue were visited, each after its prerequisites. -/
structure Traversal.Visited (graph : TaskGraph) (ids : List TaskId) (s : Traversal) : Prop extends
    s.Invariant graph (graph.leaving ids) where
  ordered : Topological graph.Requires ids
  declared : ids ⊆ graph.taskIds
  visited : ∀ (i : ℕ) t, graph.taskIds[i]? = some t → (t ∈ ids ↔ i ∈ s.queued.take ids.length)

/-- What a finished traversal has visited. -/
structure Exhausted (graph : TaskGraph) (ids : List TaskId) : Prop where
  ordered : Topological graph.Requires ids
  declared : ids ⊆ graph.taskIds
  rest : ∀ t ∈ graph.taskIds, t ∉ ids → ∃ p ∈ graph.taskIds, p ∉ ids ∧ graph.Requires p t

theorem not_mem_take {α : Type} {l : List α} (h : l.Nodup) {k : ℕ} {a : α} (hk : l[k]? = some a) : a ∉ l.take k := by
  obtain ⟨hlt, rfl⟩ := List.getElem?_eq_some_iff.mp hk
  intro hmem
  obtain ⟨j, hj, hja⟩ := List.mem_take_iff_getElem.mp hmem
  have hjk := (List.Nodup.getElem_inj_iff h).mp hja
  omega

section Traverse

variable {graph : TaskGraph} {s : Traversal} {ids : List TaskId}

/-- The next task of the queue: it is new, and its prerequisites were visited. -/
theorem Traversal.Visited.next (h : s.Visited graph ids) (hlt : ids.length < s.queueLength) :
    ∃ i node, s.queue[ids.length]? = some i ∧ s.queued[ids.length]? = some i ∧ graph.nodes[i]? = some node ∧
      graph.taskIds[i]? = some node.id ∧ node.id ∉ ids ∧ ∀ p, graph.Requires p node.id → p ∈ ids := by
  have hlen : ids.length < s.queued.length := by rw [h.used]; exact hlt
  obtain ⟨i, hi⟩ : ∃ i, s.queued[ids.length]? = some i := ⟨_, List.getElem?_eq_getElem hlen⟩
  have hqueue : s.queue[ids.length]? = some i := by
    rw [Traversal.queued, List.getElem?_take_of_lt hlt] at hi
    exact hi
  have hzero : s.counts[i]? = some 0 := (h.queued i).mp (List.mem_of_getElem? hi)
  have hlti : i < graph.taskIds.length := by
    rw [TaskGraph.length_taskIds, ← h.length]
    exact (List.getElem?_eq_some_iff.mp hzero).1
  obtain ⟨node, hnode, hid⟩ := TaskGraph.taskIds_getElem?.mp (List.getElem?_eq_getElem hlti)
  have hti : graph.taskIds[i]? = some node.id := TaskGraph.taskIds_getElem?.mpr ⟨node, hnode, rfl⟩
  refine ⟨i, node, hqueue, hi, hnode, hti, ?_, ?_⟩
  · rw [h.visited i _ hti]
    exact not_mem_take h.nodup hi
  · intro p hp
    have hcount : graph.incoming (graph.leaving ids) node.id = 0 :=
      Option.some.inj ((h.counts i _ hti).symm.trans hzero)
    have hgone := TaskGraph.incoming_eq_zero.mp hcount _ hp rfl
    exact of_decide_eq_true (List.mem_filter.mp hgone).2

theorem traverse_step {head visited i : ℕ} {node : TaskNode} {s' : Traversal} (hhead : head < s.queueLength)
    (hqueue : s.queue[head]? = some i) (hnode : graph.nodes[i]? = some node)
    (hrelease : releaseAll graph node s = .ok s') :
    traverse graph head visited s = traverse graph (head + 1) (visited + 1) s' := by
  rw [traverse, dif_pos hhead]
  simp only [hqueue, hnode]
  split
  · next h => cases h.symm.trans hrelease
  · next h =>
    cases h.symm.trans hrelease
    rfl

/-- A traversal ends, and has visited all it could. -/
theorem traverse_ok (hw : graph.WellFormed) {s : Traversal} {ids : List TaskId} (h : s.Visited graph ids)
    (hle : ids.length ≤ s.queueLength) :
    ∃ ids', traverse graph ids.length ids.length s = .ok ids'.length ∧ Exhausted graph ids' := by
  by_cases hlt : ids.length < s.queueLength
  · obtain ⟨i, node, hqueue, hi, hnode, hti, hnew, hpred⟩ := h.next hlt
    obtain ⟨s', hrelease, hinv, hprefix⟩ := releaseAll_ok hw h.toInvariant hnew
    have hlen : ids.length < s.queued.length := by rw [h.used]; exact hlt
    have hle' : s.queueLength ≤ s'.queueLength := by
      rw [← h.used, ← hinv.used]
      exact hprefix.length_le
    have htake : s'.queued.take (ids.length + 1) = s.queued.take ids.length ++ [i] := by
      obtain ⟨pushed, hpushed⟩ := hprefix
      rw [← hpushed, List.take_append_of_le_length hlen, List.take_add_one, hi]
      rfl
    have hvisited : s'.Visited graph (ids ++ [node.id]) := by
      refine ⟨hinv, h.ordered.concat hnew hpred, ?_, ?_⟩
      · intro t ht
        obtain ht | ht := List.mem_append.mp ht
        · exact h.declared ht
        · rw [List.mem_singleton.mp ht]
          exact List.mem_of_getElem? hti
      · intro j t hj
        rw [List.length_append, List.length_singleton, htake, List.mem_append, List.mem_append, h.visited j t hj,
          List.mem_singleton, List.mem_singleton]
        refine or_congr_right ⟨?_, ?_⟩
        · rintro rfl
          exact (List.getElem?_inj (List.getElem?_eq_some_iff.mp hj).1 hw.distinct).mp (hj.trans hti.symm)
        · rintro rfl
          exact Option.some.inj (hj.symm.trans hti)
    have hrec := traverse_ok hw hvisited (by rw [List.length_append, List.length_singleton]; omega)
    rw [List.length_append, List.length_singleton] at hrec
    rw [traverse_step hlt hqueue hnode hrelease]
    exact hrec
  · rw [traverse, dif_neg hlt]
    refine ⟨ids, rfl, h.ordered, h.declared, fun t ht hnot => ?_⟩
    obtain ⟨i, -, hi, hti⟩ := TaskGraph.exists_nodeIndex hw.distinct ht
    have hall : s.queued.take ids.length = s.queued := by
      rw [List.take_of_length_le]
      rw [h.used]
      omega
    have hcount : graph.incoming (graph.leaving ids) t ≠ 0 := by
      intro hzero
      have hqueued := (h.queued i).mpr ((h.counts i t hti).trans (congrArg some hzero))
      rw [h.visited i t hti, hall] at hnot
      exact hnot hqueued
    rw [Ne, TaskGraph.incoming_eq_zero, not_forall] at hcount
    simp only [not_forall] at hcount
    obtain ⟨d, hd, rfl, hstay⟩ := hcount
    refine ⟨d.prerequisite, (hw.declared d hd).1, fun hmem => hstay ?_, hd⟩
    exact List.mem_filter.mpr ⟨hd, decide_eq_true hmem⟩
termination_by graph.nodes.length - ids.length
decreasing_by
  have hsub := (hvisited.ordered.nodup.subperm hvisited.declared).length_le
  rw [List.length_append, List.length_singleton, TaskGraph.length_taskIds] at hsub
  rw [List.length_append, List.length_singleton]
  omega

end Traverse

/-! ### Validation -/

section Exact

variable {graph : TaskGraph} {scratch : GraphValidationScratch}

/-- A finished traversal has visited every task exactly when there is no cycle. -/
theorem Exhausted.length_eq_iff (hw : graph.WellFormed) {ids : List TaskId} (h : Exhausted graph ids) :
    ids.length = graph.nodes.length ↔ Acyclic graph.Requires := by
  constructor
  · intro hlength t hcycle
    have hperm := (h.ordered.nodup.subperm h.declared).perm_of_length_le (by simp [hlength])
    obtain ⟨p, -, hpt⟩ := TransGen.tail'_iff.mp hcycle
    have ht : t ∈ graph.taskIds := (hw.declared _ hpt).2
    exact h.ordered.not_reaches t (hperm.mem_iff.mpr ht) hcycle
  · intro hacyclic
    have hall : graph.taskIds ⊆ ids := by
      intro t ht
      by_contra hnot
      let rest := graph.taskIds.toFinset \ ids.toFinset
      have hmem : ∀ u, u ∈ rest ↔ u ∈ graph.taskIds ∧ u ∉ ids := by simp [rest]
      obtain ⟨u, hu, hmin⟩ := hacyclic.exists_minimal (s := rest) ⟨t, (hmem t).mpr ⟨ht, hnot⟩⟩
      obtain ⟨hu, hnew⟩ := (hmem u).mp hu
      obtain ⟨p, hp, hpnew, hreq⟩ := h.rest u hu hnew
      exact hmin p ((hmem p).mpr ⟨hp, hpnew⟩) hreq
    have h1 := (h.ordered.nodup.subperm h.declared).length_le
    have h2 := (hw.distinct.subperm hall).length_le
    rw [TaskGraph.length_taskIds] at h1 h2
    omega

/-- Once the dependencies are counted, only a cycle makes the traversal fail. -/
theorem sortGraph_of_counts (hw : graph.WellFormed) (hcounts : graph.nodes.length ≤ scratch.incomingCounts.length)
    (hqueue : graph.nodes.length ≤ scratch.queue.length) {counts : List ℕ}
    (hcount : graph.dependencies.foldlM (countIncoming graph)
      ((scratch.incomingCounts.take graph.nodes.length).map fun _ => 0) = .ok counts)
    (htable : Counted graph graph.dependencies counts) :
    ∃ ids, Exhausted graph ids ∧
      sortGraph graph scratch = Except.failIf (ids.length ≠ graph.nodes.length) .cycleDetected := by
  obtain ⟨s, hseed, hinv⟩ := seedQueue_loop htable.1 htable.all hqueue
  have hstart : s.Visited graph [] := by
    refine ⟨hinv.congr fun d hd => by simp [TaskGraph.leaving], .nil, List.nil_subset _, fun i t ht => ?_⟩
    simp
  obtain ⟨ids, htraverse, hids⟩ := traverse_ok hw hstart (Nat.zero_le _)
  rw [List.length_nil] at htraverse
  refine ⟨ids, hids, ?_⟩
  rw [sortGraph, Except.failIf, if_neg (not_lt.mpr hcounts), Except.ok_bind]
  simp only [hcount, hseed, htraverse, Except.ok_bind]

theorem counted_zeros (hcounts : graph.nodes.length ≤ scratch.incomingCounts.length) :
    Counted graph [] ((scratch.incomingCounts.take graph.nodes.length).map fun _ => 0) := by
  rw [List.map_const', List.length_take, min_eq_left hcounts]
  refine ⟨List.length_replicate, fun i t ht => ?_⟩
  have hi : i < graph.nodes.length := by simpa using (List.getElem?_eq_some_iff.mp ht).1
  simp [hi]

/-- After its checks the traversal finds out whether there is a cycle. -/
theorem sortGraph_eq (hedges : graph.dependencies.length ≤ u32Max) (hchecks : checkGraph graph scratch = .ok ()) :
    (Acyclic graph.Requires → sortGraph graph scratch = .ok ()) ∧
      (¬Acyclic graph.Requires → sortGraph graph scratch = .error .cycleDetected) := by
  obtain ⟨⟨hcounts, hqueue⟩, hw⟩ := checkGraph_eq_ok.mp hchecks
  have hzeros := counted_zeros hcounts
  obtain ⟨counts, hcount⟩ := countIncoming_loop_ok hw hedges hzeros
  obtain ⟨ids, hids, hsort⟩ :=
    sortGraph_of_counts hw hcounts hqueue hcount (countIncoming_loop hw hzeros hcount)
  rw [hsort, Except.failIf]
  constructor
  · intro hacyclic
    rw [if_neg]
    exact not_not.mpr ((hids.length_eq_iff hw).mpr hacyclic)
  · intro hcycle
    rw [if_pos]
    exact fun hlength => hcycle ((hids.length_eq_iff hw).mp hlength)

/-- A graph that passes its checks and has no cycle is accepted. -/
theorem validateGraph_ok (hedges : graph.dependencies.length ≤ u32Max) (hchecks : checkGraph graph scratch = .ok ())
    (hacyclic : Acyclic graph.Requires) : validateGraph graph scratch = .ok () := by
  rw [validateGraph, hchecks]
  exact (sortGraph_eq hedges hchecks).1 hacyclic

/-- An accepted graph is well formed and has no cycle, however many its
dependencies are. -/
theorem validateGraph_sound (h : validateGraph graph scratch = .ok ()) :
    graph.WellFormed ∧ Acyclic graph.Requires := by
  rw [validateGraph, Except.bind_eq_ok] at h
  obtain ⟨u, hchecks, hsort⟩ := h
  obtain ⟨⟨hcounts, hqueue⟩, hw⟩ := checkGraph_eq_ok.mp hchecks
  have hzeros := counted_zeros hcounts
  -- The dependencies were counted, since the traversal was reached.
  obtain ⟨counts, hcount⟩ : ∃ counts, graph.dependencies.foldlM (countIncoming graph)
      ((scratch.incomingCounts.take graph.nodes.length).map fun _ => 0) = .ok counts := by
    rw [sortGraph, Except.bind_eq_ok] at hsort
    obtain ⟨-, -, hsort⟩ := hsort
    obtain ⟨counts, hcount, -⟩ := Except.bind_eq_ok.mp hsort
    exact ⟨counts, hcount⟩
  obtain ⟨ids, hids, heq⟩ := sortGraph_of_counts hw hcounts hqueue hcount (countIncoming_loop hw hzeros hcount)
  rw [heq, Except.failIf_eq_ok, not_not] at hsort
  exact ⟨hw, (hids.length_eq_iff hw).mp hsort⟩

/-- Validation is exact, and its traversal can only report a cycle. -/
theorem validateGraph_exact (graph : TaskGraph) (scratch : GraphValidationScratch)
    (hedges : graph.dependencies.length < 2 ^ 32) (hcounts : graph.nodes.length ≤ scratch.incomingCounts.length)
    (hqueue : graph.nodes.length ≤ scratch.queue.length) :
    (validateGraph graph scratch = .ok () ↔ graph.WellFormed ∧ Acyclic graph.Requires) ∧
    (validateGraph graph scratch = .error .cycleDetected ↔ graph.WellFormed ∧ ¬Acyclic graph.Requires) ∧
    (checkGraph graph scratch = .ok () →
      sortGraph graph scratch = .ok () ∨ sortGraph graph scratch = .error .cycleDetected) := by
  have hmax : graph.dependencies.length ≤ u32Max := Nat.le_of_lt_succ hedges
  have hchecks : checkGraph graph scratch = .ok () ↔ graph.WellFormed := by
    rw [checkGraph_eq_ok]
    exact and_iff_right ⟨hcounts, hqueue⟩
  cases hcheck : checkGraph graph scratch with
  | error e =>
    have hill : ¬graph.WellFormed := fun h => by cases hcheck.symm.trans (hchecks.mpr h)
    have hne : e ≠ .cycleDetected := checkGraph_errors e hcheck
    simp [validateGraph, hcheck, hill, hne]
  | ok u =>
    have hw := hchecks.mp hcheck
    obtain ⟨hok, hcycle⟩ := sortGraph_eq hmax hcheck
    simp only [validateGraph, hcheck, Except.ok_bind, hw, true_and]
    by_cases hacyclic : Acyclic graph.Requires
    · simp [hok hacyclic, hacyclic]
    · simp [hcycle hacyclic, hacyclic]

/-- A draft and its review, in scratch with anything in it. -/
theorem validateGraph_exact_pair :
    let budget : TaskBudget := ⟨1024, 512, ⟨2, by decide, by decide⟩⟩
    let graph : TaskGraph := ⟨[⟨1, .draft, .preferredBackend 1, budget, ⟨.text, 4096⟩⟩,
      ⟨2, .review, .preferredBackend 1, budget, ⟨.text, 4096⟩⟩], [⟨1, 2⟩]⟩
    validateGraph graph ⟨[7, 9], [5, 5, 5]⟩ = .ok () := by
  intro budget graph
  refine (validateGraph_exact graph ⟨[7, 9], [5, 5, 5]⟩ (by decide) (by decide) (by decide)).1.mpr ⟨?_, ?_⟩
  · exact ⟨by decide, by decide, by decide, by decide⟩
  · refine Acyclic.of_rank id fun p t h => ?_
    obtain ⟨rfl, rfl⟩ := TaskDependency.mk.inj (List.mem_singleton.mp h)
    decide

end Exact

end LlmApp
