/-
# Generation workspaces over worker runs

Every action of the engine keeps the account between the scheduler's tasks and
the registry's reservations, whatever the backend answers. So in every state
of every run of the worker the two counters are those of the tasks, and each
release the worker makes is of a workspace that is reserved.

Key theorems: `EngineAction.apply_accounted`, `generation_workspace_accounting`.
-/
import LlmApp.Generation.Accounts
import LlmApp.Generation.Publication
import LlmApp.Worker.Engine

namespace LlmApp

open InferenceRuntime

variable {σ Source τ : Type} (b : Backend σ Source) (s : Sampling τ)

theorem maintainCleanup_steps {rt : InferenceRuntime σ} (hi : Consistent rt) :
    Steps rt (rt.maintainCleanup b) := by
  have hs := pollCleanup_steps b hi
  unfold InferenceRuntime.maintainCleanup
  generalize rt.pollCleanup b = answer at hs ⊢
  obtain ⟨_ | _, rt'⟩ := answer
  · exact hs.trans (.noted rt' _ _ _ id)
  · exact hs

section Dispatch

variable {rt : InferenceRuntime σ} {sch : GenerationScheduler τ}

theorem Accounted.dispatchShutdown (h : Accounted rt sch) (ticket : CommandTicket) :
    Accounted (dispatchShutdown b rt sch ticket).runtime (dispatchShutdown b rt sch ticket).scheduler := by
  have hs := shutdown_steps b h.consistent
  unfold LlmApp.dispatchShutdown
  generalize rt.shutdown b = answer at hs ⊢
  obtain ⟨result, rt'⟩ := answer
  obtain ⟨hok, hnew, hd⟩ := (h.steps hs).discardAll
  dsimp only at hok hnew hd ⊢
  generalize sch.discardAll rt' = discarded at hok hnew hd ⊢
  obtain ⟨_ | _, sch', rt''⟩ := discarded
  · cases hok
  · cases hnew
    exact hd

/-- Every command keeps the account. -/
theorem Accounted.dispatch (h : Accounted rt sch) (capacities : ℕ × ℕ)
    (allocates : CapacityResource → Bool) (now : MonotonicMillis) (command : RuntimeCommand Source) :
    Accounted (dispatch b s rt sch capacities allocates now command).runtime
      (dispatch b s rt sch capacities allocates now command).scheduler := by
  have hi := h.consistent
  cases command with
  | loadModel ticket m source device kind => exact h.steps (loadModel_steps b rt m source device kind)
  | startRequest ticket handle r sequenceId configuration =>
    unfold LlmApp.dispatch
    dsimp only
    split_ifs
    · exact h
    · rcases startRequestWithReservation_steps b hi handle r sequenceId configuration 0 none (fun _ => rfl)
        with ⟨-, hs⟩ | ⟨-, mid, hs, ht⟩
      · exact h.steps hs
      · exact h.steps (hs.tail ht)
  | generate ticket handle request => exact h.admitGeneration b s capacities allocates handle request
  | prefill ticket r tokens emitLogits logits => exact h.steps (prefill_steps b hi r tokens emitLogits logits)
  | decode ticket r token logits => exact h.steps (decode_steps b hi r token logits)
  | completeRequest ticket r reason => exact h.steps (completeRequest_steps b hi r reason)
  | cancelRequest ticket r reason =>
    unfold LlmApp.dispatch
    dsimp only
    split_ifs
    · exact h.same (sch.workspaces_requestCancellation r reason)
    · exact h.steps (cancelRequest_steps b hi r reason)
  | unloadModel ticket handle policy =>
    unfold LlmApp.dispatch
    dsimp only
    refine Accounted.same (h.steps (unloadModel_steps b hi handle policy now)) ?_
    split_ifs
    · exact sch.workspaces_requestModelCancellation handle.id _
    · rfl
  | snapshot ticket => exact h
  | shutdown ticket => exact h.dispatchShutdown b ticket

end Dispatch

def Engine.Accounted (e : Engine σ τ) : Prop := LlmApp.Accounted e.runtime e.scheduler

theorem EngineAction.apply_accounted (action : EngineAction Source) {e : Engine σ τ} (h : e.Accounted) :
    (action.apply b s e).Accounted := by
  have hi := LlmApp.Accounted.consistent h
  cases action with
  | cleanup => exact LlmApp.Accounted.steps h (maintainCleanup_steps b hi)
  | maintain now expired =>
    refine LlmApp.Accounted.same (LlmApp.Accounted.steps h (pollUnloadTransition_steps b hi now)) ?_
    cases expired with
    | none => rfl
    | some m => exact e.scheduler.workspaces_requestModelCancellation m _
  | command command allocates now => exact LlmApp.Accounted.dispatch b s h _ allocates now command
  | advance => exact LlmApp.Accounted.advance b s h e.output
  | disconnect => exact LlmApp.Accounted.steps h (shutdown_steps b hi)

theorem Worker.run_accounted (inputs : List (WorkerInput Source)) {w : Worker σ τ} (h : w.engine.Accounted) :
    (Worker.run b s inputs w).engine.Accounted :=
  Worker.run_keeps b s (fun action _ h => action.apply_accounted b s h) inputs h

theorem Worker.start_accounted (loader : σ) (limits : RuntimeLimits)
    (output : TokenOutput GenerationOutputState) (eventBacklogCapacity : ℕ) :
    (Worker.start (τ := τ) loader limits output eventBacklogCapacity).engine.Accounted :=
  ⟨.new loader limits, outstanding_new loader limits⟩

/-! ### The account -/

section Rollback

variable {rt : InferenceRuntime σ} {sch : GenerationScheduler τ}

/-- The workspace of an admission that is rolled back can be released. -/
theorem Accounted.rollback (h : Accounted rt sch) {allocated : InferenceRuntime σ} (hs : Steps rt allocated)
    {handle : ModelHandle} {r : RequestId} {sequenceId : SequenceId} {configuration : SequenceConfiguration}
    {w : MemoryFootprint} {capacity : ℕ} {receipt : RequestStartReceipt} {started : InferenceRuntime σ}
    (hstart : allocated.startGenerationRequest b handle r sequenceId configuration w capacity =
      (.ok receipt, started)) (operation : RuntimeOperation) (failure : FailureClass) :
    ((started.failRequest b r operation failure).2.releaseGenerationWorkspace w).1 = .ok () := by
  have h' := h.steps hs
  unfold startGenerationRequest at hstart
  rcases startRequestWithReservation_steps b h'.consistent handle r sequenceId configuration w
    (some capacity) (by simp) with ⟨⟨e, he⟩, -⟩ | ⟨-, mid, hmid, ht⟩
  · rw [hstart] at he
    cases he
  rw [hstart] at ht
  have hi := ((h'.steps hmid).reached.tail ht).consistent
  have hf := removeRequest_steps b hi r operation failure
  exact releaseGenerationWorkspace_ok (hf.consistent hi)
    (hf.outstanding (ht.outstanding_reserve (hmid.outstanding h'.outstanding)))

end Rollback

/-- A turn that publishes `Released` takes its task out of the scheduler. -/
theorem released_leaves {sch : GenerationScheduler τ} (rt : InferenceRuntime σ)
    (output : TokenOutput GenerationOutputState) {r : RequestId} {outcome : GenerationOutcome}
    (h : (sch.advance b s rt output).output.published =
      output.published ++ [(r, .state (.released outcome))]) :
    (sch.advance b s rt output).scheduler.requests.get? r = none := by
  unfold GenerationScheduler.advance at h ⊢
  split at h
  · simp at h
  next r' _ =>
  dsimp only at h ⊢
  split at h
  · simp at h
  next task _ =>
  have hout : (advanceTask b s rt r' task output).output.published =
      output.published ++ [(r, .state (.released outcome))] := by
    split_ifs at h <;> exact h
  obtain ⟨rfl, hc⟩ := released_completes rt r' b s task output hout
  rw [if_pos hc]
  simp

/-- In every state of a run the workspace counters are those of the tasks, and
they are zero once there are none or the tasks are discarded. The releases at
the end of a task, of discarded tasks and of an admission that is rolled back
succeed; a failed admission leaves the counters; a task leaves the scheduler
with the turn that publishes `Released`. -/
theorem generation_workspace_accounting (loader : σ) (limits : RuntimeLimits)
    (output : TokenOutput GenerationOutputState) (eventBacklogCapacity : ℕ)
    (inputs : List (WorkerInput Source)) :
    let w : Worker σ τ := Worker.run b s inputs (Worker.start loader limits output eventBacklogCapacity)
    (w.runtime.generationWorkspaces = w.scheduler.requests.size ∧ w.runtime.reservedGenerationWorkspace =
      w.scheduler.requests.total fun _ task => task.workspaceFootprint) ∧
    (w.scheduler.requests.isEmpty = true →
      w.runtime.generationWorkspaces = 0 ∧ w.runtime.reservedGenerationWorkspace = 0) ∧
    (∀ r task, w.scheduler.requests.get? r = some task →
      let turn := advanceTask b s w.runtime r task w.output
      (turn.runtime.releaseGenerationWorkspace turn.task.workspaceFootprint).1 = .ok ()) ∧
    (∀ r outcome, (w.scheduler.advance b s w.runtime w.output).output.published =
        w.output.published ++ [(r, .state (.released outcome))] →
      (w.scheduler.advance b s w.runtime w.output).scheduler.requests.get? r = none) ∧
    (∀ rt, rt = w.runtime ∨ rt = (w.runtime.shutdown b).2 →
      let discarded := w.scheduler.discardAll rt
      discarded.1 = .ok () ∧ discarded.2.2.generationWorkspaces = 0 ∧
        discarded.2.2.reservedGenerationWorkspace = 0) ∧
    (∀ allocates handle request e,
      let admitted := w.scheduler.admitGeneration b s w.runtime w.output.capacities allocates handle request
      admitted.1 = .error e → admitted.2.1 = w.scheduler ∧
        admitted.2.2.generationWorkspaces = w.runtime.generationWorkspaces ∧
        admitted.2.2.reservedGenerationWorkspace = w.runtime.reservedGenerationWorkspace) ∧
    ∀ handle r sequenceId configuration footprint capacity receipt started operation failure,
      (w.runtime.preflightGenerationResources b handle r sequenceId configuration footprint
        capacity).2.startGenerationRequest b handle r sequenceId configuration footprint capacity =
        (.ok receipt, started) →
      ((started.failRequest b r operation failure).2.releaseGenerationWorkspace footprint).1 = .ok () := by
  intro w
  have h : Accounted w.runtime w.scheduler :=
    Worker.run_accounted b s inputs (Worker.start_accounted loader limits output eventBacklogCapacity)
  have hempty : ∀ rt : InferenceRuntime σ, Accounted rt (.new : GenerationScheduler τ) →
      rt.generationWorkspaces = 0 ∧ rt.reservedGenerationWorkspace = 0 := fun rt h => h.counters
  refine ⟨h.counters, fun he => ?_, fun r task hr => ?_, fun r outcome hp => ?_, fun rt hrt => ?_,
    fun allocates handle request e => ?_, ?_⟩
  · have hc := h.counters
    rwa [OrdMap.eq_empty_of_isEmpty he] at hc
  · exact ((h.turn b s hr none w.output).release (OrdMap.get?_insert_self ..)).1
  · exact released_leaves b s w.runtime w.output hp
  · have hrt' : Accounted rt w.scheduler := by
      rcases hrt with rfl | rfl
      · exact h
      · exact h.steps (shutdown_steps b h.consistent)
    obtain ⟨hok, -, hd⟩ := hrt'.discardAll
    exact ⟨hok, hempty _ hd⟩
  · intro admitted he
    have hsame := Accounted.admitGeneration_error b s he
    have hcounters := (h.admitGeneration b s w.output.capacities allocates handle request).counters
    rw [hsame, ← h.counters.1, ← h.counters.2] at hcounters
    exact ⟨hsame, hcounters⟩
  · intro handle r sequenceId configuration footprint capacity receipt started operation failure hstart
    exact h.rollback b (preflightGenerationResources_steps b w.runtime ..) hstart operation failure

end LlmApp
