/-
# Active workspaces belong to tasks

The registry counts the workspace of a generation twice: in the slot of its
model while the request is active, and in the total over the scheduler's tasks.
A task outlives its request, so the workspace of an active request is that of
its task (`Covered`), and what one slot has reserved is a part of what the
whole registry has (`Covered.slot_part`).

Only shutdown drops the tasks of active requests, and a registry that is
shutting down admits nothing any more.

Key definitions: `GenerationScheduler.cover`, `Covered`.
Key theorems: `Covered.startGeneration`, `Covered.advance`, `Covered.slot_part`,
`Worker.run_covered`.
-/
import LlmApp.Worker.Grammar

namespace LlmApp

open InferenceRuntime

variable {σ Source τ : Type} (b : Backend σ Source) (s : Sampling τ)

/-- The workspace of each task. -/
def GenerationScheduler.cover (sch : GenerationScheduler τ) (r : RequestId) : Option MemoryFootprint :=
  (sch.requests.get? r).map fun task => task.workspaceFootprint

/-- Unless the registry is shutting down, an active request with a workspace is
one of a task with that workspace. -/
def Covered (rt : InferenceRuntime σ) (cover : RequestId → Option MemoryFootprint) : Prop :=
  rt.shuttingDown = false → ∀ m r q, rt.active (m, r) = some q →
    q.workspaceFootprint = 0 ∨ cover r = some q.workspaceFootprint

namespace GenerationScheduler

variable (sch : GenerationScheduler τ)

theorem cover_insert (r : RequestId) (task : GenerationTask τ) (cursor : Option RequestId) :
    (⟨sch.requests.insert r task, cursor⟩ : GenerationScheduler τ).cover =
      Function.update sch.cover r (some task.workspaceFootprint) := by
  funext r'
  by_cases hr : r' = r
  · simp [cover, hr]
  · simp [cover, hr]

/-- A task that keeps its workspace keeps the cover. -/
theorem cover_replace {r : RequestId} {task task' : GenerationTask τ} (hr : sch.requests.get? r = some task)
    (hw : task'.workspaceFootprint = task.workspaceFootprint) (cursor : Option RequestId) :
    (⟨sch.requests.insert r task', cursor⟩ : GenerationScheduler τ).cover = sch.cover := by
  rw [cover_insert, Function.update_eq_self_iff, cover, hr, Option.map_some, hw]

theorem cover_requestCancellation (r : RequestId) (reason : CancellationReason) :
    (sch.requestCancellation r reason).2.cover = sch.cover := by
  unfold requestCancellation
  split
  · rfl
  next task hr =>
    refine sch.cover_replace hr ?_ _
    rfl

theorem cover_requestModelCancellation (m : ModelId) (reason : CancellationReason) :
    (sch.requestModelCancellation m reason).cover = sch.cover := by
  funext r
  rw [cover, requestModelCancellation_get?, Option.map_map, cover]
  refine congrArg (fun f => Option.map f (sch.requests.get? r)) (funext fun task => ?_)
  rw [Function.comp_apply]
  split_ifs <;> rfl

end GenerationScheduler

namespace Covered

variable {rt rt' : InferenceRuntime σ} {cover cover' : RequestId → Option MemoryFootprint}

theorem of_shuttingDown (h : rt.shuttingDown = true) : Covered rt cover := by
  intro hopen
  rw [h] at hopen
  cases hopen

/-- A change that admits no workspace keeps what covers the requests. -/
theorem transition (h : Covered rt cover) {effect : WorkspaceEffect} (ht : Transition effect rt rt')
    (heffect : ∀ w, effect ≠ .reserve w) : Covered rt' cover := by
  intro hopen m r q' hq'
  have hopen' : rt.shuttingDown = false := by
    by_contra hclosed
    rw [ht.shuttingDown_stays (by simpa using hclosed)] at hopen
    cases hopen
  obtain ⟨q, hq, -, hw⟩ | ⟨-, hzero | hreserve⟩ := ht.active_cases hq'
  · rw [← hw]
    exact h hopen' m r q hq
  · exact Or.inl hzero
  · exact absurd hreserve (heffect _)

theorem steps (h : Covered rt cover) (hs : Steps rt rt') : Covered rt' cover := by
  induction hs with
  | refl => exact h
  | tail _ ht ih => exact ih.transition ht nofun

theorem releaseGenerationWorkspace (h : Covered rt cover) (w : MemoryFootprint) :
    Covered (rt.releaseGenerationWorkspace w).2 cover := by
  obtain ⟨e, he⟩ | ⟨-, ht⟩ := releaseGenerationWorkspace_step rt w
  · rw [he]
    exact h
  · exact h.transition ht nofun

/-- The cover of an inactive request may change. -/
theorem change (h : Covered rt cover) (hi : Consistent rt) {r : RequestId} (hr : rt.requestIndex.get? r = none)
    (hsame : ∀ r', r' ≠ r → cover' r' = cover r') : Covered rt cover' := by
  intro hopen m r' q hq
  have hne : r' ≠ r := by
    rintro rfl
    rw [hi.active_none hr] at hq
    cases hq
  rw [hsame r' hne]
  exact h hopen m r' q hq

/-- A start that returns `Ok` is covered by a task with its workspace. -/
theorem start (h : Covered rt cover) (hi : Consistent rt) {handle : ModelHandle} {r : RequestId}
    {sequenceId : SequenceId} {configuration : SequenceConfiguration} {w : MemoryFootprint} {capacity : Option ℕ}
    {receipt : RequestStartReceipt}
    (hstart : rt.startRequestWithReservation b handle r sequenceId configuration w capacity = (.ok receipt, rt')) :
    Covered rt' (Function.update cover r (some w)) := by
  obtain ⟨slot, slot', q, hm, hrequests, hmodels, hw, hr, hclosed⟩ := startRequestWithReservation_admits b hstart
  have hactive : rt'.active = Function.update rt.active (handle.id, r) (some q) := by
    rw [InferenceRuntime.active, hmodels, OrdMap.nested_insert hm hrequests]
    rfl
  intro hopen m r' q' hq'
  rw [hclosed] at hopen
  rw [hactive] at hq'
  by_cases hr' : r' = r
  · subst hr'
    by_cases hm' : m = handle.id
    · subst hm'
      rw [Function.update_self] at hq'
      obtain rfl := Option.some.inj hq'
      exact Or.inr (by rw [Function.update_self, hw])
    · rw [Function.update_of_ne (by simp [hm']), hi.active_none hr] at hq'
      cases hq'
  · rw [Function.update_of_ne (by simp [hr'])] at hq'
    rw [Function.update_of_ne hr']
    exact h hopen m r' q' hq'

/-! ### The scheduler -/

/-- The registry's half of an admission is covered by the task to come, or
admits nothing. -/
theorem startGeneration (h : Covered rt cover) (hrt : Reached rt) (allocates : CapacityResource → Bool)
    (handle : ModelHandle) (request : GenerationRequest) (requiredSequence vocabularySize : ℕ) (w : MemoryFootprint) :
    let answer := GenerationScheduler.startGeneration b rt allocates handle request requiredSequence vocabularySize w
    Covered answer.2 (bif answer.1.isOk then Function.update cover request.requestId (some w) else cover) := by
  have hpre := preflightGenerationResources_steps b rt handle request.requestId request.sequenceId
    request.sequence w vocabularySize
  unfold GenerationScheduler.startGeneration
  generalize rt.preflightGenerationResources b handle request.requestId request.sequenceId request.sequence w
    vocabularySize = answer at hpre
  obtain ⟨_ | _, rt₁⟩ := answer
  · exact h.steps hpre
  have h₁ : Covered rt₁ cover := h.steps hpre
  have hrt₁ : Reached rt₁ := hrt.steps hpre
  dsimp only
  split
  · exact h₁
  have hsteps := startRequestWithReservation_steps b hrt₁.consistent handle request.requestId
    request.sequenceId request.sequence w (some vocabularySize) (by simp)
  have hadmits : ∀ receipt rt₂, rt₁.startRequestWithReservation b handle request.requestId request.sequenceId
      request.sequence w (some vocabularySize) = (.ok receipt, rt₂) →
        Covered rt₂ (Function.update cover request.requestId (some w)) :=
    fun _ _ heq => h₁.start b hrt₁.consistent heq
  unfold startGenerationRequest
  generalize rt₁.startRequestWithReservation b handle request.requestId request.sequenceId request.sequence w
    (some vocabularySize) = answer at hsteps hadmits
  obtain ⟨e | receipt, rt₂⟩ := answer
  · obtain ⟨-, hs⟩ | ⟨⟨_, he⟩, -⟩ := hsteps
    · exact h₁.steps hs
    · cases he
  have h₂ : Covered rt₂ (Function.update cover request.requestId (some w)) := hadmits receipt rt₂ rfl
  dsimp only
  by_cases hvocabulary : receipt.logitsCapacity ≠ vocabularySize
  · -- The request is removed again, so the cover may be what it was.
    rw [if_pos hvocabulary]
    have hrt₂ : Reached rt₂ := by
      obtain ⟨⟨_, he⟩, -⟩ | ⟨-, mid, hs, ht⟩ := hsteps
      · cases he
      · exact (hrt₁.steps hs).tail ht
    have hf := removeRequest_steps b hrt₂.consistent request.requestId .sequenceAdmission
      RuntimeError.backendContractViolation.failureClass
    have hends := hrt₂.removeRequest_ends b request.requestId .sequenceAdmission
      RuntimeError.backendContractViolation.failureClass
    unfold failRequest
    generalize rt₂.removeRequest b request.requestId .sequenceAdmission
      RuntimeError.backendContractViolation.failureClass = answer at hf hends
    obtain ⟨cleanup, rt₃⟩ := answer
    have h₃ : Covered rt₃ cover :=
      (h₂.steps hf).change (hrt₂.steps hf).consistent hends fun r' hr' => (Function.update_of_ne hr' ..).symm
    have h₄ := h₃.releaseGenerationWorkspace w
    dsimp only
    generalize rt₃.releaseGenerationWorkspace w = answer at h₄
    obtain ⟨_ | _, rt₄⟩ := answer
    · exact h₄
    · dsimp only
      split <;> exact h₄
  · rw [if_neg hvocabulary]
    exact h₂

section Scheduler

variable {sch : GenerationScheduler τ}

theorem admitGeneration (h : Covered rt sch.cover) (hrt : Reached rt) (capacities : ℕ × ℕ)
    (allocates : CapacityResource → Bool) (handle : ModelHandle) (request : GenerationRequest) :
    Covered (sch.admitGeneration b s rt capacities allocates handle request).2.2
      (sch.admitGeneration b s rt capacities allocates handle request).2.1.cover := by
  unfold GenerationScheduler.admitGeneration
  split_ifs
  · exact h
  split
  · exact h
  next requiredSequence _ =>
  split
  · exact h
  next vocabularySize sampler w _ =>
  have hstarted := h.startGeneration b hrt allocates handle request requiredSequence vocabularySize w
  generalize GenerationScheduler.startGeneration b rt allocates handle request requiredSequence vocabularySize w =
    answer at hstarted
  obtain ⟨_ | receipt, rt'⟩ := answer
  · exact hstarted
  · dsimp only
    rw [sch.cover_insert]
    exact hstarted

/-- A turn of a task keeps the cover, and its last turn finds it inactive. -/
theorem advance (h : Covered rt sch.cover) (ha : Accounted rt sch)
    (hsound : ∀ r task, sch.requests.get? r = some task → task.Sound rt r)
    (output : TokenOutput GenerationOutputState) :
    Covered (sch.advance b s rt output).runtime (sch.advance b s rt output).scheduler.cover := by
  unfold GenerationScheduler.advance
  split
  · exact h
  next r _ =>
  dsimp only
  split
  · exact h
  next task hr =>
  have hw := advanceTask_worked b s r task ha.consistent output
  have hcover := sch.cover_replace hr hw.same.workspaceFootprint (some r)
  have hturn := h.steps hw.steps
  rw [← hcover] at hturn
  split_ifs with hc
  · -- Only a terminal task completes.
    rcases hphase : task.phase with _ | _ | terminal
    case terminal =>
      have hinactive : (advanceTask b s rt r task output).runtime.requestIndex.get? r = none := by
        rw [advanceTask_terminal b s hphase output]
        exact ((hsound r task hr).ended hphase).inactive
      have hleft : Covered (advanceTask b s rt r task output).runtime
          (⟨sch.requests.erase r, some r⟩ : GenerationScheduler τ).cover := by
        refine hturn.change (hw.steps.consistent ha.consistent) hinactive fun r' hr' => ?_
        simp [GenerationScheduler.cover, hr']
      unfold GenerationScheduler.finishTask
      have hdone := hleft.releaseGenerationWorkspace (advanceTask b s rt r task output).task.workspaceFootprint
      dsimp only
      rw [OrdMap.erase_insert]
      split
      · next heq => rwa [heq] at hdone
      · next heq =>
        rw [heq] at hdone
        exact hdone.steps (.noted _ _ _ _ id)
    all_goals
      have hworking : task.phase.working = true := by rw [hphase]; rfl
      rw [working_completed b s hworking output] at hc
      cases hc
  · exact hturn

/-- While the registry is open, what a slot has reserved is a part of the total. -/
theorem slot_part (h : Covered rt sch.cover) (ha : Accounted rt sch) (hopen : rt.shuttingDown = false)
    {m : ModelId} {slot : ModelSlot} (hm : rt.models.get? m = some slot) :
    ∃ rest, slot.reservedFootprint + rest = rt.reservedFootprint := by
  have hi := ha.consistent
  obtain ⟨rest, hrest⟩ : ∃ rest, slot.requests.total (fun _ q => q.workspaceFootprint) + rest =
      sch.requests.total fun _ task => task.workspaceFootprint := by
    refine OrdMap.exists_total_add fun r q hq => (h hopen m r q (OrdMap.nested_of_get? hm hq)).imp_right fun hcover => ?_
    obtain ⟨task, htask, hw⟩ := Option.map_eq_some_iff.mp hcover
    exact ⟨task, htask, hw⟩
  refine ⟨(rt.models.erase m).total (fun _ slot => slot.backendTotal) +
    rt.pendingModels.total (fun _ p => p.footprint) + rest, ?_⟩
  rw [hi.reserved, backendTotal, OrdMap.total_erase _ hm, ha.counters.2, ← hrest, (hi.slot hm).reserved,
    ModelSlot.backendTotal, OrdMap.total_add]
  ac_rfl

end Scheduler

end Covered

/-! ### The engine -/

section Shutdown

variable {rt : InferenceRuntime σ}

theorem Steps.shuttingDown_stays {rt' : InferenceRuntime σ} (h : Steps rt rt') (hclosed : rt.shuttingDown = true) :
    rt'.shuttingDown = true := by
  induction h with
  | refl => exact hclosed
  | tail _ ht ih => exact ht.shuttingDown_stays ih

theorem shutdown_closes (hi : Consistent rt) : (rt.shutdown b).2.shuttingDown = true := by
  have hnoted : Steps rt { rt with shuttingDown := true } :=
    .noted rt rt.lastCleanup rt.maintenanceError true fun _ => rfl
  have hpass := shutdownModels_steps b rt.models.keys 0 (hnoted.consistent hi)
  have hafter := shutdown_after_steps b (hpass.consistent (hnoted.consistent hi))
  exact (hpass.trans hafter).shuttingDown_stays rfl

theorem releaseAll_closed : ∀ (tasks : List (GenerationTask τ)) (first : Option RuntimeError)
    {rt : InferenceRuntime σ}, rt.shuttingDown = true →
    (GenerationScheduler.releaseAll tasks first rt).2.shuttingDown = true
  | [], none, _, h => h
  | [], some _, _, h => h
  | task :: tasks, first, rt, h => by
    have hreleased : (rt.releaseGenerationWorkspace task.workspaceFootprint).2.shuttingDown = true := by
      obtain ⟨e, he⟩ | ⟨-, ht⟩ := releaseGenerationWorkspace_step rt task.workspaceFootprint
      · rw [he]
        exact h
      · exact ht.shuttingDown_stays h
    unfold GenerationScheduler.releaseAll
    generalize rt.releaseGenerationWorkspace task.workspaceFootprint = answer at hreleased
    obtain ⟨_ | _, rt'⟩ := answer
    · exact releaseAll_closed tasks _ hreleased
    · exact releaseAll_closed tasks first hreleased

theorem dispatchShutdown_closes (hi : Consistent rt) (sch : GenerationScheduler τ) (ticket : CommandTicket) :
    (dispatchShutdown b rt sch ticket).runtime.shuttingDown = true := by
  have hclosed := shutdown_closes b hi
  unfold dispatchShutdown
  generalize rt.shutdown b = answer at hclosed
  obtain ⟨result, rt'⟩ := answer
  have hreleased := releaseAll_closed sch.requests.values none hclosed
  unfold GenerationScheduler.discardAll
  dsimp only
  generalize GenerationScheduler.releaseAll sch.requests.values none rt' = answer at hreleased
  obtain ⟨_ | _, rt''⟩ := answer
  · cases result <;> exact hreleased
  · exact hreleased

end Shutdown

/-- Every command keeps the cover. -/
theorem Covered.dispatch {rt : InferenceRuntime σ} {sch : GenerationScheduler τ} (h : Covered rt sch.cover)
    (hrt : Reached rt) (capacities : ℕ × ℕ) (allocates : CapacityResource → Bool) (now : MonotonicMillis)
    (command : RuntimeCommand Source) :
    Covered (LlmApp.dispatch b s rt sch capacities allocates now command).runtime
      (LlmApp.dispatch b s rt sch capacities allocates now command).scheduler.cover := by
  have hi := hrt.consistent
  cases command with
  | loadModel ticket m source device kind => exact h.steps (loadModel_steps b rt m source device kind)
  | startRequest ticket handle r sequenceId configuration =>
    unfold LlmApp.dispatch
    dsimp only
    split_ifs
    · exact h
    · obtain ⟨-, hs⟩ | ⟨-, mid, hs, ht⟩ :=
        startRequestWithReservation_steps b hi handle r sequenceId configuration 0 none fun _ => rfl
      · exact h.steps hs
      · exact h.steps (hs.tail ht)
  | generate ticket handle request => exact h.admitGeneration b s hrt capacities allocates handle request
  | prefill ticket r tokens emitLogits logits => exact h.steps (prefill_steps b hi r tokens emitLogits logits)
  | decode ticket r token logits => exact h.steps (decode_steps b hi r token logits)
  | completeRequest ticket r reason => exact h.steps (completeRequest_steps b hi r reason)
  | cancelRequest ticket r reason =>
    unfold LlmApp.dispatch
    dsimp only
    split_ifs
    · rw [sch.cover_requestCancellation r reason]
      exact h
    · exact h.steps (cancelRequest_steps b hi r reason)
  | unloadModel ticket handle policy =>
    have hunload := h.steps (unloadModel_steps b hi handle policy now)
    unfold LlmApp.dispatch
    dsimp only
    split_ifs
    · rw [sch.cover_requestModelCancellation handle.id]
      exact hunload
    · exact hunload
  | snapshot ticket => exact h
  | shutdown ticket => exact .of_shuttingDown (dispatchShutdown_closes b hi sch ticket)

def Engine.Covered (e : Engine σ τ) : Prop := LlmApp.Covered e.runtime e.scheduler.cover

theorem EngineAction.apply_covered (action : EngineAction Source) {e : Engine σ τ} (h : e.Covered)
    (ha : e.Accounted) (hs : e.Sound) : (action.apply b s e).Covered := by
  have hrt : Reached e.runtime := LlmApp.Accounted.reached ha
  have hi := hrt.consistent
  cases action with
  | cleanup => exact LlmApp.Covered.steps h (maintainCleanup_steps b hi)
  | maintain now expired =>
    have hpolled := LlmApp.Covered.steps h (pollUnloadTransition_steps b hi now)
    cases expired with
    | none => exact hpolled
    | some m =>
      rw [← e.scheduler.cover_requestModelCancellation m .drainTimeout] at hpolled
      exact hpolled
  | command command allocates now => exact LlmApp.Covered.dispatch b s h hrt _ allocates now command
  | advance => exact LlmApp.Covered.advance b s h ha hs e.output
  | disconnect => exact LlmApp.Covered.steps h (shutdown_steps b hi)

/-- In every state of a run the tasks cover the active requests. -/
theorem Worker.run_covered (loader : σ) (limits : RuntimeLimits) (output : TokenOutput GenerationOutputState)
    (eventBacklogCapacity : ℕ) (inputs : List (WorkerInput Source)) :
    let w : Worker σ τ := Worker.run b s inputs (Worker.start loader limits output eventBacklogCapacity)
    w.engine.Accounted ∧ w.engine.Covered := by
  intro w
  have hrun : (w.engine.Accounted ∧ w.engine.Sound) ∧ w.engine.Covered := by
    refine Worker.run_keeps b s (P := fun e => (e.Accounted ∧ e.Sound) ∧ e.Covered)
      (fun action e h => ⟨⟨action.apply_accounted b s h.1.1, action.apply_sound b s h.1.1 h.1.2⟩,
        action.apply_covered b s h.2 h.1.1 h.1.2⟩) inputs ⟨⟨?_, ?_⟩, ?_⟩
    · exact Worker.start_accounted loader limits output eventBacklogCapacity
    · exact Worker.start_sound loader limits output eventBacklogCapacity
    · intro _ m r q hq
      simp [InferenceRuntime.active, OrdMap.nested, Worker.engine, Worker.start, InferenceRuntime.new] at hq
  exact ⟨hrun.1.1, hrun.2⟩

end LlmApp
