/-
# What an action does to one generation

`Move` lists what one action of the engine can do to a scheduled generation:
pass it by, mark it for cancellation, take its turn, finish it, or discard it
with all the others. `Entry` is the same for a request that is not scheduled:
nothing, or its admission. Whatever passes a generation by makes nothing of
its request active or known (`Untouched`).

Key definitions: `records`, `Move`, `Entry`.
Key theorems: `EngineAction.move`, `EngineAction.entry`.
-/
import LlmApp.Runtime.Frame
import LlmApp.Worker.Accounts

namespace LlmApp

open InferenceRuntime

variable {σ Source τ : Type} (b : Backend σ Source) (s : Sampling τ)

/-! ### The registry -/

section Registry

variable {rt : InferenceRuntime σ} {r : RequestId}

/-- An operation that makes no sequence touches no request. -/
theorem Reached.untouched (h : Reached rt) {rt' : InferenceRuntime σ} (hs : Steps rt rt')
    (hmade : rt'.made = rt.made) (r : RequestId) : Untouched r rt rt' :=
  hs.untouched hmade r h.consistent

theorem maintainCleanup_kept (rt : InferenceRuntime σ) : (rt.maintainCleanup b).kept = rt.kept := by
  have hp := rt.pollCleanup_kept b
  unfold InferenceRuntime.maintainCleanup
  generalize rt.pollCleanup b = answer at hp ⊢
  obtain ⟨_ | _, rt'⟩ := answer <;> exact hp

theorem releaseGenerationWorkspace_untouched (h : Reached rt) (w : MemoryFootprint) (r : RequestId) :
    Untouched r rt (rt.releaseGenerationWorkspace w).2 := by
  have hmade := rt.releaseGenerationWorkspace_made w
  rcases releaseGenerationWorkspace_step rt w with ⟨e, he⟩ | ⟨-, ht⟩
  · rw [he]
    exact .refl r rt
  · exact ht.untouched hmade r h.consistent

theorem finishTask_untouched (h : Reached rt) (task : GenerationTask τ) (r : RequestId) :
    Untouched r rt (GenerationScheduler.finishTask rt task) := by
  have hu := releaseGenerationWorkspace_untouched h task.workspaceFootprint r
  unfold GenerationScheduler.finishTask
  generalize rt.releaseGenerationWorkspace task.workspaceFootprint = answer at hu ⊢
  obtain ⟨_ | _, rt'⟩ := answer
  · exact hu.trans (.of_same rfl rfl (fun _ => rfl) (fun _ => rfl) rfl)
  · exact hu

/-- The registry's half of the admission of another generation. -/
theorem startGeneration_untouched (h : Reached rt) (allocates : CapacityResource → Bool)
    (handle : ModelHandle) (request : GenerationRequest) (hne : r ≠ request.requestId)
    (requiredSequence vocabularySize : ℕ) (w : MemoryFootprint) :
    Untouched r rt (GenerationScheduler.startGeneration b rt allocates handle request requiredSequence
      vocabularySize w).2 := by
  have hpre := preflightGenerationResources_steps b rt handle request.requestId request.sequenceId
    request.sequence w vocabularySize
  have hu := h.untouched hpre (preflightGenerationResources_made b rt ..) r
  unfold GenerationScheduler.startGeneration
  generalize rt.preflightGenerationResources b handle request.requestId request.sequenceId request.sequence w
    vocabularySize = answer at hpre hu ⊢
  obtain ⟨_ | _, rt₁⟩ := answer
  · exact hu
  have h₁ := h.steps hpre
  dsimp only at hu ⊢
  split
  · exact hu
  have hstart := startRequestWithReservation_steps b h₁.consistent handle request.requestId
    request.sequenceId request.sequence w (some vocabularySize) (by simp)
  have hu₁ := hu.trans (startRequestWithReservation_untouched b rt₁ handle hne request.sequenceId
    request.sequence w (some vocabularySize))
  unfold startGenerationRequest
  generalize rt₁.startRequestWithReservation b handle request.requestId request.sequenceId request.sequence w
    (some vocabularySize) = answer at hstart hu₁ ⊢
  obtain ⟨e | receipt, rt₂⟩ := answer
  · exact hu₁
  have h₂ : Reached rt₂ := by
    rcases hstart with ⟨⟨_, he⟩, -⟩ | ⟨-, mid, hs, ht⟩
    · cases he
    · exact (h₁.steps hs).tail ht
  dsimp only
  split_ifs
  · have hf := removeRequest_steps b h₂.consistent request.requestId .sequenceAdmission
      RuntimeError.backendContractViolation.failureClass
    have hu₂ := hu₁.trans (h₂.untouched hf (kept_made (rt₂.removeRequest_kept b _ _ _)) r)
    unfold failRequest
    generalize rt₂.removeRequest b request.requestId .sequenceAdmission
      RuntimeError.backendContractViolation.failureClass = answer at hf hu₂ ⊢
    obtain ⟨cleanup, rt₃⟩ := answer
    have hu₃ := hu₂.trans (releaseGenerationWorkspace_untouched (h₂.steps hf) w r)
    dsimp only at hu₃ ⊢
    generalize rt₃.releaseGenerationWorkspace w = answer at hu₃ ⊢
    obtain ⟨_ | _, rt₄⟩ := answer
    · exact hu₃
    · dsimp only
      split <;> exact hu₃
  · exact hu₁

end Registry

/-! ### The moves -/

/-- The records published for a request, in their order. -/
def records (r : RequestId) (output : TokenOutput GenerationOutputState) :
    List (Publication GenerationOutputState) :=
  (output.published.filter (·.1 = r)).map (·.2)

theorem records_append {r r' : RequestId} {output output' : TokenOutput GenerationOutputState}
    {ps : List (Publication GenerationOutputState)}
    (h : output'.published = output.published ++ ps.map (r', ·)) :
    records r output' = records r output ++ if r' = r then ps else [] := by
  simp only [records, h, List.filter_append, List.map_append]
  congr 1
  split_ifs with hr
  · simp [hr, List.filter_map, Function.comp_def]
  · simp [hr, List.filter_map, Function.comp_def]

/-- What an action does to the scheduled generation `r` with task `task`. -/
inductive Move (r : RequestId) (task : GenerationTask τ) (e e' : Engine σ τ) : Prop
  | passed (hrt : Untouched r e.runtime e'.runtime) (htask : e'.scheduler.requests.get? r = some task)
      (hpub : records r e'.output = records r e.output)
  | marked (reason : CancellationReason) (hrt : Untouched r e.runtime e'.runtime)
      (htask : e'.scheduler.requests.get? r = some { task with cancellation := some reason })
      (hpub : records r e'.output = records r e.output)
  | turned (hc : (advanceTask b s e.runtime r task e.output).result.completed ≠ some r)
      (hrt : e'.runtime = (advanceTask b s e.runtime r task e.output).runtime)
      (htask : e'.scheduler.requests.get? r = some (advanceTask b s e.runtime r task e.output).task)
      (hout : e'.output = (advanceTask b s e.runtime r task e.output).output)
  | finished (hc : (advanceTask b s e.runtime r task e.output).result.completed = some r)
      (hrt : Untouched r (advanceTask b s e.runtime r task e.output).runtime e'.runtime)
      (htask : e'.scheduler.requests.get? r = none)
      (hout : e'.output = (advanceTask b s e.runtime r task e.output).output)
  | discarded (htask : e'.scheduler.requests.get? r = none)
      (hpub : records r e'.output = records r e.output)

/-- What an action does to a request that is not scheduled. -/
inductive Entry (r : RequestId) (e e' : Engine σ τ) : Prop
  | absent (htask : e'.scheduler.requests.get? r = none) (hpub : records r e'.output = records r e.output)
  | admitted {handle : ModelHandle} {request : GenerationRequest} {allocates : CapacityResource → Bool}
      (requiredSequence : ℕ) {vocabularySize : ℕ} {sampler : τ} {workspaceFootprint : MemoryFootprint}
      {receipt : RequestStartReceipt} (hr : request.requestId = r)
      (hcheck : checkRequest e.output.capacities request = .ok requiredSequence)
      (hprepare : prepareGeneration s e.runtime handle request requiredSequence =
        .ok (vocabularySize, sampler, workspaceFootprint))
      (hstart : GenerationScheduler.startGeneration b e.runtime allocates handle request requiredSequence
        vocabularySize workspaceFootprint = (.ok receipt, e'.runtime))
      (htask : e'.scheduler.requests.get? r = some
        (GenerationScheduler.newTask handle request vocabularySize sampler workspaceFootprint))
      (hout : e'.output = e.output)

section Cases

variable {e : Engine σ τ} {r : RequestId} {task : GenerationTask τ}

theorem Move.mark {e' : Engine σ τ} (hrt : Untouched r e.runtime e'.runtime) (hout : e'.output = e.output)
    {m : ModelId} {reason : CancellationReason}
    (hr : e.scheduler.requests.get? r = some task)
    (hsch : e'.scheduler = e.scheduler.requestModelCancellation m reason) : Move b s r task e e' := by
  have htask := e.scheduler.requestModelCancellation_get? m reason r
  rw [← hsch, hr, Option.map_some] at htask
  split_ifs at htask
  · exact .marked reason hrt htask (congrArg _ hout)
  · exact .passed hrt htask (congrArg _ hout)

theorem admitGeneration_move (h : e.Accounted) (hr : e.scheduler.requests.get? r = some task)
    (allocates : CapacityResource → Bool) (handle : ModelHandle) (request : GenerationRequest) :
    let admitted := e.scheduler.admitGeneration b s e.runtime e.output.capacities allocates handle request
    Move b s r task e { e with runtime := admitted.2.2, scheduler := admitted.2.1 } := by
  unfold GenerationScheduler.admitGeneration
  split_ifs with hc
  · exact .passed (.refl r e.runtime) hr rfl
  have hne : r ≠ request.requestId := by
    rintro rfl
    simp [GenerationScheduler.contains, OrdMap.contains, hr] at hc
  split
  · exact .passed (.refl r e.runtime) hr rfl
  next requiredSequence _ =>
  split
  · exact .passed (.refl r e.runtime) hr rfl
  next vocabularySize sampler w _ =>
  have hu := startGeneration_untouched b (LlmApp.Accounted.reached h) allocates handle request hne requiredSequence
    vocabularySize w
  generalize GenerationScheduler.startGeneration b e.runtime allocates handle request requiredSequence
    vocabularySize w = answer at hu ⊢
  obtain ⟨_ | receipt, rt'⟩ := answer
  · exact .passed hu hr rfl
  · exact .passed hu (by simp [hne, hr]) rfl

theorem dispatch_move (h : e.Accounted) (hr : e.scheduler.requests.get? r = some task)
    (allocates : CapacityResource → Bool) (now : MonotonicMillis) (command : RuntimeCommand Source) :
    Move b s r task e ((EngineAction.command command allocates now).apply b s e) := by
  have hrt : Reached e.runtime := LlmApp.Accounted.reached h
  have hi := hrt.consistent
  have pass : ∀ {rt : InferenceRuntime σ}, Steps e.runtime rt → rt.made = e.runtime.made →
      Move b s r task e { e with runtime := rt } := fun hs hmade => .passed (hrt.untouched hs hmade r) hr rfl
  cases command with
  | loadModel ticket m source device kind =>
    exact pass (loadModel_steps b e.runtime m source device kind) (loadModel_made b e.runtime m source device kind)
  | startRequest ticket handle r' sequenceId configuration =>
    simp only [EngineAction.apply, dispatch]
    split_ifs with hc
    · exact .passed (.refl r e.runtime) hr rfl
    · have hne : r ≠ r' := by
        rintro rfl
        simp [GenerationScheduler.contains, OrdMap.contains, hr] at hc
      exact .passed (startRequestWithReservation_untouched b e.runtime handle hne sequenceId configuration 0 none)
        hr rfl
  | generate ticket handle request => exact admitGeneration_move b s h hr allocates handle request
  | prefill ticket r' tokens emitLogits logits =>
    exact pass (prefill_steps b hi r' tokens emitLogits logits) (prefill_made b e.runtime r' tokens emitLogits logits)
  | decode ticket r' token logits =>
    exact pass (decode_steps b hi r' token logits) (decode_made b e.runtime r' token logits)
  | completeRequest ticket r' reason =>
    exact pass (completeRequest_steps b hi r' reason) (kept_made (completeRequest_kept b e.runtime r' reason))
  | cancelRequest ticket r' reason =>
    simp only [EngineAction.apply, dispatch]
    split_ifs with hc
    · have hu : Untouched r e.runtime e.runtime := .refl r e.runtime
      unfold GenerationScheduler.requestCancellation
      split
      · exact .passed hu hr rfl
      next task' ht =>
      by_cases hne : r = r'
      · subst hne
        rw [hr] at ht
        cases ht
        exact .marked reason hu (by simp) rfl
      · exact .passed hu (by simp [hne, hr]) rfl
    · exact pass (cancelRequest_steps b hi r' reason) (kept_made (cancelRequest_kept b e.runtime r' reason))
  | unloadModel ticket handle policy =>
    have hu := hrt.untouched (unloadModel_steps b hi handle policy now)
      (kept_made (unloadModel_kept b e.runtime handle policy now)) r
    simp only [EngineAction.apply, dispatch]
    split_ifs
    · exact .mark b s hu rfl hr rfl
    · exact .passed hu hr rfl
  | snapshot ticket => exact .passed (.refl r e.runtime) hr rfl
  | shutdown ticket => exact .discarded rfl rfl

theorem advance_move (h : e.Accounted) (hr : e.scheduler.requests.get? r = some task) :
    Move b s r task e ((EngineAction.advance : EngineAction Source).apply b s e) := by
  have hrt : Reached e.runtime := LlmApp.Accounted.reached h
  simp only [EngineAction.apply, GenerationScheduler.advance]
  split
  · exact .passed (.refl r e.runtime) hr rfl
  next r' _ =>
  split
  · exact .passed (.refl r e.runtime) hr rfl
  next task' ht =>
  have hw := advanceTask_worked b s r' task' hrt.consistent e.output
  by_cases hne : r = r'
  · subst hne
    rw [hr] at ht
    cases ht
    split_ifs with hc
    · exact .finished hc (finishTask_untouched (hrt.steps hw.steps) _ r) (by simp) rfl
    · exact .turned hc rfl (by simp) rfl
  · have hu : Untouched r e.runtime (advanceTask b s e.runtime r' task' e.output).runtime :=
      hrt.untouched hw.steps hw.made r
    obtain ⟨ps, hp⟩ := turn_published e.runtime r' b s task' e.output
    have hpub := records_append (r := r) hp
    rw [if_neg (Ne.symm hne), List.append_nil] at hpub
    split_ifs
    · exact .passed (hu.trans (finishTask_untouched (hrt.steps hw.steps) _ r)) (by simp [hne, hr]) hpub
    · exact .passed hu (by simp [hne, hr]) hpub

/-- Every action makes one of the moves. -/
theorem EngineAction.move (h : e.Accounted) (hr : e.scheduler.requests.get? r = some task)
    (action : EngineAction Source) : Move b s r task e (action.apply b s e) := by
  have hrt : Reached e.runtime := LlmApp.Accounted.reached h
  have hi := hrt.consistent
  cases action with
  | cleanup =>
    exact .passed (hrt.untouched (maintainCleanup_steps b hi) (kept_made (maintainCleanup_kept b e.runtime)) r) hr rfl
  | maintain now expired =>
    have hu := hrt.untouched (pollUnloadTransition_steps b hi now) (kept_made (pollUnloadTransition_kept b e.runtime now)) r
    cases expired with
    | none => exact .passed hu hr rfl
    | some m => exact .mark b s hu rfl hr rfl
  | command command allocates now => exact dispatch_move b s h hr allocates now command
  | advance => exact advance_move b s h hr
  | disconnect =>
    exact .passed (hrt.untouched (shutdown_steps b hi) (kept_made (shutdown_kept b e.runtime)) r) hr rfl

/-! ### Requests that are not scheduled -/

theorem admitGeneration_entry (hr : e.scheduler.requests.get? r = none)
    (allocates : CapacityResource → Bool) (handle : ModelHandle) (request : GenerationRequest) :
    let admitted := e.scheduler.admitGeneration b s e.runtime e.output.capacities allocates handle request
    Entry b s r e { e with runtime := admitted.2.2, scheduler := admitted.2.1 } := by
  unfold GenerationScheduler.admitGeneration
  split_ifs with hc
  · exact .absent hr rfl
  split
  · exact .absent hr rfl
  next requiredSequence hcheck =>
  split
  · exact .absent hr rfl
  next vocabularySize sampler w hprepare =>
  rcases hstart : GenerationScheduler.startGeneration b e.runtime allocates handle request requiredSequence
    vocabularySize w with ⟨_ | receipt, rt'⟩
  · exact .absent hr rfl
  by_cases hne : r = request.requestId
  · subst hne
    exact .admitted requiredSequence rfl hcheck hprepare hstart (by simp) rfl
  · exact .absent (by simp [hne, hr]) rfl

/-- Every action leaves an unscheduled request so, or admits it. -/
theorem EngineAction.entry (hr : e.scheduler.requests.get? r = none) (action : EngineAction Source) :
    Entry b s r e (action.apply b s e) := by
  have mark : ∀ (m : ModelId) (reason : CancellationReason),
      (e.scheduler.requestModelCancellation m reason).requests.get? r = none := by
    intro m reason
    rw [e.scheduler.requestModelCancellation_get? m reason r, hr, Option.map_none]
  cases action with
  | cleanup | disconnect => exact .absent hr rfl
  | maintain now expired =>
    cases expired with
    | none => exact .absent hr rfl
    | some m => exact .absent (mark m .drainTimeout) rfl
  | command command allocates now =>
    cases command with
    | generate ticket handle request => exact admitGeneration_entry b s hr allocates handle request
    | cancelRequest ticket r' reason =>
      simp only [EngineAction.apply, dispatch]
      split_ifs with hc
      · unfold GenerationScheduler.requestCancellation
        split
        · exact .absent hr rfl
        next ht =>
        have hne : r ≠ r' := by
          rintro rfl
          rw [hr] at ht
          cases ht
        exact .absent (by simp [hne, hr]) rfl
      · exact .absent hr rfl
    | unloadModel ticket handle policy =>
      simp only [EngineAction.apply, dispatch]
      split_ifs
      · exact .absent (mark handle.id .modelUnload) rfl
      · exact .absent hr rfl
    | shutdown ticket => exact .absent rfl rfl
    | _ => exact .absent hr rfl
  | advance =>
    simp only [EngineAction.apply, GenerationScheduler.advance]
    split
    · exact .absent hr rfl
    next r' _ =>
    split
    · exact .absent hr rfl
    next task' ht =>
    have hne : r ≠ r' := by
      rintro rfl
      rw [hr] at ht
      cases ht
    obtain ⟨ps, hp⟩ := turn_published e.runtime r' b s task' e.output
    have hpub := records_append (r := r) hp
    rw [if_neg (Ne.symm hne), List.append_nil] at hpub
    split_ifs <;> exact .absent (by simp [hne, hr]) hpub

end Cases

end LlmApp
