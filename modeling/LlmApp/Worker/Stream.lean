/-
# The tokens a worker publishes

What is carried along a scheduled generation from its admission on: a relation
between the registry, the task and the tokens published so far, that a turn of
the generation keeps and that every other action keeps (`Carries`). While the
generation is scheduled it holds of it; after, the tokens are those of its
last turn (`Streaming`).

Three relations are carried. The tokens end where the request says, whatever
the backend is. The sequence is fed the prompt and the tokens in their order,
unless a direct command steps it. And where logits are determined by the steps
of their sequence, the tokens are those of the plain loop, whatever else the
worker does.

Key definitions: `EngineAction.steps`, `Carries`, `Streaming`.
Key theorems: `EngineAction.unstepped`, `EngineAction.apply_streaming`,
`generation_stops`, `generation_fed`, `generation_plain`.
-/
import LlmApp.Generation.Feeding
import LlmApp.Worker.Grammar

namespace LlmApp

open InferenceRuntime

variable {σ Source τ : Type} (b : Backend σ Source) (s : Sampling τ)

/-! ### Actions that leave a sequence alone -/

/-- A direct command that steps the sequence of the request. -/
def EngineAction.steps (r : RequestId) : EngineAction Source → Bool
  | .command (.prefill _ r' _ _ _) _ _ | .command (.decode _ r' _ _) _ _ => r' = r
  | _ => false

section Unstepped

variable {v : SequenceView σ} {e : Engine σ τ} {r : RequestId} {task : GenerationTask τ}

theorem releaseGenerationWorkspace_world (rt : InferenceRuntime σ) (w : MemoryFootprint) :
    (rt.releaseGenerationWorkspace w).2.loader.world = rt.loader.world := by
  unfold releaseGenerationWorkspace
  dsimp only
  split <;> rfl

theorem finishTask_world (rt : InferenceRuntime σ) (task : GenerationTask τ) :
    (GenerationScheduler.finishTask rt task).loader.world = rt.loader.world := by
  have hworld := releaseGenerationWorkspace_world rt task.workspaceFootprint
  unfold GenerationScheduler.finishTask
  split <;> next h => rwa [h] at hworld

/-- The admission of another generation. -/
theorem startGeneration_unstepped (hb : b.Logs v) {rt : InferenceRuntime σ} (h : Reached rt)
    (allocates : CapacityResource → Bool) (handle : ModelHandle) (request : GenerationRequest)
    (hne : r ≠ request.requestId) (requiredSequence vocabularySize : ℕ) (w : MemoryFootprint) :
    Unstepped v r rt (GenerationScheduler.startGeneration b rt allocates handle request requiredSequence
      vocabularySize w).2 := by
  have hpre := preflightGenerationResources_steps b rt handle request.requestId request.sequenceId
    request.sequence w vocabularySize
  have hu : Unstepped v r rt (rt.preflightGenerationResources b handle request.requestId request.sequenceId
      request.sequence w vocabularySize).2 :=
    .of_alike (h.untouched hpre (preflightGenerationResources_made b rt ..) r)
      fun _ => preflightGenerationResources_alike b hb rt ..
  unfold GenerationScheduler.startGeneration
  generalize rt.preflightGenerationResources b handle request.requestId request.sequenceId request.sequence w
    vocabularySize = answer at hpre hu ⊢
  obtain ⟨_ | _, rt₁⟩ := answer
  · exact hu
  have h₁ := h.steps hpre
  dsimp only at hu ⊢
  split
  · exact hu
  have hstart := startRequestWithReservation_steps b h₁.consistent handle request.requestId
    request.sequenceId request.sequence w (some vocabularySize) (by simp)
  have hu₁ := hu.trans (startRequestWithReservation_unstepped b hb h₁ handle hne request.sequenceId
    request.sequence w (some vocabularySize))
  unfold startGenerationRequest
  generalize rt₁.startRequestWithReservation b handle request.requestId request.sequenceId request.sequence w
    (some vocabularySize) = answer at hstart hu₁ ⊢
  obtain ⟨e | receipt, rt₂⟩ := answer
  · exact hu₁
  have h₂ : Reached rt₂ := by
    rcases hstart with ⟨⟨_, he⟩, -⟩ | ⟨-, mid, hs, ht⟩
    · cases he
    · exact (h₁.steps hs).tail ht
  dsimp only
  split_ifs
  · have hf := removeRequest_steps b h₂.consistent request.requestId .sequenceAdmission
      RuntimeError.backendContractViolation.failureClass
    have hk := rt₂.removeRequest_kept b request.requestId .sequenceAdmission
      RuntimeError.backendContractViolation.failureClass
    have hu₂ := hu₁.trans (.of_kept (h₂.untouched hf (kept_made hk) r) hk)
    unfold failRequest
    generalize rt₂.removeRequest b request.requestId .sequenceAdmission
      RuntimeError.backendContractViolation.failureClass = answer at hf hu₂ ⊢
    obtain ⟨cleanup, rt₃⟩ := answer
    have hu₃ := hu₂.trans (.of_world (releaseGenerationWorkspace_untouched (h₂.steps hf) w r)
      (releaseGenerationWorkspace_world rt₃ w))
    dsimp only at hu₃ ⊢
    generalize rt₃.releaseGenerationWorkspace w = answer at hu₃ ⊢
    obtain ⟨_ | _, rt₄⟩ := answer
    · exact hu₃
    · dsimp only
      split <;> exact hu₃
  · exact hu₁

/-- The admission of a generation, which is refused while it is scheduled. -/
theorem admitGeneration_unstepped (hb : b.Logs v) {rt : InferenceRuntime σ} (h : Reached rt)
    {sch : GenerationScheduler τ} (hr : sch.contains r = true) (capacities : ℕ × ℕ)
    (allocates : CapacityResource → Bool) (handle : ModelHandle) (request : GenerationRequest) :
    Unstepped v r rt (sch.admitGeneration b s rt capacities allocates handle request).2.2 := by
  unfold GenerationScheduler.admitGeneration
  by_cases hc : sch.contains request.requestId = true
  · rw [if_pos hc]
    exact .refl r rt
  have hne : r ≠ request.requestId := fun heq => hc (heq ▸ hr)
  rw [if_neg hc]
  split
  · exact .refl r rt
  next requiredSequence _ =>
  split
  · exact .refl r rt
  next vocabularySize sampler w _ =>
  have hu := startGeneration_unstepped b hb h allocates handle request hne requiredSequence vocabularySize w
  split <;> next hstart => rwa [hstart] at hu

/-- The turn of another generation. -/
theorem advance_unstepped (hb : b.Logs v) {rt : InferenceRuntime σ} (h : Reached rt)
    {sch : GenerationScheduler τ} (hturn : sch.nextRequest ≠ some r) (output : TokenOutput GenerationOutputState) :
    Unstepped v r rt (sch.advance b s rt output).runtime := by
  unfold GenerationScheduler.advance
  rcases hnext : sch.nextRequest with _ | r'
  · exact .refl r rt
  have hne : r ≠ r' := by
    rintro rfl
    exact hturn hnext
  dsimp only
  rcases sch.requests.get? r' with _ | task'
  · exact .refl r rt
  dsimp only
  have hu := advanceTask_unstepped b s hb h hne task' output
  have hw := advanceTask_worked b s r' task' h.consistent output
  split_ifs
  · exact hu.trans (.of_world (finishTask_untouched (h.steps hw.steps) _ r) (finishTask_world ..))
  · exact hu

/-- Every action leaves the sequence of a scheduled generation alone, but its
own turn, a direct step, and a shutdown, which discards it. -/
theorem EngineAction.unstepped (hb : b.Logs v) (h : e.Accounted) (hr : e.scheduler.requests.get? r = some task)
    {action : EngineAction Source} (hnot : action.steps r = false)
    (hturn : ¬(action = .advance ∧ e.scheduler.nextRequest = some r)) :
    (action.apply b s e).scheduler.requests.get? r = none ∨
      Unstepped v r e.runtime (action.apply b s e).runtime := by
  have hrt : Reached e.runtime := LlmApp.Accounted.reached h
  have hi := hrt.consistent
  have kept : ∀ {rt : InferenceRuntime σ}, Steps e.runtime rt → rt.kept = e.runtime.kept →
      Unstepped v r e.runtime rt := fun hs hk => .of_kept (hrt.untouched hs (kept_made hk) r) hk
  have hcontains : e.scheduler.contains r = true := by
    simp [GenerationScheduler.contains, OrdMap.contains, hr]
  cases action with
  | cleanup => exact .inr (kept (maintainCleanup_steps b hi) (maintainCleanup_kept b e.runtime))
  | maintain now expired =>
    exact .inr (kept (pollUnloadTransition_steps b hi now) (pollUnloadTransition_kept b e.runtime now))
  | disconnect => exact .inr (kept (shutdown_steps b hi) (shutdown_kept b e.runtime))
  | command command allocates now =>
    cases command with
    | loadModel ticket m source device kind =>
      exact .inr (.of_alike (hrt.untouched (loadModel_steps b e.runtime m source device kind)
        (loadModel_made b e.runtime m source device kind) r) (loadModel_alike b hb e.runtime m source device kind))
    | startRequest ticket handle r' sequenceId configuration =>
      right
      simp only [EngineAction.apply, dispatch]
      by_cases hc : e.scheduler.contains r' = true
      · rw [if_pos hc]
        exact .refl r e.runtime
      · rw [if_neg hc]
        have hne : r ≠ r' := fun heq => hc (heq ▸ hcontains)
        exact startRequestWithReservation_unstepped b hb hrt handle hne sequenceId configuration 0 none
    | generate ticket handle request =>
      exact .inr (admitGeneration_unstepped b s hb hrt hcontains e.output.capacities allocates handle request)
    | prefill ticket r' tokens emitLogits logits =>
      have hne : r ≠ r' := by
        rintro rfl
        simp [EngineAction.steps] at hnot
      exact .inr (prefill_unstepped b hb hrt hne tokens emitLogits logits)
    | decode ticket r' token logits =>
      have hne : r ≠ r' := by
        rintro rfl
        simp [EngineAction.steps] at hnot
      exact .inr (decode_unstepped b hb hrt hne token logits)
    | completeRequest ticket r' reason =>
      exact .inr (kept (completeRequest_steps b hi r' reason) (completeRequest_kept b e.runtime r' reason))
    | cancelRequest ticket r' reason =>
      right
      simp only [EngineAction.apply, dispatch]
      by_cases hc : e.scheduler.contains r' = true
      · rw [if_pos hc]
        exact .refl r e.runtime
      · rw [if_neg hc]
        exact kept (cancelRequest_steps b hi r' reason) (cancelRequest_kept b e.runtime r' reason)
    | unloadModel ticket handle policy =>
      exact .inr (kept (unloadModel_steps b hi handle policy now) (unloadModel_kept b e.runtime handle policy now))
    | snapshot ticket => exact .inr (.refl r e.runtime)
    | shutdown ticket => exact .inl rfl
  | advance => exact .inr (advance_unstepped b s hb hrt (fun hnext => hturn ⟨rfl, hnext⟩) e.output)

end Unstepped

/-! ### What a generation carries along -/

/-- A turn of `r` keeps `P`, and so does whatever `pass` allows in the registry,
with any cancellation recorded. -/
structure Carries (r : RequestId) (pass : InferenceRuntime σ → InferenceRuntime σ → Prop)
    (P : InferenceRuntime σ → GenerationTask τ → List TokenId → Prop) : Prop where
  passed {rt rt' : InferenceRuntime σ} {task : GenerationTask τ} {ts : List TokenId} (h : P rt task ts)
    (hp : pass rt rt') (cancellation : Option CancellationReason) :
    P rt' { task with cancellation := cancellation } ts
  turned {rt : InferenceRuntime σ} {task : GenerationTask τ} {ts new : List TokenId} (hrt : Reached rt)
    (h : P rt task ts) {rt' : InferenceRuntime σ} {task' : GenerationTask τ} (hsame : task.SameRequest task')
    (hs : Streamed b s rt r task rt' task' new) : P rt' task' (ts ++ new)

/-- The tokens that `r` published after `base`, with its task while it is
scheduled, and with that of its last turn from then on. -/
structure Streaming (P : InferenceRuntime σ → GenerationTask τ → List TokenId → Prop) (r : RequestId)
    (base : List (Publication GenerationOutputState)) (e : Engine σ τ) : Prop where
  accounted : e.Accounted
  sound : e.Sound
  stream : ∃ ps, records r e.output = base ++ ps ∧ (∃ rt task, P rt task (publishedTokens ps)) ∧
    ∀ task, e.scheduler.requests.get? r = some task → P e.runtime task (publishedTokens ps)

section Streaming

variable {r : RequestId} {pass : InferenceRuntime σ → InferenceRuntime σ → Prop}
  {P : InferenceRuntime σ → GenerationTask τ → List TokenId → Prop}
  {base : List (Publication GenerationOutputState)} {e : Engine σ τ}

/-- Where the scheduler takes the turn of `r`. -/
theorem advance_turn {task : GenerationTask τ} (hr : e.scheduler.requests.get? r = some task)
    (hnext : e.scheduler.nextRequest = some r) :
    let turn := advanceTask b s e.runtime r task e.output
    let e' := (EngineAction.advance : EngineAction Source).apply b s e
    e'.output = turn.output ∧ (e'.scheduler.requests.get? r = none ∨
      e'.scheduler.requests.get? r = some turn.task ∧ e'.runtime = turn.runtime) := by
  intro turn e'
  simp only [e', EngineAction.apply, GenerationScheduler.advance, hnext, hr]
  split_ifs with hc
  · exact ⟨rfl, .inl (by simp)⟩
  · exact ⟨rfl, .inr ⟨by simp [turn], rfl⟩⟩

/-- Every action that passes the generation by as it may continues the stream. -/
theorem EngineAction.apply_streaming (hk : Carries b s r pass P) (h : Streaming P r base e)
    {action : EngineAction Source}
    (hstays : e.scheduler.requests.get? r = none → (action.apply b s e).scheduler.requests.get? r = none)
    (hpass : e.scheduler.requests.get? r ≠ none → ¬(action = .advance ∧ e.scheduler.nextRequest = some r) →
      (action.apply b s e).scheduler.requests.get? r = none ∨ pass e.runtime (action.apply b s e).runtime) :
    Streaming P r base (action.apply b s e) := by
  have hrt : Reached e.runtime := LlmApp.Accounted.reached h.accounted
  refine ⟨action.apply_accounted b s h.accounted, action.apply_sound b s h.accounted h.sound, ?_⟩
  obtain ⟨ps, hps, hlast, htask⟩ := h.stream
  rcases hr : e.scheduler.requests.get? r with _ | task
  · have hnone := hstays hr
    rcases action.entry b s hr with ⟨-, hpub⟩ | ⟨_, _, _, _, _, hnew, _⟩
    · exact ⟨ps, hpub.trans hps, hlast, by simp [hnone]⟩
    · rw [hnone] at hnew
      cases hnew
  have hP := htask task hr
  obtain ⟨new, hnew, hstream⟩ := advanceTask_streamed b s (r := r) hrt.consistent
    (h.sound r task hr).decoding e.output
  have hsame := (advanceTask_worked b s r task hrt.consistent e.output).same
  have hturned := hk.turned hrt hP hsame hstream
  rw [← publishedTokens_append] at hturned
  -- A turn of the generation continues the stream by what it publishes.
  have turned : ∀ {e' : Engine σ τ}, e'.output = (advanceTask b s e.runtime r task e.output).output →
      (e'.scheduler.requests.get? r = none ∨
        e'.scheduler.requests.get? r = some (advanceTask b s e.runtime r task e.output).task ∧
          e'.runtime = (advanceTask b s e.runtime r task e.output).runtime) →
      ∃ ps, records r e'.output = base ++ ps ∧ (∃ rt task, P rt task (publishedTokens ps)) ∧
        ∀ task, e'.scheduler.requests.get? r = some task → P e'.runtime task (publishedTokens ps) := by
    intro e' hout hafter
    refine ⟨ps ++ new, ?_, ⟨_, _, hturned⟩, fun task' ht' => ?_⟩
    · rw [hout, records_append hnew, if_pos rfl, hps, List.append_assoc]
    · rcases hafter with hnone | ⟨ht, hruntime⟩
      · rw [hnone] at ht'
        cases ht'
      · rw [ht] at ht'
        cases ht'
        rw [hruntime]
        exact hturned
  by_cases hadvance : action = .advance ∧ e.scheduler.nextRequest = some r
  · obtain ⟨rfl, hnext⟩ := hadvance
    exact turned (advance_turn b s hr hnext).1 (advance_turn b s hr hnext).2
  have hpass' := hpass (by simp [hr]) hadvance
  have passed : ∀ cancellation : Option CancellationReason,
      (action.apply b s e).scheduler.requests.get? r = some { task with cancellation := cancellation } →
      ∀ task', (action.apply b s e).scheduler.requests.get? r = some task' →
        P (action.apply b s e).runtime task' (publishedTokens ps) := by
    intro cancellation ht task' ht'
    rw [ht] at ht'
    cases ht'
    rcases hpass' with hnone | hp
    · rw [hnone] at ht
      cases ht
    · exact hk.passed hP hp cancellation
  rcases action.move b s h.accounted hr with ⟨-, ht, hpub⟩ | ⟨reason, -, ht, hpub⟩ | ⟨-, hruntime, ht, hout⟩ |
    ⟨-, -, ht, hout⟩ | ⟨ht, hpub⟩
  · exact ⟨ps, hpub.trans hps, hlast, passed task.cancellation ht⟩
  · exact ⟨ps, hpub.trans hps, hlast, passed _ ht⟩
  · exact turned hout (.inr ⟨ht, hruntime⟩)
  · exact turned hout (.inl ht)
  · exact ⟨ps, hpub.trans hps, hlast, by simp [ht]⟩

end Streaming

/-! ### The worker -/

/-- The step is not a direct command that steps the sequence of the request. -/
def Worker.DirectNot (r : RequestId) (w : Worker σ τ) (input : WorkerInput Source) : Prop :=
  (w.action b input).any (·.steps r) = false

instance (r : RequestId) (w : Worker σ τ) (input : WorkerInput Source) : Decidable (w.AdmitsNot b s r input) :=
  inferInstanceAs (Decidable (_ → _))

instance (r : RequestId) (w : Worker σ τ) (input : WorkerInput Source) : Decidable (w.DirectNot b r input) :=
  inferInstanceAs (Decidable (_ = _))

instance decidableAlong {p : Worker σ τ → WorkerInput Source → Prop} [∀ w input, Decidable (p w input)] :
    ∀ (inputs : List (WorkerInput Source)) (w : Worker σ τ), Decidable (Worker.Along b s p inputs w)
  | [], _ => .isTrue trivial
  | input :: inputs, w =>
    @instDecidableAnd _ _ (inferInstanceAs (Decidable (p w input))) (decidableAlong inputs (w.step b s input))

section Worker

variable {r : RequestId} {pass : InferenceRuntime σ → InferenceRuntime σ → Prop}
  {P : InferenceRuntime σ → GenerationTask τ → List TokenId → Prop}
  {base : List (Publication GenerationOutputState)} {w : Worker σ τ} {input : WorkerInput Source}

theorem Worker.step_streaming (hk : Carries b s r pass P) (h : Streaming P r base w.engine)
    (hstays : w.AdmitsNot b s r input)
    (hpass : ∀ action, w.action b input = some action → w.scheduler.requests.get? r ≠ none →
      ¬(action = .advance ∧ w.scheduler.nextRequest = some r) →
      (action.apply b s w.engine).scheduler.requests.get? r = none ∨
        pass w.runtime (action.apply b s w.engine).runtime) :
    Streaming P r base (w.step b s input).engine := by
  have hstep := w.step_engine b s input
  have hsch : (w.step b s input).scheduler = (w.step b s input).engine.scheduler := rfl
  unfold Worker.AdmitsNot at hstays
  rw [hsch, hstep] at hstays
  rw [hstep]
  rcases ha : w.action b input with _ | action
  · exact h
  · rw [ha] at hstays
    exact action.apply_streaming b s hk h hstays (hpass action ha)

/-- A step that admits a request makes its task as the request says, with the
runtime that started it. -/
theorem Worker.admission {task : GenerationTask τ} (hr : w.scheduler.requests.get? r = none)
    (htask : (w.step b s input).scheduler.requests.get? r = some task) :
    ∃ action, w.action b input = some action ∧ Entry b s r w.engine (action.apply b s w.engine) ∧
      (action.apply b s w.engine).scheduler.requests.get? r = some task ∧
        (w.step b s input).engine = action.apply b s w.engine := by
  have hstep := w.step_engine b s input
  have hsch : (w.step b s input).scheduler = (w.step b s input).engine.scheduler := rfl
  rw [hsch, hstep] at htask
  rcases ha : w.action b input with _ | action
  · rw [ha] at htask
    have heq := hr.symm.trans htask
    cases heq
  · rw [ha] at htask hstep
    exact ⟨action, rfl, action.entry b s hr, htask, hstep⟩

/-- The stream begins, empty, with the step that admits the request. -/
theorem Worker.admission_streaming {task : GenerationTask τ} (h : w.engine.Accounted) (hs : w.engine.Sound)
    (hr : w.scheduler.requests.get? r = none)
    (htask : (w.step b s input).scheduler.requests.get? r = some task)
    (hP : P (w.step b s input).runtime task []) :
    Streaming P r (records r w.output) (w.step b s input).engine := by
  obtain ⟨action, -, hentry, htask', hengine⟩ := Worker.admission b s hr htask
  have hruntime : (w.step b s input).runtime = (action.apply b s w.engine).runtime :=
    congrArg Engine.runtime hengine
  rw [hruntime] at hP
  rw [hengine]
  refine ⟨action.apply_accounted b s h, action.apply_sound b s h hs, [], ?_, ⟨_, task, hP⟩, fun task' ht => ?_⟩
  · rw [List.append_nil]
    cases hentry with
    | absent hnone =>
      rw [hnone] at htask'
      cases htask'
    | admitted _ _ _ _ _ _ hout => rw [hout]; rfl
  · rw [htask'] at ht
    cases ht
    exact hP

end Worker

/-! ### Finish conditions -/

/-- Whatever passes a generation by leaves its stream. -/
theorem streams_carried (r : RequestId) (t₀ : GenerationTask τ) :
    Carries b s r (fun _ _ => True) (fun _ task ts => t₀.SameRequest task ∧ task.Streams ts) where
  passed h _ cancellation := ⟨h.1.marked cancellation, h.2.marked cancellation⟩
  turned _ h _ _ hsame hs := ⟨h.1.trans hsame, hs.streams b s hsame h.2⟩

/-- In every run, from its admission until the request is admitted again, a
generation publishes no token past a finish condition and no more than it asks
for; it has drawn at most one more; and its work goes on only while no
condition is met. -/
theorem generation_stops (loader : σ) (limits : RuntimeLimits) (output : TokenOutput GenerationOutputState)
    (eventBacklogCapacity : ℕ) (inputs : List (WorkerInput Source)) :
    let w : Worker σ τ := Worker.run b s inputs (Worker.start loader limits output eventBacklogCapacity)
    ∀ input r task, w.scheduler.requests.get? r = none →
      (w.step b s input).scheduler.requests.get? r = some task →
      ∀ inputs', Worker.Along b s (Worker.AdmitsNot b s r) inputs' (w.step b s input) →
        let w' := Worker.run b s inputs' (w.step b s input)
        ∃ ps, records r w'.output = records r w.output ++ ps ∧
          (publishedTokens ps).length ≤ task.maximumGeneratedTokens ∧
          (∀ ts, ts <+: publishedTokens ps → ts ≠ [] → ts ≠ publishedTokens ps → ¬task.Ends ts) ∧
          ∀ task', w'.scheduler.requests.get? r = some task' →
            task'.generated = publishedTokens ps ++ task'.pendingToken.toList ∧
              (publishedTokens ps ≠ [] → task.Ends (publishedTokens ps) → task'.phase.working = false) := by
  intro w input r task hr htask inputs' halong w'
  obtain ⟨ha, hs⟩ : w.engine.Accounted ∧ w.engine.Sound := Worker.run_sound b s inputs
    ⟨Worker.start_accounted loader limits output eventBacklogCapacity,
      Worker.start_sound loader limits output eventBacklogCapacity⟩
  obtain ⟨action, -, hentry, htask', -⟩ := Worker.admission b s hr htask
  have hnew : task.Streams [] ∧ 0 < task.maximumGeneratedTokens := by
    cases hentry with
    | absent hnone =>
      rw [hnone] at htask'
      cases htask'
    | @admitted handle request _ _ _ _ _ _ _ _ _ _ hnew _ =>
      rw [hnew] at htask'
      cases htask'
      exact ⟨newTask_streams .., request.maximumGeneratedTokens.pos⟩
  have hstart := Worker.admission_streaming b s
    (P := fun _ task' ts => task.SameRequest task' ∧ task'.Streams ts) ha hs hr htask ⟨.refl task, hnew.1⟩
  obtain ⟨ps, hps, ⟨rt, last, hsame, hlast⟩, hnow⟩ := (Worker.run_along b s
    (I := fun w' => Streaming _ r (records r w.output) w'.engine)
    (fun h hp => Worker.step_streaming b s (streams_carried b s r task) h hp
      fun _ _ _ _ => .inr trivial) inputs' halong hstart).stream
  refine ⟨ps, hps, ?_, fun ts hpre hne hlt => ?_, fun task' ht => ?_⟩
  · have hle := hlast.length_le (by rw [hsame.maximumGeneratedTokens]; exact hnew.2)
    rwa [hsame.maximumGeneratedTokens] at hle
  · exact mt (hsame.ends ts).mpr (hlast.minimal ts hpre hne hlt)
  · obtain ⟨hsame', hstreams⟩ := hnow task' ht
    refine ⟨hstreams.generated, fun hne hend => ?_⟩
    by_contra hw
    rcases hstreams.goes_on (by simpa using hw) with hnil | hgo
    · exact hne hnil
    · exact hgo ((hsame'.ends _).mpr hend)

/-- A generation that works on after 16 rounds: of the two tokens it has drawn
the first is published and the second waits. -/
theorem generation_stops_working :
    let b := Backend.replaying ⟨1, 0, 2, 0, 0⟩ fun _ calls => [0, BitVec.ofNat 32 calls.length]
    let s := Sampling.scripted fun n => .ok n
    let limits : RuntimeLimits := ⟨⟨1, by decide, by decide⟩, ⟨1, by decide, by decide⟩, ⟨100, 1000⟩,
      ⟨⟨1, by decide, by decide⟩⟩⟩
    let w := Worker.run b s (WorkerInput.commands [.loadModel 1 7 () 0 .cpu])
      (Worker.start (fun _ => []) limits { tokenCapacity := 8, recordCapacity := 8 } 8)
    let w₁ := w.step b s (.command (.generate 2 ⟨7, 1⟩ (.short 1)))
    let w' := Worker.run b s (List.replicate 16 .quiet) w₁
    ∃ task task' ps, w₁.scheduler.requests.get? 1 = some task ∧ w'.scheduler.requests.get? 1 = some task' ∧
      records 1 w'.output = records 1 w.output ++ ps ∧ publishedTokens ps = [0] ∧
      (publishedTokens ps).length ≤ task.maximumGeneratedTokens ∧
      task'.generated = publishedTokens ps ++ task'.pendingToken.toList := by
  intro b s limits
  have h := generation_stops b s (fun _ => []) limits { tokenCapacity := 8, recordCapacity := 8 } 8
    (WorkerInput.commands [.loadModel 1 7 () 0 .cpu]) (.command (.generate 2 ⟨7, 1⟩ (.short 1))) 1
  dsimp only at h ⊢
  obtain ⟨task, htask⟩ : ∃ task, ((Worker.run b s (WorkerInput.commands [.loadModel 1 7 () 0 .cpu])
      (Worker.start (fun _ => []) limits { tokenCapacity := 8, recordCapacity := 8 } 8)).step b s
      (.command (.generate 2 ⟨7, 1⟩ (.short 1)))).scheduler.requests.get? 1 = some task :=
    Option.isSome_iff_exists.mp (by decide +kernel)
  obtain ⟨ps, hps, hlen, -, hnow⟩ := h task (by decide +kernel) htask (List.replicate 16 .quiet) (by decide +kernel)
  generalize hw' : Worker.run b s (List.replicate 16 .quiet) _ = w' at hps hnow ⊢
  obtain ⟨task', htask'⟩ : ∃ task', w'.scheduler.requests.get? 1 = some task' :=
    Option.isSome_iff_exists.mp (by rw [← hw']; decide +kernel)
  have hpublished : publishedTokens (records 1 w'.output) = [0] := by
    rw [← hw']
    decide +kernel
  have hnone : records 1 (Worker.run b s (WorkerInput.commands [.loadModel 1 7 () 0 .cpu])
      (Worker.start (fun _ => []) limits { tokenCapacity := 8, recordCapacity := 8 } 8)).output = [] := by
    decide +kernel
  rw [hps, hnone, List.nil_append] at hpublished
  exact ⟨task, task', ps, htask, htask', hps, hpublished, hlen, (hnow task' htask').1⟩

/-! ### Feeding -/

section Feeding

variable {v : SequenceView σ} {rt rt' : InferenceRuntime σ} {r : RequestId}
  {task t₀ : GenerationTask τ} {sref : SequenceRef}

theorem active_unique (hi : Consistent rt) {m m' : ModelId} {q q' : RequestSlot} (h : rt.active (m, r) = some q)
    (h' : rt.active (m', r) = some q') : q = q' := by
  obtain ⟨slot, hm, hq⟩ := OrdMap.nested_eq_some.mp h
  obtain ⟨slot', hm', hq'⟩ := OrdMap.nested_eq_some.mp h'
  have hidx := (hi.active_index hm hq).1.symm.trans (hi.active_index hm' hq').1
  cases hidx
  exact Option.some.inj (h.symm.trans h')

theorem sequenceOf_of_active (hi : Consistent rt) {m : ModelId} {q : RequestSlot} (h : rt.active (m, r) = some q) :
    ∃ model, rt.sequenceOf r = some (model, q.sequence.ref) := by
  obtain ⟨slot, hm, hq⟩ := OrdMap.nested_eq_some.mp h
  exact ⟨slot.model, sequenceOf_active hi hm hq⟩

theorem active_of_sequenceOf (hi : Consistent rt) {model : ModelRef} (h : rt.sequenceOf r = some (model, sref)) :
    ∃ m q, rt.active (m, r) = some q ∧ q.sequence.ref = sref := by
  rcases hidx : rt.requestIndex.get? r with _ | m
  · rw [sequenceOf_inactive hidx] at h
    cases h
  · obtain ⟨slot, q, hm, hq⟩ := hi.slot_of_request hidx
    rw [sequenceOf_active hi hm hq] at h
    cases h
    exact ⟨m, q, OrdMap.nested_of_get? hm hq, rfl⟩

/-- A generation starts on a sequence that has taken no step. -/
theorem startGeneration_begins (hb : b.Logs v) {allocates : CapacityResource → Bool} {handle : ModelHandle}
    {request : GenerationRequest} {requiredSequence vocabularySize : ℕ} {w : MemoryFootprint}
    {receipt : RequestStartReceipt}
    (h : GenerationScheduler.startGeneration b rt allocates handle request requiredSequence vocabularySize w =
      (.ok receipt, rt')) :
    ∃ q, rt'.active (handle.id, request.requestId) = some q ∧ v.log rt'.loader.world q.sequence.ref = [] ∧
      v.good rt'.loader.world q.sequence.ref := by
  unfold GenerationScheduler.startGeneration at h
  split at h
  · cases h
  split at h
  · cases h
  split at h
  · cases h
  next receipt' rt₁ hstart =>
  split_ifs at h
  · dsimp only at h
    split at h
    · cases h
    split at h <;> cases h
  · cases h
    exact startRequestWithReservation_begins b hb hstart

/-- An admission makes a task whose sequence is fed nothing yet. -/
theorem Entry.fed (hb : b.Logs v) {e e' : Engine σ τ} (h : Entry b s r e e') (h' : e'.Accounted)
    (htask : e'.scheduler.requests.get? r = some task) :
    ∃ model sref, e'.runtime.sequenceOf r = some (model, sref) ∧ task.Fed v sref r e'.runtime := by
  have hi := (LlmApp.Accounted.reached h').consistent
  cases h with
  | absent hnone =>
    rw [hnone] at htask
    cases htask
  | @admitted handle request _ _ _ _ _ _ hr _ _ hstart hnew _ =>
    subst hr
    rw [hnew] at htask
    cases htask
    obtain ⟨q, hq, hlog, hgood⟩ := startGeneration_begins b hb hstart
    obtain ⟨model, hseq⟩ := sequenceOf_of_active hi hq
    refine ⟨model, q.sequence.ref, hseq, fun _ m q' hq' => ?_⟩
    rw [active_unique hi hq' hq]
    exact ⟨rfl, hgood, hlog⟩

theorem fed_carried (hb : b.Logs v) (r : RequestId) (t₀ : GenerationTask τ) (sref : SequenceRef) :
    Carries b s r (Unstepped v r) (fun rt task ts =>
      (t₀.SameRequest task ∧ task.Streams ts) ∧ task.Fed v sref r rt) where
  passed h hp cancellation := ⟨⟨h.1.1.marked cancellation, h.1.2.marked cancellation⟩, h.2.unstepped hp cancellation⟩
  turned hrt h _ _ hsame hs := ⟨(streams_carried b s r t₀).turned hrt h.1 hsame hs,
    hs.fed b s hb hrt.consistent hsame h.1.2 h.2⟩

theorem plain_carried (hb : b.Logs v) {logitsOf : SequenceRef → List TokenCall → List F32}
    (hd : b.Determined v logitsOf) (r : RequestId) (t₀ : GenerationTask τ)
    (hpos : 0 < t₀.maximumGeneratedTokens) (sref : SequenceRef) :
    Carries b s r (Unstepped v r) (fun rt task ts =>
      t₀.Follows s (fun generated => logitsOf sref (callsOf t₀.promptTokens generated)) task ts ∧
        task.Fed v sref r rt) where
  passed h hp cancellation := ⟨h.1.marked s _ cancellation, h.2.unstepped hp cancellation⟩
  turned {rt task ts new} hrt h rt' task' hsame hs := by
    refine ⟨hs.follows b s hsame hpos (fun hw hp n logits hstep hlen => ?_) h.1,
      hs.fed b s hb hrt.consistent hsame h.1.streams h.2⟩
    rw [← h.1.same.promptTokens]
    exact stepWork_logits b hb hd hrt.consistent h.1.streams h.2 hw hp hstep hlen

/-- A run whose steps neither admit the request again nor step its sequence
directly carries the stream along. -/
theorem Worker.run_streaming (hb : b.Logs v) {P : InferenceRuntime σ → GenerationTask τ → List TokenId → Prop}
    (hk : Carries b s r (Unstepped v r) P) {base : List (Publication GenerationOutputState)}
    (inputs : List (WorkerInput Source)) {w : Worker σ τ}
    (halong : Worker.Along b s (fun w input => w.AdmitsNot b s r input ∧ w.DirectNot b r input) inputs w)
    (h : Streaming P r base w.engine) : Streaming P r base (Worker.run b s inputs w).engine := by
  refine Worker.run_along b s (I := fun w' => Streaming P r base w'.engine)
    (fun {w input} hw hp => Worker.step_streaming b s hk hw hp.1 fun action ha hr hturn => ?_) inputs halong h
  have hnot := hp.2
  unfold Worker.DirectNot at hnot
  rw [ha, Option.any_some] at hnot
  obtain ⟨task, htask⟩ := Option.ne_none_iff_exists'.mp hr
  exact action.unstepped b s hb hw.accounted htask hnot hturn

/-- What an admission begins with. -/
theorem Worker.admission_fed (hb : b.Logs v) {w : Worker σ τ} (h : w.engine.Accounted)
    (hr : w.scheduler.requests.get? r = none) {input : WorkerInput Source}
    (htask : (w.step b s input).scheduler.requests.get? r = some task) :
    (∃ model sref, (w.step b s input).runtime.sequenceOf r = some (model, sref) ∧
      task.Fed v sref r (w.step b s input).runtime) ∧
    ∃ handle request vocabularySize sampler footprint,
      task = GenerationScheduler.newTask handle request vocabularySize sampler footprint := by
  obtain ⟨action, -, hentry, htask', hengine⟩ := Worker.admission b s hr htask
  have hruntime : (w.step b s input).runtime = (action.apply b s w.engine).runtime :=
    congrArg Engine.runtime hengine
  rw [hruntime]
  refine ⟨hentry.fed b s hb (action.apply_accounted b s h) htask', ?_⟩
  cases hentry with
  | absent hnone =>
    rw [hnone] at htask'
    cases htask'
  | admitted _ _ _ _ _ hnew _ =>
    rw [hnew] at htask'
    exact ⟨_, _, _, _, _, (Option.some.inj htask').symm⟩

end Feeding

/-- In every run, from its admission until the request is admitted again or
stepped directly: while a generation works, the steps its sequence has taken
are the prompt and then the tokens drawn, each once and in their order, one
step for each token; and of these tokens all but the one that waits are
published. -/
theorem generation_fed (loader : σ) (limits : RuntimeLimits) (output : TokenOutput GenerationOutputState)
    (eventBacklogCapacity : ℕ) (inputs : List (WorkerInput Source)) :
    let b := b.recorded
    let w : Worker (σ × (SequenceRef → List TokenCall)) τ :=
      Worker.run b s inputs (Worker.start (loader, fun _ => []) limits output eventBacklogCapacity)
    ∀ input r task, w.scheduler.requests.get? r = none →
      (w.step b s input).scheduler.requests.get? r = some task →
      ∀ inputs', Worker.Along b s (fun w input => w.AdmitsNot b s r input ∧ w.DirectNot b r input) inputs'
          (w.step b s input) →
        let w' := Worker.run b s inputs' (w.step b s input)
        ∃ ps, records r w'.output = records r w.output ++ ps ∧
          ∀ task', w'.scheduler.requests.get? r = some task' → task'.phase.working = true →
            task'.generated = publishedTokens ps ++ task'.pendingToken.toList ∧
            ∀ model sref, w'.runtime.sequenceOf r = some (model, sref) →
              w'.runtime.loader.world.2 sref =
                (callsOf task.promptTokens task'.generated).take task'.generated.length := by
  intro b' w input r task hr htask inputs' halong w'
  have hb : b'.Logs (.steps σ) := b.recorded_logs
  obtain ⟨ha, hs⟩ : w.engine.Accounted ∧ w.engine.Sound := Worker.run_sound b' s inputs
    ⟨Worker.start_accounted _ limits output eventBacklogCapacity,
      Worker.start_sound _ limits output eventBacklogCapacity⟩
  obtain ⟨⟨model, sref, -, hfed⟩, handle, request, vocabularySize, sampler, footprint, htask₀⟩ :=
    Worker.admission_fed b' s hb ha hr htask
  have hstreams : task.Streams [] := by
    rw [htask₀]
    exact newTask_streams ..
  have hstart := Worker.admission_streaming b' s
    (P := fun rt task' ts => (task.SameRequest task' ∧ task'.Streams ts) ∧ task'.Fed (.steps σ) sref r rt) ha hs hr htask
    ⟨⟨.refl task, hstreams⟩, hfed⟩
  have hend := Worker.run_streaming b' s hb (fed_carried b' s hb r task sref) inputs' halong hstart
  have hi : Consistent w'.runtime := (LlmApp.Accounted.reached hend.accounted).consistent
  obtain ⟨ps, hps, -, hnow⟩ := hend.stream
  refine ⟨ps, hps, fun task' ht hw => ?_⟩
  obtain ⟨⟨hsame, hstream⟩, hfed'⟩ := hnow task' ht
  refine ⟨hstream.generated, fun model' sref' hseq => ?_⟩
  obtain ⟨m, q, hq, rfl⟩ := active_of_sequenceOf hi hseq
  obtain ⟨href, -, hlog⟩ := hfed' hw m q hq
  rw [href, hsame.promptTokens.symm]
  exact hlog

/-- A generation that has drawn two tokens and works on: its sequence was fed
the prompt and the first of them. -/
theorem generation_fed_working :
    let b := Backend.replaying ⟨1, 0, 2, 0, 0⟩ fun _ calls => [0, BitVec.ofNat 32 calls.length]
    let s := Sampling.scripted fun n => .ok n
    let limits : RuntimeLimits := ⟨⟨1, by decide, by decide⟩, ⟨1, by decide, by decide⟩, ⟨100, 1000⟩,
      ⟨⟨1, by decide, by decide⟩⟩⟩
    let w := Worker.run b.recorded s (WorkerInput.commands [.loadModel 1 7 () 0 .cpu])
      (Worker.start (fun _ => [], fun _ => []) limits { tokenCapacity := 8, recordCapacity := 8 } 8)
    let w₁ := w.step b.recorded s (.command (.generate 2 ⟨7, 1⟩ (.short 1)))
    let w' := Worker.run b.recorded s (List.replicate 16 .quiet) w₁
    ∃ task task' model sref, w₁.scheduler.requests.get? 1 = some task ∧ w'.scheduler.requests.get? 1 = some task' ∧
      w'.runtime.sequenceOf 1 = some (model, sref) ∧ task'.generated.length = 2 ∧
      w'.runtime.loader.world.2 sref = (callsOf task.promptTokens task'.generated).take 2 := by
  intro b s limits
  have h := generation_fed b s (fun _ => []) limits { tokenCapacity := 8, recordCapacity := 8 } 8
    (WorkerInput.commands [.loadModel 1 7 () 0 .cpu]) (.command (.generate 2 ⟨7, 1⟩ (.short 1))) 1
  dsimp only at h ⊢
  obtain ⟨task, htask⟩ : ∃ task, ((Worker.run b.recorded s (WorkerInput.commands [.loadModel 1 7 () 0 .cpu])
      (Worker.start (fun _ => [], fun _ => []) limits { tokenCapacity := 8, recordCapacity := 8 } 8)).step b.recorded
      s (.command (.generate 2 ⟨7, 1⟩ (.short 1)))).scheduler.requests.get? 1 = some task :=
    Option.isSome_iff_exists.mp (by decide +kernel)
  obtain ⟨ps, -, hnow⟩ := h task (by decide +kernel) htask (List.replicate 16 .quiet) (by decide +kernel)
  generalize hw' : Worker.run b.recorded s (List.replicate 16 .quiet) _ = w' at hnow ⊢
  obtain ⟨task', htask'⟩ : ∃ task', w'.scheduler.requests.get? 1 = some task' :=
    Option.isSome_iff_exists.mp (by rw [← hw']; decide +kernel)
  obtain ⟨⟨model, sref⟩, hseq⟩ : ∃ sequence, w'.runtime.sequenceOf 1 = some sequence :=
    Option.isSome_iff_exists.mp (by rw [← hw']; decide +kernel)
  have hworking : (w'.scheduler.requests.get? 1).all (fun task => task.phase.working && task.generated.length == 2) =
      true := by
    rw [← hw']
    decide +kernel
  rw [htask', Option.all_some, Bool.and_eq_true, beq_iff_eq] at hworking
  obtain ⟨-, hfed⟩ := hnow task' htask' hworking.1
  have hlog := hfed model sref hseq
  rw [hworking.2] at hlog
  exact ⟨task, task', model, sref, htask, htask', hseq, hworking.2, hlog⟩

/-! ### The plain loop -/

/-- In every run of a backend whose logits are determined by the steps of their
sequence, from its admission until the request is admitted again or stepped
directly: the tokens a generation publishes are the first tokens of the plain
loop, and all of them once a finish condition is met. -/
theorem generation_plain {v : SequenceView σ} (hb : b.Logs v)
    {logitsOf : SequenceRef → List TokenCall → List F32} (hd : b.Determined v logitsOf) (loader : σ)
    (limits : RuntimeLimits) (output : TokenOutput GenerationOutputState) (eventBacklogCapacity : ℕ)
    (inputs : List (WorkerInput Source)) :
    let w : Worker σ τ := Worker.run b s inputs (Worker.start loader limits output eventBacklogCapacity)
    ∀ input r task, w.scheduler.requests.get? r = none →
      (w.step b s input).scheduler.requests.get? r = some task →
      ∃ model sref, (w.step b s input).runtime.sequenceOf r = some (model, sref) ∧
        ∀ inputs', Worker.Along b s (fun w input => w.AdmitsNot b s r input ∧ w.DirectNot b r input) inputs'
            (w.step b s input) →
          let plain := task.plainTokens s fun generated => logitsOf sref (callsOf task.promptTokens generated)
          ∃ ps, records r (Worker.run b s inputs' (w.step b s input)).output = records r w.output ++ ps ∧
            publishedTokens ps <+: plain ∧
            (publishedTokens ps ≠ [] → task.Ends (publishedTokens ps) → publishedTokens ps = plain) := by
  intro w input r task hr htask
  obtain ⟨ha, hs⟩ : w.engine.Accounted ∧ w.engine.Sound := Worker.run_sound b s inputs
    ⟨Worker.start_accounted loader limits output eventBacklogCapacity,
      Worker.start_sound loader limits output eventBacklogCapacity⟩
  obtain ⟨⟨model, sref, hseq, hfed⟩, handle, request, vocabularySize, sampler, footprint, htask₀⟩ :=
    Worker.admission_fed b s hb ha hr htask
  refine ⟨model, sref, hseq, fun inputs' halong => ?_⟩
  have hfollows : task.Follows s (fun generated => logitsOf sref (callsOf task.promptTokens generated)) task [] := by
    rw [htask₀]
    exact newTask_follows s ..
  have hpos : 0 < task.maximumGeneratedTokens := by
    rw [htask₀]
    exact request.maximumGeneratedTokens.pos
  have hstart := Worker.admission_streaming b s
    (P := fun rt task' ts => task.Follows s (fun generated => logitsOf sref (callsOf task.promptTokens generated))
      task' ts ∧ task'.Fed v sref r rt) ha hs hr htask ⟨hfollows, hfed⟩
  have hend := Worker.run_streaming b s hb (plain_carried b s hb hd r task hpos sref) inputs' halong hstart
  obtain ⟨ps, hps, ⟨rt, last, hlast, -⟩, -⟩ := hend.stream
  exact ⟨ps, hps, hlast.plain, fun hne hends => (hlast.ended hne hends).symm⟩

/-- A model is loaded, a generation admitted and the loop goes round until its
four tokens are published: they are those of the plain loop. -/
theorem generation_plain_published :
    let b := Backend.replaying ⟨1, 0, 2, 0, 0⟩ fun _ calls => [0, BitVec.ofNat 32 calls.length]
    let s := Sampling.scripted fun n => .ok n
    let limits : RuntimeLimits := ⟨⟨1, by decide, by decide⟩, ⟨1, by decide, by decide⟩, ⟨100, 1000⟩,
      ⟨⟨1, by decide, by decide⟩⟩⟩
    let w := Worker.run b s (WorkerInput.commands [.loadModel 1 7 () 0 .cpu])
      (Worker.start (fun _ => []) limits { tokenCapacity := 8, recordCapacity := 8 } 8)
    let w₁ := w.step b s (.command (.generate 2 ⟨7, 1⟩ (.short 1)))
    ∃ task ps, w₁.scheduler.requests.get? 1 = some task ∧
      records 1 (Worker.run b s (List.replicate 44 .quiet) w₁).output = records 1 w.output ++ ps ∧
      publishedTokens ps = [0, 1, 2, 3] ∧ publishedTokens ps =
        task.plainTokens s fun generated => [0, BitVec.ofNat 32 (callsOf task.promptTokens generated).length] := by
  intro b s limits
  have h := generation_plain b s (Backend.replaying_logs _ _) (Backend.replaying_determined _ _) (fun _ => []) limits
    { tokenCapacity := 8, recordCapacity := 8 } 8 (WorkerInput.commands [.loadModel 1 7 () 0 .cpu])
    (.command (.generate 2 ⟨7, 1⟩ (.short 1))) 1
  dsimp only at h ⊢
  obtain ⟨task, htask, hends⟩ : ∃ task, ((Worker.run b s (WorkerInput.commands [.loadModel 1 7 () 0 .cpu])
      (Worker.start (fun _ => []) limits { tokenCapacity := 8, recordCapacity := 8 } 8)).step b s
      (.command (.generate 2 ⟨7, 1⟩ (.short 1)))).scheduler.requests.get? 1 = some task ∧
        decide (task.Ends [0, 1, 2, 3]) = true :=
    (Option.any_eq_true _ _).mp (by decide +kernel)
  obtain ⟨model, sref, -, hrun⟩ := h task (by decide +kernel) htask
  obtain ⟨ps, hps, -, hall⟩ := hrun (List.replicate 44 .quiet) (by decide +kernel)
  have hpublished : publishedTokens (records 1 (Worker.run b s (List.replicate 44 .quiet)
      ((Worker.run b s (WorkerInput.commands [.loadModel 1 7 () 0 .cpu])
        (Worker.start (fun _ => []) limits { tokenCapacity := 8, recordCapacity := 8 } 8)).step b s
        (.command (.generate 2 ⟨7, 1⟩ (.short 1))))).output) = [0, 1, 2, 3] := by
    decide +kernel
  have hnone : records 1 (Worker.run b s (WorkerInput.commands [.loadModel 1 7 () 0 .cpu])
      (Worker.start (fun _ => []) limits { tokenCapacity := 8, recordCapacity := 8 } 8)).output = [] := by
    decide +kernel
  have htokens : publishedTokens ps = [0, 1, 2, 3] := by
    rwa [hps, hnone, List.nil_append] at hpublished
  refine ⟨task, ps, htask, hps, htokens, hall (by simp [htokens]) ?_⟩
  rw [htokens]
  exact of_decide_eq_true hends

end LlmApp
