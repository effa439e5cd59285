/-
# The grammar of a generation's records

`Transcript` is the grammar of the records of one generation: yields and
tokens, then the terminal record, then the release, or the pending cleanup and
how that ended. The stage a transcript has reached is the stage of the task
while the task is scheduled (`GenerationPhase.stage`), and once the task is
gone nothing is published until the request is admitted again.

Key definitions: `Stage`, `Transcript`, `Session`.
Key theorems: `advanceTask_transcript`, `EngineAction.apply_session`,
`generation_grammar`.
-/
import LlmApp.Generation.Progress
import LlmApp.Worker.Moves

namespace LlmApp

open InferenceRuntime

variable {σ Source τ : Type} (b : Backend σ Source) (s : Sampling τ)

/-! ### The grammar -/

/-- How far the records of a generation have come. -/
inductive Stage where
  | working
  | terminal (outcome : GenerationOutcome)
  | cleanupPending (outcome : GenerationOutcome)
  | cleanupExhausted (outcome : GenerationOutcome)
  | released (outcome : GenerationOutcome)
deriving DecidableEq, Repr

inductive Transcript : Stage → List (Publication GenerationOutputState) → Prop
  | working {work : List (Publication GenerationOutputState)} (h : ∀ p ∈ work, p.ofWork = true) :
      Transcript .working work
  | terminal {ps : List (Publication GenerationOutputState)} {outcome : GenerationOutcome}
      (h : Transcript .working ps) : Transcript (.terminal outcome) (ps ++ [.state (.terminal outcome)])
  | cleanupPending {ps : List (Publication GenerationOutputState)} {outcome : GenerationOutcome}
      (failure : CleanupFailureReport) (retry : CleanupRetryState) (h : Transcript (.terminal outcome) ps) :
      Transcript (.cleanupPending outcome) (ps ++ [.state (.cleanupPending outcome failure retry)])
  | cleanupExhausted {ps : List (Publication GenerationOutputState)} {outcome : GenerationOutcome}
      (failure : CleanupFailureReport) (retry : CleanupRetryState) (h : Transcript (.cleanupPending outcome) ps) :
      Transcript (.cleanupExhausted outcome) (ps ++ [.state (.cleanupExhausted outcome failure retry)])
  | released {ps : List (Publication GenerationOutputState)} {outcome : GenerationOutcome}
      (h : Transcript (.terminal outcome) ps) :
      Transcript (.released outcome) (ps ++ [.state (.released outcome)])
  | releasedLate {ps : List (Publication GenerationOutputState)} {outcome : GenerationOutcome}
      (h : Transcript (.cleanupPending outcome) ps) :
      Transcript (.released outcome) (ps ++ [.state (.released outcome)])

theorem Transcript.work {ps work : List (Publication GenerationOutputState)} (h : Transcript .working ps)
    (hw : ∀ p ∈ work, p.ofWork = true) : Transcript .working (ps ++ work) := by
  cases h with
  | working h => exact .working fun p hp => (List.mem_append.mp hp).elim (h p) (hw p)

/-- The stage of a terminal phase, by its flags. -/
def TerminalPublication.stage (terminal : TerminalPublication) : Stage :=
  if terminal.exhaustionPublished then .cleanupExhausted terminal.outcome
  else if terminal.cleanupPublished then .cleanupPending terminal.outcome
  else if terminal.terminalPublished then .terminal terminal.outcome
  else .working

def GenerationPhase.stage : GenerationPhase → Stage
  | .terminal publication => publication.stage
  | _ => .working

/-! ### The stage of a working task -/

section Working

variable {rt : InferenceRuntime σ} {r : RequestId} {task : GenerationTask τ}

theorem GenerationPhase.stage_of_working {phase : GenerationPhase} (h : phase.working = true) :
    phase.stage = .working := by
  cases phase with
  | terminal => cases h
  | _ => rfl

theorem terminalPhase_stage (rt : InferenceRuntime σ) (r : RequestId) (outcome : GenerationOutcome)
    (error : Option RuntimeError) : (terminalPhase rt r outcome error).stage = .working := by
  obtain ⟨outcome', initialCleanup, h, -⟩ := terminalPhase_unpublished rt r outcome error
  rw [h]
  rfl

theorem failTask_stage (rt : InferenceRuntime σ) (r : RequestId) (task : GenerationTask τ)
    (operation : RuntimeOperation) (failure : FailureClass) (primary : RuntimeError) :
    (failTask b rt r task operation failure primary).2.phase.stage = .working :=
  terminalPhase_stage _ r (.failed primary) _

theorem sampleToken_stage (h : task.phase.stage = .working) (logitsWritten : ℕ) :
    (sampleToken b s rt r task logitsWritten).2.2.phase.stage = .working := by
  unfold sampleToken
  split_ifs
  · exact failTask_stage b rt r task _ _ _
  rcases s.sample task.sampler (task.logits.take logitsWritten) task.history task.samplingIndices
    task.repetitionEpochs with ⟨_ | token, sampler, logits, indices, epochs⟩
  · exact failTask_stage b rt r _ _ _ _
  · exact h

theorem stepTask_stage (h : task.phase.stage = .working) : (stepTask b s rt r task).2.2.phase.stage = .working := by
  cases hw : task.phase.working with
  | false =>
    have hstop : stepTask b s rt r task = (false, rt, task) := by
      unfold stepTask
      cases hp : task.phase <;> rw [hp] at hw <;> first | rfl | cases hw
    rwa [hstop]
  | true =>
    rw [stepTask_eq b s rt r task hw]
    generalize callBackend b rt r task = answer
    obtain ⟨result, logits, rt'⟩ := answer
    unfold afterBackend
    rcases result with e | outcome | logitsWritten
    · rfl
    · exact terminalPhase_stage rt' r outcome none
    · exact @sampleToken_stage _ _ _ b s rt' r { task with logits := logits } h logitsWritten

theorem stepTasks_stage : ∀ (steps : ℕ) {rt : InferenceRuntime σ} {task : GenerationTask τ},
    task.phase.stage = .working → (stepTasks b s r steps rt task).2.phase.stage = .working
  | 0, _, _, h => h
  | steps + 1, rt, task, h => by
    have hstep := @stepTask_stage _ _ _ b s rt r task h
    rw [stepTasks]
    split_ifs
    · exact h
    generalize stepTask b s rt r task = answer at hstep ⊢
    obtain ⟨_ | _, rt', task'⟩ := answer
    · exact hstep
    · exact stepTasks_stage steps hstep

theorem working_stage (hw : task.phase.working = true) (output : TokenOutput GenerationOutputState) :
    (advanceTask b s rt r task output).task.phase.stage = .working := by
  have hstage := GenerationPhase.stage_of_working hw
  have hturn := advanceTask_turned b s rt r task output
  generalize advanceTask b s rt r task output = turn at hturn ⊢
  cases hturn with
  | terminal terminal hphase =>
    rw [hphase] at hw
    cases hw
  | cancelled reason => exact terminalPhase_stage _ r (.finished (.cancelled reason)) _
  | yieldBlocked | tokenBlocked => exact hstage
  | @tokenFinished _ _ _ reason => exact terminalPhase_stage _ r (.finished reason) _
  | tokenPublished => rfl
  | stepped => exact stepTasks_stage b s _ hstage

theorem working_completed (hw : task.phase.working = true) (output : TokenOutput GenerationOutputState) :
    (advanceTask b s rt r task output).result.completed = none := by
  have hturn := advanceTask_turned b s rt r task output
  generalize advanceTask b s rt r task output = turn at hturn ⊢
  cases hturn with
  | terminal terminal hphase =>
    rw [hphase] at hw
    cases hw
  | _ => rfl

end Working

/-! ### A turn -/

/-- The registry has no sequence of a request that is to be released. -/
theorem TerminalPublication.Sound.unknown_of_release {rt : InferenceRuntime σ} {r : RequestId}
    {terminal : TerminalPublication} (hs : terminal.Sound rt r) (h : Reached rt)
    (hi : terminal.initialCleanup = none ∨
      (terminal.initialCleanup.isSome = true ∧ terminal.cleanupPublished = true ∧
        rt.requestCleanupState r = none)) : rt.pendingRequestIndex.get? r = none := by
  rcases hi with hi | ⟨-, -, hc⟩
  · exact hs.clean hi
  · exact h.unknown_of_cleanupState hc

/-- A turn of the terminal phase publishes the next record of its stage. -/
theorem TerminalTurn.transcript {rt : InferenceRuntime σ} {r : RequestId}
    {terminal : TerminalPublication} (h : Reached rt) (hs : terminal.Sound rt r) {output : TokenOutput GenerationOutputState}
    {answer : SchedulerAdvance × TokenOutput GenerationOutputState × TerminalPublication}
    (hturn : TerminalTurn rt r output terminal answer) {ps : List (Publication GenerationOutputState)}
    (ht : Transcript terminal.stage ps) :
    ∃ new, answer.2.1.published = output.published ++ new.map (r, ·) ∧
      (answer.1.completed ≠ some r → Transcript answer.2.2.stage (ps ++ new)) ∧
      (answer.1.completed = some r → ∃ outcome, Transcript (.released outcome) (ps ++ new)) := by
  have hexhausted := hs.exhausted
  have hpublished := hs.published
  unfold TerminalPublication.stage at ht
  cases hturn with
  | blocked hp =>
    refine ⟨[], by simpa using hp, fun _ => ?_, fun hc => ?_⟩
    · simpa [TerminalPublication.stage] using ht
    · cases hc
  | terminal hterminal hp =>
    have hcleanup : terminal.cleanupPublished = false := by
      by_contra hne
      simp [hpublished (by simpa using hne)] at hterminal
    have hexhaustion : terminal.exhaustionPublished = false := by
      by_contra hne
      simp [(hexhausted (by simpa using hne)).1] at hcleanup
    simp only [hterminal, hcleanup, hexhaustion, Bool.false_eq_true, if_false] at ht
    refine ⟨[_], hp, fun _ => ?_, fun hc => by cases hc⟩
    simpa [TerminalPublication.stage, hcleanup, hexhaustion] using ht.terminal
  | cleanupPending retry hterminal _ hcleanup hp =>
    have hexhaustion : terminal.exhaustionPublished = false := by
      by_contra hne
      simp [(hexhausted (by simpa using hne)).1] at hcleanup
    simp only [hterminal, hcleanup, hexhaustion, Bool.false_eq_true, if_false, if_true] at ht
    refine ⟨[_], hp, fun _ => ?_, fun hc => by cases hc⟩
    simpa [TerminalPublication.stage, hexhaustion] using ht.cleanupPending retry.failure retry
  | @cleanupExhausted _ _ retry hterminal _ hcleanup _ _ hexhaustion hp =>
    simp only [hterminal, hcleanup, hexhaustion, Bool.false_eq_true, if_false, if_true] at ht
    refine ⟨[_], hp, fun _ => ?_, fun hc => by cases hc⟩
    simpa [TerminalPublication.stage] using ht.cleanupExhausted retry.failure retry
  | released hterminal hinitial hp =>
    have hunknown := hs.unknown_of_release h hinitial
    have hexhaustion : terminal.exhaustionPublished = false := by
      by_contra hne
      obtain ⟨-, -, m, p, hp, -⟩ := hexhausted (by simpa using hne)
      rw [h.consistent.quarantined_none hunknown] at hp
      cases hp
    simp only [hterminal, hexhaustion, Bool.false_eq_true, if_false, if_true] at ht
    refine ⟨[_], hp, fun hne => absurd rfl hne, fun _ => ⟨terminal.outcome, ?_⟩⟩
    split_ifs at ht
    · exact ht.releasedLate
    · exact ht.released

section Turn

variable {rt : InferenceRuntime σ} {r : RequestId} {task : GenerationTask τ}

theorem advanceTask_terminal {terminal : TerminalPublication} (hphase : task.phase = .terminal terminal)
    (output : TokenOutput GenerationOutputState) : advanceTask b s rt r task output =
      ⟨(publishTerminal rt r output terminal).1, rt, (publishTerminal rt r output terminal).2.1,
        { task with phase := .terminal (publishTerminal rt r output terminal).2.2 }⟩ := by
  simp only [advanceTask, hphase]

/-- A turn continues the transcript of its task; the last turn releases. -/
theorem advanceTask_transcript (h : Reached rt) (hs : task.Sound rt r)
    (output : TokenOutput GenerationOutputState) {ps : List (Publication GenerationOutputState)}
    (ht : Transcript task.phase.stage ps) :
    let turn := advanceTask b s rt r task output
    ∃ new, turn.output.published = output.published ++ new.map (r, ·) ∧
      (turn.result.completed ≠ some r → Transcript turn.task.phase.stage (ps ++ new)) ∧
      (turn.result.completed = some r → ∃ outcome, Transcript (.released outcome) (ps ++ new)) := by
  intro turn
  rcases hphase : task.phase with _ | _ | terminal
  case terminal =>
    rw [hphase] at ht
    have hturn : turn = _ := advanceTask_terminal b s hphase output
    rw [hturn]
    exact (publishTerminal_turn rt r output terminal).transcript h (hs.ended hphase) ht
  all_goals
    have hw : task.phase.working = true := by rw [hphase]; rfl
    obtain ⟨new, hp, hwork⟩ := working_published rt r b s task output hw
    have hcompleted : turn.result.completed = none := working_completed b s hw output
    have hstage : turn.task.phase.stage = .working := working_stage b s hw output
    rw [hphase] at ht
    refine ⟨new, hp, fun _ => hstage ▸ ht.work hwork, fun hc => ?_⟩
    rw [hcompleted] at hc
    cases hc

/-- A turn that publishes a release finds no sequence of the request. -/
theorem advanceTask_releases (h : Reached rt) (hs : task.Sound rt r)
    (output : TokenOutput GenerationOutputState) {new : List (Publication GenerationOutputState)}
    (hnew : (advanceTask b s rt r task output).output.published = output.published ++ new.map (r, ·))
    {outcome : GenerationOutcome} (hm : Publication.state (.released outcome) ∈ new) :
    rt.requestIndex.get? r = none ∧ rt.pendingRequestIndex.get? r = none := by
  have hinj : Function.Injective fun p : Publication GenerationOutputState => (r, p) :=
    fun _ _ hp => (Prod.mk.inj hp).2
  rcases hphase : task.phase with _ | _ | terminal
  case terminal =>
    have hterminal := hs.ended hphase
    refine ⟨hterminal.inactive, ?_⟩
    rw [advanceTask_terminal b s hphase] at hnew
    have hturn := publishTerminal_turn rt r output terminal
    generalize publishTerminal rt r output terminal = answer at hnew hturn
    cases hturn with
    | blocked hp =>
      rw [hp, List.self_eq_append_right, List.map_eq_nil_iff] at hnew
      rw [hnew] at hm
      cases hm
    | released _ hinitial => exact hterminal.unknown_of_release h hinitial
    | terminal _ hp | cleanupPending _ _ _ _ hp | cleanupExhausted _ _ _ _ _ _ hp =>
      rw [hp, List.append_cancel_left_eq, ← List.map_singleton (f := fun p => (r, p)),
        (List.map_injective_iff.mpr hinj).eq_iff] at hnew
      rw [← hnew] at hm
      simp at hm
  all_goals
    have hw : task.phase.working = true := by rw [hphase]; rfl
    obtain ⟨work, hp, hwork⟩ := working_published rt r b s task output hw
    rw [hp, List.append_cancel_left_eq, (List.map_injective_iff.mpr hinj).eq_iff] at hnew
    subst hnew
    cases hwork _ hm

end Turn

/-! ### A run -/

/-- Every task is sound. -/
def Engine.Sound (e : Engine σ τ) : Prop :=
  ∀ r task, e.scheduler.requests.get? r = some task → task.Sound e.runtime r

theorem newTask_sound (rt : InferenceRuntime σ) (r : RequestId) (handle : ModelHandle)
    (request : GenerationRequest) (vocabularySize : ℕ) (sampler : τ) (w : MemoryFootprint) :
    (GenerationScheduler.newTask handle request vocabularySize sampler w).Sound rt r :=
  ⟨nofun, nofun, nofun⟩

theorem EngineAction.apply_sound (action : EngineAction Source) {e : Engine σ τ} (h : e.Accounted)
    (hs : e.Sound) : (action.apply b s e).Sound := by
  have hrt : Reached e.runtime := LlmApp.Accounted.reached h
  intro r task' htask'
  rcases hr : e.scheduler.requests.get? r with _ | task
  · rcases action.entry b s hr with ⟨habsent, -⟩ | ⟨_, _, _, _, _, htask, _⟩
    · rw [habsent] at htask'
      cases htask'
    · rw [htask] at htask'
      cases htask'
      exact newTask_sound ..
  have hsound := hs r task hr
  rcases action.move b s h hr with ⟨hu, ht, -⟩ | ⟨reason, hu, ht, -⟩ | ⟨-, hturn, ht, -⟩ | ⟨-, -, ht, -⟩ | ⟨ht, -⟩ <;>
    rw [ht] at htask' <;> cases htask'
  · exact hsound.untouched hu
  · exact (hsound.untouched hu).marked _ _
  · rw [hturn]
    exact advanceTask_sound b s hrt hsound e.output

/-- The records of `r` after `base` are a transcript, in the stage of its task. -/
structure Session (r : RequestId) (base : List (Publication GenerationOutputState)) (e : Engine σ τ) : Prop where
  accounted : e.Accounted
  sound : e.Sound
  transcript : ∃ ps stage, records r e.output = base ++ ps ∧ Transcript stage ps ∧
    ∀ task, e.scheduler.requests.get? r = some task → stage = task.phase.stage

/-- Every action but another admission continues the session. -/
theorem EngineAction.apply_session (action : EngineAction Source) {r : RequestId}
    {base : List (Publication GenerationOutputState)} {e : Engine σ τ} (h : Session r base e)
    (hstays : e.scheduler.requests.get? r = none →
      (action.apply b s e).scheduler.requests.get? r = none) : Session r base (action.apply b s e) := by
  have hrt : Reached e.runtime := LlmApp.Accounted.reached h.accounted
  refine ⟨action.apply_accounted b s h.accounted, action.apply_sound b s h.accounted h.sound, ?_⟩
  obtain ⟨ps, stage, hps, ht, hstage⟩ := h.transcript
  rcases hr : e.scheduler.requests.get? r with _ | task
  · have hnone := hstays hr
    rcases action.entry b s hr with ⟨-, hpub⟩ | ⟨_, _, _, _, _, htask, _⟩
    · exact ⟨ps, stage, hpub.trans hps, ht, by simp [hnone]⟩
    · rw [hnone] at htask
      cases htask
  obtain rfl := hstage task hr
  rcases action.move b s h.accounted hr with ⟨-, htask, hpub⟩ | ⟨reason, -, htask, hpub⟩ | ⟨hc, -, htask, hout⟩ |
    ⟨hc, -, htask, hout⟩ | ⟨htask, hpub⟩
  · exact ⟨ps, _, hpub.trans hps, ht, by simp [htask]⟩
  · exact ⟨ps, _, hpub.trans hps, ht, by simp [htask]⟩
  · obtain ⟨new, hnew, hgo, -⟩ := advanceTask_transcript b s hrt (h.sound r task hr) e.output ht
    refine ⟨ps ++ new, _, ?_, hgo hc, by simp [htask]⟩
    rw [hout, records_append hnew, if_pos rfl, hps, List.append_assoc]
  · obtain ⟨new, hnew, -, hend⟩ := advanceTask_transcript b s hrt (h.sound r task hr) e.output ht
    obtain ⟨outcome, hreleased⟩ := hend hc
    refine ⟨ps ++ new, _, ?_, hreleased, by simp [htask]⟩
    rw [hout, records_append hnew, if_pos rfl, hps, List.append_assoc]
  · exact ⟨ps, _, hpub.trans hps, ht, by simp [htask]⟩

/-- What an action publishes for a request, and when it publishes a release. -/
theorem EngineAction.apply_releases (action : EngineAction Source) {e : Engine σ τ} (h : e.Accounted)
    (hs : e.Sound) (r : RequestId) :
    ∃ new, records r (action.apply b s e).output = records r e.output ++ new ∧
      ∀ outcome, Publication.state (.released outcome) ∈ new →
        e.runtime.requestIndex.get? r = none ∧ e.runtime.pendingRequestIndex.get? r = none := by
  have hrt : Reached e.runtime := LlmApp.Accounted.reached h
  have same : ∀ {e' : Engine σ τ}, records r e'.output = records r e.output →
      ∃ new, records r e'.output = records r e.output ++ new ∧
        ∀ outcome, Publication.state (.released outcome) ∈ new →
          e.runtime.requestIndex.get? r = none ∧ e.runtime.pendingRequestIndex.get? r = none :=
    fun hpub => ⟨[], by simpa using hpub, fun _ hm => by cases hm⟩
  rcases hr : e.scheduler.requests.get? r with _ | task
  · rcases action.entry b s hr with ⟨-, hpub⟩ | ⟨_, _, _, _, _, _, hout⟩
    · exact same hpub
    · exact same (by rw [hout])
  obtain ⟨new, hnew⟩ := turn_published e.runtime r b s task e.output
  have hturned : ∀ {e' : Engine σ τ}, e'.output = (advanceTask b s e.runtime r task e.output).output →
      ∃ new, records r e'.output = records r e.output ++ new ∧
        ∀ outcome, Publication.state (.released outcome) ∈ new →
          e.runtime.requestIndex.get? r = none ∧ e.runtime.pendingRequestIndex.get? r = none := by
    intro e' hout
    refine ⟨new, ?_, fun outcome hm => advanceTask_releases b s hrt (hs r task hr) e.output hnew hm⟩
    rw [hout, records_append hnew, if_pos rfl]
  rcases action.move b s h hr with ⟨-, -, hpub⟩ | ⟨-, -, -, hpub⟩ | ⟨-, -, -, hout⟩ | ⟨-, -, -, hout⟩ | ⟨-, hpub⟩
  · exact same hpub
  · exact same hpub
  · exact hturned hout
  · exact hturned hout
  · exact same hpub

/-! ### The worker -/

theorem Worker.start_sound (loader : σ) (limits : RuntimeLimits) (output : TokenOutput GenerationOutputState)
    (eventBacklogCapacity : ℕ) : (Worker.start (τ := τ) loader limits output eventBacklogCapacity).engine.Sound :=
  fun r task hr => by simp [Worker.engine, Worker.start, GenerationScheduler.new] at hr

/-- Every state of a run accounts for its workspaces and has sound tasks. -/
theorem Worker.run_sound (inputs : List (WorkerInput Source)) {w : Worker σ τ}
    (h : w.engine.Accounted ∧ w.engine.Sound) :
    (Worker.run b s inputs w).engine.Accounted ∧ (Worker.run b s inputs w).engine.Sound :=
  Worker.run_keeps b s (P := fun e => e.Accounted ∧ e.Sound)
    (fun action _ h => ⟨action.apply_accounted b s h.1, action.apply_sound b s h.1 h.2⟩) inputs h

/-- The step does not admit a request that is not scheduled. -/
def Worker.AdmitsNot (r : RequestId) (w : Worker σ τ) (input : WorkerInput Source) : Prop :=
  w.scheduler.requests.get? r = none → (w.step b s input).scheduler.requests.get? r = none

theorem Worker.step_session {r : RequestId} {base : List (Publication GenerationOutputState)}
    {w : Worker σ τ} {input : WorkerInput Source} (h : Session r base w.engine)
    (hstays : w.AdmitsNot b s r input) : Session r base (w.step b s input).engine := by
  have hstep := w.step_engine b s input
  have hsch : (w.step b s input).scheduler = (w.step b s input).engine.scheduler := rfl
  unfold Worker.AdmitsNot at hstays
  rw [hsch, hstep] at hstays
  rw [hstep]
  cases ha : w.action b input with
  | none => exact h
  | some action =>
    rw [ha] at hstays
    exact action.apply_session b s h hstays

/-- A session begins with the step that admits the request. -/
theorem Worker.admission_session {r : RequestId} {task : GenerationTask τ} {w : Worker σ τ}
    (h : w.engine.Accounted) (hs : w.engine.Sound) (hr : w.scheduler.requests.get? r = none)
    {input : WorkerInput Source} (htask : (w.step b s input).scheduler.requests.get? r = some task) :
    Session r (records r w.output) (w.step b s input).engine := by
  have hstep := w.step_engine b s input
  have hsch : (w.step b s input).scheduler = (w.step b s input).engine.scheduler := rfl
  rw [hsch, hstep] at htask
  rw [hstep]
  cases ha : w.action b input with
  | none =>
    rw [ha] at htask
    exact absurd (hr.symm.trans htask) nofun
  | some action =>
    rw [ha] at htask
    refine ⟨action.apply_accounted b s h, action.apply_sound b s h hs, ?_⟩
    rcases action.entry b s (e := w.engine) hr with ⟨hnone, -⟩ | ⟨_, _, _, _, _, hnew, hout⟩
    · exact absurd (hnone.symm.trans htask) nofun
    · refine ⟨[], .working, ?_, .working (fun _ hm => by cases hm), fun task' ht => ?_⟩
      · rw [List.append_nil]
        exact congrArg (records r) hout
      · have ht' := hnew.symm.trans ht
        cases ht'
        rfl

/-- In every run: from its admission until the request is admitted again, the
records of a generation are a transcript, and a release is published only when
the registry has no sequence of the request, active or quarantined. -/
theorem generation_grammar (loader : σ) (limits : RuntimeLimits) (output : TokenOutput GenerationOutputState)
    (eventBacklogCapacity : ℕ) (inputs : List (WorkerInput Source)) :
    let w : Worker σ τ := Worker.run b s inputs (Worker.start loader limits output eventBacklogCapacity)
    (∀ input r task, w.scheduler.requests.get? r = none →
      (w.step b s input).scheduler.requests.get? r = some task →
      ∀ inputs', Worker.Along b s (Worker.AdmitsNot b s r) inputs' (w.step b s input) →
        ∃ ps stage, records r (Worker.run b s inputs' (w.step b s input)).output =
          records r w.output ++ ps ∧ Transcript stage ps) ∧
    ∀ input r, ∃ new, records r (w.step b s input).output = records r w.output ++ new ∧
      ∀ outcome, Publication.state (.released outcome) ∈ new →
        w.runtime.requestIndex.get? r = none ∧ w.runtime.pendingRequestIndex.get? r = none := by
  intro w
  obtain ⟨ha, hs⟩ : w.engine.Accounted ∧ w.engine.Sound := Worker.run_sound b s inputs
    ⟨Worker.start_accounted loader limits output eventBacklogCapacity,
      Worker.start_sound loader limits output eventBacklogCapacity⟩
  refine ⟨fun input r task hr htask inputs' hstays => ?_, fun input r => ?_⟩
  · have hstart := Worker.admission_session b s ha hs hr htask
    obtain ⟨ps, stage, hps, ht, -⟩ := (Worker.run_along b s (I := fun w' => Session r (records r w.output) w'.engine)
      (fun h hp => Worker.step_session b s h hp) inputs' hstays hstart).transcript
    exact ⟨ps, stage, hps, ht⟩
  · have hout : (w.step b s input).output = (w.step b s input).engine.output := rfl
    rw [hout, w.step_engine b s input]
    cases w.action b input with
    | none => exact ⟨[], by simp [Worker.engine], fun _ hm => by cases hm⟩
    | some action => exact action.apply_releases b s ha hs r

end LlmApp
