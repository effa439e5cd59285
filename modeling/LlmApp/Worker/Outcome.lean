/-
# The outcome of a generation is independent of cleanup

In every state of a run, whatever the cleanup calls of the next turn return:
the outcome the turn records is what the work ended with, unless a release of
the model takes its place (`Displaced`). What the work ends with is read
without the cleanup calls and without the sequences in quarantine (`workEnd`).

Key theorems: `outcome_independent`, `outcome_displaced`.
-/
import LlmApp.Generation.Outcome
import LlmApp.Worker.Grammar

namespace LlmApp

open InferenceRuntime

variable {σ Source τ : Type} (b : Backend σ Source) (s : Sampling τ)

/-- The backend with other answers to its cleanup calls. -/
def Backend.withCleanup (destroySequence : SequenceRef → ℕ → Except SequenceError Unit)
    (prepareUnload : ModelRef → ℕ → Except SynchronizationError Unit) : Backend σ Source :=
  { b with destroySequence := destroySequence, prepareUnload := prepareUnload }

/-- What ends the work is the same for all cleanup calls. -/
theorem workEnd_withCleanup (destroySequence : SequenceRef → ℕ → Except SequenceError Unit)
    (prepareUnload : ModelRef → ℕ → Except SynchronizationError Unit) (loader : BackendState σ)
    (sequence : Option (ModelRef × SequenceRef)) (r : RequestId) (task : GenerationTask τ)
    (output : TokenOutput GenerationOutputState) :
    workEnd (b.withCleanup destroySequence prepareUnload) s loader sequence r task output =
      workEnd b s loader sequence r task output := rfl

/-- In every state of a run, for a scheduled generation whose work the next
turn ends, and whatever the cleanup calls of that turn return: the turn records
the outcome of the work exactly if no release takes its place. -/
theorem outcome_independent (loader : σ) (limits : RuntimeLimits) (output : TokenOutput GenerationOutputState)
    (eventBacklogCapacity : ℕ) (inputs : List (WorkerInput Source))
    (destroySequence : SequenceRef → ℕ → Except SequenceError Unit)
    (prepareUnload : ModelRef → ℕ → Except SynchronizationError Unit) (r : RequestId) (task : GenerationTask τ)
    (e : WorkEnd) :
    let w : Worker σ τ := Worker.run b s inputs (Worker.start loader limits output eventBacklogCapacity)
    let b' := b.withCleanup destroySequence prepareUnload
    w.scheduler.requests.get? r = some task → task.phase.working = true →
    workEnd b s w.runtime.loader (w.runtime.sequenceOf r) r task w.output = some e →
    ∃ outcome, (advanceTask b' s w.runtime r task w.output).task.phase.outcome = some outcome ∧
      (outcome = e.outcome ↔ ¬Displaced b' w.runtime r e.stepped) := by
  intro w b' hr hw he
  obtain ⟨ha, hs⟩ : w.engine.Accounted ∧ w.engine.Sound := Worker.run_sound b s inputs
    ⟨Worker.start_accounted loader limits output eventBacklogCapacity,
      Worker.start_sound loader limits output eventBacklogCapacity⟩
  have hrt : Reached w.runtime := LlmApp.Accounted.reached ha
  have hset := advanceTask_settles b' s task hrt (hs r task hr) hw w.output
  rw [workEnd_withCleanup, he] at hset
  exact hset

/-- A cancelled generation of a model that is not leaving. -/
theorem outcome_independent_cancelled :
    let b := Backend.scripted ⟨1, 0, 2, 0, 0⟩ (fun _ _ => true) (fun _ _ => true)
    let s := Sampling.scripted fun _ => .ok 0
    let limits : RuntimeLimits := ⟨⟨1, by decide, by decide⟩, ⟨1, by decide, by decide⟩, ⟨100, 1000⟩,
      ⟨⟨2, by decide, by decide⟩⟩⟩
    let w := Worker.run b s (WorkerInput.commands [.loadModel 1 7 () 0 .cpu, .generate 2 ⟨7, 1⟩ (.short 1),
      .cancelRequest 4 1 .userRequested])
      (Worker.start () limits { tokenCapacity := 8, recordCapacity := 8 } 8)
    let b' := b.withCleanup b.destroySequence b.prepareUnload
    ∃ task, w.scheduler.requests.get? 1 = some task ∧ ∃ outcome,
      (advanceTask b' s w.runtime 1 task w.output).task.phase.outcome = some outcome ∧
        (outcome = .finished (.cancelled .userRequested) ↔ ¬Displaced b' w.runtime 1 false) := by
  intro b s limits w b'
  have htask : (w.scheduler.requests.get? 1).isSome = true := by decide +kernel
  have hworking : (w.scheduler.requests.get? 1).all (·.phase.working) = true := by decide +kernel
  have hend : (w.scheduler.requests.get? 1).all (fun task =>
      workEnd b s w.runtime.loader (w.runtime.sequenceOf 1) 1 task w.output =
        some ⟨.finished (.cancelled .userRequested), false⟩) = true := by decide +kernel
  obtain ⟨task, ht⟩ := Option.isSome_iff_exists.mp htask
  rw [ht] at hworking hend
  have h := outcome_independent b s () limits { tokenCapacity := 8, recordCapacity := 8 } 8
    (WorkerInput.commands [.loadModel 1 7 () 0 .cpu, .generate 2 ⟨7, 1⟩ (.short 1),
      .cancelRequest 4 1 .userRequested]) b.destroySequence b.prepareUnload 1 task
    ⟨.finished (.cancelled .userRequested), false⟩
  dsimp only at h
  generalize hw : Worker.run b s _ _ = w' at h
  obtain rfl : w = w' := hw
  exact ⟨task, ht, h ht hworking (of_decide_eq_true hend)⟩

/-- The last request of a draining model, cancelled: its outcome depends on
whether the model's release succeeds. -/
theorem outcome_displaced :
    let b := Backend.scripted ⟨1, 0, 2, 0, 0⟩ (fun _ _ => true) (fun _ _ => true)
    let b' := b.withCleanup b.destroySequence fun _ _ => .error .invalidState
    let s := Sampling.scripted fun _ => .ok 0
    let limits : RuntimeLimits := ⟨⟨1, by decide, by decide⟩, ⟨1, by decide, by decide⟩, ⟨100, 1000⟩,
      ⟨⟨2, by decide, by decide⟩⟩⟩
    let w := Worker.run b s (WorkerInput.commands [.loadModel 1 7 () 0 .cpu, .generate 2 ⟨7, 1⟩ (.short 1),
      .unloadModel 3 ⟨7, 1⟩ (.drain ⟨1, by decide⟩), .cancelRequest 4 1 .userRequested])
      (Worker.start () limits { tokenCapacity := 8, recordCapacity := 8 } 8)
    let recorded (b : Backend Unit Unit) := (w.scheduler.requests.get? 1).bind fun task =>
      (advanceTask b s w.runtime 1 task w.output).task.phase.outcome
    recorded b = some (.finished (.cancelled .userRequested)) ∧
      recorded b' = some (.failed (.cleanupFailed ⟨.cancellation, .cancellation, .modelUnload, .synchronization⟩)) ∧
      recorded b ≠ recorded b' := by
  decide +kernel

end LlmApp
