/-
# What holds of a task between turns

`GenerationTask.Sound` relates a task to the registry: a task that decodes has
a last token; once its work has ended its request is not active, and its
terminal phase knows of every quarantined sequence of the request. It is kept
by a turn, by a cancellation that is recorded, and by all that does not touch
the request.

Key definitions: `GenerationTask.Sound`.
Key theorems: `Stepped.ends`, `advanceTask_sound`.
-/
import LlmApp.Generation.Publication

namespace LlmApp

open InferenceRuntime

variable {σ Source τ : Type} (b : Backend σ Source) (s : Sampling τ)

/-! ### The end of a request in the registry -/

section Ends

variable {rt : InferenceRuntime σ} {r : RequestId}

/-- A backend step that does not go on leaves its request inactive. -/
theorem Stepped.ends (h : Reached rt) {α : Type} {view : α → Except GenerationOutcome ℕ}
    {answer : Except RuntimeError α × List F32 × InferenceRuntime σ} (hstep : Stepped b rt r view answer)
    (hend : ∀ a n, answer.1 = .ok a → view a ≠ .ok n) : answer.2.2.requestIndex.get? r = none := by
  cases hstep with
  | refused hr => exact hr
  | ready _ _ _ hv => exact absurd hv (hend _ _ rfl)
  | finished _ _ hl | failed _ _ hl =>
    simp only [endWith_removes]
    exact (h.tail hl).removeRequest_ends b r _ _

theorem Stepped.error_ends (h : Reached rt) {α : Type} {view : α → Except GenerationOutcome ℕ}
    {answer : Except RuntimeError α × List F32 × InferenceRuntime σ} (hstep : Stepped b rt r view answer)
    {e : RuntimeError} (he : answer.1 = .error e) : answer.2.2.requestIndex.get? r = none :=
  hstep.ends b h fun a n ha => by rw [he] at ha; cases ha

/-- A request that is inactive and has no cleanup state is unknown. -/
theorem Reached.unknown_of_cleanupState (h : Reached rt) (hc : rt.requestCleanupState r = none) :
    rt.pendingRequestIndex.get? r = none := by
  by_contra hne
  obtain ⟨m, hm⟩ := Option.ne_none_iff_exists'.mp hne
  obtain ⟨slot, p, hslot, hp⟩ := h.consistent.slot_of_pendingRequest hm
  simp [requestCleanupState, hm, hslot, hp] at hc

theorem quarantined_of_cleanupState {state : CleanupRetryState} (hs : rt.requestCleanupState r = some state) :
    ∃ m p, rt.quarantined (m, r) = some p ∧ state = rt.sequenceCleanupState m p := by
  simp only [requestCleanupState, Option.bind_eq_bind, Option.bind_eq_some_iff, Option.pure_def,
    Option.some.injEq] at hs
  obtain ⟨m, -, slot, hm, p, hp, rfl⟩ := hs
  exact ⟨m, p, OrdMap.nested_of_get? hm hp, rfl⟩

end Ends

/-! ### The phase a generation ends in -/

/-- The outcome a terminal phase publishes. -/
def GenerationPhase.outcome : GenerationPhase → Option GenerationOutcome
  | .terminal publication => some publication.outcome
  | _ => none

theorem terminalPhase_unpublished (rt : InferenceRuntime σ) (r : RequestId) (outcome : GenerationOutcome)
    (error : Option RuntimeError) : ∃ outcome' initialCleanup,
      terminalPhase rt r outcome error = .unpublished outcome' initialCleanup ∧
        (initialCleanup = none → rt.requestCleanupState r = none) := by
  unfold terminalPhase
  dsimp only
  split
  · next report =>
    split
    · next cleanup hc => exact ⟨_, _, rfl, nofun⟩
    · next hc => exact ⟨_, _, rfl, fun _ => (Option.or_eq_none_iff.mp hc).1⟩
  · exact ⟨_, _, rfl, fun hc => (Option.or_eq_none_iff.mp hc).1⟩
  · exact ⟨_, _, rfl, id⟩
  · exact ⟨_, _, rfl, id⟩

/-! ### Soundness -/

/-- How far a terminal phase has come: its flags are set in their order, and
it knows of the request's sequence in quarantine. -/
structure TerminalPublication.Sound (rt : InferenceRuntime σ) (r : RequestId)
    (terminal : TerminalPublication) : Prop where
  inactive : rt.requestIndex.get? r = none
  clean (h : terminal.initialCleanup = none) : rt.pendingRequestIndex.get? r = none
  published (h : terminal.cleanupPublished = true) : terminal.terminalPublished = true
  exhausted (h : terminal.exhaustionPublished = true) : terminal.cleanupPublished = true ∧
    terminal.initialCleanup.isSome = true ∧
      ∃ m p, rt.quarantined (m, r) = some p ∧ rt.maximumCleanupAttempts ≤ p.attempts

structure GenerationTask.Sound (rt : InferenceRuntime σ) (r : RequestId) (task : GenerationTask τ) : Prop where
  decoding (h : task.phase = .decode) : task.generated ≠ []
  pending (h : task.pendingToken.isSome = true) : task.generated ≠ []
  ended {terminal : TerminalPublication} (h : task.phase = .terminal terminal) : terminal.Sound rt r

section Sound

variable {rt rt' : InferenceRuntime σ} {r : RequestId} {task : GenerationTask τ}

theorem TerminalPublication.Sound.untouched {terminal : TerminalPublication} (h : terminal.Sound rt r)
    (hu : Untouched r rt rt') : terminal.Sound rt' r where
  inactive := hu.inactive h.inactive
  clean hc := hu.unknown h.inactive (h.clean hc)
  published := h.published
  exhausted hx := by
    obtain ⟨hc, hi, m, p, hp, hk⟩ := h.exhausted hx
    refine ⟨hc, hi, m, p, hu.exhausted hp hk, ?_⟩
    rwa [maximumCleanupAttempts, hu.limits]

namespace GenerationTask.Sound

theorem untouched (h : task.Sound rt r) (hu : Untouched r rt rt') : task.Sound rt' r :=
  ⟨h.decoding, h.pending, fun ht => (h.ended ht).untouched hu⟩

theorem marked (h : task.Sound rt r) (cancellation : Option CancellationReason)
    (pendingYield : Option YieldReason) :
    GenerationTask.Sound rt r { task with cancellation := cancellation, pendingYield := pendingYield } :=
  ⟨h.decoding, h.pending, h.ended⟩

/-- A task whose work has just ended. -/
theorem of_end (h : Reached rt) (hr : rt.requestIndex.get? r = none)
    {outcome : GenerationOutcome} {initialCleanup : Option CleanupRetryState}
    (hphase : task.phase = .unpublished outcome initialCleanup)
    (hc : initialCleanup = none → rt.requestCleanupState r = none)
    (hp : task.pendingToken.isSome = true → task.generated ≠ []) : task.Sound rt r where
  decoding hd := by rw [hphase] at hd; cases hd
  pending := hp
  ended ht := by
    rw [hphase] at ht
    cases ht
    exact ⟨hr, fun hn => h.unknown_of_cleanupState (hc hn), nofun, nofun⟩

theorem of_terminalPhase (h : Reached rt) (hr : rt.requestIndex.get? r = none)
    {outcome : GenerationOutcome} {error : Option RuntimeError}
    (hphase : task.phase = terminalPhase rt r outcome error)
    (hp : task.pendingToken.isSome = true → task.generated ≠ []) : task.Sound rt r := by
  obtain ⟨outcome', initialCleanup, heq, hc⟩ := terminalPhase_unpublished rt r outcome error
  exact of_end h hr (hphase.trans heq) hc hp

end GenerationTask.Sound

/-! ### A turn keeps it -/

theorem failTask_sound (h : Reached rt) (hp : task.pendingToken.isSome = true → task.generated ≠ [])
    (operation : RuntimeOperation) (failure : FailureClass) (primary : RuntimeError) :
    (failTask b rt r task operation failure primary).2.Sound (failTask b rt r task operation failure primary).1 r :=
  .of_terminalPhase (h.steps (removeRequest_steps b h.consistent r operation failure))
    (h.removeRequest_ends b r operation failure) rfl hp

theorem sampleToken_sound (h : Reached rt) (hp : task.pendingToken.isSome = true → task.generated ≠ [])
    (hw : task.phase.working = true) (logitsWritten : ℕ) :
    (sampleToken b s rt r task logitsWritten).2.2.Sound (sampleToken b s rt r task logitsWritten).2.1 r := by
  unfold sampleToken
  split_ifs
  · exact failTask_sound b h hp _ _ _
  rcases s.sample task.sampler (task.logits.take logitsWritten) task.history task.samplingIndices
    task.repetitionEpochs with ⟨_ | token, sampler, logits, indices, epochs⟩
  · exact @failTask_sound _ _ _ b _ _ { task with
      sampler := sampler, logits := _, samplingIndices := _, repetitionEpochs := _ } h hp _ _ _
  · refine ⟨fun _ => by simp, fun _ => by simp, fun {terminal} ht => ?_⟩
    have hphase : task.phase = .terminal terminal := ht
    rw [hphase] at hw
    cases hw

theorem afterBackend_sound {answer : Except RuntimeError (Except GenerationOutcome ℕ) × List F32 × InferenceRuntime σ}
    (hrt : Reached answer.2.2)
    (hends : (∀ a n, answer.1 = .ok a → id a ≠ .ok n) → answer.2.2.requestIndex.get? r = none)
    (hp : task.pendingToken.isSome = true → task.generated ≠ []) (hw : task.phase.working = true) :
    let after := afterBackend b s answer.2.2 r { task with logits := answer.2.1 } answer.1
    after.2.2.Sound after.2.1 r := by
  obtain ⟨result, logits, rt'⟩ := answer
  rcases result with e | outcome | logitsWritten
  · refine .of_end hrt (hends fun a n ha => ?_) rfl (fun hn => (Option.or_eq_none_iff.mp hn).1) hp
    cases ha
  · have hphase : GenerationTask.phase { task with
        logits := logits, phase := terminalPhase rt' r outcome none } = terminalPhase rt' r outcome none := rfl
    refine .of_terminalPhase hrt (hends fun a n ha hn => ?_) hphase hp
    cases ha
    cases hn
  · exact @sampleToken_sound _ _ _ b s rt' r { task with logits := logits } hrt hp hw logitsWritten

theorem stepTask_sound (h : Reached rt) (hs : task.Sound rt r) :
    (stepTask b s rt r task).2.2.Sound (stepTask b s rt r task).2.1 r := by
  cases hw : task.phase.working with
  | false =>
    have hstop : stepTask b s rt r task = (false, rt, task) := by
      unfold stepTask
      cases hp : task.phase <;> rw [hp] at hw <;> first | rfl | cases hw
    rwa [hstop]
  | true =>
    have hstep := callBackend_stepped b rt r task h.consistent hw hs.decoding
    have hrt := h.steps (callBackend_steps b r task h.consistent)
    rw [stepTask_eq b s rt r task hw]
    exact afterBackend_sound b s hrt (Stepped.ends b h hstep) hs.pending hw

theorem stepTasks_sound : ∀ (steps : ℕ) {rt : InferenceRuntime σ} {task : GenerationTask τ}, Reached rt →
    task.Sound rt r →
      (stepTasks b s r steps rt task).2.Sound (stepTasks b s r steps rt task).1 r
  | 0, _, _, _, hs => hs
  | steps + 1, rt, task, h, hs => by
    have hstep := stepTask_sound b s h hs
    have hrt := h.steps (stepTask_worked b s r task h.consistent).steps
    rw [stepTasks]
    split_ifs
    · exact hs
    generalize stepTask b s rt r task = answer at hstep hrt ⊢
    obtain ⟨_ | _, rt', task'⟩ := answer
    · exact hstep
    · exact stepTasks_sound steps hrt hstep

theorem cancelTask_ends (h : Reached rt) (r : RequestId) (reason : CancellationReason) :
    (cancelTask b rt r reason).2.requestIndex.get? r = none := by
  unfold cancelTask
  dsimp only
  split_ifs with ha
  · have hends := h.removeRequest_ends b r .cancellation .cancellation
    unfold cancelRequest
    generalize rt.removeRequest b r .cancellation .cancellation = answer at hends ⊢
    obtain ⟨_ | _, rt'⟩ := answer <;> exact hends
  · simpa [isRequestActive, OrdMap.contains] using ha

theorem completeRequest_ends (h : Reached rt) (r : RequestId) (reason : FinishReason) :
    (rt.completeRequest b r reason).2.requestIndex.get? r = none := by
  have hends := h.removeRequest_ends b r (finishOperation reason) (finishFailureClass reason)
  unfold completeRequest
  generalize rt.removeRequest b r (finishOperation reason) (finishFailureClass reason) = answer at hends ⊢
  obtain ⟨_ | _, rt'⟩ := answer <;> exact hends

theorem TerminalTurn.sound {terminal : TerminalPublication} {output : TokenOutput GenerationOutputState}
    {answer : SchedulerAdvance × TokenOutput GenerationOutputState × TerminalPublication}
    (ht : TerminalTurn rt r output terminal answer) (hs : terminal.Sound rt r) : answer.2.2.Sound rt r := by
  have hexhausted := hs.exhausted
  have hpublished := hs.published
  cases ht with
  | blocked | released => exact hs
  | terminal ht =>
    refine ⟨hs.inactive, hs.clean, fun _ => rfl, hexhausted⟩
  | cleanupPending retry ht hi =>
    refine ⟨hs.inactive, hs.clean, fun _ => ht, fun hx => ?_⟩
    obtain ⟨-, hrest⟩ := hexhausted hx
    exact ⟨rfl, hrest⟩
  | cleanupExhausted ht hi hc hr hx =>
    refine ⟨hs.inactive, hs.clean, hpublished, fun _ => ⟨hc, by rw [hi]; rfl, ?_⟩⟩
    obtain ⟨m, p, hp, rfl⟩ := quarantined_of_cleanupState hr
    exact ⟨m, p, hp, of_decide_eq_true hx⟩

theorem advanceTask_sound (h : Reached rt) (hs : task.Sound rt r) (output : TokenOutput GenerationOutputState) :
    (advanceTask b s rt r task output).task.Sound (advanceTask b s rt r task output).runtime r := by
  have hturn := advanceTask_turned b s rt r task output
  have hrt := h.steps (advanceTask_worked b s r task h.consistent output).steps
  generalize advanceTask b s rt r task output = turn at hturn hrt ⊢
  cases hturn with
  | terminal terminal hphase =>
    refine ⟨nofun, hs.pending, fun ht => ?_⟩
    cases ht
    exact (publishTerminal_turn rt r output terminal).sound (hs.ended hphase)
  | cancelled reason =>
    exact .of_terminalPhase hrt (cancelTask_ends b h r reason) rfl hs.pending
  | yieldBlocked => exact hs
  | tokenBlocked => exact hs.marked _ _
  | tokenFinished => exact .of_terminalPhase hrt (completeRequest_ends b h r _) rfl nofun
  | tokenPublished _ _ _ htoken =>
    exact ⟨fun _ => hs.pending (by rw [htoken]; rfl), nofun, nofun⟩
  | stepped => exact stepTasks_sound b s _ h (hs.marked _ _)

end Sound

end LlmApp
