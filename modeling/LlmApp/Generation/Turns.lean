/-
# What one turn does

`Turned` lists the ways a turn of a task can go, each with what it returned
and left; `advanceTask_turned` says that there are no others. A backend step
of either phase is one call (`callBackend`) and what follows it
(`stepTask_eq`).

A turn keeps what admission put into the task (`SameRequest`), and changes the
registry by changes that keep its accounts (`advanceTask_worked`).

Key definitions: `GenerationPhase.working`, `callBackend`, `Turned`,
`GenerationTask.SameRequest`.
Key theorems: `stepTask_eq`, `advanceTask_turned`, `advanceTask_worked`.
-/
import LlmApp.Generation.Scheduler
import LlmApp.Runtime.Frame

namespace LlmApp

open InferenceRuntime

variable {σ Source τ : Type}

/-- The phase takes backend steps. -/
def GenerationPhase.working : GenerationPhase → Bool
  | .prefill | .decode => true
  | .terminal _ => false

/-! ### The backend step -/

/-- The logits a step wrote, or the outcome the backend ended the sequence with. -/
def prefillResult (receipt : PrefillReceipt) : Except GenerationOutcome ℕ :=
  match receipt.outcome with
  | .ready _ _ logitsWritten => .ok logitsWritten
  | .finished reason => .error (.finished reason)

def decodeResult (receipt : DecodeReceipt) : Except GenerationOutcome ℕ :=
  match receipt.outcome with
  | .ready _ logitsWritten => .ok logitsWritten
  | .finished reason => .error (.finished reason)

/-- The call a working task makes: its prompt, or the last token. -/
def callBackend (b : Backend σ Source) (rt : InferenceRuntime σ) (r : RequestId) (task : GenerationTask τ) :
    Except RuntimeError (Except GenerationOutcome ℕ) × List F32 × InferenceRuntime σ :=
  match task.phase with
  | .prefill =>
    let answer := rt.prefill b r task.promptTokens true task.logits
    (answer.1.map prefillResult, answer.2)
  | .decode | .terminal _ =>
    match task.generated.getLast? with
    | none => (.ok (.error (.failed .backendContractViolation)), task.logits, rt)
    | some token =>
      let answer := rt.decode b r token task.logits
      (answer.1.map decodeResult, answer.2)

/-- The ways of a checked backend step of request `r`, where `view` reads the
receipt: it is not active; it goes on; it is ended, by the backend or by its
error, and removed. -/
inductive Stepped {α : Type} (b : Backend σ Source) (rt : InferenceRuntime σ) (r : RequestId)
    (view : α → Except GenerationOutcome ℕ) : Except RuntimeError α × List F32 × InferenceRuntime σ → Prop
  | refused {logits : List F32} (hr : rt.requestIndex.get? r = none) :
      Stepped b rt r view (.error (.requestNotActive r), logits, rt)
  | ready {m : ModelId} {slot : ModelSlot} {q : RequestSlot} {loader : BackendState σ} {receipt : α}
      {logitsWritten : ℕ} {usage : GenerationUsage} {logits : List F32} (hm : rt.models.get? m = some slot)
      (hr : slot.requests.get? r = some q) (hl : Transition .keep rt { rt with loader := loader })
      (hv : view receipt = .ok logitsWritten) :
      Stepped b rt r view (.ok receipt, logits, setUsage { rt with loader := loader } m slot r q usage)
  | finished {m : ModelId} {slot : ModelSlot} {q : RequestSlot} {loader : BackendState σ} {receipt : α}
      {reason : FinishReason} {logits : List F32} (hm : rt.models.get? m = some slot)
      (hr : slot.requests.get? r = some q) (hl : Transition .keep rt { rt with loader := loader })
      (hv : view receipt = .error (.finished reason)) :
      Stepped b rt r view ((endWith b { rt with loader := loader } r (finishOperation reason)
          (finishFailureClass reason) (.ok receipt)).1, logits,
        (endWith b { rt with loader := loader } r (finishOperation reason) (finishFailureClass reason)
          (.ok receipt : Except RuntimeError α)).2)
  | failed {m : ModelId} {slot : ModelSlot} {q : RequestSlot} {loader : BackendState σ}
      {e : SequenceError} {operation : RuntimeOperation} {logits : List F32}
      (hm : rt.models.get? m = some slot) (hr : slot.requests.get? r = some q)
      (hl : Transition .keep rt { rt with loader := loader }) :
      Stepped b rt r view ((endWith b { rt with loader := loader } r operation
          (RuntimeError.sequence e).failureClass (.error (.sequence e))).1, logits,
        (endWith b { rt with loader := loader } r operation (RuntimeError.sequence e).failureClass
          (.error (.sequence e) : Except RuntimeError α)).2)

section Step

variable (b : Backend σ Source) (s : Sampling τ) (rt : InferenceRuntime σ) (r : RequestId)
  (task : GenerationTask τ)

/-- `result` is what `view` reads in the receipt of an outcome: the logits of a
step that goes on, or the end. -/
structure ReadsReceipt {α ρ : Type} (k : RequestStep σ α ρ) (view : ρ → Except GenerationOutcome ℕ)
    (result : α → Except GenerationOutcome ℕ) : Prop where
  view (outcome : α) (usage : GenerationUsage) : view (k.receipt outcome usage) = result outcome
  ready {outcome : α} {spend : GenerationUsage → GenerationUsage} (h : k.read outcome = .ok spend) :
    ∃ logitsWritten, result outcome = .ok logitsWritten
  finished {outcome : α} {reason : FinishReason} (h : k.read outcome = .error reason) :
    result outcome = .error (.finished reason)

theorem prefill_reads (tokens : List TokenId) (emitLogits : Bool) :
    ReadsReceipt (.prefill b tokens emitLogits) prefillResult fun outcome => prefillResult ⟨outcome, 0, 0⟩ where
  view _ _ := rfl
  ready {outcome} _ h := by
    cases outcome with
    | ready _ _ logitsWritten => exact ⟨logitsWritten, rfl⟩
    | finished => cases h
  finished {outcome} _ h := by
    cases outcome with
    | ready => cases h
    | finished =>
      cases h
      rfl

theorem decode_reads (token : TokenId) :
    ReadsReceipt (.decode b token) decodeResult fun outcome => decodeResult ⟨outcome, 0, 0⟩ where
  view _ _ := rfl
  ready {outcome} _ h := by
    cases outcome with
    | ready _ logitsWritten => exact ⟨logitsWritten, rfl⟩
    | finished => cases h
  finished {outcome} _ h := by
    cases outcome with
    | ready => cases h
    | finished =>
      cases h
      rfl

variable {b rt r} in
theorem ReadsReceipt.stepped {α ρ : Type} {k : RequestStep σ α ρ} {view : ρ → Except GenerationOutcome ℕ}
    {result : α → Except GenerationOutcome ℕ} (hreads : ReadsReceipt k view result) (hi : Consistent rt) {logits : List F32}
    {answer : Except RuntimeError ρ × List F32 × InferenceRuntime σ} (htaken : Taken b k rt r logits answer) :
    Stepped b rt r view answer := by
  cases htaken with
  | inactive hr => exact .refused hr
  | torn htorn => exact absurd hi htorn
  | ready hm hr hstep hread =>
    obtain ⟨logitsWritten, hresult⟩ := hreads.ready hread
    exact .ready hm hr (RequestStep.keeps hm hr hstep) ((hreads.view ..).trans hresult)
  | finished hm hr hstep hread =>
    exact .finished hm hr (RequestStep.keeps hm hr hstep) ((hreads.view ..).trans (hreads.finished hread))
  | failed hm hr hstep => exact .failed hm hr (RequestStep.keeps hm hr hstep)

theorem prefill_stepped (hi : Consistent rt) (tokens : List TokenId) (emitLogits : Bool)
    (logits : List F32) : Stepped b rt r prefillResult (rt.prefill b r tokens emitLogits logits) := by
  rw [prefill_eq]
  exact (prefill_reads b tokens emitLogits).stepped hi (stepRequest_taken ..)

theorem decode_stepped (hi : Consistent rt) (token : TokenId) (logits : List F32) :
    Stepped b rt r decodeResult (rt.decode b r token logits) := by
  rw [decode_eq]
  exact (decode_reads b token).stepped hi (stepRequest_taken ..)

theorem endWith_map {α β : Type} (view : α → β) (operation : RuntimeOperation) (failure : FailureClass)
    (result : Except RuntimeError α) : endWith b rt r operation failure (result.map view) =
      ((endWith b rt r operation failure result).1.map view, (endWith b rt r operation failure result).2) := by
  unfold endWith
  dsimp only
  split <;> rfl

theorem endWith_removes {α : Type} (operation : RuntimeOperation) (failure : FailureClass)
    (result : Except RuntimeError α) :
    (endWith b rt r operation failure result).2 = (rt.removeRequest b r operation failure).2 := by
  unfold endWith
  dsimp only
  split <;> rfl

/-- A step seen through its view. -/
theorem Stepped.map {α : Type} {view : α → Except GenerationOutcome ℕ} {b : Backend σ Source}
    {rt : InferenceRuntime σ} {r : RequestId} {answer : Except RuntimeError α × List F32 × InferenceRuntime σ}
    (h : Stepped b rt r view answer) : Stepped b rt r id (answer.1.map view, answer.2) := by
  cases h with
  | refused hr => exact .refused hr
  | ready hm hr hl hv => exact .ready hm hr hl hv
  | @finished m slot q loader receipt reason logits hm hr hl hv =>
    have h := @Stepped.finished _ _ _ b rt r id m slot q loader (view receipt) reason logits hm hr hl hv
    have heq := endWith_map b { rt with loader := loader } r view (finishOperation reason)
      (finishFailureClass reason) (.ok receipt)
    rw [show Except.map view (.ok receipt : Except RuntimeError α) = .ok (view receipt) from rfl] at heq
    rwa [heq] at h
  | @failed m slot q loader e operation logits hm hr hl =>
    have h := @Stepped.failed _ _ _ b rt r (id : Except GenerationOutcome ℕ → _) m slot q loader e operation logits
      hm hr hl
    have heq := endWith_map b { rt with loader := loader } r view operation
      (RuntimeError.sequence e).failureClass (.error (.sequence e))
    rw [show Except.map view (.error (.sequence e) : Except RuntimeError α) = .error (.sequence e) from rfl] at heq
    rwa [heq] at h

/-- The call of a working task that has a token to decode. -/
theorem callBackend_stepped (hi : Consistent rt) (hw : task.phase.working = true)
    (ht : task.phase = .decode → task.generated ≠ []) :
    Stepped b rt r id (callBackend b rt r task) := by
  unfold callBackend
  rcases hp : task.phase with _ | _ | terminal
  · exact (prefill_stepped b rt r hi task.promptTokens true task.logits).map
  · dsimp only
    split
    · next hnone => exact absurd (List.getLast?_eq_none_iff.mp hnone) (ht hp)
    · next token _ => exact (decode_stepped b rt r hi token task.logits).map
  · rw [hp] at hw
    cases hw

theorem stepTask_eq (h : task.phase.working = true) : stepTask b s rt r task =
    afterBackend b s (callBackend b rt r task).2.2 r
      { task with logits := (callBackend b rt r task).2.1 } (callBackend b rt r task).1 := by
  unfold stepTask callBackend
  rcases hp : task.phase with _ | _ | terminal
  · rfl
  · dsimp only
    rcases task.generated.getLast? with _ | token
    · simp [afterBackend]
    · rfl
  · rw [hp] at h
    cases h

/-- The loop over backend steps goes on only past a sampled token, which is to
be published first. -/
theorem afterBackend_pending (result : Except RuntimeError (Except GenerationOutcome ℕ))
    (h : (afterBackend b s rt r task result).1 = true) :
    (afterBackend b s rt r task result).2.2.pendingToken.isSome = true := by
  unfold afterBackend at h ⊢
  split
  · next logitsWritten =>
    dsimp only at h
    unfold sampleToken at h ⊢
    split_ifs at h ⊢
    generalize s.sample task.sampler (task.logits.take logitsWritten) task.history task.samplingIndices
      task.repetitionEpochs = drawn at h ⊢
    obtain ⟨_ | token, sampler, logits, indices, epochs⟩ := drawn
    · cases h
    · rfl
  · cases h
  · cases h

/-- A turn takes one backend step at most. -/
theorem stepTasks_once (hp : task.pendingToken = none) (hc : task.cancellation = none) (steps : NonZeroU32)
    (hw : task.phase.working = true) : stepTasks b s r steps.get rt task = (stepTask b s rt r task).2 := by
  obtain ⟨steps, hpos, hle⟩ := steps
  obtain ⟨steps, rfl⟩ := Nat.exists_eq_succ_of_ne_zero (Nat.pos_iff_ne_zero.mp hpos)
  have hpending : (stepTask b s rt r task).1 = true → (stepTask b s rt r task).2.2.pendingToken.isSome = true := by
    rw [stepTask_eq b s rt r task hw]
    exact afterBackend_pending b s _ r _ _
  rw [stepTasks, if_neg (by simp [hp, hc])]
  generalize stepTask b s rt r task = answer at hpending ⊢
  obtain ⟨_ | _, rt', task'⟩ := answer
  · rfl
  · cases steps with
    | zero => rfl
    | succ steps =>
      dsimp only
      rw [stepTasks, if_pos (.inl (hpending rfl))]

/-! ### The turn -/

/-- The ways of a turn. -/
inductive Turned (output : TokenOutput GenerationOutputState) : Turn σ τ → Prop
  | terminal (terminal : TerminalPublication) (hphase : task.phase = .terminal terminal) :
      Turned output ⟨(publishTerminal rt r output terminal).1, rt, (publishTerminal rt r output terminal).2.1,
        { task with phase := .terminal (publishTerminal rt r output terminal).2.2 }⟩
  | cancelled (reason : CancellationReason) (hphase : task.phase.working = true)
      (hcancel : task.cancellation = some reason) :
      Turned output ⟨progressed, (cancelTask b rt r reason).2, output,
        { task with cancellation := none, phase := (cancelTask b rt r reason).1 }⟩
  | yieldBlocked {output' : TokenOutput GenerationOutputState} (hphase : task.phase.working = true)
      (hcancel : task.cancellation = none) (hyield : publishYield r task output = (false, output', task)) :
      Turned output ⟨idle, rt, output', task⟩
  | tokenBlocked {output₁ output' : TokenOutput GenerationOutputState} {token : TokenId}
      {error : OutputPushError} (hphase : task.phase.working = true) (hcancel : task.cancellation = none)
      (hyield : publishYield r task output = (true, output₁, { task with pendingYield := none }))
      (htoken : task.pendingToken = some token)
      (hpush : output₁.tryPushToken r token = (.error error, output')) :
      Turned output ⟨idle, rt, output', { task with pendingYield := some (outputYield error) }⟩
  | tokenFinished {output₁ output' : TokenOutput GenerationOutputState} {token : TokenId}
      {reason : FinishReason} (hphase : task.phase.working = true) (hcancel : task.cancellation = none)
      (hyield : publishYield r task output = (true, output₁, { task with pendingYield := none }))
      (htoken : task.pendingToken = some token)
      (hpush : output₁.tryPushToken r token = (.ok (), output'))
      (hfinish : task.finishAfterToken token = some reason) :
      Turned output ⟨progressed, (rt.completeRequest b r reason).2, output',
        { task with
          pendingYield := none
          pendingToken := none
          phase := terminalPhase (rt.completeRequest b r reason).2 r (.finished reason)
            (rt.completeRequest b r reason).1.err }⟩
  | tokenPublished {output₁ output' : TokenOutput GenerationOutputState} {token : TokenId}
      (hphase : task.phase.working = true) (hcancel : task.cancellation = none)
      (hyield : publishYield r task output = (true, output₁, { task with pendingYield := none }))
      (htoken : task.pendingToken = some token)
      (hpush : output₁.tryPushToken r token = (.ok (), output'))
      (hfinish : task.finishAfterToken token = none) :
      Turned output ⟨progressed, rt, output',
        { task with pendingYield := none, pendingToken := none, phase := .decode }⟩
  | stepped {output' : TokenOutput GenerationOutputState} (hphase : task.phase.working = true)
      (hcancel : task.cancellation = none)
      (hyield : publishYield r task output = (true, output', { task with pendingYield := none }))
      (htoken : task.pendingToken = none) :
      Turned output ⟨progressed,
        (stepTasks b s r task.schedulerQuantum.get rt { task with pendingYield := none }).1, output',
        (stepTasks b s r task.schedulerQuantum.get rt { task with pendingYield := none }).2⟩

theorem publishYield_cases (output : TokenOutput GenerationOutputState) :
    (∃ output', publishYield r task output = (true, output', { task with pendingYield := none })) ∨
      ∃ output', publishYield r task output = (false, output', task) := by
  unfold publishYield
  rcases h : task.pendingYield with _ | reason
  · exact Or.inl ⟨output, by cases task; cases h; rfl⟩
  · dsimp only
    rcases output.tryPushState r (.yielded reason) with ⟨_ | _, output'⟩
    · exact Or.inr ⟨output', rfl⟩
    · exact Or.inl ⟨output', rfl⟩

theorem advanceTask_working (output : TokenOutput GenerationOutputState) (h : task.phase.working = true) :
    advanceTask b s rt r task output =
      match task.cancellation with
      | some reason =>
        ⟨progressed, (cancelTask b rt r reason).2, output,
          { task with cancellation := none, phase := (cancelTask b rt r reason).1 }⟩
      | none =>
      match publishYield r task output with
      | (false, output, task) => ⟨idle, rt, output, task⟩
      | (true, output, task) =>
      match task.pendingToken with
      | some token => publishToken b rt r task output token
      | none =>
        match stepTasks b s r task.schedulerQuantum.get rt task with
        | (rt, task) => ⟨progressed, rt, output, task⟩ := by
  unfold advanceTask
  rcases hp : task.phase with _ | _ | terminal
  · rfl
  · rfl
  · rw [hp] at h
    cases h

theorem finishAfterToken_written (pendingToken : Option TokenId) (pendingYield : Option YieldReason)
    (token : TokenId) :
    GenerationTask.finishAfterToken { task with
      pendingToken := pendingToken, pendingYield := pendingYield } token = task.finishAfterToken token := rfl

theorem publishToken_turned {output output₁ : TokenOutput GenerationOutputState} {token : TokenId}
    (hphase : task.phase.working = true) (hcancel : task.cancellation = none)
    (hyield : publishYield r task output = (true, output₁, { task with pendingYield := none }))
    (htoken : task.pendingToken = some token) :
    Turned b s rt r task output (publishToken b rt r { task with pendingYield := none } output₁ token) := by
  unfold publishToken
  rcases hpush : output₁.tryPushToken r token with ⟨error | _, output'⟩
  · exact .tokenBlocked hphase hcancel hyield htoken hpush
  dsimp only
  rw [finishAfterToken_written]
  rcases hfinish : task.finishAfterToken token with _ | reason
  · exact .tokenPublished hphase hcancel hyield htoken hpush hfinish
  · exact .tokenFinished hphase hcancel hyield htoken hpush hfinish

theorem advanceTask_turned (output : TokenOutput GenerationOutputState) :
    Turned b s rt r task output (advanceTask b s rt r task output) := by
  rcases hw : task.phase.working with _ | _
  · rcases hp : task.phase with _ | _ | terminal <;> rw [hp] at hw
    · cases hw
    · cases hw
    have hturn := @Turned.terminal _ _ _ b s rt r task output terminal hp
    simpa only [advanceTask, hp] using hturn
  rw [advanceTask_working b s rt r task output hw]
  rcases hc : task.cancellation with _ | reason
  · rcases publishYield_cases r task output with ⟨output', hy⟩ | ⟨output', hy⟩
    all_goals
      rw [hy]
      dsimp only
    · split
      · next token ht => exact publishToken_turned b s rt r task hw hc hy ht
      · next ht => exact .stepped hw hc hy ht
    · exact .yieldBlocked hw hc hy
  · exact .cancelled reason hw hc

end Step

/-! ### What a turn keeps -/

/-- What admission put into the task is the same. -/
structure GenerationTask.SameRequest (t t' : GenerationTask τ) : Prop where
  handle : t'.handle = t.handle
  workspaceFootprint : t'.workspaceFootprint = t.workspaceFootprint
  promptTokens : t'.promptTokens = t.promptTokens
  maximumGeneratedTokens : t'.maximumGeneratedTokens = t.maximumGeneratedTokens
  eosTokens : t'.eosTokens = t.eosTokens
  stopSequences : t'.stopSequences = t.stopSequences
  schedulerQuantum : t'.schedulerQuantum = t.schedulerQuantum

namespace GenerationTask.SameRequest

variable {t t' t'' : GenerationTask τ}

theorem refl (t : GenerationTask τ) : SameRequest t t := ⟨rfl, rfl, rfl, rfl, rfl, rfl, rfl⟩

theorem trans (h : SameRequest t t') (h' : SameRequest t' t'') : SameRequest t t'' :=
  ⟨h'.handle.trans h.handle, h'.workspaceFootprint.trans h.workspaceFootprint,
    h'.promptTokens.trans h.promptTokens, h'.maximumGeneratedTokens.trans h.maximumGeneratedTokens,
    h'.eosTokens.trans h.eosTokens, h'.stopSequences.trans h.stopSequences,
    h'.schedulerQuantum.trans h.schedulerQuantum⟩

end GenerationTask.SameRequest

/-- What every piece of a turn does to the registry and the task. -/
structure Worked (rt : InferenceRuntime σ) (task : GenerationTask τ) (rt' : InferenceRuntime σ)
    (task' : GenerationTask τ) : Prop where
  steps : Steps rt rt'
  made : rt'.made = rt.made
  same : task.SameRequest task'

namespace Worked

variable {rt rt' rt'' : InferenceRuntime σ} {task task' task'' : GenerationTask τ}

theorem refl (rt : InferenceRuntime σ) (task : GenerationTask τ) : Worked rt task rt task :=
  ⟨.refl rt, rfl, .refl task⟩

theorem trans (h : Worked rt task rt' task') (h' : Worked rt' task' rt'' task'') :
    Worked rt task rt'' task'' :=
  ⟨h.steps.trans h'.steps, h'.made.trans h.made, h.same.trans h'.same⟩

/-- The parts of a task that a turn writes. -/
theorem written (rt : InferenceRuntime σ) (task : GenerationTask τ) (sampler : τ) (logits : List F32)
    (samplingIndices repetitionEpochs : List ℕ) (history generated : List TokenId)
    (phase : GenerationPhase) (pendingToken : Option TokenId)
    (cancellation : Option CancellationReason) (pendingYield : Option YieldReason) :
    Worked rt task rt { task with
      sampler := sampler, logits := logits, samplingIndices := samplingIndices
      repetitionEpochs := repetitionEpochs, history := history, generated := generated
      phase := phase, pendingToken := pendingToken, cancellation := cancellation
      pendingYield := pendingYield } :=
  ⟨.refl rt, rfl, ⟨rfl, rfl, rfl, rfl, rfl, rfl, rfl⟩⟩

end Worked

section Turn

variable (b : Backend σ Source) (s : Sampling τ) {rt : InferenceRuntime σ} (r : RequestId)
  (task : GenerationTask τ)

theorem failTask_worked (hi : Consistent rt) (operation : RuntimeOperation) (failure : FailureClass)
    (primary : RuntimeError) : Worked rt task (failTask b rt r task operation failure primary).1
      (failTask b rt r task operation failure primary).2 :=
  ⟨removeRequest_steps b hi r operation failure, kept_made (removeRequest_kept b rt r operation failure),
    ⟨rfl, rfl, rfl, rfl, rfl, rfl, rfl⟩⟩

theorem sampleToken_worked (hi : Consistent rt) (logitsWritten : ℕ) :
    Worked rt task (sampleToken b s rt r task logitsWritten).2.1
      (sampleToken b s rt r task logitsWritten).2.2 := by
  unfold sampleToken
  split_ifs
  · exact failTask_worked b r task hi ..
  rcases s.sample task.sampler (task.logits.take logitsWritten) task.history task.samplingIndices
    task.repetitionEpochs with ⟨_ | token, sampler, logits, indices, epochs⟩
  · exact (Worked.written rt task ..).trans (failTask_worked b r _ hi ..)
  · exact .written rt task ..

theorem afterBackend_worked (hi : Consistent rt)
    (result : Except RuntimeError (Except GenerationOutcome ℕ)) :
    Worked rt task (afterBackend b s rt r task result).2.1 (afterBackend b s rt r task result).2.2 := by
  unfold afterBackend
  split
  · exact sampleToken_worked b s r task hi _
  · exact .written rt task ..
  · exact .written rt task ..

theorem callBackend_steps (hi : Consistent rt) : Steps rt (callBackend b rt r task).2.2 := by
  unfold callBackend
  split
  · exact prefill_steps b hi r task.promptTokens true task.logits
  all_goals
    split
    · exact .refl rt
    · exact decode_steps b hi r _ task.logits

theorem callBackend_made (rt : InferenceRuntime σ) : (callBackend b rt r task).2.2.made = rt.made := by
  unfold callBackend
  split
  · exact prefill_made b rt r task.promptTokens true task.logits
  all_goals
    split
    · rfl
    · exact decode_made b rt r _ task.logits

theorem stepTask_worked (hi : Consistent rt) :
    Worked rt task (stepTask b s rt r task).2.1 (stepTask b s rt r task).2.2 := by
  cases hw : task.phase.working with
  | false =>
    have hstop : stepTask b s rt r task = (false, rt, task) := by
      unfold stepTask
      cases hp : task.phase <;> rw [hp] at hw <;> first | rfl | cases hw
    rw [hstop]
    exact .refl rt task
  | true =>
    have hs := callBackend_steps b r task hi
    have hlogits : Worked rt task (callBackend b rt r task).2.2
        { task with logits := (callBackend b rt r task).2.1 } :=
      ⟨hs, callBackend_made b r task rt, ⟨rfl, rfl, rfl, rfl, rfl, rfl, rfl⟩⟩
    rw [stepTask_eq b s rt r task hw]
    exact hlogits.trans (afterBackend_worked b s r _ (hs.consistent hi) _)

theorem stepTasks_worked : ∀ (steps : ℕ) {rt : InferenceRuntime σ} (task : GenerationTask τ),
    Consistent rt →
      Worked rt task (stepTasks b s r steps rt task).1 (stepTasks b s r steps rt task).2
  | 0, rt, task, _ => .refl rt task
  | steps + 1, rt, task, hi => by
    have hstep := stepTask_worked b s r task hi
    rw [stepTasks]
    split_ifs
    · exact .refl rt task
    rcases h : stepTask b s rt r task with ⟨_ | _, rt', task'⟩ <;> rw [h] at hstep
    · exact hstep
    · exact hstep.trans (stepTasks_worked steps task' (hstep.steps.consistent hi))

theorem cancelTask_steps (hi : Consistent rt) (reason : CancellationReason) :
    Steps rt (cancelTask b rt r reason).2 := by
  unfold cancelTask
  dsimp only
  split_ifs
  · exact cancelRequest_steps b hi r reason
  · exact .refl rt

theorem cancelTask_made (rt : InferenceRuntime σ) (reason : CancellationReason) :
    (cancelTask b rt r reason).2.made = rt.made := by
  unfold cancelTask
  dsimp only
  split_ifs
  · exact kept_made (cancelRequest_kept b rt r reason)
  · rfl

theorem advanceTask_worked (hi : Consistent rt) (output : TokenOutput GenerationOutputState) :
    Worked rt task (advanceTask b s rt r task output).runtime (advanceTask b s rt r task output).task := by
  have hturn := advanceTask_turned b s rt r task output
  generalize advanceTask b s rt r task output = turn at hturn ⊢
  cases hturn with
  | terminal | yieldBlocked | tokenBlocked | tokenPublished =>
    exact ⟨.refl rt, rfl, ⟨rfl, rfl, rfl, rfl, rfl, rfl, rfl⟩⟩
  | cancelled reason =>
    exact ⟨cancelTask_steps b r hi reason, cancelTask_made b r rt reason, ⟨rfl, rfl, rfl, rfl, rfl, rfl, rfl⟩⟩
  | tokenFinished =>
    exact ⟨completeRequest_steps b hi r _, kept_made (completeRequest_kept b rt r _), ⟨rfl, rfl, rfl, rfl, rfl, rfl, rfl⟩⟩
  | stepped =>
    exact (Worked.written rt task ..).trans (stepTasks_worked b s r _ { task with pendingYield := none } hi)

end Turn

end LlmApp
