/-
# The outcome of a generation and its cleanup

`workEnd` says what the work of a turn ends with, from the backend's steps,
the sampler and the output alone: it reads of the registry no more than the
sequence of the request. The turn then removes the request, and the outcome it
records is that of the work, unless the removal answers with an error that the
phase takes for the outcome (`Displaced`): the last sequence of a leaving
model was destroyed, and the model's release is refused over a quarantined
sibling or fails with attempts left.

Key definitions: `workEnd`, `Stranded`, `Retained`, `Displaced`.
Key theorems: `Reached.terminalPhase_outcome`, `advanceTask_settles`.
-/
import LlmApp.Generation.Progress

namespace LlmApp

open InferenceRuntime

variable {σ Source τ : Type}

/-! ### What the work ends with -/

/-- The model and the sequence of an active request. -/
def InferenceRuntime.sequenceOf (rt : InferenceRuntime σ) (r : RequestId) : Option (ModelRef × SequenceRef) := do
  let m ← rt.requestIndex.get? r
  let slot ← rt.models.get? m
  let q ← slot.requests.get? r
  return (slot.model, q.sequence.ref)

/-- What ended the work; `stepped` if a backend step did. -/
structure WorkEnd where
  outcome : GenerationOutcome
  stepped : Bool
deriving DecidableEq, Repr

section Work

variable (b : Backend σ Source) (s : Sampling τ) (loader : BackendState σ)
  (sequence : Option (ModelRef × SequenceRef)) (r : RequestId) (task : GenerationTask τ)

/-- The logits a backend step of the task writes, or how it ends the work. -/
def stepWork : Except GenerationOutcome ℕ × List F32 :=
  match sequence with
  | none => (.error (.failed (.requestNotActive r)), task.logits)
  | some (m, sequence) =>
  match task.phase with
  | .prefill =>
    match loader.prefillChecked b m sequence ⟨task.promptTokens, true⟩ task.logits .running with
    | (.ok (.ready _ _ logitsWritten), logits, _) => (.ok logitsWritten, logits)
    | (.ok (.finished reason), logits, _) => (.error (.finished reason), logits)
    | (.error error, logits, _) => (.error (.failed (.sequence error)), logits)
  | .decode | .terminal _ =>
    match task.generated.getLast? with
    | none => (.error (.failed .backendContractViolation), task.logits)
    | some token =>
      match loader.decodeChecked b m sequence token task.logits .running with
      | (.ok (.ready _ logitsWritten), logits, _) => (.ok logitsWritten, logits)
      | (.ok (.finished reason), logits, _) => (.error (.finished reason), logits)
      | (.error error, logits, _) => (.error (.failed (.sequence error)), logits)

/-- What sampling from the logits of a step ends the work with. -/
def sampleWork (logitsWritten : ℕ) (logits : List F32) : Option GenerationOutcome :=
  if logits.length < logitsWritten then some (.failed .backendContractViolation)
  else
  match (s.sample task.sampler (logits.take logitsWritten) task.history task.samplingIndices
      task.repetitionEpochs).1 with
  | .error error => some (.failed (.sampling error))
  | .ok _ => none

/-- What a backend step and the sampling after it end the work with. -/
def stepEnd : Option WorkEnd :=
  match stepWork b loader sequence r task with
  | (.error outcome, _) => some ⟨outcome, true⟩
  | (.ok logitsWritten, logits) => (sampleWork s task logitsWritten logits).map (⟨·, false⟩)

/-- A finish condition met ends the work of an active request. -/
def finishEnd (reason : FinishReason) : WorkEnd :=
  match sequence with
  | none => ⟨.failed (.requestNotActive r), false⟩
  | some _ => ⟨.finished reason, false⟩

/-- What a turn of a working task ends its work with, if it does. -/
def workEnd (output : TokenOutput GenerationOutputState) : Option WorkEnd :=
  match task.cancellation with
  | some reason => some ⟨.finished (.cancelled reason), false⟩
  | none =>
  match publishYield r task output with
  | (false, _, _) => none
  | (true, output, _) =>
  match task.pendingToken with
  | some token =>
    match (output.tryPushToken r token).1 with
    | .error _ => none
    | .ok () =>
      (task.finishAfterToken token).map (finishEnd sequence r)
  | none => stepEnd b s loader sequence r task

end Work

/-! ### Releases that take the place of the outcome -/

section Release

variable (b : Backend σ Source) (rt : InferenceRuntime σ) (r : RequestId)

/-- The request is the last of a leaving model, and its sequence is destroyed. -/
structure LastOut (m : ModelId) (slot : ModelSlot) (q : RequestSlot) : Prop where
  model : rt.models.get? m = some slot
  request : slot.requests.get? r = some q
  destroyed : b.destroySequence q.sequence.ref 0 = .ok ()
  last : ModelLifecycle.finishState slot.lifecycle.state slot.requests.size = .unloading

/-- The release of the model is refused over a quarantined sibling. -/
def Stranded : Prop := ∃ m slot q, LastOut b rt r m slot q ∧ slot.pendingSequences.isEmpty = false

/-- The release of the model is attempted and fails. -/
def Retained : Prop := ∃ m slot q, LastOut b rt r m slot q ∧ slot.pendingSequences.isEmpty = true ∧
  (b.prepareUnload slot.model 0).isOk = false

/-- The error of the release takes the place of the outcome. A backend step
drops it if it is a cleanup failure. -/
def Displaced (stepped : Bool) : Prop :=
  Stranded b rt r ∨ (stepped = false ∧ Retained b rt r ∧ 1 < rt.maximumCleanupAttempts)

end Release

/-- No error of a release. -/
def GenerationOutcome.ofWork : GenerationOutcome → Bool
  | .failed (.lifecycle _) | .failed (.cleanupFailed _) => false
  | _ => true

/-- The phase records `outcome`, unless a release takes its place. -/
def GenerationPhase.Records (phase : GenerationPhase) (outcome : GenerationOutcome) (displaced : Prop) : Prop :=
  ∃ outcome', phase.outcome = some outcome' ∧ (outcome' = outcome ↔ ¬displaced)

theorem GenerationPhase.Records.congr {phase : GenerationPhase} {outcome : GenerationOutcome}
    {displaced displaced' : Prop} (h : phase.Records outcome displaced) (hd : displaced ↔ displaced') :
    phase.Records outcome displaced' := by
  rwa [hd] at h

section Removal

variable (b : Backend σ Source) {rt : InferenceRuntime σ} {m : ModelId} {slot : ModelSlot} {r : RequestId}
  {q : RequestSlot}

theorem LastOut.unique {m' : ModelId} {slot' : ModelSlot} {q' : RequestSlot} (hi : Consistent rt)
    (hm : rt.models.get? m = some slot) (hr : slot.requests.get? r = some q)
    (h : LastOut b rt r m' slot' q') : m' = m ∧ slot' = slot ∧ q' = q := by
  have hidx := (hi.active_index hm hr).1
  rw [(hi.active_index h.model h.request).1] at hidx
  cases hidx
  have hslot := h.model.symm.trans hm
  cases hslot
  have hq := h.request.symm.trans hr
  cases hq
  exact ⟨rfl, rfl, rfl⟩

theorem stranded_iff (hi : Consistent rt) (hm : rt.models.get? m = some slot)
    (hr : slot.requests.get? r = some q) : Stranded b rt r ↔
      b.destroySequence q.sequence.ref 0 = .ok () ∧
      ModelLifecycle.finishState slot.lifecycle.state slot.requests.size = .unloading ∧
      slot.pendingSequences.isEmpty = false := by
  constructor
  · rintro ⟨m', slot', q', hlast, hp⟩
    obtain ⟨rfl, rfl, rfl⟩ := hlast.unique b hi hm hr
    exact ⟨hlast.destroyed, hlast.last, hp⟩
  · rintro ⟨hd, hl, hp⟩
    exact ⟨m, slot, q, ⟨hm, hr, hd, hl⟩, hp⟩

theorem retained_iff (hi : Consistent rt) (hm : rt.models.get? m = some slot)
    (hr : slot.requests.get? r = some q) : Retained b rt r ↔
      b.destroySequence q.sequence.ref 0 = .ok () ∧
      ModelLifecycle.finishState slot.lifecycle.state slot.requests.size = .unloading ∧
      slot.pendingSequences.isEmpty = true ∧ (b.prepareUnload slot.model 0).isOk = false := by
  constructor
  · rintro ⟨m', slot', q', hlast, hp, hu⟩
    obtain ⟨rfl, rfl, rfl⟩ := hlast.unique b hi hm hr
    exact ⟨hlast.destroyed, hlast.last, hp, hu⟩
  · rintro ⟨hd, hl, hp, hu⟩
    exact ⟨m, slot, q, ⟨hm, hr, hd, hl⟩, hp, hu⟩

/-- Only the removal of an active request releases. -/
theorem not_displaced_of_inactive (hi : Consistent rt) (hr : rt.requestIndex.get? r = none) (stepped : Bool) :
    ¬Displaced b rt r stepped := by
  have hno {m : ModelId} {slot : ModelSlot} {q : RequestSlot} (h : LastOut b rt r m slot q) : False := by
    have hidx := (hi.active_index h.model h.request).1
    rw [hr] at hidx
    cases hidx
  rintro (⟨m, slot, q, h, -⟩ | ⟨-, ⟨m, slot, q, h, -⟩, -⟩) <;> exact hno h

/-- What a release reads of the registry. -/
theorem displaced_congr {rt' : InferenceRuntime σ} {slot' : ModelSlot} {q' : RequestSlot} (hi : Consistent rt)
    (hm : rt.models.get? m = some slot) (hr : slot.requests.get? r = some q) (hi' : Consistent rt')
    (hm' : rt'.models.get? m = some slot') (hr' : slot'.requests.get? r = some q')
    (hlimits : rt'.limits = rt.limits) (hmodel : slot'.model = slot.model)
    (hstate : slot'.lifecycle = slot.lifecycle) (hsize : slot'.requests.size = slot.requests.size)
    (hpend : slot'.pendingSequences = slot.pendingSequences) (hseq : q'.sequence = q.sequence) (stepped : Bool) :
    Displaced b rt' r stepped ↔ Displaced b rt r stepped := by
  rw [Displaced, Displaced, stranded_iff b hi' hm' hr', stranded_iff b hi hm hr, retained_iff b hi' hm' hr',
    retained_iff b hi hm hr, maximumCleanupAttempts, hlimits, hmodel, hstate, hsize, hpend, hseq]
  rfl

/-- A backend step that goes on changes nothing of it. -/
theorem displaced_setUsage (hi : Consistent rt) (hm : rt.models.get? m = some slot)
    (hr : slot.requests.get? r = some q) {loader : BackendState σ} {usage : GenerationUsage}
    (hi' : Consistent (setUsage { rt with loader := loader } m slot r q usage)) (stepped : Bool) :
    Displaced b (setUsage { rt with loader := loader } m slot r q usage) r stepped ↔
      Displaced b rt r stepped :=
  displaced_congr b hi hm hr hi' (OrdMap.get?_insert_self ..) (OrdMap.get?_insert_self ..) rfl rfl rfl
    (OrdMap.size_insert_of_some hr _) rfl rfl stepped

/-! ### The phase after a removal -/

theorem records_of_not {phase : GenerationPhase} {outcome : GenerationOutcome} {displaced : Prop}
    (h : phase.outcome = some outcome) (hd : ¬displaced) : phase.Records outcome displaced :=
  ⟨outcome, h, iff_of_true rfl hd⟩

theorem records_of_displaced {phase : GenerationPhase} {outcome outcome' : GenerationOutcome} {displaced : Prop}
    (h : phase.outcome = some outcome') (hne : outcome' ≠ outcome) (hd : displaced) :
    phase.Records outcome displaced :=
  ⟨outcome', h, iff_of_false hne (not_not.mpr hd)⟩

theorem terminalPhase_none (rt : InferenceRuntime σ) (r : RequestId) (outcome : GenerationOutcome) :
    (terminalPhase rt r outcome none).outcome = some outcome := rfl

/-- A failure kept in quarantine, or one that exhausted its attempts, leaves the outcome. -/
theorem terminalPhase_retention (rt : InferenceRuntime σ) (r : RequestId) (outcome : GenerationOutcome)
    (state : CleanupRetryState) (h : state.exhausted = true ∨ (rt.requestCleanupState r).isSome = true) :
    (terminalPhase rt r outcome (some (cleanupRetentionError state))).outcome = some outcome := by
  unfold cleanupRetentionError
  split_ifs with hx
  · rfl
  · obtain ⟨retained, hr⟩ := Option.isSome_iff_exists.mp (h.resolve_left hx)
    simp only [terminalPhase, hr]
    rfl

/-- A cleanup failure of another resource takes its place. -/
theorem terminalPhase_foreign (rt : InferenceRuntime σ) (r : RequestId) (outcome : GenerationOutcome)
    (state : CleanupRetryState) (hx : state.exhausted = false) (hr : rt.requestCleanupState r = none) :
    (terminalPhase rt r outcome (some (cleanupRetentionError state))).outcome =
      some (.failed (.cleanupFailed state.failure)) := by
  rw [cleanupRetentionError, if_neg (by simp [hx])]
  simp only [terminalPhase, cleanupStateFromError, hr]
  rfl

theorem firstFailure_exhausted (rt : InferenceRuntime σ) (report : CleanupFailureReport)
    (resource : CleanupResource) :
    (rt.firstFailure report resource).exhausted = true ↔ ¬1 < rt.maximumCleanupAttempts := by
  rw [not_lt]
  exact decide_eq_true_iff

/-- What `terminalPhase` makes of the answer of a removal. -/
theorem Reached.terminalPhase_outcome (h : Reached rt) (hm : rt.models.get? m = some slot)
    (hr : slot.requests.get? r = some q) (op : RuntimeOperation) (f : FailureClass)
    {outcome : GenerationOutcome} (ho : outcome.ofWork = true) :
    (terminalPhase (rt.removeRequest b r op f).2 r outcome (rt.removeRequest b r op f).1.err).Records outcome
      (Displaced b rt r false) := by
  have hi := h.consistent
  have hidx := (hi.active_index hm hr).1
  have hremoval := h.removal b hm hr op f
  rw [Displaced, stranded_iff b hi hm hr, retained_iff b hi hm hr]
  generalize rt.removeRequest b r op f = answer at hremoval ⊢
  cases hremoval with
  | quarantined hd =>
    refine records_of_not (terminalPhase_retention _ r outcome _ (.inr ?_)) (by simp [hd])
    simp [requestCleanupState, afterQuarantine]
  | destroyed hd hstay => exact records_of_not (terminalPhase_none _ r outcome) (by simp [hstay])
  | stranded hd hlast hpend =>
    refine @records_of_displaced _ _ (.failed (.lifecycle .invalidTransition)) _ rfl ?_ (.inl ⟨hd, hlast, hpend⟩)
    rintro rfl
    cases ho
  | released hd hlast hpend hu =>
    exact records_of_not (terminalPhase_none _ r outcome) (by simp [hpend, hu, Except.isOk, Except.toBool])
  | retained hd hlast hpend hu =>
    have hstate : ∀ slot' report loader loader' slotReserved reserved,
        ((rt.afterDestroy m slot r q loader slotReserved reserved).afterReleaseFailure m slot' report
          loader').requestCleanupState r = none := by
      intros
      have hpidx := (hi.requestsApart r).resolve_left (by simp [hidx])
      simp [requestCleanupState, afterReleaseFailure, afterDestroy, hpidx]
    by_cases hmax : 1 < rt.maximumCleanupAttempts
    · refine records_of_displaced (terminalPhase_foreign _ r outcome _ ?_ (hstate ..)) ?_
        (.inr ⟨rfl, ⟨hd, hlast, hpend, by rw [hu]; rfl⟩, hmax⟩)
      · simpa using (firstFailure_exhausted rt _ _).not_left.mpr hmax
      · rintro rfl
        cases ho
    · refine records_of_not (terminalPhase_retention _ r outcome _ (.inl ?_)) (by simp [hpend, hmax])
      exact (firstFailure_exhausted rt _ _).mpr hmax

end Removal

/-! ### The end of a backend step -/

section Step

variable (b : Backend σ Source) (s : Sampling τ) {rt : InferenceRuntime σ} {m : ModelId} {slot : ModelSlot}
  {r : RequestId} {q : RequestSlot} (task : GenerationTask τ)

theorem sequenceOf_active (hi : Consistent rt) (hm : rt.models.get? m = some slot)
    (hr : slot.requests.get? r = some q) : rt.sequenceOf r = some (slot.model, q.sequence.ref) := by
  simp [sequenceOf, (hi.active_index hm hr).1, hm, hr]

theorem sequenceOf_inactive (hr : rt.requestIndex.get? r = none) : rt.sequenceOf r = none := by
  simp [sequenceOf, hr]

/-- A removal whose cleanup failures are dropped: the result is lost to a
stranded release only. -/
theorem endWith_result (h : Reached rt) (hm : rt.models.get? m = some slot) (hr : slot.requests.get? r = some q)
    (op : RuntimeOperation) (f : FailureClass) {α : Type} (result : Except RuntimeError α) :
    (endWith b rt r op f result).1 = .error (.lifecycle .invalidTransition) ∧ Stranded b rt r ∨
      (endWith b rt r op f result).1 = result ∧ ¬Stranded b rt r := by
  have hremoval := h.removal b hm hr op f
  rw [stranded_iff b h.consistent hm hr]
  unfold endWith
  generalize rt.removeRequest b r op f = answer at hremoval ⊢
  cases hremoval with
  | quarantined hd => exact .inr ⟨by simp [preservePrimaryCleanup], by simp [hd]⟩
  | destroyed hd hstay => exact .inr ⟨rfl, by simp [hstay]⟩
  | stranded hd hlast hpend => exact .inl ⟨rfl, hd, hlast, hpend⟩
  | released hd hlast hpend hu => exact .inr ⟨rfl, by simp [hpend]⟩
  | retained hd hlast hpend hu => exact .inr ⟨by simp [preservePrimaryCleanup], by simp [hpend]⟩

theorem displaced_of_step : Displaced b rt r true ↔ Stranded b rt r := by simp [Displaced]

/-- What the work of a task ended with, where a backend step reports it. -/
inductive Reports : Except RuntimeError (Except GenerationOutcome ℕ) → GenerationOutcome → Prop
  | finished (outcome : GenerationOutcome) : Reports (.ok (.error outcome)) outcome
  | failed (error : RuntimeError) : Reports (.error error) (.failed error)

theorem Reports.outcome {result : Except RuntimeError (Except GenerationOutcome ℕ)} {outcome : GenerationOutcome}
    (h : Reports result outcome) (rt : InferenceRuntime σ) (r : RequestId) :
    (afterBackend b s rt r task result).1 = false ∧
      (afterBackend b s rt r task result).2.2.phase.outcome = some outcome := by
  cases h <;> exact ⟨rfl, rfl⟩

theorem endWith_records (h : Reached rt) (hm : rt.models.get? m = some slot) (hr : slot.requests.get? r = some q)
    (op : RuntimeOperation) (f : FailureClass) {result : Except RuntimeError (Except GenerationOutcome ℕ)}
    {outcome : GenerationOutcome} (hresult : Reports result outcome) (ho : outcome.ofWork = true) :
    let answer := endWith b rt r op f result
    (afterBackend b s answer.2 r task answer.1).1 = false ∧
      (afterBackend b s answer.2 r task answer.1).2.2.phase.Records outcome (Displaced b rt r true) := by
  dsimp only
  rw [displaced_of_step]
  rcases endWith_result b h hm hr op f result with ⟨heq, hs⟩ | ⟨heq, hs⟩ <;> rw [heq]
  · refine ⟨rfl, @records_of_displaced _ _ (.failed (.lifecycle .invalidTransition)) _ rfl ?_ hs⟩
    rintro rfl
    cases ho
  · have hend := hresult.outcome b s task (endWith b rt r op f result).2 r
    exact ⟨hend.1, records_of_not hend.2 hs⟩

/-- The answer of a backend step, beside what `stepWork` says of it. -/
inductive Called (b : Backend σ Source) (rt : InferenceRuntime σ) (r : RequestId) :
    Except GenerationOutcome ℕ × List F32 →
      Except RuntimeError (Except GenerationOutcome ℕ) × List F32 × InferenceRuntime σ → Prop
  | refused {logits : List F32} (hr : rt.requestIndex.get? r = none) :
      Called b rt r (.error (.failed (.requestNotActive r)), logits) (.error (.requestNotActive r), logits, rt)
  | ready {m : ModelId} {slot : ModelSlot} {q : RequestSlot} {loader : BackendState σ} {logitsWritten : ℕ}
      {usage : GenerationUsage} {logits : List F32} (hm : rt.models.get? m = some slot)
      (hr : slot.requests.get? r = some q) :
      Called b rt r (.ok logitsWritten, logits)
        (.ok (.ok logitsWritten), logits, setUsage { rt with loader := loader } m slot r q usage)
  | ended {m : ModelId} {slot : ModelSlot} {q : RequestSlot} {loader : BackendState σ} {logits : List F32}
      {op : RuntimeOperation} {f : FailureClass} {result : Except RuntimeError (Except GenerationOutcome ℕ)}
      {outcome : GenerationOutcome} (hm : rt.models.get? m = some slot) (hr : slot.requests.get? r = some q)
      (hl : Transition .keep rt { rt with loader := loader }) (hresult : Reports result outcome)
      (ho : outcome.ofWork = true) :
      Called b rt r (.error outcome, logits) ((endWith b { rt with loader := loader } r op f result).1, logits,
        (endWith b { rt with loader := loader } r op f result).2)

theorem endWith_called {α : Type} {view : α → Except GenerationOutcome ℕ} {loader : BackendState σ}
    {logits : List F32} {op : RuntimeOperation} {f : FailureClass} {result : Except RuntimeError α}
    {outcome : GenerationOutcome} (hm : rt.models.get? m = some slot) (hr : slot.requests.get? r = some q)
    (hl : Transition .keep rt { rt with loader := loader }) (hresult : Reports (result.map view) outcome)
    (ho : outcome.ofWork = true) :
    Called b rt r (.error outcome, logits) ((endWith b { rt with loader := loader } r op f result).1.map view,
      logits, (endWith b { rt with loader := loader } r op f result).2) := by
  have heq := endWith_map b { rt with loader := loader } r view op f result
  have h := @Called.ended _ _ b rt r m slot q loader logits op f _ outcome hm hr hl hresult ho
  rwa [heq] at h

/-- What a checked backend step says of the work. -/
def workOf {α : Type} (result : α → Except GenerationOutcome ℕ) :
    Except SequenceError α × List F32 × BackendState σ → Except GenerationOutcome ℕ × List F32
  | (.ok outcome, logits, _) => (result outcome, logits)
  | (.error error, logits, _) => (.error (.failed (.sequence error)), logits)

theorem ReadsReceipt.called {α ρ : Type} {k : RequestStep σ α ρ} {view : ρ → Except GenerationOutcome ℕ}
    {result : α → Except GenerationOutcome ℕ} (hreads : ReadsReceipt k view result) (hi : Consistent rt) {logits : List F32}
    {answer : Except RuntimeError ρ × List F32 × InferenceRuntime σ} (htaken : Taken b k rt r logits answer)
    {work : Except GenerationOutcome ℕ × List F32}
    (hinactive : rt.requestIndex.get? r = none → work = (.error (.failed (.requestNotActive r)), logits))
    (hactive : ∀ m slot q, rt.models.get? m = some slot → slot.requests.get? r = some q → work =
      workOf result ((k.step rt.loader slot.model q.sequence.ref logits).run rt.loader logits .running)) :
    Called b rt r work (answer.1.map view, answer.2) := by
  cases htaken with
  | inactive hr =>
    rw [hinactive hr]
    exact .refused hr
  | torn htorn => exact absurd hi htorn
  | @ready m slot q outcome _ _ _ hm hr hstep hread =>
    obtain ⟨logitsWritten, hresult⟩ := hreads.ready hread
    rw [hactive m slot q hm hr, hstep, workOf, hresult, Except.map, hreads.view, hresult]
    exact .ready hm hr
  | @finished m slot q outcome _ _ _ hm hr hstep hread =>
    have hresult := hreads.finished hread
    rw [hactive m slot q hm hr, hstep, workOf, hresult]
    refine endWith_called b hm hr (RequestStep.keeps hm hr hstep) ?_ rfl
    rw [Except.map, hreads.view, hresult]
    exact .finished _
  | @failed m slot q e _ _ hm hr hstep =>
    rw [hactive m slot q hm hr, hstep, workOf]
    exact endWith_called b hm hr (RequestStep.keeps hm hr hstep) (.failed _) rfl

theorem prefill_called (hi : Consistent rt) (hp : task.phase = .prefill) :
    Called b rt r (stepWork b rt.loader (rt.sequenceOf r) r task)
      (((rt.prefill b r task.promptTokens true task.logits).1.map prefillResult),
        (rt.prefill b r task.promptTokens true task.logits).2) := by
  rw [prefill_eq]
  refine (prefill_reads b task.promptTokens true).called b hi (stepRequest_taken ..) (fun hr => ?_)
    fun m slot q hm hr => ?_
  · rw [sequenceOf_inactive hr]
    rfl
  · rw [sequenceOf_active hi hm hr]
    simp only [stepWork, hp, BackendState.prefillChecked_eq, RequestStep.prefill]
    rcases (rt.loader.prefillStep b slot.model q.sequence.ref ⟨task.promptTokens, true⟩ task.logits).run rt.loader
      task.logits .running with ⟨_ | ⟨_ | _⟩, _, _⟩ <;> rfl

theorem decode_called (hi : Consistent rt) (hp : task.phase = .decode) {token : TokenId}
    (ht : task.generated.getLast? = some token) :
    Called b rt r (stepWork b rt.loader (rt.sequenceOf r) r task)
      (((rt.decode b r token task.logits).1.map decodeResult), (rt.decode b r token task.logits).2) := by
  rw [decode_eq]
  refine (decode_reads b token).called b hi (stepRequest_taken ..) (fun hr => ?_) fun m slot q hm hr => ?_
  · rw [sequenceOf_inactive hr]
    rfl
  · rw [sequenceOf_active hi hm hr]
    simp only [stepWork, hp, ht, BackendState.decodeChecked_eq, RequestStep.decode]
    rcases (rt.loader.decodeStep b slot.model q.sequence.ref token task.logits).run rt.loader task.logits .running
      with ⟨_ | ⟨_ | _⟩, _, _⟩ <;> rfl

theorem callBackend_called (hi : Consistent rt) (hw : task.phase.working = true)
    (ht : task.phase = .decode → task.generated ≠ []) :
    Called b rt r (stepWork b rt.loader (rt.sequenceOf r) r task) (callBackend b rt r task) := by
  unfold callBackend
  rcases hp : task.phase with _ | _ | terminal
  · exact prefill_called b task hi hp
  · dsimp only
    split
    · next hnone => exact absurd (List.getLast?_eq_none_iff.mp hnone) (ht hp)
    · next token htoken => exact decode_called b task hi hp htoken
  · rw [hp] at hw
    cases hw

/-! ### The end of a turn -/

/-- The phase a turn leaves: the work goes on, or it ended as `workEnd` says. -/
def GenerationPhase.Settles (b : Backend σ Source) (rt : InferenceRuntime σ) (r : RequestId)
    (phase : GenerationPhase) : Option WorkEnd → Prop
  | none => phase.working = true
  | some e => phase.Records e.outcome (Displaced b rt r e.stepped)

theorem GenerationPhase.Settles.congr {rt' : InferenceRuntime σ} {phase : GenerationPhase}
    {e : Option WorkEnd} (h : phase.Settles b rt r e)
    (hd : ∀ stepped, Displaced b rt r stepped ↔ Displaced b rt' r stepped) : phase.Settles b rt' r e := by
  cases e with
  | none => exact h
  | some e => exact Records.congr h (hd e.stepped)

theorem failTask_records (h : Reached rt) (hm : rt.models.get? m = some slot) (hr : slot.requests.get? r = some q)
    (operation : RuntimeOperation) (failure : FailureClass) {primary : RuntimeError}
    (ho : (GenerationOutcome.failed primary).ofWork = true) :
    (failTask b rt r task operation failure primary).2.phase.Records (.failed primary) (Displaced b rt r false) :=
  h.terminalPhase_outcome b hm hr operation failure ho

/-- Sampling after a step that goes on. -/
theorem sampleToken_settles (h : Reached rt) (hm : rt.models.get? m = some slot)
    (hr : slot.requests.get? r = some q) (hw : task.phase.working = true) (logits : List F32) (logitsWritten : ℕ)
    {sampled : Bool × InferenceRuntime σ × GenerationTask τ}
    (hsampled : sampleToken b s rt r { task with logits := logits } logitsWritten = sampled) :
    sampled.1 = ((sampleWork s task logitsWritten logits).map fun outcome => (⟨outcome, false⟩ : WorkEnd)).isNone ∧
      (sampled.1 = true → sampled.2.2.pendingToken.isSome = true) ∧
      sampled.2.2.phase.Settles b rt r ((sampleWork s task logitsWritten logits).map (⟨·, false⟩)) := by
  subst hsampled
  unfold sampleToken sampleWork
  split_ifs
  · exact ⟨rfl, nofun, failTask_records b _ h hm hr _ _ rfl⟩
  rcases s.sample task.sampler (logits.take logitsWritten) task.history task.samplingIndices
    task.repetitionEpochs with ⟨error | token, sampler, logits', indices, epochs⟩
  · exact ⟨rfl, nofun, @failTask_records _ _ _ b rt _ _ r _ { task with
      sampler := sampler, logits := _, samplingIndices := _, repetitionEpochs := _ } h hm hr _ _ _ rfl⟩
  · exact ⟨rfl, fun _ => rfl, hw⟩

theorem stepTask_settles (h : Reached rt) (hs : task.Sound rt r) (hw : task.phase.working = true) :
    (stepTask b s rt r task).1 = (stepEnd b s rt.loader (rt.sequenceOf r) r task).isNone ∧
      ((stepTask b s rt r task).1 = true → (stepTask b s rt r task).2.2.pendingToken.isSome = true) ∧
      (stepTask b s rt r task).2.2.phase.Settles b rt r (stepEnd b s rt.loader (rt.sequenceOf r) r task) := by
  have hi := h.consistent
  have hcalled := callBackend_called (r := r) b task hi hw hs.decoding
  have hrt := h.steps (callBackend_steps b r task hi)
  rw [stepTask_eq b s rt r task hw, stepEnd]
  generalize stepWork b rt.loader (rt.sequenceOf r) r task = work at hcalled ⊢
  generalize callBackend b rt r task = answer at hcalled hrt ⊢
  cases hcalled with
  | refused hr => exact ⟨rfl, nofun, records_of_not rfl (not_displaced_of_inactive b hi hr true)⟩
  | @ready m slot q loader logitsWritten usage logits hm hr =>
    have hsample := sampleToken_settles b s task hrt (OrdMap.get?_insert_self ..) (OrdMap.get?_insert_self ..) hw
      logits logitsWritten rfl
    exact ⟨hsample.1, hsample.2.1, hsample.2.2.congr b (displaced_setUsage b hi hm hr hrt.consistent)⟩
  | @ended m slot q loader logits op f result outcome hm hr hl hresult ho =>
    have hend := endWith_records b s { task with logits := logits } (h.tail hl) hm hr op f hresult ho
    have hcongr := displaced_congr b hi hm hr (h.tail hl).consistent hm hr rfl rfl rfl rfl rfl rfl true
    refine ⟨hend.1, fun hgo => ?_, ?_⟩
    · rw [hend.1] at hgo
      cases hgo
    · exact hend.2.congr hcongr

theorem cancelRequest_answer (rt : InferenceRuntime σ) (r : RequestId) (reason : CancellationReason) :
    (rt.cancelRequest b r reason).1.err = (rt.removeRequest b r .cancellation .cancellation).1.err ∧
      (rt.cancelRequest b r reason).2 = (rt.removeRequest b r .cancellation .cancellation).2 := by
  unfold cancelRequest
  rcases rt.removeRequest b r .cancellation .cancellation with ⟨_ | _, rt'⟩ <;> exact ⟨rfl, rfl⟩

theorem completeRequest_answer (rt : InferenceRuntime σ) (r : RequestId) (reason : FinishReason) :
    (rt.completeRequest b r reason).1.err =
        (rt.removeRequest b r (finishOperation reason) (finishFailureClass reason)).1.err ∧
      (rt.completeRequest b r reason).2 =
        (rt.removeRequest b r (finishOperation reason) (finishFailureClass reason)).2 := by
  unfold completeRequest
  rcases rt.removeRequest b r (finishOperation reason) (finishFailureClass reason) with ⟨_ | _, rt'⟩ <;>
    exact ⟨rfl, rfl⟩

theorem cancelTask_records (h : Reached rt) (r : RequestId) (reason : CancellationReason) :
    (cancelTask b rt r reason).1.Records (.finished (.cancelled reason)) (Displaced b rt r false) := by
  have hi := h.consistent
  unfold cancelTask
  rcases hidx : rt.requestIndex.get? r with _ | m
  · have hnot := not_displaced_of_inactive b hi hidx false
    simp only [isRequestActive, OrdMap.contains_eq, hidx, Option.isSome_none, Bool.false_eq_true, if_false,
      requestCleanupFailure]
    rcases hc : rt.requestCleanupState r with _ | state
    · exact records_of_not rfl hnot
    · refine records_of_not ?_ hnot
      simp only [terminalPhase, Option.map_some, hc]
      rfl
  · obtain ⟨slot, q, hm, hr⟩ := hi.slot_of_request hidx
    simp only [isRequestActive, OrdMap.contains_eq, hidx, Option.isSome_some, if_true,
      cancelRequest_answer b rt r reason]
    exact h.terminalPhase_outcome b hm hr .cancellation .cancellation rfl

theorem completeRequest_settles (h : Reached rt) (r : RequestId) (reason : FinishReason) :
    (terminalPhase (rt.completeRequest b r reason).2 r (.finished reason)
      (rt.completeRequest b r reason).1.err).Settles b rt r (some (finishEnd (rt.sequenceOf r) r reason)) := by
  have hi := h.consistent
  rw [(completeRequest_answer b rt r reason).1, (completeRequest_answer b rt r reason).2]
  rcases hidx : rt.requestIndex.get? r with _ | m
  · rw [removeRequest_inactive b hidx, sequenceOf_inactive hidx]
    exact records_of_not rfl (not_displaced_of_inactive b hi hidx false)
  · obtain ⟨slot, q, hm, hr⟩ := hi.slot_of_request hidx
    rw [sequenceOf_active hi hm hr]
    exact h.terminalPhase_outcome b hm hr _ _ rfl

/-- The outcome a turn records is the work's, unless a release takes its place. -/
theorem advanceTask_settles (h : Reached rt) (hs : task.Sound rt r) (hw : task.phase.working = true)
    (output : TokenOutput GenerationOutputState) :
    (advanceTask b s rt r task output).task.phase.Settles b rt r
      (workEnd b s rt.loader (rt.sequenceOf r) r task output) := by
  have hturn := advanceTask_turned b s rt r task output
  unfold workEnd
  generalize advanceTask b s rt r task output = turn at hturn ⊢
  cases hturn with
  | terminal terminal hphase =>
    rw [hphase] at hw
    cases hw
  | cancelled reason hphase hcancel =>
    simp only [hcancel]
    exact cancelTask_records b h r reason
  | yieldBlocked hphase hcancel hyield =>
    simp only [hcancel, hyield]
    exact hw
  | tokenBlocked hphase hcancel hyield htoken hpush =>
    simp only [hcancel, hyield, htoken, hpush]
    exact hw
  | tokenFinished hphase hcancel hyield htoken hpush hfinish =>
    simp only [hcancel, hyield, htoken, hpush, hfinish]
    exact completeRequest_settles b h r _
  | tokenPublished hphase hcancel hyield htoken hpush hfinish =>
    simp only [hcancel, hyield, htoken, hpush, hfinish]
    rfl
  | stepped hphase hcancel hyield htoken =>
    have hset := (stepTask_settles b s { task with pendingYield := none } h (hs.marked _ _) hw).2.2
    rw [← stepTasks_once b s rt r { task with pendingYield := none } htoken hcancel task.schedulerQuantum hw] at hset
    have hend : stepEnd b s rt.loader (rt.sequenceOf r) r { task with pendingYield := none } =
        stepEnd b s rt.loader (rt.sequenceOf r) r task := rfl
    rw [hend] at hset
    simpa only [hcancel, hyield, htoken] using hset

end Step

end LlmApp
