/-
# The steps a generation asks of its sequence

A generation feeds its sequence the prompt and then, one at a time, the tokens
it drew (`callsOf`). Between two turns of a working task the log of its
sequence is as many of these steps as tokens were drawn (`Fed`), and the logits
the next token is drawn from are those of all of them. A turn of another task
leaves the log alone.

Key definitions: `callsOf`, `GenerationTask.Fed`.
Key theorems: `callBackend_ready`, `Streamed.fed`, `stepWork_logits`,
`advanceTask_unstepped`.
-/
import LlmApp.Generation.Stream
import LlmApp.Runtime.StepLog

namespace LlmApp

open InferenceRuntime

variable {σ Source τ : Type} (b : Backend σ Source) (s : Sampling τ)
  {v : SequenceView σ}

/-! ### The calls of a generation -/

/-- The prompt, then every token. -/
def callsOf (promptTokens generated : List TokenId) : List TokenCall :=
  .prefill ⟨promptTokens, true⟩ :: generated.map .decode

/-- The call the next backend step of a task makes. -/
def GenerationTask.nextCall (task : GenerationTask τ) : Option TokenCall :=
  match task.phase with
  | .prefill => some (.prefill ⟨task.promptTokens, true⟩)
  | .decode | .terminal _ => task.generated.getLast?.map .decode

theorem callsOf_take (promptTokens generated : List TokenId) (token : TokenId) :
    (callsOf promptTokens (generated ++ [token])).take (generated ++ [token]).length =
      callsOf promptTokens generated := by
  simp [callsOf]

/-- The next call completes the calls of the tokens drawn so far. -/
theorem callsOf_next {task : GenerationTask τ} {ts : List TokenId} (h : task.Streams ts)
    (hw : task.phase.working = true) (hp : task.pendingToken = none) {call : TokenCall}
    (hcall : task.nextCall = some call) :
    (callsOf task.promptTokens task.generated).take task.generated.length ++ [call] =
      callsOf task.promptTokens task.generated := by
  have hts : task.generated = ts := by
    rw [h.generated, hp]
    simp
  unfold GenerationTask.nextCall at hcall
  rcases hphase : task.phase with _ | _ | terminal
  · rw [hphase] at hcall
    cases hcall
    rw [hts, h.prefill hphase]
    rfl
  · rw [hphase] at hcall
    have hne : task.generated ≠ [] := by
      rw [hts]
      exact (h.decode hphase).1
    obtain hnil | ⟨generated, token, heq⟩ := List.eq_nil_or_concat task.generated
    · exact absurd hnil hne
    rw [List.concat_eq_append] at heq
    rw [heq] at hcall ⊢
    rw [List.getLast?_concat, Option.map_some, Option.some.injEq] at hcall
    rw [callsOf_take, ← hcall]
    simp [callsOf]
  · rw [hphase] at hw
    cases hw

/-! ### A backend step and its log -/

section Step

variable {rt : InferenceRuntime σ} {r : RequestId} {task : GenerationTask τ}

/-- A step of a good sequence that leaves logits is added to its log. -/
theorem callBackend_ready (hb : b.Logs v) (hi : Consistent rt) (hw : task.phase.working = true)
    (hg : ∀ m q, rt.active (m, r) = some q → v.good rt.loader.world q.sequence.ref) {n : ℕ}
    {logits : List F32} (hstep : stepWork b rt.loader (rt.sequenceOf r) r task = (.ok n, logits)) :
    ∃ m q call, rt.active (m, r) = some q ∧ task.nextCall = some call ∧
      v.log (callBackend b rt r task).2.2.loader.world q.sequence.ref =
        v.log rt.loader.world q.sequence.ref ++ [call] ∧
      v.good (callBackend b rt r task).2.2.loader.world q.sequence.ref ∧
      ∀ logitsOf, b.Determined v logitsOf → n ≤ logits.length →
        logits.take n = logitsOf q.sequence.ref (v.log rt.loader.world q.sequence.ref ++ [call]) := by
  rcases hidx : rt.requestIndex.get? r with _ | m
  · rw [sequenceOf_inactive hidx] at hstep
    cases hstep
  obtain ⟨slot, q, hm, hr⟩ := hi.slot_of_request hidx
  have hactive : rt.active (m, r) = some q := OrdMap.nested_of_get? hm hr
  have hgood := hg m q hactive
  rw [sequenceOf_active hi hm hr] at hstep
  unfold stepWork at hstep
  unfold callBackend GenerationTask.nextCall
  rcases hphase : task.phase with _ | _ | terminal
  · simp only [hphase] at hstep
    rcases hcall : rt.loader.prefillChecked b slot.model q.sequence.ref ⟨task.promptTokens, true⟩ task.logits
      .running with ⟨error | ⟨consumed, position, written⟩ | reason, logits', loader⟩ <;> rw [hcall] at hstep
    · cases hstep
    · cases hstep
      obtain ⟨hlog, hgood', hlaw⟩ := BackendState.prefillChecked_ready hb hgood hcall
      refine ⟨m, q, _, hactive, rfl, ?_, ?_, fun logitsOf hd hlen => ?_⟩
      · simp only [InferenceRuntime.prefill, requestModelId_eq hi hm hr, hm, hr, hcall]
        exact hlog
      · simp only [InferenceRuntime.prefill, requestModelId_eq hi hm hr, hm, hr, hcall]
        exact hgood'
      · rw [hlaw logitsOf hd rfl hlen, hlog]
    · cases hstep
  · simp only [hphase] at hstep
    rcases hlast : task.generated.getLast? with _ | token
    · simp only [hlast] at hstep
      cases hstep
    simp only [hlast] at hstep
    rcases hcall : rt.loader.decodeChecked b slot.model q.sequence.ref token task.logits .running with
      ⟨error | ⟨position, written⟩ | reason, logits', loader⟩ <;> rw [hcall] at hstep
    · cases hstep
    · cases hstep
      obtain ⟨hlog, hgood', hlaw⟩ := BackendState.decodeChecked_ready hb hgood hcall
      refine ⟨m, q, _, hactive, rfl, ?_, ?_, fun logitsOf hd hlen => ?_⟩
      · simp only [InferenceRuntime.decode, requestModelId_eq hi hm hr, hm, hr, hcall]
        exact hlog
      · simp only [InferenceRuntime.decode, requestModelId_eq hi hm hr, hm, hr, hcall]
        exact hgood'
      · rw [hlaw logitsOf hd hlen, hlog]
    · cases hstep
  · rw [hphase] at hw
    cases hw

/-- A step of `r` leaves all other sequences. -/
theorem callBackend_other (hb : b.Logs v) (rt : InferenceRuntime σ) (task : GenerationTask τ) {s' : SequenceRef}
    (hne : ∀ m q, rt.active (m, r) = some q → s' ≠ q.sequence.ref) :
    v.Alike rt.loader.world (callBackend b rt r task).2.2.loader.world s' := by
  unfold callBackend
  split
  · exact prefill_other b hb rt r task.promptTokens true task.logits hne
  all_goals
    split
    · exact .refl ..
    · exact decode_other b hb rt r _ task.logits hne

theorem afterBackend_kept (rt : InferenceRuntime σ) (task : GenerationTask τ)
    (result : Except RuntimeError (Except GenerationOutcome ℕ)) :
    (afterBackend b s rt r task result).2.1.kept = rt.kept := by
  unfold afterBackend
  split
  · unfold sampleToken
    split_ifs
    · exact rt.removeRequest_kept b ..
    rcases s.sample task.sampler (task.logits.take _) task.history task.samplingIndices
      task.repetitionEpochs with ⟨_ | token, sampler, logits, indices, epochs⟩
    · exact rt.removeRequest_kept b ..
    · rfl
  · rfl
  · rfl

theorem cancelTask_kept (rt : InferenceRuntime σ) (r : RequestId) (reason : CancellationReason) :
    (cancelTask b rt r reason).2.kept = rt.kept := by
  unfold cancelTask
  dsimp only
  split_ifs
  · exact cancelRequest_kept b rt r reason
  · rfl

/-- A turn of `r` leaves all other sequences. -/
theorem advanceTask_other (hb : b.Logs v) (rt : InferenceRuntime σ) (task : GenerationTask τ)
    (output : TokenOutput GenerationOutputState) {s' : SequenceRef}
    (hne : ∀ m q, rt.active (m, r) = some q → s' ≠ q.sequence.ref) :
    v.Alike rt.loader.world (advanceTask b s rt r task output).runtime.loader.world s' := by
  have hturn := advanceTask_turned b s rt r task output
  generalize advanceTask b s rt r task output = turn at hturn ⊢
  cases hturn with
  | terminal | yieldBlocked | tokenBlocked | tokenPublished => exact .refl ..
  | cancelled reason => exact .of_eq (kept_world (cancelTask_kept b rt r reason))
  | @tokenFinished _ _ _ reason => exact .of_eq (kept_world (completeRequest_kept b rt r reason))
  | stepped hphase hcancel hyield htoken =>
    dsimp only
    rw [stepTasks_once b s rt r { task with pendingYield := none } htoken hcancel task.schedulerQuantum hphase,
      stepTask_eq b s rt r { task with pendingYield := none } hphase, kept_world (afterBackend_kept b s ..)]
    exact callBackend_other b hb rt { task with pendingYield := none } hne

/-- A turn of another task. -/
theorem advanceTask_unstepped (hb : b.Logs v) (h : Reached rt) {r' : RequestId} (hne : r' ≠ r)
    (task : GenerationTask τ) (output : TokenOutput GenerationOutputState) :
    Unstepped v r' rt (advanceTask b s rt r task output).runtime := by
  have hw := advanceTask_worked b s r task h.consistent output
  exact unstepped_of_other h (hw.steps.untouched hw.made r' h.consistent) hne fun _ hs =>
    advanceTask_other b s hb rt task output hs

end Step

/-! ### Between two turns -/

/-- The sequence of a working task is `sref`, and good, and has taken a step for
each token drawn: the prompt, and each token but the last. -/
def GenerationTask.Fed (v : SequenceView σ) (sref : SequenceRef) (r : RequestId) (rt : InferenceRuntime σ)
    (task : GenerationTask τ) : Prop :=
  task.phase.working = true → ∀ m q, rt.active (m, r) = some q →
    q.sequence.ref = sref ∧ v.good rt.loader.world sref ∧
      v.log rt.loader.world sref = (callsOf task.promptTokens task.generated).take task.generated.length

section Fed

variable {rt rt' : InferenceRuntime σ} {r : RequestId} {task task' : GenerationTask τ} {sref : SequenceRef}
  {ts new : List TokenId}

/-- What leaves the sequence alone leaves it fed. -/
theorem GenerationTask.Fed.unstepped (h : task.Fed v sref r rt) (hu : Unstepped v r rt rt')
    (cancellation : Option CancellationReason) :
    GenerationTask.Fed v sref r rt' { task with cancellation := cancellation } := by
  intro hw m q' hq'
  obtain ⟨q, hq, hs⟩ := hu.untouched.active hq'
  obtain ⟨href, hgood, hlog⟩ := h hw m q hq
  have halike := hu.alike hq'
  rw [← hs, href] at halike
  exact ⟨hs ▸ href, halike.good hgood, halike.log.trans hlog⟩

theorem GenerationTask.Fed.good (h : task.Fed v sref r rt) (hw : task.phase.working = true) (m : ModelId)
    (q : RequestSlot) (hq : rt.active (m, r) = some q) : v.good rt.loader.world q.sequence.ref := by
  obtain ⟨href, hgood, -⟩ := h hw m q hq
  rwa [href]

/-- The logits of the next step are those of the prompt and all tokens drawn. -/
theorem stepWork_logits (hb : b.Logs v) {logitsOf : SequenceRef → List TokenCall → List F32}
    (hd : b.Determined v logitsOf) (hi : Consistent rt) (hs : task.Streams ts) (hfed : task.Fed v sref r rt)
    (hw : task.phase.working = true) (hp : task.pendingToken = none) {n : ℕ} {logits : List F32}
    (hstep : stepWork b rt.loader (rt.sequenceOf r) r task = (.ok n, logits)) (hlen : n ≤ logits.length) :
    logits.take n = logitsOf sref (callsOf task.promptTokens task.generated) := by
  obtain ⟨m, q, call, hq, hcall, -, -, hlaw⟩ := callBackend_ready b hb hi hw (hfed.good hw) hstep
  obtain ⟨href, -, hlog⟩ := hfed hw m q hq
  rw [hlaw logitsOf hd hlen, href, hlog, callsOf_next hs hw hp hcall]

/-- A turn feeds the sequence what the generation asks for. -/
theorem Streamed.fed (hb : b.Logs v) (hi : Consistent rt) (h : Streamed b s rt r task rt' task' new)
    (hsame : task.SameRequest task') (hs : task.Streams ts) (hfed : task.Fed v sref r rt) :
    task'.Fed v sref r rt' := by
  intro hw' m q' hq'
  cases h with
  | silent hg hhist hpending hphase =>
    rcases hphase with ⟨hphase, hdraft, rfl⟩ | hend
    · rw [hg, hsame.promptTokens]
      exact hfed (hphase ▸ hw') m q' hq'
    · rw [hw'] at hend
      cases hend
  | @drawn n logits logits' token sampler samplingIndices repetitionEpochs hw hp hstep hlen hsample hdraft hhist
      hpending hphase hrt =>
    subst hrt
    have hg : task'.generated = task.generated ++ [token] := congrArg Draft.generated hdraft
    have hu : Untouched r rt (callBackend b rt r task).2.2 :=
      (callBackend_steps b r task hi).untouched (callBackend_made b r task rt) r hi
    obtain ⟨q, hq, hseq⟩ := hu.active hq'
    obtain ⟨m₀, q₀, call, hq₀, hcall, hlog', hgood', -⟩ := callBackend_ready b hb hi hw (hfed.good hw) hstep
    obtain ⟨href₀, -, hlog⟩ := hfed hw m₀ q₀ hq₀
    obtain ⟨href, -, -⟩ := hfed hw m q hq
    rw [href₀] at hlog' hgood'
    refine ⟨hseq ▸ href, hgood', ?_⟩
    rw [hlog', hlog, callsOf_next hs hw hp hcall, hg, callsOf_take, hsame.promptTokens]
  | @published token hw hp hdraft hhist hpending hphase =>
    rcases hphase with hend | ⟨-, -, rfl⟩
    · rw [hw'] at hend
      cases hend
    · rw [show task'.generated = task.generated from congrArg Draft.generated hdraft, hsame.promptTokens]
      exact hfed hw m q' hq'

end Fed

end LlmApp
