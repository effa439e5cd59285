/-
# The tokens of a generation

What a task publishes, token by token (`Streams`), against the loop a
generation stands for (`plainLoop`): draw a token after the prompt and the
tokens before it, until the tokens end the generation. A turn draws one token
at most, from the logits of a backend step, and publishes one at most, which
is the one it drew last; nothing is drawn past a finish condition.

What the loop draws from is its parameter `logitsOf`. That the logits of a run
are these, whatever else the worker does, is shown of the worker.

Key definitions: `GenerationTask.Ends`, `GenerationTask.Streams`, `Draft`,
`GenerationTask.plainTokens`, `GenerationTask.Follows`.
Key theorems: `finishAfterToken_eq_none_iff`, `advanceTask_streamed`,
`Streamed.streams`, `Streamed.follows`, `plainLoop_enough`.
-/
import LlmApp.Generation.Outcome

namespace LlmApp

open InferenceRuntime

variable {σ Source τ : Type}

/-! ### Finish conditions -/

/-- The tokens meet a finish condition of the request. -/
def GenerationTask.Ends (task : GenerationTask τ) (generated : List TokenId) : Prop :=
  (∃ token ∈ task.eosTokens, generated.getLast? = some token) ∨
    (∃ stop ∈ task.stopSequences, stop.tokens <:+ generated) ∨
    task.maximumGeneratedTokens ≤ generated.length

instance (task : GenerationTask τ) (generated : List TokenId) : Decidable (task.Ends generated) := by
  unfold GenerationTask.Ends
  infer_instance

/-- The code's comparison with the last tokens. -/
theorem stop_iff_suffix (stop generated : List TokenId) :
    (stop.length ≤ generated.length && generated.drop (generated.length - stop.length) = stop) = true ↔
      stop <:+ generated := by
  rw [List.suffix_iff_eq_drop, Bool.and_eq_true, decide_eq_true_eq, decide_eq_true_eq]
  constructor
  · intro h
    exact h.2.symm
  · intro h
    have hlen := congrArg List.length h
    rw [List.length_drop] at hlen
    exact ⟨by omega, h.symm⟩

/-- The check after a token is the finish condition of the tokens up to it. -/
theorem finishAfterToken_eq_none_iff (task : GenerationTask τ) {token : TokenId}
    (h : task.generated.getLast? = some token) :
    task.finishAfterToken token = none ↔ ¬task.Ends task.generated := by
  have heos : (∃ t ∈ task.eosTokens, task.generated.getLast? = some t) ↔ token ∈ task.eosTokens := by
    simp [h]
  have hstop : (task.stopSequences.any fun stop =>
      stop.tokens.length ≤ task.generated.length &&
        task.generated.drop (task.generated.length - stop.tokens.length) = stop.tokens) = true ↔
      ∃ stop ∈ task.stopSequences, stop.tokens <:+ task.generated := by
    simp only [List.any_eq_true, stop_iff_suffix]
  unfold GenerationTask.finishAfterToken GenerationTask.Ends
  rw [heos, ← hstop]
  by_cases h1 : token ∈ task.eosTokens
  · simp [h1]
  rw [if_neg (by simpa using h1)]
  by_cases h2 : (task.stopSequences.any fun stop =>
      stop.tokens.length ≤ task.generated.length &&
        task.generated.drop (task.generated.length - stop.tokens.length) = stop.tokens) = true
  · simp [h2]
  rw [if_neg h2]
  by_cases h3 : task.maximumGeneratedTokens ≤ task.generated.length
  · simp [h3]
  · simp [h1, h2, h3]

theorem GenerationTask.SameRequest.ends {t t' : GenerationTask τ} (h : t.SameRequest t')
    (generated : List TokenId) : t'.Ends generated ↔ t.Ends generated := by
  rw [GenerationTask.Ends, GenerationTask.Ends, h.eosTokens, h.stopSequences, h.maximumGeneratedTokens]

/-- Tokens that do not end the generation leave room for another. -/
theorem GenerationTask.lt_of_not_ends {task : GenerationTask τ} {generated : List TokenId}
    (h : ¬task.Ends generated) : generated.length < task.maximumGeneratedTokens := by
  by_contra hle
  exact h (.inr (.inr (by omega)))

/-! ### Published tokens -/

/-- The tokens of records, in their order. -/
def publishedTokens (ps : List (Publication GenerationOutputState)) : List TokenId :=
  ps.flatMap fun
    | .tokens tokens => tokens
    | .state _ => []

@[simp] theorem publishedTokens_append (ps ps' : List (Publication GenerationOutputState)) :
    publishedTokens (ps ++ ps') = publishedTokens ps ++ publishedTokens ps' := by
  simp [publishedTokens]

/-- A task that has published `ts`: one token at most is drawn and not yet
published, and only the whole of `ts` may end the generation. -/
structure GenerationTask.Streams (task : GenerationTask τ) (ts : List TokenId) : Prop where
  generated : task.generated = ts ++ task.pendingToken.toList
  history : task.history = task.promptTokens ++ task.generated
  prefill (h : task.phase = .prefill) : ts = []
  decode (h : task.phase = .decode) : ts ≠ [] ∧ ¬task.Ends ts
  minimal (ts' : List TokenId) (h : ts' <+: ts) (hne : ts' ≠ []) (hlt : ts' ≠ ts) : ¬task.Ends ts'

namespace GenerationTask.Streams

variable {task task' : GenerationTask τ} {ts : List TokenId}

/-- A working task has published nothing, or nothing that ends it. -/
theorem goes_on (h : task.Streams ts) (hw : task.phase.working = true) : ts = [] ∨ ¬task.Ends ts := by
  rcases hp : task.phase with _ | _ | terminal
  · exact .inl (h.prefill hp)
  · exact .inr (h.decode hp).2
  · rw [hp] at hw
    cases hw

/-- A cancellation that is recorded changes no token. -/
theorem marked (h : task.Streams ts) (cancellation : Option CancellationReason) :
    GenerationTask.Streams { task with cancellation := cancellation } ts :=
  ⟨h.generated, h.history, h.prefill, h.decode, h.minimal⟩

/-- No more tokens than the request asks for. -/
theorem length_le (h : task.Streams ts) (hpos : 0 < task.maximumGeneratedTokens) :
    ts.length ≤ task.maximumGeneratedTokens := by
  by_contra hlt
  have hlen : ts.dropLast.length = ts.length - 1 := List.length_dropLast
  have hne : ts.dropLast ≠ [] := by
    intro h0
    rw [h0, List.length_nil] at hlen
    omega
  refine h.minimal ts.dropLast (List.dropLast_prefix ts) hne ?_ (.inr (.inr (by omega)))
  intro heq
  rw [heq] at hlen
  omega

end GenerationTask.Streams

/-- What drawing the next token reads and leaves, beside the tokens. -/
structure Draft (τ : Type) where
  sampler : τ
  samplingIndices : List ℕ
  repetitionEpochs : List ℕ
  generated : List TokenId
deriving DecidableEq, Repr

def GenerationTask.draft (task : GenerationTask τ) : Draft τ :=
  ⟨task.sampler, task.samplingIndices, task.repetitionEpochs, task.generated⟩

/-- A terminal phase publishes no token. -/
theorem publishTerminal_states (rt : InferenceRuntime σ) (r : RequestId)
    (output : TokenOutput GenerationOutputState) (terminal : TerminalPublication) :
    ∃ new, (publishTerminal rt r output terminal).2.1.published = output.published ++ new.map (r, ·) ∧
      publishedTokens new = [] := by
  have hturn := publishTerminal_turn rt r output terminal
  generalize publishTerminal rt r output terminal = answer at hturn ⊢
  cases hturn with
  | blocked hp => exact ⟨[], by simpa using hp, rfl⟩
  | terminal _ hp | cleanupPending _ _ _ _ hp | cleanupExhausted _ _ _ _ _ _ hp | released _ _ hp =>
    exact ⟨[.state _], hp, rfl⟩

/-! ### One backend step -/

/-- What a backend step of a working task comes to: the work ends, and no token
is drawn; or a token is drawn from the logits the step wrote. -/
inductive Drawn (b : Backend σ Source) (s : Sampling τ) (rt : InferenceRuntime σ) (r : RequestId)
    (task : GenerationTask τ) : InferenceRuntime σ → GenerationTask τ → Prop
  | ended {rt' : InferenceRuntime σ} {task' : GenerationTask τ} (hw : task'.phase.working = false)
      (hg : task'.generated = task.generated) (hhist : task'.history = task.history)
      (hpending : task'.pendingToken = task.pendingToken) : Drawn b s rt r task rt' task'
  | drawn {logitsWritten : ℕ} {logits logits' : List F32} {token : TokenId} {sampler : τ}
      {samplingIndices repetitionEpochs : List ℕ}
      (hstep : stepWork b rt.loader (rt.sequenceOf r) r task = (.ok logitsWritten, logits))
      (hlen : logitsWritten ≤ logits.length)
      (hsample : s.sample task.sampler (logits.take logitsWritten) task.history task.samplingIndices
        task.repetitionEpochs = (.ok token, sampler, logits', samplingIndices, repetitionEpochs)) :
      Drawn b s rt r task (callBackend b rt r task).2.2 { task with
        sampler := sampler
        logits := BackendState.overwrite logits (logits'.take logitsWritten)
        samplingIndices := BackendState.overwrite task.samplingIndices samplingIndices
        repetitionEpochs := BackendState.overwrite task.repetitionEpochs repetitionEpochs
        generated := task.generated ++ [token]
        history := task.history ++ [token]
        pendingToken := some token }

section Step

variable (b : Backend σ Source) (s : Sampling τ) {rt : InferenceRuntime σ} {r : RequestId}
  {task : GenerationTask τ}

theorem terminalPhase_working (rt : InferenceRuntime σ) (r : RequestId) (outcome : GenerationOutcome)
    (error : Option RuntimeError) : (terminalPhase rt r outcome error).working = false := by
  obtain ⟨outcome', initialCleanup, h, -⟩ := terminalPhase_unpublished rt r outcome error
  rw [h]
  rfl

theorem sampleToken_drawn {rt' : InferenceRuntime σ} (hrt : rt' = (callBackend b rt r task).2.2)
    {logitsWritten : ℕ} {logits : List F32}
    (hstep : stepWork b rt.loader (rt.sequenceOf r) r task = (.ok logitsWritten, logits))
    {sampled : Bool × InferenceRuntime σ × GenerationTask τ}
    (hsampled : sampleToken b s rt' r { task with logits := logits } logitsWritten = sampled) :
    Drawn b s rt r task sampled.2.1 sampled.2.2 := by
  subst hsampled
  unfold sampleToken
  split_ifs with hlen
  · exact .ended (terminalPhase_working ..) rfl rfl rfl
  rcases hsample : s.sample task.sampler (logits.take logitsWritten) task.history task.samplingIndices
    task.repetitionEpochs with ⟨error | token, sampler, logits', samplingIndices, repetitionEpochs⟩
  · exact .ended (terminalPhase_working ..) rfl rfl rfl
  · rw [hrt]
    exact .drawn hstep (by simpa using hlen) hsample

/-- The step draws from what `stepWork` says it wrote, or ends the work. -/
theorem stepTask_drawn (hi : Consistent rt) (hw : task.phase.working = true)
    (hd : task.phase = .decode → task.generated ≠ []) :
    Drawn b s rt r task (stepTask b s rt r task).2.1 (stepTask b s rt r task).2.2 := by
  have hcalled := callBackend_called (r := r) b task hi hw hd
  rw [stepTask_eq b s rt r task hw]
  generalize hwork : stepWork b rt.loader (rt.sequenceOf r) r task = work at hcalled
  generalize hanswer : callBackend b rt r task = answer at hcalled ⊢
  cases hcalled with
  | refused hr => exact .ended rfl rfl rfl rfl
  | @ready m slot q loader logitsWritten usage logits hm hr =>
    exact sampleToken_drawn b s (by rw [hanswer]) hwork rfl
  | @ended m slot q loader logits op f result outcome hm hr hl hresult ho =>
    unfold afterBackend
    dsimp only
    split
    · next logitsWritten hgo =>
      -- The answer of a step that ended is not one that goes on.
      exfalso
      unfold endWith at hgo
      dsimp only at hgo
      split at hgo
      · cases hresult <;> cases hgo
      · cases hgo
    · next outcome' _ => exact .ended (terminalPhase_working _ r outcome' none) rfl rfl rfl
    · exact .ended rfl rfl rfl rfl

/-! ### One turn -/

/-- What a turn comes to: no token; one drawn, while none waits; or the one
that waits published. -/
inductive Streamed (b : Backend σ Source) (s : Sampling τ) (rt : InferenceRuntime σ) (r : RequestId)
    (task : GenerationTask τ) (rt' : InferenceRuntime σ) (task' : GenerationTask τ) : List TokenId → Prop
  | silent (hg : task'.generated = task.generated) (hhist : task'.history = task.history)
      (hpending : task'.pendingToken = task.pendingToken)
      (hphase : (task'.phase = task.phase ∧ task'.draft = task.draft ∧ rt' = rt) ∨
        task'.phase.working = false) : Streamed b s rt r task rt' task' []
  | drawn {logitsWritten : ℕ} {logits logits' : List F32} {token : TokenId} {sampler : τ}
      {samplingIndices repetitionEpochs : List ℕ} (hw : task.phase.working = true)
      (hp : task.pendingToken = none)
      (hstep : stepWork b rt.loader (rt.sequenceOf r) r task = (.ok logitsWritten, logits))
      (hlen : logitsWritten ≤ logits.length)
      (hsample : s.sample task.sampler (logits.take logitsWritten) task.history task.samplingIndices
        task.repetitionEpochs = (.ok token, sampler, logits', samplingIndices, repetitionEpochs))
      (hdraft : task'.draft = ⟨sampler, BackendState.overwrite task.samplingIndices samplingIndices,
        BackendState.overwrite task.repetitionEpochs repetitionEpochs, task.generated ++ [token]⟩)
      (hhist : task'.history = task.history ++ [token]) (hpending : task'.pendingToken = some token)
      (hphase : task'.phase = task.phase) (hrt : rt' = (callBackend b rt r task).2.2) :
      Streamed b s rt r task rt' task' []
  | published {token : TokenId} (hw : task.phase.working = true) (hp : task.pendingToken = some token)
      (hdraft : task'.draft = task.draft) (hhist : task'.history = task.history)
      (hpending : task'.pendingToken = none)
      (hphase : task'.phase.working = false ∨
        (task'.phase = .decode ∧ task.finishAfterToken token = none ∧ rt' = rt)) :
      Streamed b s rt r task rt' task' [token]

theorem stepTasks_streamed (hi : Consistent rt) (hw : task.phase.working = true)
    (hc : task.cancellation = none) (hp : task.pendingToken = none)
    (hd : task.phase = .decode → task.generated ≠ []) (steps : NonZeroU32) :
    let answer := stepTasks b s r steps.get rt { task with pendingYield := none }
    Streamed b s rt r task answer.1 answer.2 [] := by
  dsimp only
  have hdrawn := @stepTask_drawn _ _ _ b s rt r { task with pendingYield := none } hi hw hd
  rw [stepTasks_once b s rt r { task with pendingYield := none } hp hc steps hw]
  generalize (stepTask b s rt r { task with pendingYield := none }).2 = answer at hdrawn ⊢
  obtain ⟨rt', task'⟩ := answer
  cases hdrawn with
  | ended hw' hg hhist hpending => exact .silent hg hhist hpending (.inr hw')
  | drawn hstep hlen hsample => exact .drawn hw hp hstep hlen hsample rfl rfl rfl rfl rfl

theorem advanceTask_streamed (hi : Consistent rt) (hd : task.phase = .decode → task.generated ≠ [])
    (output : TokenOutput GenerationOutputState) :
    let turn := advanceTask b s rt r task output
    ∃ new, turn.output.published = output.published ++ new.map (r, ·) ∧
      Streamed b s rt r task turn.runtime turn.task (publishedTokens new) := by
  intro turn
  have hturn : Turned b s rt r task output turn := advanceTask_turned b s rt r task output
  -- The records of the yield hold no token.
  have hyielded : ∃ yields, (publishYield r task output).2.1.published = output.published ++ yields.map (r, ·) ∧
      publishedTokens yields = [] := by
    rcases publishYield_published r task output with hp | ⟨reason, hp⟩
    · exact ⟨[], by simpa using hp, rfl⟩
    · exact ⟨[.state (.yielded reason)], hp, rfl⟩
  generalize turn = turn at hturn ⊢
  cases hturn with
  | terminal terminal hphase =>
    obtain ⟨new, hnew, hstate⟩ := publishTerminal_states rt r output terminal
    refine ⟨new, hnew, ?_⟩
    rw [hstate]
    exact .silent rfl rfl rfl (.inr rfl)
  | cancelled reason hphase hcancel =>
    refine ⟨[], by simp, ?_⟩
    exact .silent rfl rfl rfl (.inr (terminalPhase_working ..))
  | yieldBlocked hphase hcancel hyield =>
    rw [hyield] at hyielded
    obtain ⟨yields, hp, hstate⟩ := hyielded
    refine ⟨yields, hp, ?_⟩
    rw [hstate]
    exact .silent rfl rfl rfl (.inl ⟨rfl, rfl, rfl⟩)
  | tokenBlocked hphase hcancel hyield htoken hpush =>
    rw [hyield] at hyielded
    obtain ⟨yields, hp, hstate⟩ := hyielded
    refine ⟨yields, (TokenOutput.tryPushToken_error _ hpush).trans hp, ?_⟩
    rw [hstate]
    exact .silent rfl rfl rfl (.inl ⟨rfl, rfl, rfl⟩)
  | @tokenFinished _ _ token reason hphase hcancel hyield htoken hpush hfinish =>
    rw [hyield] at hyielded
    obtain ⟨yields, hp, hstate⟩ := hyielded
    refine ⟨yields ++ [.tokens [token]], ?_, ?_⟩
    · rw [TokenOutput.tryPushToken_ok _ hpush, hp]
      simp
    · rw [publishedTokens_append, hstate]
      exact .published hphase htoken rfl rfl rfl (.inl (terminalPhase_working ..))
  | @tokenPublished _ _ token hphase hcancel hyield htoken hpush hfinish =>
    rw [hyield] at hyielded
    obtain ⟨yields, hp, hstate⟩ := hyielded
    refine ⟨yields ++ [.tokens [token]], ?_, ?_⟩
    · rw [TokenOutput.tryPushToken_ok _ hpush, hp]
      simp
    · rw [publishedTokens_append, hstate]
      exact .published hphase htoken rfl rfl rfl (.inr ⟨rfl, hfinish, rfl⟩)
  | stepped hphase hcancel hyield htoken =>
    rw [hyield] at hyielded
    obtain ⟨yields, hp, hstate⟩ := hyielded
    refine ⟨yields, hp, ?_⟩
    rw [hstate]
    exact stepTasks_streamed b s hi hphase hcancel htoken hd task.schedulerQuantum

/-- What a turn publishes continues the stream of its task. -/
theorem Streamed.streams {rt' : InferenceRuntime σ} {task' : GenerationTask τ} {ts new : List TokenId}
    (h : Streamed b s rt r task rt' task' new) (hsame : task.SameRequest task') (hs : task.Streams ts) :
    task'.Streams (ts ++ new) := by
  cases h with
  | silent hg hhist hpending hphase =>
    rw [List.append_nil]
    refine ⟨by rw [hg, hpending, hs.generated], by rw [hhist, hg, hsame.promptTokens, hs.history],
      fun hp => ?_, fun hp => ?_, fun ts' hpre hne hlt => ?_⟩
    · rcases hphase with ⟨heq, -⟩ | hw
      · exact hs.prefill (heq ▸ hp)
      · simp [hp, GenerationPhase.working] at hw
    · rw [hsame.ends]
      rcases hphase with ⟨heq, -⟩ | hw
      · exact hs.decode (heq ▸ hp)
      · simp [hp, GenerationPhase.working] at hw
    · rw [hsame.ends]
      exact hs.minimal ts' hpre hne hlt
  | @drawn _ _ _ token _ _ _ hw hp hstep hlen hsample hdraft hhist hpending hphase hrt =>
    have hg : task'.generated = task.generated ++ [token] := congrArg Draft.generated hdraft
    rw [List.append_nil]
    refine ⟨?_, by rw [hhist, hg, hsame.promptTokens, hs.history, List.append_assoc],
      fun hph => hs.prefill (hphase ▸ hph), fun hph => ?_, fun ts' hpre hne hlt => ?_⟩
    · rw [hg, hpending, hs.generated, hp]
      simp
    · rw [hsame.ends]
      exact hs.decode (hphase ▸ hph)
    · rw [hsame.ends]
      exact hs.minimal ts' hpre hne hlt
  | @published token hw hp hdraft hhist hpending hphase =>
    have hg : task'.generated = task.generated := congrArg Draft.generated hdraft
    have hts : task.generated = ts ++ [token] := by
      rw [hs.generated, hp]
      rfl
    refine ⟨by rw [hg, hpending, hts]; simp, by rw [hhist, hg, hsame.promptTokens, hs.history],
      fun hph => ?_, fun hph => ?_, fun ts' hpre hne hlt => ?_⟩
    · rcases hphase with hend | ⟨hd, -, -⟩
      · simp [hph, GenerationPhase.working] at hend
      · rw [hph] at hd
        cases hd
    · rw [hsame.ends, ← hts]
      rcases hphase with hend | ⟨-, hgo, -⟩
      · simp [hph, GenerationPhase.working] at hend
      · exact ⟨by simp [hts], (finishAfterToken_eq_none_iff task (by simp [hts])).mp hgo⟩
    · rw [hsame.ends]
      rcases List.prefix_concat_iff.mp hpre with heq | hpre'
      · exact absurd heq hlt
      by_cases heq : ts' = ts
      · subst heq
        exact (hs.goes_on hw).resolve_left hne
      · exact hs.minimal ts' hpre' hne heq

end Step

/-! ### The loop a generation stands for -/

section Plain

variable (s : Sampling τ) (logitsOf : List TokenId → List F32) (task : GenerationTask τ)

/-- Draw the token after the prompt and the tokens of the draft. -/
def GenerationTask.draw (d : Draft τ) : Option (Draft τ) :=
  match s.sample d.sampler (logitsOf d.generated) (task.promptTokens ++ d.generated) d.samplingIndices
      d.repetitionEpochs with
  | (.error _, _) => none
  | (.ok token, sampler, _, samplingIndices, repetitionEpochs) =>
    some ⟨sampler, BackendState.overwrite d.samplingIndices samplingIndices,
      BackendState.overwrite d.repetitionEpochs repetitionEpochs, d.generated ++ [token]⟩

/-- Draw until the tokens end the generation or a draw fails. -/
def GenerationTask.plainLoop : ℕ → Draft τ → List TokenId
  | 0, d => d.generated
  | steps + 1, d =>
    if d.generated ≠ [] ∧ task.Ends d.generated then d.generated
    else
    match task.draw s logitsOf d with
    | none => d.generated
    | some d => plainLoop steps d

/-- The tokens of the request where nothing else goes on. -/
def GenerationTask.plainTokens : List TokenId :=
  task.plainLoop s logitsOf task.maximumGeneratedTokens task.draft

theorem draw_generated {d d' : Draft τ} (h : task.draw s logitsOf d = some d') :
    ∃ token, d'.generated = d.generated ++ [token] := by
  unfold GenerationTask.draw at h
  split at h
  · cases h
  · next token _ _ _ _ _ =>
    cases h
    exact ⟨token, rfl⟩

/-- The loop only appends. -/
theorem generated_prefix_plainLoop : ∀ (steps : ℕ) (d : Draft τ),
    d.generated <+: task.plainLoop s logitsOf steps d
  | 0, d => List.prefix_rfl
  | steps + 1, d => by
    rw [GenerationTask.plainLoop]
    by_cases hend : d.generated ≠ [] ∧ task.Ends d.generated
    · rw [if_pos hend]
    rw [if_neg hend]
    rcases hdraw : task.draw s logitsOf d with _ | d'
    · exact List.prefix_rfl
    · obtain ⟨token, hg⟩ := draw_generated s logitsOf task hdraw
      have hpre : d.generated <+: d'.generated := by
        rw [hg]
        exact List.prefix_append ..
      exact hpre.trans (generated_prefix_plainLoop steps d')

theorem plainLoop_of_ends (steps : ℕ) {d : Draft τ} (hne : d.generated ≠ []) (h : task.Ends d.generated) :
    task.plainLoop s logitsOf steps d = d.generated := by
  cases steps with
  | zero => rfl
  | succ steps => rw [GenerationTask.plainLoop, if_pos ⟨hne, h⟩]

theorem plainLoop_draw {d d' : Draft τ} (hgo : d.generated = [] ∨ ¬task.Ends d.generated)
    (hdraw : task.draw s logitsOf d = some d') {steps : ℕ} (hpos : 0 < steps) :
    task.plainLoop s logitsOf steps d = task.plainLoop s logitsOf (steps - 1) d' := by
  obtain ⟨steps, rfl⟩ := Nat.exists_eq_succ_of_ne_zero (Nat.pos_iff_ne_zero.mp hpos)
  have hnot : ¬(d.generated ≠ [] ∧ task.Ends d.generated) := by
    rintro ⟨hne, hend⟩
    exact hgo.elim hne (· hend)
  rw [GenerationTask.plainLoop, if_neg hnot, hdraw]
  rfl

/-- More steps than the request asks for tokens make no difference. -/
theorem plainLoop_enough : ∀ (steps : ℕ) (d : Draft τ), 0 < steps →
    task.maximumGeneratedTokens ≤ d.generated.length + steps →
    task.plainLoop s logitsOf (steps + 1) d = task.plainLoop s logitsOf steps d
  | 0, _, hpos, _ => absurd hpos (by omega)
  | steps + 1, d, _, hle => by
    rw [GenerationTask.plainLoop, GenerationTask.plainLoop]
    by_cases hend : d.generated ≠ [] ∧ task.Ends d.generated
    · rw [if_pos hend, if_pos hend]
    rw [if_neg hend, if_neg hend]
    rcases hdraw : task.draw s logitsOf d with _ | d'
    · rfl
    obtain ⟨token, hg⟩ := draw_generated s logitsOf task hdraw
    have hlen : d'.generated.length = d.generated.length + 1 := by
      rw [hg, List.length_append, List.length_singleton]
    dsimp only
    cases steps with
    | zero =>
      have hne : d'.generated ≠ [] := by simp [hg]
      rw [plainLoop_of_ends s logitsOf task _ hne (.inr (.inr (by omega)))]
      rfl
    | succ steps => exact plainLoop_enough (steps + 1) d' (by omega) (by omega)

/-- A task that has published `ts`, against the plain loop of the task `t₀` it
was admitted as: what the loop still has to do is what the task has. -/
structure GenerationTask.Follows (t₀ task : GenerationTask τ) (ts : List TokenId) : Prop where
  same : t₀.SameRequest task
  streams : task.Streams ts
  remaining (hw : task.phase.working = true) : t₀.plainTokens s logitsOf =
    t₀.plainLoop s logitsOf (t₀.maximumGeneratedTokens - task.generated.length) task.draft
  plain : ts <+: t₀.plainTokens s logitsOf
  ended (hne : ts ≠ []) (h : t₀.Ends ts) : t₀.plainTokens s logitsOf = ts

theorem GenerationTask.SameRequest.marked {t₀ task : GenerationTask τ} (h : t₀.SameRequest task)
    (cancellation : Option CancellationReason) : t₀.SameRequest { task with cancellation := cancellation } :=
  h.trans ⟨rfl, rfl, rfl, rfl, rfl, rfl, rfl⟩

theorem GenerationTask.Follows.marked {t₀ task : GenerationTask τ} {ts : List TokenId}
    (h : t₀.Follows s logitsOf task ts) (cancellation : Option CancellationReason) :
    t₀.Follows s logitsOf { task with cancellation := cancellation } ts :=
  ⟨h.same.marked cancellation, h.streams.marked cancellation, h.remaining, h.plain, h.ended⟩

end Plain

/-- A task as admission makes it has published nothing. -/
theorem newTask_streams (handle : ModelHandle) (request : GenerationRequest) (vocabularySize : ℕ) (sampler : τ)
    (w : MemoryFootprint) :
    (GenerationScheduler.newTask handle request vocabularySize sampler w).Streams [] where
  generated := rfl
  history := (List.append_nil _).symm
  prefill _ := rfl
  decode h := by cases h
  minimal ts' hpre hne _ := absurd (List.prefix_nil.mp hpre) hne

theorem newTask_follows (s : Sampling τ) (logitsOf : List TokenId → List F32) (handle : ModelHandle)
    (request : GenerationRequest) (vocabularySize : ℕ) (sampler : τ) (w : MemoryFootprint) :
    let task := GenerationScheduler.newTask handle request vocabularySize sampler w
    task.Follows s logitsOf task [] :=
  ⟨.refl _, newTask_streams .., fun _ => rfl, List.nil_prefix, fun hne => absurd rfl hne⟩

section Follow

variable (b : Backend σ Source) (s : Sampling τ) {logitsOf : List TokenId → List F32} {rt rt' : InferenceRuntime σ}
  {r : RequestId} {t₀ task task' : GenerationTask τ} {ts new : List TokenId}

/-- A turn whose backend step writes the loop's logits follows the loop. -/
theorem Streamed.follows (h : Streamed b s rt r task rt' task' new) (hsame : task.SameRequest task')
    (hpos : 0 < t₀.maximumGeneratedTokens)
    (hlogits : task.phase.working = true → task.pendingToken = none → ∀ {n : ℕ} {logits : List F32},
      stepWork b rt.loader (rt.sequenceOf r) r task = (.ok n, logits) → n ≤ logits.length →
        logits.take n = logitsOf task.generated)
    (hf : t₀.Follows s logitsOf task ts) : t₀.Follows s logitsOf task' (ts ++ new) := by
  have hstreams := h.streams b s hsame hf.streams
  cases h with
  | silent hg hhist hpending hphase =>
    rw [List.append_nil] at hstreams ⊢
    refine ⟨hf.same.trans hsame, hstreams, fun hw => ?_, hf.plain, hf.ended⟩
    rcases hphase with ⟨heq, hdraft, -⟩ | hend
    · rw [hg, hdraft]
      exact hf.remaining (heq ▸ hw)
    · rw [hw] at hend
      cases hend
  | @drawn n logits logits' token sampler samplingIndices repetitionEpochs hw hp hstep hlen hsample hdraft hhist
      hpending hphase hrt =>
    rw [List.append_nil] at hstreams ⊢
    refine ⟨hf.same.trans hsame, hstreams, fun _ => ?_, hf.plain, hf.ended⟩
    have hts : task.generated = ts := by
      rw [hf.streams.generated, hp]
      simp
    have hgo : task.generated = [] ∨ ¬t₀.Ends task.generated := by
      rw [hts]
      exact (hf.streams.goes_on hw).imp_right fun hnot => mt (hf.same.ends ts).mpr hnot
    have hroom : task.generated.length < t₀.maximumGeneratedTokens := by
      rcases hgo with hnil | hnot
      · rwa [hnil]
      · exact GenerationTask.lt_of_not_ends hnot
    have hdraw : t₀.draw s logitsOf task.draft = some task'.draft := by
      have hhistory : t₀.promptTokens ++ task.generated = task.history := by
        rw [hf.streams.history, hf.same.promptTokens]
      rw [hlogits hw hp hstep hlen, ← hhistory] at hsample
      simp only [GenerationTask.draw, GenerationTask.draft] at hsample ⊢
      rw [hsample]
      exact congrArg some hdraft.symm
    have hg : task'.generated.length = task.generated.length + 1 := by
      rw [show task'.generated = task.generated ++ [token] from congrArg Draft.generated hdraft,
        List.length_append, List.length_singleton]
    rw [hf.remaining hw, plainLoop_draw s logitsOf t₀ hgo hdraw (by omega), hg, Nat.sub_sub]
  | @published token hw hp hdraft hhist hpending hphase =>
    have hts : task.generated = ts ++ [token] := by
      rw [hf.streams.generated, hp]
      rfl
    have hg : task.draft.generated = ts ++ [token] := hts
    have hremaining := hf.remaining hw
    refine ⟨hf.same.trans hsame, hstreams, fun _ => ?_, ?_, fun hne hend => ?_⟩
    · rw [hdraft, show task'.generated = task.generated from congrArg Draft.generated hdraft]
      exact hremaining
    · rw [hremaining, ← hg]
      exact generated_prefix_plainLoop ..
    · rw [hremaining, ← hg]
      rw [← hg] at hne hend
      exact plainLoop_of_ends s logitsOf t₀ _ hne hend

end Follow

end LlmApp
