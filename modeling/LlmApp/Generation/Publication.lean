/-
# What a turn publishes

A terminal phase publishes its records in a fixed order and keeps, in its
flags, how far it has come: `TerminalTurn` lists what one turn of it can do.
A turn of a working task publishes yields and tokens only.

Key definitions: `TerminalTurn`.
Key theorems: `publishTerminal_turn`, `publishYield_published`,
`released_completes`.
-/
import LlmApp.Generation.Turns

namespace LlmApp

open InferenceRuntime

variable {σ Source τ : Type}

/-! ### The terminal phase -/

/-- The ways of a turn of the terminal phase. -/
inductive TerminalTurn (rt : InferenceRuntime σ) (r : RequestId)
    (output : TokenOutput GenerationOutputState) (terminal : TerminalPublication) :
    SchedulerAdvance × TokenOutput GenerationOutputState × TerminalPublication → Prop
  | blocked {output' : TokenOutput GenerationOutputState} (hp : output'.published = output.published) :
      TerminalTurn rt r output terminal (idle, output', terminal)
  | terminal {output' : TokenOutput GenerationOutputState} (ht : terminal.terminalPublished = false)
      (hp : output'.published = output.published ++ [(r, .state (.terminal terminal.outcome))]) :
      TerminalTurn rt r output terminal (progressed, output', { terminal with terminalPublished := true })
  | cleanupPending {output' : TokenOutput GenerationOutputState} {initial : CleanupRetryState}
      (retry : CleanupRetryState) (ht : terminal.terminalPublished = true)
      (hi : terminal.initialCleanup = some initial) (hc : terminal.cleanupPublished = false)
      (hp : output'.published =
        output.published ++ [(r, .state (.cleanupPending terminal.outcome retry.failure retry))]) :
      TerminalTurn rt r output terminal (progressed, output', { terminal with cleanupPublished := true })
  | cleanupExhausted {output' : TokenOutput GenerationOutputState} {initial retry : CleanupRetryState}
      (ht : terminal.terminalPublished = true) (hi : terminal.initialCleanup = some initial)
      (hc : terminal.cleanupPublished = true) (hr : rt.requestCleanupState r = some retry)
      (hx : retry.exhausted = true) (he : terminal.exhaustionPublished = false)
      (hp : output'.published =
        output.published ++ [(r, .state (.cleanupExhausted terminal.outcome retry.failure retry))]) :
      TerminalTurn rt r output terminal (progressed, output', { terminal with exhaustionPublished := true })
  | released {output' : TokenOutput GenerationOutputState} (ht : terminal.terminalPublished = true)
      (hi : terminal.initialCleanup = none ∨
        (terminal.initialCleanup.isSome = true ∧ terminal.cleanupPublished = true ∧
          rt.requestCleanupState r = none))
      (hp : output'.published = output.published ++ [(r, .state (.released terminal.outcome))]) :
      TerminalTurn rt r output terminal (⟨true, some r⟩, output', terminal)

variable (rt : InferenceRuntime σ) (r : RequestId)

/-- A push of a state, and how the turn ends with it. -/
theorem push_turn {output : TokenOutput GenerationOutputState} {terminal terminal' : TerminalPublication}
    {result : SchedulerAdvance} {payload : GenerationOutputState}
    (h : ∀ output', output'.published = output.published ++ [(r, .state payload)] →
      TerminalTurn rt r output terminal (result, output', terminal')) :
    TerminalTurn rt r output terminal (match output.tryPushState r payload with
      | (.error _, output) => (idle, output, terminal)
      | (.ok (), output) => (result, output, terminal')) := by
  rcases hpush : output.tryPushState r payload with ⟨_ | _, output'⟩
  · exact .blocked (output.tryPushState_error hpush)
  · exact h output' (output.tryPushState_ok hpush)

theorem publishTerminal_turn (output : TokenOutput GenerationOutputState) (terminal : TerminalPublication) :
    TerminalTurn rt r output terminal (publishTerminal rt r output terminal) := by
  obtain ⟨outcome, initialCleanup, terminalPublished, cleanupPublished, exhaustionPublished⟩ := terminal
  unfold publishTerminal
  dsimp only
  cases terminalPublished with
  | false => exact push_turn rt r fun _ hp => .terminal rfl hp
  | true =>
    rw [if_neg (by simp)]
    rcases initialCleanup with _ | initial
    · exact push_turn rt r fun _ hp => .released rfl (Or.inl rfl) hp
    dsimp only
    cases cleanupPublished with
    | false => exact push_turn rt r fun _ hp => .cleanupPending _ rfl rfl rfl hp
    | true =>
      rw [if_neg (by simp)]
      rcases hr : rt.requestCleanupState r with _ | retry
      · exact push_turn rt r fun _ hp => .released rfl (Or.inr ⟨rfl, rfl, hr⟩) hp
      dsimp only
      split_ifs with hx
      · exact push_turn rt r fun _ hp => .cleanupExhausted rfl rfl rfl hr hx.1 hx.2 hp
      · exact .blocked rfl

/-! ### Yields and tokens -/

theorem publishYield_published (task : GenerationTask τ) (output : TokenOutput GenerationOutputState) :
    (publishYield r task output).2.1.published = output.published ∨
      ∃ reason, (publishYield r task output).2.1.published =
        output.published ++ [(r, .state (.yielded reason))] := by
  unfold publishYield
  split
  · exact Or.inl rfl
  next reason _ =>
  rcases hpush : output.tryPushState r (.yielded reason) with ⟨_ | _, output'⟩
  · exact Or.inl (output.tryPushState_error hpush)
  · exact Or.inr ⟨reason, output.tryPushState_ok hpush⟩

/-- A record that a working task publishes. -/
def Publication.ofWork : Publication GenerationOutputState → Bool
  | .tokens _ | .state (.yielded _) => true
  | .state _ => false

/-- The records of a turn of a working task are of the request, and of its work. -/
theorem working_published (b : Backend σ Source) (s : Sampling τ) (task : GenerationTask τ)
    (output : TokenOutput GenerationOutputState) (hw : task.phase.working = true) :
    ∃ records : List (Publication GenerationOutputState),
      (advanceTask b s rt r task output).output.published = output.published ++ records.map (r, ·) ∧
        ∀ p ∈ records, p.ofWork = true := by
  have hyielded := publishYield_published r task output
  -- The records up to the token.
  have hyield : ∃ records : List (Publication GenerationOutputState),
      (publishYield r task output).2.1.published = output.published ++ records.map (r, ·) ∧
        ∀ p ∈ records, p.ofWork = true := by
    rcases hyielded with h | ⟨reason, h⟩
    · exact ⟨[], by simpa using h, by simp⟩
    · exact ⟨[.state (.yielded reason)], h, by simp [Publication.ofWork]⟩
  have hturn := advanceTask_turned b s rt r task output
  generalize advanceTask b s rt r task output = turn at hturn ⊢
  cases hturn with
  | terminal terminal hphase =>
    rw [hphase] at hw
    cases hw
  | cancelled => exact ⟨[], by simp, by simp⟩
  | yieldBlocked _ _ hy | stepped _ _ hy _ => rwa [hy] at hyield
  | tokenBlocked _ _ hy _ hpush =>
    rw [hy] at hyield
    rw [TokenOutput.tryPushToken_error _ hpush]
    exact hyield
  | @tokenFinished _ _ token _ _ _ hy _ hpush | @tokenPublished _ _ token _ _ hy _ hpush =>
    rw [hy] at hyield
    obtain ⟨records, hp, hwork⟩ := hyield
    refine ⟨records ++ [.tokens [token]], ?_, ?_⟩
    · rw [TokenOutput.tryPushToken_ok _ hpush, hp]
      simp
    · simpa [or_imp, forall_and, Publication.ofWork] using hwork

/-- A turn publishes records of its own request only. -/
theorem turn_published (b : Backend σ Source) (s : Sampling τ) (task : GenerationTask τ)
    (output : TokenOutput GenerationOutputState) :
    ∃ records : List (Publication GenerationOutputState),
      (advanceTask b s rt r task output).output.published = output.published ++ records.map (r, ·) := by
  cases hw : task.phase.working with
  | true =>
    obtain ⟨records, hp, -⟩ := working_published rt r b s task output hw
    exact ⟨records, hp⟩
  | false =>
    have hturn := advanceTask_turned b s rt r task output
    generalize advanceTask b s rt r task output = turn at hturn ⊢
    cases hturn with
    | terminal terminal =>
      have ht := publishTerminal_turn rt r output terminal
      generalize publishTerminal rt r output terminal = answer at ht ⊢
      cases ht with
      | blocked hp => exact ⟨[], by simpa using hp⟩
      | terminal _ hp | cleanupPending _ _ _ _ hp | cleanupExhausted _ _ _ _ _ _ hp | released _ _ hp =>
        exact ⟨[_], hp⟩
    | cancelled _ hphase | yieldBlocked hphase | tokenBlocked hphase | tokenFinished hphase
    | tokenPublished hphase | stepped hphase =>
      rw [hw] at hphase
      cases hphase

/-- A turn that publishes `Released` is the last of its task. -/
theorem released_completes (b : Backend σ Source) (s : Sampling τ) (task : GenerationTask τ)
    (output : TokenOutput GenerationOutputState) {outcome : GenerationOutcome} {r' : RequestId}
    (h : (advanceTask b s rt r task output).output.published =
      output.published ++ [(r', .state (.released outcome))]) :
    r' = r ∧ (advanceTask b s rt r task output).result.completed = some r := by
  cases hw : task.phase.working with
  | true =>
    obtain ⟨records, hp, hwork⟩ := working_published rt r b s task output hw
    rw [h, List.append_cancel_left_eq] at hp
    rcases records with _ | ⟨p, records⟩
    · cases hp
    · simp only [List.map_cons, List.cons.injEq, Prod.mk.injEq] at hp
      have := hwork p List.mem_cons_self
      rw [← hp.1.2] at this
      cases this
  | false =>
    have hturn := advanceTask_turned b s rt r task output
    generalize advanceTask b s rt r task output = turn at hturn h ⊢
    cases hturn with
    | terminal terminal hphase =>
      have ht := publishTerminal_turn rt r output terminal
      generalize publishTerminal rt r output terminal = answer at ht h ⊢
      cases ht with
      | blocked hp => simp [hp] at h
      | terminal _ hp | cleanupPending _ _ _ _ hp | cleanupExhausted _ _ _ _ _ _ hp =>
        simp [hp] at h
      | released _ _ hp =>
        simp only [hp, List.append_cancel_left_eq, List.cons.injEq, Prod.mk.injEq] at h
        exact ⟨h.1.1.symm, rfl⟩
    | cancelled _ hphase | yieldBlocked hphase | tokenBlocked hphase | tokenFinished hphase
    | tokenPublished hphase | stepped hphase =>
      rw [hw] at hphase
      cases hphase

end LlmApp
