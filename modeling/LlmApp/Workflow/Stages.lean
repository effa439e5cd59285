/-
# Rules for the parts of a stage

For every function that a stage is made of, one rule: what has to be shown for
each of its ways to end, with what is then known. A rule says all that the
function can do, so a proof about a stage goes through its rules and never
unfolds a function.

Key theorems: `enqueueEvent_ensures`, `commitOutput_ensures`, `startAttempt_ensures`,
`handleOperationalFailure_ensures`, `runAttempt_ensures`, `runAttempts_ensures`.
-/
import LlmApp.Workflow.Executor

namespace LlmApp

open CorrectiveWorkflowExecutor

variable {M V ρ : Type}

namespace CorrectiveWorkflowExecutor

/-- The executor with one more event. -/
def withEvent (executor : CorrectiveWorkflowExecutor M V) (event : WorkflowEvent) : CorrectiveWorkflowExecutor M V :=
  { executor with events := executor.events ++ [event] }

/-- The executor with one more artifact. -/
def withArtifact (executor : CorrectiveWorkflowExecutor M V) (reference : ArtifactReference)
    (content : ArtifactContent) : CorrectiveWorkflowExecutor M V :=
  { executor with artifacts :=
    { executor.artifacts with artifacts := executor.artifacts.artifacts.insert reference.id ⟨reference, content⟩ } }

variable {executor : CorrectiveWorkflowExecutor M V} {event : WorkflowEvent} {reference : ArtifactReference}
  {content : ArtifactContent}

@[simp] theorem withEvent_events : (executor.withEvent event).events = executor.events ++ [event] := rfl
@[simp] theorem withEvent_artifacts : (executor.withEvent event).artifacts = executor.artifacts := rfl
@[simp] theorem withEvent_limits : (executor.withEvent event).limits = executor.limits := rfl
@[simp] theorem withEvent_model : (executor.withEvent event).model = executor.model := rfl
@[simp] theorem withEvent_validator : (executor.withEvent event).validator = executor.validator := rfl

@[simp] theorem withArtifact_events : (executor.withArtifact reference content).events = executor.events := rfl
@[simp] theorem withArtifact_limits : (executor.withArtifact reference content).limits = executor.limits := rfl
@[simp] theorem withArtifact_model : (executor.withArtifact reference content).model = executor.model := rfl
@[simp] theorem withArtifact_validator : (executor.withArtifact reference content).validator = executor.validator := rfl

theorem get_withArtifact (id : ArtifactId) : (executor.withArtifact reference content).artifacts.get id =
    if id = reference.id then some ⟨reference, content⟩ else executor.artifacts.get id :=
  OrdMap.get?_insert _ _ _ _

theorem get_withArtifact_self :
    (executor.withArtifact reference content).artifacts.get reference.id = some ⟨reference, content⟩ :=
  OrdMap.get?_insert_self _ _ _

theorem remainingEventCapacity_eq (executor : CorrectiveWorkflowExecutor M V) :
    executor.remainingEventCapacity = executor.limits.pendingEvents - executor.events.length := by
  unfold remainingEventCapacity
  split_ifs with h
  · exact (Nat.sub_eq_zero_of_le h).symm
  · rfl

end CorrectiveWorkflowExecutor

/-- No event can be enqueued. -/
def eventsFull : WorkflowError := .eventCapacityExceeded 1 0

/-! ### On the executor -/

section Executor

variable {P : CorrectiveWorkflowExecutor M V → Prop} {E : WorkflowError → CorrectiveWorkflowExecutor M V → Prop}

theorem ensureEventCapacity_ensures {Q : Unit → CorrectiveWorkflowExecutor M V → Prop}
    (hok : ∀ executor, P executor → executor.remainingEventCapacity ≠ 0 → Q () executor)
    (hfull : ∀ executor, P executor → executor.remainingEventCapacity = 0 → E eventsFull executor) :
    Ensures P (.check ensureEventCapacity) Q E := by
  refine Ensures.check (fun executor _ h hcheck => ?_) fun executor e h hcheck => ?_
  · exact hok executor h (Except.failIf_eq_ok.mp hcheck)
  · obtain ⟨hzero, rfl⟩ := Except.failIf_eq_error.mp hcheck
    rw [hzero]
    exact hfull executor h hzero

theorem enqueueEvent_ensures {event : WorkflowEvent} {Q : Unit → CorrectiveWorkflowExecutor M V → Prop}
    (hok : ∀ executor, P executor → executor.remainingEventCapacity ≠ 0 → Q () (executor.withEvent event))
    (hfull : ∀ executor, P executor → executor.remainingEventCapacity = 0 → E eventsFull executor) :
    Ensures P (enqueueEvent event) Q E :=
  Ensures.bind (Q := fun _ executor => P executor ∧ executor.remainingEventCapacity ≠ 0)
    (ensureEventCapacity_ensures (fun _ h hroom => ⟨h, hroom⟩) hfull) fun _ =>
      Ensures.update fun executor h => hok executor h.1 h.2

/-- An allocation takes the next identity of its sequence, or finds it at its end. -/
theorem allocateId_ensures {α : Type} (next : CorrectiveWorkflowExecutor M V → ℕ)
    (advance : ℕ → CorrectiveWorkflowExecutor M V → CorrectiveWorkflowExecutor M V) (kind : WorkflowIdentifierKind)
    (f : ℕ → α) {Q : α → CorrectiveWorkflowExecutor M V → Prop}
    (hok : ∀ executor, P executor → next executor < u64Max →
      Q (f (next executor)) (advance (next executor + 1) executor))
    (hfail : ∀ executor, P executor → u64Max ≤ next executor → E (.identifierExhausted kind) executor) :
    Ensures P (do
      let ids ← Fallible.check fun executor => allocateId (next executor) kind
      Fallible.update fun executor => advance ids.2 executor
      return f ids.1) Q E := by
  refine Ensures.bind (Q := fun ids executor => P executor ∧ next executor < u64Max ∧
    ids = (next executor, next executor + 1)) ?_ fun ids => ?_
  · refine Ensures.check (fun executor ids h hcheck => ?_) fun executor e h hcheck => ?_
    · simp only [allocateId, Except.bind_eq_ok, Except.okOr_eq_ok, checkedAdd_eq_some, Except.pure_eq_ok] at hcheck
      obtain ⟨_, ⟨rfl, hle⟩, rfl⟩ := hcheck
      exact ⟨h, hle, rfl⟩
    · simp only [allocateId, Except.bind_eq_error, Except.okOr_eq_error] at hcheck
      obtain ⟨hnone, rfl⟩ | ⟨_, -, hpure⟩ := hcheck
      · refine hfail executor h ?_
        by_contra hlt
        have hsome := checkedAdd_eq_some.mpr (⟨rfl, not_le.mp hlt⟩ : next executor + 1 = next executor + 1 ∧ _)
        cases hnone.symm.trans hsome
      · cases hpure
  refine Ensures.bind (Q := fun _ executor => Q (f ids.1) executor) ?_ fun _ => Ensures.pure fun _ => id
  refine Ensures.update ?_
  rintro executor ⟨h, hlt, rfl⟩
  exact hok executor h hlt

/-- What `Artifact::new` and `insert` refuse. -/
def insertFailure (executor : CorrectiveWorkflowExecutor M V) (reference : ArtifactReference)
    (content : ArtifactContent) (e : WorkflowError) : Prop :=
  ((reference.kind, reference.role) ≠ content.kind.reference ∧ e = .artifactContentMismatch reference content.kind) ∨
  (executor.artifacts.get reference.id ≠ none ∧ e = .duplicateArtifact reference.id) ∨
  (executor.artifacts.remainingCapacity = 0 ∧ e = .artifactCapacityExceeded 1 0)

theorem insertArtifact_ensures {reference : ArtifactReference} {content : ArtifactContent}
    {Q : Unit → CorrectiveWorkflowExecutor M V → Prop}
    (hok : ∀ executor, P executor → (reference.kind, reference.role) = content.kind.reference →
      executor.artifacts.get reference.id = none → executor.artifacts.remainingCapacity ≠ 0 →
        Q () (executor.withArtifact reference content))
    (hfail : ∀ executor e, P executor → insertFailure executor reference content e → E e executor) :
    Ensures P (insertArtifact reference content) Q E := by
  refine Ensures.bind (Q := fun store executor => P executor ∧
    executor.artifacts.insert ⟨reference, content⟩ = .ok store) ?_ fun store => ?_
  · refine Ensures.check (fun executor store h hcheck => ?_) fun executor e h hcheck => hfail executor e h ?_
    · simp only [Artifact.new, Except.bind_eq_ok, Except.pure_eq_ok] at hcheck
      obtain ⟨_, ⟨_, -, rfl⟩, hinsert⟩ := hcheck
      exact ⟨h, hinsert⟩
    · simp only [Artifact.new, ArtifactStore.insert, validateContent, Except.bind_eq_error, Except.bind_eq_ok,
        Except.failIf_eq_error, Except.failIf_eq_ok, Except.pure_eq_ok, exists_const, ne_eq] at hcheck
      obtain (⟨hmismatch, rfl⟩ | ⟨-, hpure⟩) | ⟨a, ⟨hvalid, rfl⟩, ⟨hmismatch, -⟩ | ⟨-, ⟨hknown, rfl⟩ | ⟨-, ⟨hroom, rfl⟩ |
        ⟨-, hpure⟩⟩⟩⟩ := hcheck
      · exact .inl ⟨hmismatch, rfl⟩
      · cases hpure
      · exact absurd hmismatch hvalid
      · refine .inr (.inl ⟨fun hnew => ?_, rfl⟩)
        rw [OrdMap.contains_eq, show executor.artifacts.artifacts.get? reference.id = none from hnew] at hknown
        cases hknown
      · rw [hroom]
        exact .inr (.inr ⟨hroom, rfl⟩)
      · cases hpure
  · refine Ensures.update fun executor h => ?_
    obtain ⟨hvalid, hnew, hroom, rfl⟩ := ArtifactStore.insert_eq_ok.mp h.2
    exact hok executor h.1 hvalid hnew hroom

variable {stage : StageTask} {attempt : TaskAttempt} {content : ArtifactContent}

theorem commitOutput_ensures {Q : Unit → CorrectiveWorkflowExecutor M V → Prop}
    (hok : ∀ executor n, P executor → artifactContentSize content = some n → n ≤ stage.maximumBytes →
      (stage.output.kind, stage.output.role) = content.kind.reference →
      executor.artifacts.get stage.output.id = none → executor.artifacts.remainingCapacity ≠ 0 →
      executor.remainingEventCapacity ≠ 0 →
        Q () ((executor.withArtifact stage.output content).withEvent
          (.artifactCommitted stage.workflow stage.stage attempt stage.output)))
    (hoverflow : ∀ executor, P executor → artifactContentSize content = none →
      E (.artifactSizeOverflow stage.workflow stage.stage attempt.task stage.output.id) executor)
    (hexceeded : ∀ executor n, P executor → artifactContentSize content = some n → stage.maximumBytes < n →
      E (.outputCapacityExceeded stage.workflow stage.stage attempt.task stage.output.id n stage.maximumBytes) executor)
    (hfull : ∀ executor, P executor → executor.remainingEventCapacity = 0 → E eventsFull executor)
    (hinsert : ∀ executor e, P executor → insertFailure executor stage.output content e → E e executor) :
    Ensures P (commitOutput stage attempt content) Q E := by
  refine Ensures.bind (Q := fun _ executor => P executor ∧ executor.remainingEventCapacity ≠ 0 ∧
    ∃ n, artifactContentSize content = some n ∧ n ≤ stage.maximumBytes) ?_ fun _ => ?_
  · refine Ensures.check (fun executor _ h hcheck => ?_) fun executor e h hcheck => ?_
    · simp only [Except.bind_eq_ok, Except.okOr_eq_ok, Except.failIf_eq_ok, ensureEventCapacity, exists_const,
        not_lt] at hcheck
      obtain ⟨n, hsize, hle, hroom⟩ := hcheck
      exact ⟨h, hroom, n, hsize, hle⟩
    · simp only [Except.bind_eq_error, Except.okOr_eq_error, Except.okOr_eq_ok, Except.failIf_eq_error,
        Except.failIf_eq_ok, ensureEventCapacity, exists_const] at hcheck
      obtain ⟨hnone, rfl⟩ | ⟨n, hsize, ⟨hlt, rfl⟩ | ⟨-, hzero, rfl⟩⟩ := hcheck
      · exact hoverflow executor h hnone
      · exact hexceeded executor n h hsize hlt
      · rw [hzero]
        exact hfull executor h hzero
  refine Ensures.bind (Q := fun _ executor => ∃ before, executor = withArtifact before stage.output content ∧ P before ∧
    before.remainingEventCapacity ≠ 0 ∧ (∃ n, artifactContentSize content = some n ∧ n ≤ stage.maximumBytes) ∧
      (stage.output.kind, stage.output.role) = content.kind.reference ∧ before.artifacts.get stage.output.id = none ∧
        before.artifacts.remainingCapacity ≠ 0) ?_ fun _ => ?_
  · refine insertArtifact_ensures (fun executor h hvalid hnew hroom => ?_) fun executor e h hfail => ?_
    · exact ⟨executor, rfl, h.1, h.2.1, h.2.2, hvalid, hnew, hroom⟩
    · exact hinsert executor e h.1 hfail
  · refine enqueueEvent_ensures ?_ ?_
    · rintro _ ⟨before, rfl, h, hevents, ⟨n, hsize, hle⟩, hvalid, hnew, hroom⟩ -
      exact hok before n h hsize hle hvalid hnew hroom hevents
    · -- There was room for the event before the insertion.
      rintro _ ⟨before, rfl, h, hevents, -⟩ hzero
      exact absurd hzero hevents

end Executor

/-! ### On a run -/

section Run

variable {P : WorkflowRun M V → Prop} {E : WorkflowError → WorkflowRun M V → Prop} {graph : TaskGraph}
  {stage : StageTask}

theorem onExecutor_ensures {α : Type} {x : Fallible (CorrectiveWorkflowExecutor M V) WorkflowError α}
    {Q : α → WorkflowRun M V → Prop}
    (h : ∀ table, Ensures (fun executor => P ⟨executor, table⟩) x (fun a executor => Q a ⟨executor, table⟩)
      fun e executor => E e ⟨executor, table⟩) : Ensures P (onExecutor x) Q E :=
  Ensures.onPart (fun run _ _ hrun hx => (h run.table).ok hrun hx) fun run _ _ hrun hx => (h run.table).error hrun hx

theorem onTable_ensures {α : Type} {x : TaskStateTable → Except TaskGraphError α × TaskStateTable}
    {Q : α → WorkflowRun M V → Prop}
    (hok : ∀ executor table a table', P ⟨executor, table⟩ → x table = (.ok a, table') → Q a ⟨executor, table'⟩)
    (herror : ∀ executor table e table', P ⟨executor, table⟩ → x table = (.error e, table') →
      E (.taskGraph e) ⟨executor, table'⟩) : Ensures P (onTable x) Q E :=
  Ensures.onPart (fun run _ _ hrun hx => hok run.executor run.table _ _ hrun hx)
    fun run _ _ hrun hx => herror run.executor run.table _ _ hrun hx

theorem startAttempt_ensures {Q : TaskAttempt → WorkflowRun M V → Prop}
    (hok : ∀ executor table attempt table', P ⟨executor, table⟩ → executor.remainingEventCapacity ≠ 0 →
      table.start graph stage.task = (.ok attempt, table') →
        Q attempt ⟨executor.withEvent (.stageStarted stage.workflow stage.stage attempt), table'⟩)
    (hfull : ∀ executor table, P ⟨executor, table⟩ → executor.remainingEventCapacity = 0 →
      E eventsFull ⟨executor, table⟩)
    (htable : ∀ executor table e table', P ⟨executor, table⟩ → table.start graph stage.task = (.error e, table') →
      E (.taskGraph e) ⟨executor, table'⟩) : Ensures P (startAttempt graph stage) Q E := by
  refine Ensures.bind (Q := fun _ run => P run ∧ run.executor.remainingEventCapacity ≠ 0) ?_ fun _ => ?_
  · exact onExecutor_ensures fun table =>
      ensureEventCapacity_ensures (fun executor h hroom => ⟨h, hroom⟩) fun executor h hzero => hfull executor table h hzero
  refine Ensures.bind (Q := fun attempt run => ∃ table, P ⟨run.executor, table⟩ ∧
    run.executor.remainingEventCapacity ≠ 0 ∧ table.start graph stage.task = (.ok attempt, run.table)) ?_ fun attempt => ?_
  · refine onTable_ensures (fun executor table a table' h hstart => ?_) fun executor table e table' h hstart => ?_
    · exact ⟨table, h.1, h.2, hstart⟩
    · exact htable executor table e table' h.1 hstart
  refine Ensures.bind (Q := fun _ => Q attempt) ?_ fun _ => Ensures.pure fun _ => id
  refine onExecutor_ensures fun table' => enqueueEvent_ensures ?_ ?_
  · rintro executor ⟨table, h, hroom, hstart⟩ -
    exact hok executor table attempt table' h hroom hstart
  · rintro executor ⟨table, h, hroom, hstart⟩ hzero
    exact absurd hzero hroom

theorem handleOperationalFailure_ensures {attempt : TaskAttempt} {diagnostic : String} {Q : Unit → WorkflowRun M V → Prop}
    (hretry : ∀ executor table table' next, P ⟨executor, table⟩ → table.failAttempt graph attempt = (.ok (), table') →
      attempt.number.get < stage.budget.maximumAttempts.get → next.get = attempt.number.get + 1 →
      executor.remainingEventCapacity ≠ 0 →
        Q () ⟨executor.withEvent (.retryScheduled stage.workflow stage.stage attempt ⟨attempt.task, next⟩), table'⟩)
    (hexhausted : ∀ executor table table', P ⟨executor, table⟩ → table.failAttempt graph attempt = (.ok (), table') →
      stage.budget.maximumAttempts.get ≤ attempt.number.get →
        E (.taskExhausted stage.workflow stage.stage attempt.task attempt.number.get diagnostic) ⟨executor, table'⟩)
    (hfull : ∀ executor table table', P ⟨executor, table⟩ → table.failAttempt graph attempt = (.ok (), table') →
      attempt.number.get < stage.budget.maximumAttempts.get → executor.remainingEventCapacity = 0 →
        E eventsFull ⟨executor, table'⟩)
    (htable : ∀ executor table e table', P ⟨executor, table⟩ → table.failAttempt graph attempt = (.error e, table') →
      E (.taskGraph e) ⟨executor, table'⟩) :
    Ensures P (handleOperationalFailure graph stage attempt diagnostic) Q E := by
  refine Ensures.bind (Q := fun _ run => ∃ table, P ⟨run.executor, table⟩ ∧
    table.failAttempt graph attempt = (.ok (), run.table)) ?_ fun _ => ?_
  · refine onTable_ensures (fun executor table _ table' h hfail => ⟨table, h, hfail⟩) htable
  split_ifs with hlt
  · refine Ensures.bind (Q := fun next run => (∃ table, P ⟨run.executor, table⟩ ∧
      table.failAttempt graph attempt = (.ok (), run.table)) ∧ next.get = attempt.number.get + 1) ?_ fun next => ?_
    · refine Ensures.check (fun run next h hcheck => ⟨h, ?_⟩) fun run e h hcheck => ?_
      · simp only [Except.okOr_eq_ok, Option.bind_eq_some_iff, checkedAdd_eq_some] at hcheck
        obtain ⟨n, ⟨rfl, -⟩, hnext⟩ := hcheck
        exact NonZeroU16.new_eq_some.mp hnext
      · -- A number below the budget can be raised.
        have hmax := stage.budget.maximumAttempts.le
        have hadd : checkedAdd u16Max attempt.number.get 1 = some (attempt.number.get + 1) :=
          checkedAdd_eq_some.mpr ⟨rfl, by omega⟩
        have hnew : NonZeroU16.new (attempt.number.get + 1) =
            some ⟨attempt.number.get + 1, Nat.succ_pos _, by omega⟩ := NonZeroU16.new_eq_some.mpr rfl
        rw [hadd, Option.bind_some, hnew] at hcheck
        cases hcheck
    · refine onExecutor_ensures fun table' => enqueueEvent_ensures ?_ ?_
      · rintro executor ⟨⟨table, h, hfail⟩, hnext⟩ hroom
        exact hretry executor table table' next h hfail hlt hnext hroom
      · rintro executor ⟨⟨table, h, hfail⟩, -⟩ hzero
        exact hfull executor table table' h hfail hlt hzero
  · refine Ensures.throw ?_
    rintro ⟨executor, table'⟩ ⟨table, h, hfail⟩
    exact hexhausted executor table table' h hfail (Nat.le_of_not_lt hlt)

/-- An attempt by its parts: the start, the call of the port, and the commit or
the failure. -/
theorem runAttempt_ensures {call : CorrectiveWorkflowExecutor M V → TaskAttempt → ArtifactInputs →
      Except String ρ × CorrectiveWorkflowExecutor M V} {makeContent : ρ → ArtifactContent}
    {S : TaskAttempt → WorkflowRun M V → Prop} {R : TaskAttempt → Except String ρ → WorkflowRun M V → Prop}
    {C : TaskAttempt → ρ → WorkflowRun M V → Prop} {Q : Option ρ → WorkflowRun M V → Prop}
    (hstart : Ensures P (startAttempt graph stage) S E)
    (hcall : ∀ attempt executor table, S attempt ⟨executor, table⟩ →
      R attempt (call executor attempt ⟨executor.artifacts, stage.inputArtifacts⟩).1
        ⟨(call executor attempt ⟨executor.artifacts, stage.inputArtifacts⟩).2, table⟩)
    (hcommit : ∀ attempt value, Ensures (R attempt (.ok value))
      (onExecutor (commitOutput stage attempt (makeContent value))) (fun _ => C attempt value) E)
    (hsucceed : ∀ attempt value, Ensures (C attempt value)
      (onTable fun table => table.succeedAttempt graph attempt) (fun _ => Q (some value)) E)
    (hfailure : ∀ attempt diagnostic, Ensures (R attempt (.error diagnostic))
      (handleOperationalFailure graph stage attempt diagnostic) (fun _ => Q none) E) :
    Ensures P (runAttempt graph stage call makeContent) Q E := by
  refine Ensures.bind hstart fun attempt => ?_
  refine Ensures.bind (Q := fun result => R attempt result) ?_ fun result => ?_
  · constructor
    · intro run result run' h hrun
      obtain ⟨hresult, rfl⟩ := Prod.mk.inj hrun
      obtain rfl := Except.ok.inj hresult
      exact hcall attempt run.executor run.table h
    · intro run e run' h hrun
      cases hrun
  cases result with
  | ok value =>
    refine Ensures.bind (hcommit attempt value) fun _ => ?_
    exact Ensures.bind (hsucceed attempt value) fun _ => Ensures.pure fun _ => id
  | error diagnostic =>
    exact Ensures.bind (hfailure attempt diagnostic) fun _ => Ensures.pure fun _ => id

/-- The loop, from what every attempt keeps. -/
theorem runAttempts_ensures {call : CorrectiveWorkflowExecutor M V → TaskAttempt → ArtifactInputs →
      Except String ρ × CorrectiveWorkflowExecutor M V} {makeContent : ρ → ArtifactContent}
    {Q : ρ → WorkflowRun M V → Prop}
    (h : Ensures P (runAttempt graph stage call makeContent) (fun r run => r.elim (P run) fun value => Q value run) E) :
    Ensures P (runAttempts graph stage call makeContent) Q E := Ensures.loop h

end Run

end LlmApp
