/-
# Normalization fits where the raw report did

A stage that commits its output has accounted it within its limit. So when the
normalization of a workflow starts, the raw report it reads is stored and was
accounted within the raw limit, and its normal form is accounted with no more:
with a limit for normalized diagnostics that is no smaller, no execution fails
over the size of a normalized report.

Key definitions: `WorkflowError.sizeFailure`, `StoresOutput`.
Key theorems: `runAttempts_stores`, `runNormalizationStage_fits`, `normalization_fits`.
-/
import LlmApp.Workflow.Stages

namespace LlmApp

open CorrectiveWorkflowExecutor

/-- The stage whose output is too large, or of no size. -/
def WorkflowError.sizeFailure : WorkflowError → Option WorkflowStage
  | .artifactSizeOverflow _ stage _ _ => some stage
  | .outputCapacityExceeded _ stage _ _ _ _ => some stage
  | _ => none

variable {M V ρ : Type} {graph : TaskGraph} {stage : StageTask}

/-- The output of the stage is stored, and was accounted within its limit. -/
def StoresOutput (stage : StageTask) (content : ArtifactContent) (executor : CorrectiveWorkflowExecutor M V) : Prop :=
  executor.artifacts.get stage.output.id = some ⟨stage.output, content⟩ ∧
    ∃ n ≤ stage.maximumBytes, artifactContentSize content = some n

/-- No other stage is over a size. -/
def SizeFailsOnlyIn (stage : StageTask) (e : WorkflowError) : Prop := ∀ s, e.sizeFailure = some s → s = stage.stage

theorem insertFailure_sizeFailure {executor : CorrectiveWorkflowExecutor M V} {reference : ArtifactReference}
    {content : ArtifactContent} {e : WorkflowError} (h : insertFailure executor reference content e) :
    e.sizeFailure = none := by
  obtain ⟨-, rfl⟩ | ⟨-, rfl⟩ | ⟨-, rfl⟩ := h <;> rfl

theorem SizeFailsOnlyIn.of_none {e : WorkflowError} (h : e.sizeFailure = none) : SizeFailsOnlyIn stage e :=
  fun _ hs => nomatch h.symm.trans hs

/-- A stage that a port works for stores what the port returned, within its limit. -/
theorem runAttempts_stores {call : CorrectiveWorkflowExecutor M V → TaskAttempt → ArtifactInputs →
    Except String ρ × CorrectiveWorkflowExecutor M V} {makeContent : ρ → ArtifactContent} :
    Ensures (fun _ => True) (runAttempts graph stage call makeContent)
      (fun value run => StoresOutput stage (makeContent value) run.executor) fun e _ => SizeFailsOnlyIn stage e := by
  refine runAttempts_ensures (runAttempt_ensures (S := fun _ _ => True) (R := fun _ _ _ => True)
    (C := fun _ value run => StoresOutput stage (makeContent value) run.executor) ?_ ?_ ?_ ?_ ?_)
  · exact startAttempt_ensures (fun _ _ _ _ _ _ _ => trivial) (fun _ _ _ _ => .of_none rfl)
      fun _ _ _ _ _ _ => .of_none rfl
  · exact fun _ _ _ _ => trivial
  · intro attempt value
    refine onExecutor_ensures fun table => commitOutput_ensures ?_ ?_ ?_ ?_ ?_
    · intro executor n _ hsize hle _ _ _ _
      exact ⟨get_withArtifact_self, n, hle, hsize⟩
    · intro executor _ _ s hs
      exact (Option.some.inj hs).symm
    · intro executor n _ _ _ s hs
      exact (Option.some.inj hs).symm
    · exact fun _ _ _ => .of_none rfl
    · exact fun _ _ _ hfail => .of_none (insertFailure_sizeFailure hfail)
  · intro attempt value
    exact onTable_ensures (fun _ _ _ _ hstores _ => hstores) fun _ _ _ _ _ _ => .of_none rfl
  · intro attempt diagnostic
    exact handleOperationalFailure_ensures (fun _ _ _ _ _ _ _ _ _ => trivial) (fun _ _ _ _ _ _ => .of_none rfl)
      (fun _ _ _ _ _ _ _ => .of_none rfl) fun _ _ _ _ _ _ => .of_none rfl

/-- The normalization of a report that was accounted within the limit fits. -/
theorem runNormalizationStage_fits {raw : StageTask} {report : ValidationReport}
    (hlimit : raw.maximumBytes ≤ stage.maximumBytes) :
    Ensures (fun run : WorkflowRun M V => StoresOutput raw (.rawValidation report) run.executor)
      (runNormalizationStage graph stage raw.output.id) (fun _ _ => True) fun e _ => e.sizeFailure = none := by
  refine Ensures.bind (Q := fun _ run => StoresOutput raw (.rawValidation report) run.executor) ?_ fun attempt => ?_
  · exact startAttempt_ensures (fun _ _ _ _ hstores _ _ => hstores) (fun _ _ _ _ => rfl) fun _ _ _ _ _ _ => rfl
  refine Ensures.bind (Q := fun read _ => read = report ∧ ∃ n ≤ raw.maximumBytes, rawReportSize report = some n) ?_
    fun read => ?_
  · -- The report is there.
    have hread : ∀ executor : CorrectiveWorkflowExecutor M V, StoresOutput raw (.rawValidation report) executor →
        requireRawValidation raw.output.id executor = .ok report := by
      intro executor hstores
      rw [requireRawValidation, hstores.1]
      rfl
    refine onExecutor_ensures fun table => Ensures.check (fun executor read hstores hcheck => ?_) ?_
    · exact ⟨Except.ok.inj (hcheck.symm.trans (hread executor hstores)), hstores.2⟩
    · intro executor e hstores hcheck
      cases hcheck.symm.trans (hread executor hstores)
  refine Ensures.bind (Q := fun _ _ => True) ?_ fun _ => ?_
  · refine onExecutor_ensures fun table => commitOutput_ensures ?_ ?_ ?_ ?_ ?_
    · exact fun _ _ _ _ _ _ _ _ _ => trivial
    · rintro executor ⟨rfl, n, -, hraw⟩ hnone
      obtain ⟨m, -, hsize⟩ := normalizedReportSize_le hraw
      cases hnone.symm.trans hsize
    · rintro executor m' ⟨rfl, n, hle, hraw⟩ hsize hlt
      obtain ⟨m, hmn, hnormalized⟩ := normalizedReportSize_le hraw
      have heq : m' = m := Option.some.inj (hsize.symm.trans hnormalized)
      omega
    · exact fun _ _ _ => rfl
    · exact fun _ _ _ hfail => insertFailure_sizeFailure hfail
  · exact onTable_ensures (fun _ _ _ _ _ _ => trivial) fun _ _ _ _ _ _ => rfl

/-- The stages, as far as the size of the normalized report goes. -/
theorem runStages_fits (P : ModelTaskExecutor M) (Q : ValidationTaskExecutor V) (plan : WorkflowPlan)
    (hlimit : plan.configuration.artifactLimits.rawValidation ≤ plan.configuration.artifactLimits.normalizedDiagnostics) :
    Ensures (fun _ => True) (runStages P Q plan) (fun _ _ => True)
      fun e _ => e.sizeFailure ≠ some .normalizeDiagnostics := by
  have hother : ∀ {s : StageTask} {e : WorkflowError}, s.stage ≠ .normalizeDiagnostics → SizeFailsOnlyIn s e →
      e.sizeFailure ≠ some .normalizeDiagnostics := fun hs h heq => hs (h _ heq).symm
  have hmodel : ∀ (s : StageTask) (kind : TaskKind) (policy : ModelPolicy) (content : String → ArtifactContent),
      s.stage ≠ .normalizeDiagnostics → Ensures (fun _ => True)
        (runModelStage P plan.canonical.graph s kind policy content : Fallible (WorkflowRun M V) WorkflowError Unit)
        (fun _ _ => True) fun e _ => e.sizeFailure ≠ some .normalizeDiagnostics := by
    intro s kind policy content hs
    exact Ensures.bind (runAttempts_stores.weaken (fun _ => id) (fun _ _ => id) fun _ _ => hother hs)
      fun _ => Ensures.pure fun _ _ => trivial
  refine Ensures.bind (hmodel _ _ _ _ (by simp [WorkflowPlan.draftStage])) fun _ => ?_
  refine Ensures.bind (Q := fun _ run => ∃ report,
    StoresOutput plan.initialValidationStage (.rawValidation report) run.executor) ?_ fun _ => ?_
  · refine Ensures.bind (runAttempts_stores.weaken (fun _ => id) (fun _ _ => id) fun _ _ =>
      hother (by simp [WorkflowPlan.initialValidationStage])) fun report => ?_
    exact Ensures.pure fun _ hstores => ⟨report, hstores⟩
  refine Ensures.bind (Q := fun _ _ => True) ?_ fun _ => ?_
  · constructor
    · exact fun _ _ => trivial
    · rintro run e run' ⟨report, hstores⟩ hrun heq
      have hnone : e.sizeFailure = none := (runNormalizationStage_fits hlimit).error hstores hrun
      cases hnone.symm.trans heq
  refine Ensures.bind (hmodel _ _ _ _ (by simp [WorkflowPlan.reviewStage])) fun _ => ?_
  refine Ensures.bind (hmodel _ _ _ _ (by simp [WorkflowPlan.reviseStage])) fun _ => ?_
  refine Ensures.bind (Q := fun _ _ => True) ?_ fun verdict => ?_
  · refine Ensures.bind (runAttempts_stores.weaken (fun _ => id) (fun _ _ => id) fun _ _ =>
      hother (by simp [WorkflowPlan.finalValidationStage])) fun report => ?_
    exact Ensures.pure fun _ _ => trivial
  refine Ensures.bind (Q := fun _ _ => True) ?_ fun _ => Ensures.pure fun _ _ => trivial
  exact onExecutor_ensures fun table => enqueueEvent_ensures (fun _ _ _ => trivial) fun _ _ _ heq => nomatch heq

/-! ### The whole execution -/

theorem retryableTaskEventCapacity_errors (n : NonZeroU16) (tasks : ℕ) :
    Except.ErrorsIn (·.sizeFailure = none) (retryableTaskEventCapacity n tasks) := Except.errorsIn_okOr rfl

theorem checkExecution_errors (id : ArtifactId) (c : CorrectiveWorkflowConfiguration)
    (executor : CorrectiveWorkflowExecutor M V) : Except.ErrorsIn (·.sizeFailure = none) (checkExecution id c executor) := by
  refine .bind ?_ fun _ => .bind ?_ fun _ => .bind ?_ fun _ => Except.errorsIn_pure
  · have hbudget : ∀ budgetClass budget, Except.ErrorsIn (·.sizeFailure = none)
        (CorrectiveWorkflowConfiguration.validateBudget budgetClass budget) :=
      fun _ _ => .bind (Except.errorsIn_failIf rfl) fun _ => Except.errorsIn_failIf rfl
    have hlimit : ∀ role maximum, Except.ErrorsIn (·.sizeFailure = none)
        (CorrectiveWorkflowConfiguration.validateLimit role maximum) := fun _ _ => Except.errorsIn_failIf rfl
    refine .bind (Except.errorsIn_failIf rfl) fun _ => .bind (Except.errorsIn_failIf rfl) fun _ => ?_
    refine .bind (hbudget _ _) fun _ => .bind (hbudget _ _) fun _ => ?_
    refine .bind (hlimit _ _) fun _ => .bind (hlimit _ _) fun _ => .bind (hlimit _ _) fun _ => ?_
    exact .bind (hlimit _ _) fun _ => .bind (hlimit _ _) fun _ => hlimit _ _
  · exact .bind (Except.errorsIn_okOr rfl) fun _ => .bind (Except.errorsIn_failIf rfl) fun _ => Except.errorsIn_pure
  · refine .bind (Except.errorsIn_failIf rfl) fun _ => .bind ?_ fun _ => Except.errorsIn_failIf rfl
    refine .bind (retryableTaskEventCapacity_errors _ _) fun _ => ?_
    exact .bind (retryableTaskEventCapacity_errors _ _) fun _ => Except.errorsIn_okOr rfl

theorem reserveExecution_errors (specification : ArtifactReference) (c : CorrectiveWorkflowConfiguration) :
    Ensures (fun _ : CorrectiveWorkflowExecutor M V => True) (reserveExecution specification c)
      (fun plan _ => plan.configuration = c) fun e _ => e.sizeFailure = none := by
  have htask : Ensures (fun _ : CorrectiveWorkflowExecutor M V => True) allocateTaskId (fun _ _ => True)
      fun e _ => e.sizeFailure = none :=
    allocateId_ensures (·.nextTaskId) (fun next executor => { executor with nextTaskId := next }) .task id
      (fun _ _ _ => trivial) fun _ _ _ => rfl
  have hartifact : Ensures (fun _ : CorrectiveWorkflowExecutor M V => True) allocateArtifactId (fun _ _ => True)
      fun e _ => e.sizeFailure = none :=
    allocateId_ensures (·.nextArtifactId) (fun next executor => { executor with nextArtifactId := next }) .artifact id
      (fun _ _ _ => trivial) fun _ _ _ => rfl
  refine Ensures.bind (Q := fun _ _ => True) ?_ fun workflow => ?_
  · exact allocateId_ensures (·.nextWorkflowId) (fun next executor => { executor with nextWorkflowId := next })
      .workflow id (fun _ _ _ => trivial) fun _ _ _ => rfl
  refine Ensures.bind (Q := fun _ _ => True) ?_ fun tasks => ?_
  · refine Ensures.bind htask fun _ => Ensures.bind htask fun _ => Ensures.bind htask fun _ => ?_
    refine Ensures.bind htask fun _ => Ensures.bind htask fun _ => Ensures.bind htask fun _ => ?_
    exact Ensures.pure fun _ => id
  refine Ensures.bind (Q := fun _ _ => True) ?_ fun artifacts => Ensures.pure fun _ _ => rfl
  refine Ensures.bind hartifact fun _ => Ensures.bind hartifact fun _ => Ensures.bind hartifact fun _ => ?_
  refine Ensures.bind hartifact fun _ => Ensures.bind hartifact fun _ => Ensures.bind hartifact fun _ => ?_
  exact Ensures.pure fun _ => id

/-- No execution fails over the size of its normalized report. -/
theorem execute_fits (P : ModelTaskExecutor M) (Q : ValidationTaskExecutor V) (specificationId : ArtifactId)
    {c : CorrectiveWorkflowConfiguration}
    (hlimit : c.artifactLimits.rawValidation ≤ c.artifactLimits.normalizedDiagnostics) :
    Ensures (fun _ : CorrectiveWorkflowExecutor M V => True) (execute P Q specificationId c) (fun _ _ => True)
      fun e _ => e.sizeFailure ≠ some .normalizeDiagnostics := by
  have hother : ∀ {e : WorkflowError}, e.sizeFailure = none → e.sizeFailure ≠ some .normalizeDiagnostics :=
    fun hnone heq => nomatch hnone.symm.trans heq
  refine Ensures.bind (Q := fun _ _ => True) ?_ fun specification => ?_
  · exact Ensures.check (fun _ _ _ _ => trivial) fun executor e _ hrefused =>
      hother (checkExecution_errors specificationId c executor e hrefused)
  refine Ensures.bind (Q := fun plan _ => plan.configuration = c) ?_ fun plan => ?_
  · exact (reserveExecution_errors specification c).weaken (fun _ => id) (fun _ _ => id) fun _ _ => hother
  refine Ensures.bind (Q := fun _ _ => plan.configuration = c) ?_ fun table => ?_
  · refine Ensures.check (fun _ _ hplan _ => hplan) fun executor e _ hvalidate => ?_
    cases hvalid : validatePlan plan.canonical with
    | error e' =>
      rw [hvalid] at hvalidate
      cases hvalidate
      exact hother rfl
    | ok table =>
      rw [hvalid] at hvalidate
      cases hvalidate
  -- The stages run on the table of the plan.
  have hrun : plan.configuration = c → Ensures (fun _ => True) (runStages P Q plan) (fun _ _ => True)
      fun e _ => e.sizeFailure ≠ some .normalizeDiagnostics := by
    rintro rfl
    exact runStages_fits P Q plan hlimit
  constructor
  · exact fun _ _ => trivial
  · intro executor e executor' hplan hexecute
    rcases hstages : runStages P Q plan ⟨executor, table⟩ with ⟨result, run⟩
    simp only [hstages] at hexecute
    obtain ⟨rfl, -⟩ := Prod.mk.inj hexecute
    exact (hrun hplan).error trivial hstages

/-- The normal form of a report is accounted with no more than the report. So with a limit for
normalized diagnostics that is no smaller than the one for raw reports, no execution fails over the
size of its normalized report. -/
theorem normalization_fits :
    (∀ (report : ValidationReport) (n : ℕ), rawReportSize report = some n →
      ∃ m ≤ n, normalizedReportSize (normalizeValidationReport report) = some m) ∧
    ∀ (M V : Type) (P : ModelTaskExecutor M) (Q : ValidationTaskExecutor V) (specificationId : ArtifactId)
      (c : CorrectiveWorkflowConfiguration) (executor executor' : CorrectiveWorkflowExecutor M V) (e : WorkflowError),
      c.artifactLimits.rawValidation ≤ c.artifactLimits.normalizedDiagnostics →
        execute P Q specificationId c executor = (.error e, executor') → e.sizeFailure ≠ some .normalizeDiagnostics :=
  ⟨fun _ _ => normalizedReportSize_le, fun _ _ P Q specificationId _ _ _ _ hlimit hexecute =>
    (execute_fits P Q specificationId hlimit).error trivial hexecute⟩

/-- Two findings that normalize alike. -/
def duplicateFindings : ValidationReport :=
  ⟨.rejected, [⟨.error, some " ", "a b", none⟩, ⟨.error, none, " a\t b ", none⟩]⟩

/-- An execution that normalizes a report, and then fails for the size of its review. -/
theorem normalization_fits_duplicates :
    let P : ModelTaskExecutor Unit := ⟨fun _ _ _ => (.ok "draft", ())⟩
    let Q : ValidationTaskExecutor Unit := ⟨fun _ _ _ => (.ok ⟨.rejected, []⟩, ())⟩
    let c : CorrectiveWorkflowConfiguration :=
      ⟨.validate, .anyCompatible, ⟨512, 256, 1⟩, ⟨512, 256, 1⟩, ⟨64, 64, 64, 4, 64, 64⟩⟩
    let executor := (insertSpecification "sort a list" (.new () () ⟨16, 64, 1024⟩)).2
    let e : WorkflowError := .outputCapacityExceeded 1 .review 4 5 5 4
    (∃ m ≤ 17, normalizedReportSize (normalizeValidationReport duplicateFindings) = some m) ∧
      (execute P Q 1 c executor).1 = .error e ∧ e.sizeFailure ≠ some .normalizeDiagnostics := by
  intro P Q c executor e
  have hfails : (execute P Q 1 c executor).1 = .error e := by decide +kernel
  exact ⟨normalization_fits.1 _ 17 (by decide +kernel), hfails,
    normalization_fits.2 Unit Unit P Q 1 c executor _ e (by decide) (Prod.ext hfails rfl)⟩

end LlmApp
