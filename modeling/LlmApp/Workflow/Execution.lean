/-
# Whole executions of the workflow

The six stages of a plan one after the other. What an execution makes is a
`WorkflowPayloads`; with the failed attempts of each stage it gives the records
of all stages (`WorkflowPlan.records`), and an execution stands after a number of
them. It is refused with nothing changed, finds its identities used up, completes
with all records, or fails in the next stage for what a port has answered
(`execute_ensures`).

Key definitions: `WorkflowPayloads`, `WorkflowPlan.records`, `WorkflowPlan.Attempted`,
`FailedIn`, `Completed`, `ModelCallDeclared`, `Answered`, `CorrectiveWorkflowExecutor.Sane`,
`WorkflowReaches`.
Key theorems: `runStages_records`, `execute_ensures`, `WorkflowReaches.sane`.
-/
import LlmApp.Workflow.Trace

namespace LlmApp

open CorrectiveWorkflowExecutor

/-! ### The records of an execution -/

/-- What the stages make, after the diagnostics of the attempts of each that failed. -/
structure WorkflowPayloads where
  draft : List String × String
  rawValidation : List String × ValidationReport
  review : List String × String
  revision : List String × String
  finalValidation : List String × ValidationReport

namespace WorkflowPlan

variable (plan : WorkflowPlan)

/-- The records of all stages. The diagnostics are the normal form of the raw report. -/
def records (made : WorkflowPayloads) : List StageRecord := [
  ⟨plan.draftStage, made.draft.1, .draft made.draft.2⟩,
  ⟨plan.initialValidationStage, made.rawValidation.1, .rawValidation made.rawValidation.2⟩,
  ⟨plan.normalizationStage, [], .normalizedDiagnostics (normalizeValidationReport made.rawValidation.2)⟩,
  ⟨plan.reviewStage, made.review.1, .review made.review.2⟩,
  ⟨plan.reviseStage, made.revision.1, .revision made.revision.2⟩,
  ⟨plan.finalValidationStage, made.finalValidation.1, .finalValidation made.finalValidation.2⟩]

/-- The output of an attempt of the next stage. A payload would have made its record. -/
structure Attempted (made : WorkflowPayloads) (done : ℕ) (stage : StageTask) (diagnostics : List String)
    (output : Except String ArtifactContent) : Prop where
  place : plan.stages[done]? = some stage
  record : ∀ content, output = .ok content → (plan.records made)[done]? = some ⟨stage, diagnostics, content⟩

end WorkflowPlan

/-- The calls of the ports that the records tell. -/
def portCalls (records : List StageRecord) : List PortCall := records.flatMap StageRecord.calls

theorem portCalls_append (records : List StageRecord) (record : StageRecord) :
    portCalls (records ++ [record]) = portCalls records ++ record.calls := by
  simp [portCalls]

def WorkflowOutcome.completion (outcome : WorkflowOutcome) : WorkflowEvent :=
  .completed outcome.workflow outcome.status outcome.revision outcome.validation

variable {M V : Type}

/-- The execution has failed in a stage, after the records of the stages before it. -/
def FailedIn (plan : WorkflowPlan) (J : List PortCall → M → V → Prop) (base : CorrectiveWorkflowExecutor M V)
    (e : WorkflowError) (executor : CorrectiveWorkflowExecutor M V) : Prop :=
  ∃ made done stage diagnostics output, plan.Attempted made done stage diagnostics output ∧
    (∀ record ∈ (plan.records made).take done, record.Fits) ∧
      FailedAt (J (portCalls ((plan.records made).take done) ++ stage.calls diagnostics output)) base
        ((plan.records made).take done) stage diagnostics output e executor

/-- The execution is complete: all records, and an outcome by the last report. -/
structure Completed (plan : WorkflowPlan) (J : List PortCall → M → V → Prop) (base : CorrectiveWorkflowExecutor M V)
    (made : WorkflowPayloads) (outcome : WorkflowOutcome) (executor : CorrectiveWorkflowExecutor M V) : Prop where
  fits : ∀ record ∈ plan.records made, record.Fits
  books : Books base (plan.records made) [outcome.completion] executor
  outcome : outcome = plan.outcome made.finalValidation.2.verdict
  ports : J (portCalls (plan.records made)) executor.model executor.validator

/-! ### What the ports are called with -/

/-- The inputs resolve the artifacts that the plan declares for the task, and no others. -/
def CanonicalPlan.Provides (plan : CanonicalPlan) (task : TaskId) (inputs : ArtifactInputs) : Prop :=
  ∀ id, (inputs.get id).map Artifact.reference =
    (plan.taskInputs.find? fun input => input.consumer = task ∧ input.artifact.id = id).map TaskArtifactInput.artifact

/-- The request is what the plan declares for its task. -/
structure ModelCallDeclared (plan : WorkflowPlan) (request : ModelTaskRequest) (inputs : ArtifactInputs) : Prop where
  workflow : request.workflow = plan.workflow
  node : ∃ node ∈ plan.canonical.nodes, node.id = request.attempt.task ∧ node.kind = request.kind ∧
    node.modelPolicy = request.modelPolicy ∧ node.budget = request.budget
  inputs : plan.canonical.Provides request.attempt.task inputs

structure ValidationCallDeclared (plan : WorkflowPlan) (request : ValidationTaskRequest) (inputs : ArtifactInputs) :
    Prop where
  workflow : request.workflow = plan.workflow
  node : ∃ node ∈ plan.canonical.nodes, node.id = request.attempt.task ∧ node.kind = request.kind ∧
    node.modelPolicy = .deterministic ∧ node.budget = request.budget
  inputs : plan.canonical.Provides request.attempt.task inputs

/-- What is known of the ports, after some calls, is kept by the calls that a plan
declares. -/
structure PortsKeep (P : ModelTaskExecutor M) (Q : ValidationTaskExecutor V) (plan : WorkflowPlan)
    (J : List PortCall → M → V → Prop) : Prop where
  model : ∀ calls m v request inputs, J calls m v → ModelCallDeclared plan request inputs →
    J (calls ++ [⟨request.attempt, .of .text (P.executeModelTask m request inputs).1⟩])
      (P.executeModelTask m request inputs).2 v
  validator : ∀ calls m v request inputs, J calls m v → ValidationCallDeclared plan request inputs →
    J (calls ++ [⟨request.attempt, .of .report (Q.executeValidationTask v request inputs).1⟩]) m
      (Q.executeValidationTask v request inputs).2

/-- The ports have come to a state by calls that a plan declares, and answered them so. -/
inductive Answered (P : ModelTaskExecutor M) (Q : ValidationTaskExecutor V) (plan : WorkflowPlan) (model : M)
    (validator : V) : List PortCall → M → V → Prop
  | start : Answered P Q plan model validator [] model validator
  | modelTask {calls : List PortCall} {m : M} {v : V} {request : ModelTaskRequest} {inputs : ArtifactInputs}
      (h : Answered P Q plan model validator calls m v) (hdeclared : ModelCallDeclared plan request inputs) :
      Answered P Q plan model validator
        (calls ++ [⟨request.attempt, .of .text (P.executeModelTask m request inputs).1⟩])
        (P.executeModelTask m request inputs).2 v
  | validationTask {calls : List PortCall} {m : M} {v : V} {request : ValidationTaskRequest} {inputs : ArtifactInputs}
      (h : Answered P Q plan model validator calls m v) (hdeclared : ValidationCallDeclared plan request inputs) :
      Answered P Q plan model validator
        (calls ++ [⟨request.attempt, .of .report (Q.executeValidationTask v request inputs).1⟩]) m
        (Q.executeValidationTask v request inputs).2

theorem Answered.keep (P : ModelTaskExecutor M) (Q : ValidationTaskExecutor V) (plan : WorkflowPlan) (model : M)
    (validator : V) : PortsKeep P Q plan (Answered P Q plan model validator) :=
  ⟨fun _ _ _ _ _ => .modelTask, fun _ _ _ _ _ => .validationTask⟩

/-- Nothing has to be known of the ports. -/
theorem PortsKeep.trivial (P : ModelTaskExecutor M) (Q : ValidationTaskExecutor V) (plan : WorkflowPlan) :
    PortsKeep P Q plan fun _ _ _ => True :=
  ⟨fun _ _ _ _ _ _ _ => True.intro, fun _ _ _ _ _ _ _ => True.intro⟩

/-! ### The stages -/

section Stages

variable {P : ModelTaskExecutor M} {Q : ValidationTaskExecutor V} {plan : WorkflowPlan}
  {J : List PortCall → M → V → Prop} {base : CorrectiveWorkflowExecutor M V} {done : ℕ} {stage : StageTask}

/-- So many stages of the plan have ended. -/
def StagesDone (plan : WorkflowPlan) (J : List PortCall → M → V → Prop) (base : CorrectiveWorkflowExecutor M V)
    (done : ℕ) (made : WorkflowPayloads) (run : WorkflowRun M V) : Prop :=
  (∀ record ∈ (plan.records made).take done, record.Fits) ∧
    At plan.canonical.graph (J (portCalls ((plan.records made).take done))) base ((plan.records made).take done) [] done
      .default run

/-- What an execution of the plan runs in. -/
structure Prepared (plan : WorkflowPlan) (base : CorrectiveWorkflowExecutor M V) : Prop where
  pipeline : Pipeline plan.canonical.graph plan.stages
  room : Room base plan.stages
  specification : (base.artifacts.get plan.specification.id).map Artifact.reference = some plan.specification

theorem map_stage_records (plan : WorkflowPlan) (made : WorkflowPayloads) (done : ℕ) :
    ((plan.records made).take done).map (·.stage) = plan.stages.take done := List.map_take

theorem length_records (hstage : plan.stages[done]? = some stage) (made : WorkflowPayloads) :
    ((plan.records made).take done).length = done := by
  rw [List.length_take]
  exact min_eq_left (List.getElem?_eq_some_iff.mp hstage).1.le

theorem Prepared.place (h : Prepared plan base) (hstage : plan.stages[done]? = some stage) {made : WorkflowPayloads}
    (hfits : ∀ record ∈ (plan.records made).take done, record.Fits) :
    Place plan.canonical.graph base plan.stages ((plan.records made).take done) stage (plan.stages.drop (done + 1)) where
  pipeline := h.pipeline
  room := h.room
  stages := by
    obtain ⟨hlt, hget⟩ := List.getElem?_eq_some_iff.mp hstage
    rw [map_stage_records, ← hget, List.getElem_cons_drop, List.take_append_drop]
  fits := hfits

/-! ### Inputs -/

/-- What the plan declares for the stage: its specification, and outputs of earlier stages. -/
def InputsBefore (plan : WorkflowPlan) (done : ℕ) (stage : StageTask) : Prop :=
  let declared := (plan.canonical.taskInputs.filter fun input => input.consumer = stage.task).map
    TaskArtifactInput.artifact
  stage.inputArtifacts = declared.map ArtifactReference.id ∧
    ∀ reference ∈ declared, reference = plan.specification ∨ reference ∈ (plan.stages.take done).map StageTask.output

theorem Prepared.get_specification (h : Prepared plan base) {records : List StageRecord}
    {unfinished : List WorkflowEvent} {executor : CorrectiveWorkflowExecutor M V}
    (hrecords : ∀ record ∈ records, record.stage ∈ plan.stages) (hbooks : Books base records unfinished executor) :
    (executor.artifacts.get plan.specification.id).map Artifact.reference = some plan.specification := by
  have hfind : (records.find? fun record => record.stage.output.id = plan.specification.id) = none := by
    rw [List.find?_eq_none]
    intro record hrecord heq
    have hnone := h.room.fresh _ (hrecords record hrecord)
    have hsome := h.specification
    rw [of_decide_eq_true heq] at hnone
    rw [hnone] at hsome
    cases hsome
  rw [hbooks.get, hfind, Option.map_none, Option.none_or]
  exact h.specification

theorem Prepared.get_output (h : Prepared plan base) {made : WorkflowPayloads} {unfinished : List WorkflowEvent}
    {executor : CorrectiveWorkflowExecutor M V} (hbooks : Books base ((plan.records made).take done) unfinished executor)
    {record : StageRecord} (hrecord : record ∈ (plan.records made).take done) :
    executor.artifacts.get record.stage.output.id = some record.artifact := by
  have hmap : ((plan.records made).take done).map (fun record => record.stage.output.id) =
      (plan.stages.take done).map (·.output.id) := by
    rw [← map_stage_records plan made done, List.map_map]
    rfl
  have hdistinct : (((plan.records made).take done).map fun record => record.stage.output.id).Nodup := by
    rw [hmap, List.map_take]
    exact h.room.outputs.sublist (List.take_sublist ..)
  rw [hbooks.get, find?_of_mem hdistinct hrecord]
  rfl

/-- The store has all that the plan declares for the stage. -/
theorem Prepared.provides (h : Prepared plan base) (hinputs : InputsBefore plan done stage) {made : WorkflowPayloads}
    {unfinished : List WorkflowEvent} {executor : CorrectiveWorkflowExecutor M V}
    (hbooks : Books base ((plan.records made).take done) unfinished executor) :
    plan.canonical.Provides stage.task ⟨executor.artifacts, stage.inputArtifacts⟩ := by
  obtain ⟨hids, hdeclared⟩ := hinputs
  have hmem : ∀ record ∈ (plan.records made).take done, record.stage ∈ plan.stages := by
    intro record hrecord
    have hstage := List.mem_map_of_mem (f := StageRecord.stage) hrecord
    rw [map_stage_records] at hstage
    exact List.mem_of_mem_take hstage
  have hget : ∀ reference ∈ (plan.canonical.taskInputs.filter fun input => input.consumer = stage.task).map
      TaskArtifactInput.artifact, (executor.artifacts.get reference.id).map Artifact.reference = some reference := by
    intro reference hreference
    obtain rfl | houtput := hdeclared reference hreference
    · exact h.get_specification hmem hbooks
    · rw [← map_stage_records plan made done, List.map_map] at houtput
      obtain ⟨record, hrecord, rfl⟩ := List.mem_map.mp houtput
      show (executor.artifacts.get record.stage.output.id).map Artifact.reference = some record.stage.output
      rw [h.get_output hbooks hrecord]
      rfl
  intro id
  -- What is declared for the task, by the identity asked for.
  have hfind : (plan.canonical.taskInputs.find? fun input => input.consumer = stage.task ∧ input.artifact.id = id).map
      TaskArtifactInput.artifact = ((plan.canonical.taskInputs.filter fun input => input.consumer = stage.task).map
        TaskArtifactInput.artifact).find? fun reference => reference.id = id := by
    rw [List.find?_map, List.find?_filter]
    congr 2
    funext input
    simp
  rw [hfind, ArtifactInputs.get]
  dsimp only
  rw [hids]
  split_ifs with hid
  · obtain ⟨reference, hreference, rfl⟩ := List.mem_map.mp hid
    cases hcase : ((plan.canonical.taskInputs.filter fun input => input.consumer = stage.task).map
        TaskArtifactInput.artifact).find? fun other => other.id = reference.id with
    | none => simpa using List.find?_eq_none.mp hcase reference hreference
    | some other =>
      have hother : other.id = reference.id := by simpa using List.find?_some hcase
      rw [← hother]
      exact hget other (List.mem_of_find?_eq_some hcase)
  · symm
    rw [Option.map_none, List.find?_eq_none]
    intro reference hreference heq
    exact hid (List.mem_map.mpr ⟨reference, hreference, of_decide_eq_true heq⟩)

/-! ### Each stage -/

/-- A stage of the plan, as the ports are called for it. -/
structure Stands (plan : WorkflowPlan) (done : ℕ) (stage : StageTask) (kind : TaskKind) (policy : ModelPolicy) : Prop where
  place : plan.stages[done]? = some stage
  workflow : stage.workflow = plan.workflow
  node : ∃ node ∈ plan.canonical.nodes, node.id = stage.task ∧ node.kind = kind ∧ node.modelPolicy = policy ∧
    node.budget = stage.budget
  inputs : InputsBefore plan done stage

variable {kind : TaskKind} {policy : ModelPolicy}

/-- A record that comes after those of so many stages is the next one. -/
theorem getElem?_records (hstage : plan.stages[done]? = some stage) {made made' : WorkflowPayloads} {record : StageRecord}
    (h : (plan.records made').take (done + 1) = (plan.records made).take done ++ [record]) :
    (plan.records made').take done = (plan.records made).take done ∧ (plan.records made')[done]? = some record := by
  have hlength := length_records hstage made
  constructor
  · have htake := congrArg (List.take done) h
    rw [List.take_take, min_eq_left (Nat.le_succ _), List.take_append_of_le_length hlength.ge, List.take_take,
      min_self] at htake
    exact htake
  · have hget : ((plan.records made').take (done + 1))[done]? = some record := by
      rw [h, List.getElem?_append_right hlength.le, hlength, Nat.sub_self]
      rfl
    rwa [List.getElem?_take_of_lt (Nat.lt_succ_self _)] at hget

/-- The loop of a stage, over the records of the plan. -/
theorem runAttempts_done {ρ : Type} (h : Prepared plan base) (hstage : plan.stages[done]? = some stage)
    {answer : ρ → PortAnswer} {call : CorrectiveWorkflowExecutor M V → TaskAttempt → ArtifactInputs →
      Except String ρ × CorrectiveWorkflowExecutor M V} {makeContent : ρ → ArtifactContent}
    (hkind : ∀ value, (stage.output.kind, stage.output.role) = (makeContent value).kind.reference)
    (hanswer : ∀ value, (makeContent value).answer? = some (answer value))
    (hcall : ∀ made, CallKeeps J base ((plan.records made).take done) stage answer call)
    {R : ρ → WorkflowPayloads → Prop}
    (hnext : ∀ made diagnostics value, ∃ made', R value made' ∧ (plan.records made').take (done + 1) =
      (plan.records made).take done ++ [⟨stage, diagnostics, makeContent value⟩]) :
    Ensures (fun run => ∃ made, StagesDone plan J base done made run)
      (runAttempts plan.canonical.graph stage call makeContent)
      (fun value run => ∃ made, R value made ∧ StagesDone plan J base (done + 1) made run)
      fun e run => FailedIn plan J base e run.executor := by
  refine Ensures.of_exists fun made => Ensures.of_and fun hfits => ?_
  have hplace := h.place hstage hfits
  have hlength := length_records hstage made
  have hrule := runAttempts_records (portCalls ((plan.records made).take done)) hplace hkind hanswer (hcall made)
  rw [hlength] at hrule
  refine hrule.weaken (fun _ => id) ?_ ?_
  · rintro value run ⟨diagnostics, hrecord, hat⟩
    obtain ⟨made', hR, hrecords⟩ := hnext made diagnostics value
    refine ⟨made', hR, ?_, ?_⟩
    · rw [hrecords]
      intro record hmem
      obtain hmem | hmem := List.mem_append.mp hmem
      · exact hfits record hmem
      · rw [List.mem_singleton.mp hmem]
        exact hrecord
    · rw [hrecords, portCalls_append]
      exact hat
  · rintro e run ⟨diagnostics, output, houtput, hfailed⟩
    cases output with
    | error diagnostic => exact ⟨made, done, stage, diagnostics, .error diagnostic, ⟨hstage, nofun⟩, hfits, hfailed⟩
    | ok content =>
      -- The records with this payload are those so far and one that was not made.
      obtain ⟨value, rfl⟩ := houtput content rfl
      obtain ⟨made', -, hrecords⟩ := hnext made diagnostics value
      obtain ⟨htake, hget⟩ := getElem?_records hstage hrecords
      refine ⟨made', done, stage, diagnostics, .ok (makeContent value), ⟨hstage, ?_⟩, ?_, ?_⟩
      · rintro content heq
        rwa [← Except.ok.inj heq]
      · rw [htake]
        exact hfits
      · rw [htake]
        exact hfailed

theorem runModelStage_done (done : ℕ) (h : Prepared plan base) (hports : PortsKeep P Q plan J)
    (hstands : Stands plan done stage kind policy) {makeContent : String → ArtifactContent}
    (hkind : ∀ value, (stage.output.kind, stage.output.role) = (makeContent value).kind.reference)
    (hanswer : ∀ value, (makeContent value).answer? = some (.text value))
    (hnext : ∀ made diagnostics value, ∃ made', (plan.records made').take (done + 1) =
      (plan.records made).take done ++ [⟨stage, diagnostics, makeContent value⟩]) :
    Ensures (fun run => ∃ made, StagesDone plan J base done made run)
      (runModelStage P plan.canonical.graph stage kind policy makeContent)
      (fun _ run => ∃ made, StagesDone plan J base (done + 1) made run)
      fun e run => FailedIn plan J base e run.executor := by
  have hcall : ∀ made, CallKeeps J base ((plan.records made).take done) stage .text (callModel P stage kind policy) := by
    intro made failed calls executor hbooks hj
    have hdeclared : ModelCallDeclared plan
        ⟨stage.workflow, stage.attempt failed, kind, policy, stage.budget, stage.inputArtifacts⟩
        ⟨executor.artifacts, stage.inputArtifacts⟩ :=
      ⟨hstands.workflow, hstands.node, h.provides hstands.inputs hbooks⟩
    exact ⟨_, executor.validator, rfl, hports.model _ _ _ _ _ hj hdeclared⟩
  refine Ensures.bind (runAttempts_done h hstands.place hkind hanswer hcall (R := fun _ _ => True) ?_) fun _ => ?_
  · intro made diagnostics value
    obtain ⟨made', hrecords⟩ := hnext made diagnostics value
    exact ⟨made', trivial, hrecords⟩
  · exact Ensures.pure fun _ ⟨made, _, hdone⟩ => ⟨made, hdone⟩

theorem runValidationStage_done (done : ℕ) (h : Prepared plan base) (hports : PortsKeep P Q plan J)
    (hstands : Stands plan done stage kind .deterministic) {makeContent : ValidationReport → ArtifactContent}
    (hkind : ∀ value, (stage.output.kind, stage.output.role) = (makeContent value).kind.reference)
    (hanswer : ∀ report, (makeContent report).answer? = some (.report report))
    {R : ValidationVerdict → WorkflowPayloads → Prop}
    (hnext : ∀ made diagnostics report, ∃ made', R report.verdict made' ∧ (plan.records made').take (done + 1) =
      (plan.records made).take done ++ [⟨stage, diagnostics, makeContent report⟩]) :
    Ensures (fun run => ∃ made, StagesDone plan J base done made run)
      (runValidationStage Q plan.canonical.graph stage kind makeContent)
      (fun verdict run => ∃ made, R verdict made ∧ StagesDone plan J base (done + 1) made run)
      fun e run => FailedIn plan J base e run.executor := by
  have hcall : ∀ made, CallKeeps J base ((plan.records made).take done) stage .report (callValidator Q stage kind) := by
    intro made failed calls executor hbooks hj
    have hdeclared : ValidationCallDeclared plan
        ⟨stage.workflow, stage.attempt failed, kind, stage.budget, stage.inputArtifacts⟩
        ⟨executor.artifacts, stage.inputArtifacts⟩ :=
      ⟨hstands.workflow, hstands.node, h.provides hstands.inputs hbooks⟩
    exact ⟨executor.model, _, rfl, hports.validator _ _ _ _ _ hj hdeclared⟩
  exact Ensures.bind (runAttempts_done h hstands.place hkind hanswer hcall (R := fun report => R report.verdict) hnext)
    fun _ => Ensures.pure fun _ => id

end Stages

/-! ### All stages -/

section Numbered

variable (workflow task artifact : ℕ) (specification : ArtifactReference) (c : CorrectiveWorkflowConfiguration)

theorem inputsBefore_draft : InputsBefore (.numbered workflow task artifact specification c) 0
    (WorkflowPlan.numbered workflow task artifact specification c).draftStage := by
  simp [InputsBefore, WorkflowPlan.numbered, WorkflowPlan.canonical, CanonicalPlan.new, WorkflowPlan.draftStage]

theorem inputsBefore_initialValidation : InputsBefore (.numbered workflow task artifact specification c) 1
    (WorkflowPlan.numbered workflow task artifact specification c).initialValidationStage := by
  simp [InputsBefore, WorkflowPlan.numbered, WorkflowPlan.canonical, CanonicalPlan.new, WorkflowPlan.stages,
    WorkflowPlan.draftStage, WorkflowPlan.initialValidationStage]

theorem inputsBefore_review : InputsBefore (.numbered workflow task artifact specification c) 3
    (WorkflowPlan.numbered workflow task artifact specification c).reviewStage := by
  simp [InputsBefore, WorkflowPlan.numbered, WorkflowPlan.canonical, CanonicalPlan.new, WorkflowPlan.stages,
    WorkflowPlan.draftStage, WorkflowPlan.initialValidationStage, WorkflowPlan.normalizationStage,
    WorkflowPlan.reviewStage]

theorem inputsBefore_revise : InputsBefore (.numbered workflow task artifact specification c) 4
    (WorkflowPlan.numbered workflow task artifact specification c).reviseStage := by
  simp [InputsBefore, WorkflowPlan.numbered, WorkflowPlan.canonical, CanonicalPlan.new, WorkflowPlan.stages,
    WorkflowPlan.draftStage, WorkflowPlan.initialValidationStage, WorkflowPlan.normalizationStage,
    WorkflowPlan.reviewStage, WorkflowPlan.reviseStage]

theorem inputsBefore_finalValidation : InputsBefore (.numbered workflow task artifact specification c) 5
    (WorkflowPlan.numbered workflow task artifact specification c).finalValidationStage := by
  simp [InputsBefore, WorkflowPlan.numbered, WorkflowPlan.canonical, CanonicalPlan.new, WorkflowPlan.stages,
    WorkflowPlan.draftStage, WorkflowPlan.initialValidationStage, WorkflowPlan.normalizationStage,
    WorkflowPlan.reviewStage, WorkflowPlan.reviseStage, WorkflowPlan.finalValidationStage]

variable {workflow task artifact specification c} {P : ModelTaskExecutor M} {Q : ValidationTaskExecutor V}
  {J : List PortCall → M → V → Prop} {base : CorrectiveWorkflowExecutor M V}

/-- The normalization, over the records of the plan. -/
theorem runNormalizationStage_done (h : Prepared (.numbered workflow task artifact specification c) base) :
    let plan := WorkflowPlan.numbered workflow task artifact specification c
    Ensures (fun run => ∃ made, StagesDone plan J base 2 made run)
      (runNormalizationStage plan.canonical.graph plan.normalizationStage plan.artifacts.rawValidation.id)
      (fun _ run => ∃ made, StagesDone plan J base 3 made run)
      fun e run => FailedIn plan J base e run.executor := by
  intro plan
  have hstage : plan.stages[2]? = some plan.normalizationStage := rfl
  refine Ensures.of_exists fun made => Ensures.of_and fun hfits => ?_
  have hread : (((plan.records made).take 2).find? fun record =>
      record.stage.output.id = plan.artifacts.rawValidation.id).map StageRecord.content =
        some (.rawValidation made.rawValidation.2) := by
    simp [plan, WorkflowPlan.records, WorkflowPlan.numbered, WorkflowPlan.draftStage,
      WorkflowPlan.initialValidationStage]
  have hrule := runNormalizationStage_records (J := J (portCalls ((plan.records made).take 2)))
    (h.place hstage hfits) rfl hread
  -- The normalization calls no port.
  have hnone : plan.normalizationStage.calls []
      (.ok (.normalizedDiagnostics (normalizeValidationReport made.rawValidation.2))) = [] := rfl
  refine hrule.weaken (fun _ => id) ?_ ?_
  · rintro _ run ⟨hrecord, hat⟩
    have htake : (plan.records made).take 3 = (plan.records made).take 2 ++ [⟨plan.normalizationStage, [],
        .normalizedDiagnostics (normalizeValidationReport made.rawValidation.2)⟩] := rfl
    have hcalls : portCalls ((plan.records made).take 3) = portCalls ((plan.records made).take 2) := by
      rw [htake, portCalls_append]
      exact List.append_nil _
    rw [← hcalls] at hat
    refine ⟨made, fun record hmem => ?_, hat⟩
    rw [htake] at hmem
    obtain hmem | hmem := List.mem_append.mp hmem
    · exact hfits record hmem
    · rw [List.mem_singleton.mp hmem]
      exact hrecord
  · intro e run hfailed
    rw [← List.append_nil (portCalls _), ← hnone] at hfailed
    refine ⟨made, 2, plan.normalizationStage, [], _, ⟨hstage, fun content heq => ?_⟩, hfits, hfailed⟩
    rw [← Except.ok.inj heq]
    rfl

/-- The stages complete with all records, or one of them fails. -/
theorem runStages_records (h : Prepared (.numbered workflow task artifact specification c) base)
    (hports : PortsKeep P Q (.numbered workflow task artifact specification c) J) (made : WorkflowPayloads) :
    let plan := WorkflowPlan.numbered workflow task artifact specification c
    Ensures (At plan.canonical.graph (J []) base [] [] 0 .default) (runStages P Q plan)
      (fun outcome run => ∃ made, Completed plan J base made outcome run.executor)
      fun e run => FailedIn plan J base e run.executor := by
  intro plan
  have hnode : ∀ (i : ℕ) (node : TaskNode), plan.canonical.nodes[i]? = some node → node ∈ plan.canonical.nodes :=
    fun i node hget => List.mem_of_getElem? hget
  have hstart : ∀ run, At plan.canonical.graph (J []) base [] [] 0 .default run →
      ∃ made, StagesDone plan J base 0 made run :=
    fun run hat => ⟨made, fun _ hmem => absurd hmem List.not_mem_nil, hat⟩
  refine Ensures.of_pre ?_ hstart
  refine Ensures.bind (runModelStage_done 0 h hports ⟨rfl, rfl, ⟨_, hnode 0 _ rfl, rfl, rfl, rfl, rfl⟩,
    inputsBefore_draft ..⟩ (fun _ => rfl) (fun _ => rfl) fun made diagnostics value =>
      ⟨{ made with draft := (diagnostics, value) }, rfl⟩) fun _ => ?_
  refine Ensures.bind (runValidationStage_done 1 h hports (R := fun _ _ => True) ⟨rfl, rfl,
    ⟨_, hnode 1 _ rfl, rfl, rfl, rfl, rfl⟩, inputsBefore_initialValidation ..⟩ (fun _ => rfl) (fun _ => rfl)
      fun made diagnostics report => ⟨{ made with rawValidation := (diagnostics, report) }, trivial, rfl⟩) fun _ => ?_
  refine Ensures.bind ((runNormalizationStage_done h).of_pre fun run ⟨made, _, hdone⟩ => ⟨made, hdone⟩) fun _ => ?_
  refine Ensures.bind (runModelStage_done 3 h hports ⟨rfl, rfl, ⟨_, hnode 3 _ rfl, rfl, rfl, rfl, rfl⟩,
    inputsBefore_review ..⟩ (fun _ => rfl) (fun _ => rfl) fun made diagnostics value =>
      ⟨{ made with review := (diagnostics, value) }, rfl⟩) fun _ => ?_
  refine Ensures.bind (runModelStage_done 4 h hports ⟨rfl, rfl, ⟨_, hnode 4 _ rfl, rfl, rfl, rfl, rfl⟩,
    inputsBefore_revise ..⟩ (fun _ => rfl) (fun _ => rfl) fun made diagnostics value =>
      ⟨{ made with revision := (diagnostics, value) }, rfl⟩) fun _ => ?_
  refine Ensures.bind (runValidationStage_done 5 h hports
    (R := fun verdict made => verdict = made.finalValidation.2.verdict) ⟨rfl, rfl,
    ⟨_, hnode 5 _ rfl, rfl, rfl, rfl, rfl⟩, inputsBefore_finalValidation ..⟩ (fun _ => rfl) (fun _ => rfl)
      fun made diagnostics report => ⟨{ made with finalValidation := (diagnostics, report) }, rfl, rfl⟩) fun verdict => ?_
  -- The completion.
  refine Ensures.bind (Q := fun _ run => ∃ made, Completed plan J base made (plan.outcome verdict) run.executor) ?_
    fun _ => Ensures.pure fun _ => id
  refine onExecutor_ensures fun table => enqueueEvent_ensures ?_ ?_
  · rintro executor ⟨made, hverdict, hfits, hat⟩ _
    exact ⟨made, hfits, hat.books.withEvent _, congrArg plan.outcome hverdict, hat.ports⟩
  · rintro executor ⟨made, -, hfits, hat⟩ hzero
    have hstages : plan.stages = (plan.records made).map (·.stage) := rfl
    exact absurd hzero (h.room.completion hstages hfits hat.books)

end Numbered

/-! ### Admission -/

theorem checkedMul_eq_some {max a b c : ℕ} : checkedMul max a b = some c ↔ a * b = c ∧ c ≤ max := by
  unfold checkedMul
  split_ifs with h
  · rw [Option.some.injEq]
    exact ⟨fun heq => ⟨heq, heq ▸ h⟩, And.left⟩
  · simp only [false_iff, not_and]
    rintro rfl
    exact h

/-- What an accepted configuration and an admitted executor leave room for. -/
theorem admitExecution_room {executor : CorrectiveWorkflowExecutor M V} {c : CorrectiveWorkflowConfiguration} {u : Unit}
    (h : executor.admitExecution c = .ok u) :
    executor.artifacts.artifacts.size + 6 ≤ executor.artifacts.maximumArtifacts ∧
      executor.events.length + 2 * (3 * c.modelBudget.maximumAttempts.get + 2 * c.validationBudget.maximumAttempts.get + 1)
        < executor.limits.pendingEvents := by
  simp only [admitExecution, requiredEventCapacity, retryableTaskEventCapacity, Except.bind_eq_ok, Except.failIf_eq_ok,
    Except.okOr_eq_ok, Option.bind_eq_some_iff, checkedMul_eq_some, checkedAdd_eq_some, exists_const,
    ArtifactStore.remainingCapacity_eq, remainingEventCapacity_eq, workflowOutputCount, taskCount, modelTaskCount,
    validationTaskCount, eventsPerRetryableAttempt, normalizationEventCount, completionEventCount] at h
  obtain ⟨hartifacts, required, ⟨modelEvents, ⟨_, ⟨rfl, -⟩, rfl, -⟩, validationEvents, ⟨_, ⟨rfl, -⟩, rfl, -⟩, _, ⟨rfl, -⟩, _,
    ⟨rfl, -⟩, rfl, -⟩, hevents⟩ := h
  omega

/-- Every artifact is stored under its own identity, which has been given out. -/
def CorrectiveWorkflowExecutor.Sane (executor : CorrectiveWorkflowExecutor M V) : Prop :=
  ∀ id artifact, executor.artifacts.get id = some artifact →
    artifact.reference.id = id ∧ id < executor.nextArtifactId

/-- The executor once the identities of an execution are given out. -/
def CorrectiveWorkflowExecutor.reserved (executor : CorrectiveWorkflowExecutor M V) : CorrectiveWorkflowExecutor M V :=
  { executor with
    nextWorkflowId := executor.nextWorkflowId + 1
    nextTaskId := executor.nextTaskId + 6
    nextArtifactId := executor.nextArtifactId + 6 }

/-- The plan that an execution would have. -/
def CorrectiveWorkflowExecutor.planned (executor : CorrectiveWorkflowExecutor M V) (specification : ArtifactReference)
    (c : CorrectiveWorkflowConfiguration) : WorkflowPlan :=
  .numbered executor.nextWorkflowId executor.nextTaskId executor.nextArtifactId specification c

/-- Identities have run out: the executor is as before, but for those given out. -/
def RanOut (base : CorrectiveWorkflowExecutor M V) (e : WorkflowError) (executor : CorrectiveWorkflowExecutor M V) :
    Prop :=
  ∃ kind workflow task artifact, e = .identifierExhausted kind ∧ base.nextArtifactId ≤ artifact ∧
    executor = { base with nextWorkflowId := workflow, nextTaskId := task, nextArtifactId := artifact }

section Reservation

variable (base : CorrectiveWorkflowExecutor M V)

/-- The executor with other identities to give out. -/
def CorrectiveWorkflowExecutor.withIds (base : CorrectiveWorkflowExecutor M V) (workflow task artifact : ℕ) :
    CorrectiveWorkflowExecutor M V :=
  { base with nextWorkflowId := workflow, nextTaskId := task, nextArtifactId := artifact }

theorem allocateWorkflowId_at (workflow task artifact : ℕ) (hle : base.nextArtifactId ≤ artifact) :
    Ensures (· = base.withIds workflow task artifact) allocateWorkflowId
      (fun id executor => id = workflow ∧ executor = base.withIds (workflow + 1) task artifact) (RanOut base) := by
  refine allocateId_ensures (·.nextWorkflowId) (fun next executor => { executor with nextWorkflowId := next }) .workflow
    id ?_ ?_
  · rintro _ rfl -
    exact ⟨rfl, rfl⟩
  · rintro _ rfl -
    exact ⟨.workflow, workflow, task, artifact, rfl, hle, rfl⟩

theorem allocateTaskId_at (workflow task artifact : ℕ) (hle : base.nextArtifactId ≤ artifact) :
    Ensures (· = base.withIds workflow task artifact) allocateTaskId
      (fun id executor => id = task ∧ executor = base.withIds workflow (task + 1) artifact) (RanOut base) := by
  refine allocateId_ensures (·.nextTaskId) (fun next executor => { executor with nextTaskId := next }) .task id ?_ ?_
  · rintro _ rfl -
    exact ⟨rfl, rfl⟩
  · rintro _ rfl -
    exact ⟨.task, workflow, task, artifact, rfl, hle, rfl⟩

theorem allocateArtifactId_at (workflow task artifact : ℕ) (hle : base.nextArtifactId ≤ artifact) :
    Ensures (· = base.withIds workflow task artifact) allocateArtifactId
      (fun id executor => id = artifact ∧ executor = base.withIds workflow task (artifact + 1)) (RanOut base) := by
  refine allocateId_ensures (·.nextArtifactId) (fun next executor => { executor with nextArtifactId := next }) .artifact
    id ?_ ?_
  · rintro _ rfl -
    exact ⟨rfl, rfl⟩
  · rintro _ rfl -
    exact ⟨.artifact, workflow, task, artifact, rfl, hle, rfl⟩

theorem reserveTaskIds_at (workflow task artifact : ℕ) (hle : base.nextArtifactId ≤ artifact) :
    Ensures (· = base.withIds workflow task artifact) reserveTaskIds
      (fun ids executor => ids = ⟨task, task + 1, task + 2, task + 3, task + 4, task + 5⟩ ∧
        executor = base.withIds workflow (task + 6) artifact) (RanOut base) := by
  refine Ensures.bind (allocateTaskId_at _ _ _ _ hle) fun draft => Ensures.of_and fun hdraft => ?_
  refine Ensures.bind (allocateTaskId_at _ _ _ _ hle) fun initialValidation => Ensures.of_and fun hinitialValidation => ?_
  refine Ensures.bind (allocateTaskId_at _ _ _ _ hle) fun normalize => Ensures.of_and fun hnormalize => ?_
  refine Ensures.bind (allocateTaskId_at _ _ _ _ hle) fun review => Ensures.of_and fun hreview => ?_
  refine Ensures.bind (allocateTaskId_at _ _ _ _ hle) fun revise => Ensures.of_and fun hrevise => ?_
  refine Ensures.bind (allocateTaskId_at _ _ _ _ hle) fun finalValidation => Ensures.of_and fun hfinalValidation => ?_
  subst hdraft hinitialValidation hnormalize hreview hrevise hfinalValidation
  exact Ensures.pure fun _ hexecutor => ⟨rfl, hexecutor⟩

theorem reserveOutputReferences_at (workflow task artifact : ℕ) (hle : base.nextArtifactId ≤ artifact) :
    Ensures (· = base.withIds workflow task artifact) reserveOutputReferences
      (fun references executor => references = ⟨⟨artifact, .text, .draft⟩, ⟨artifact + 1, .diagnostics, .rawDiagnostics⟩,
        ⟨artifact + 2, .diagnostics, .normalizedDiagnostics⟩, ⟨artifact + 3, .text, .review⟩,
        ⟨artifact + 4, .text, .revision⟩, ⟨artifact + 5, .diagnostics, .finalValidation⟩⟩ ∧
        executor = base.withIds workflow task (artifact + 6)) (RanOut base) := by
  have hnext : ∀ n, base.nextArtifactId ≤ artifact + n := fun n => hle.trans (Nat.le_add_right _ _)
  refine Ensures.bind (allocateArtifactId_at _ _ _ _ hle) fun draft => Ensures.of_and fun hdraft => ?_
  refine Ensures.bind (allocateArtifactId_at _ _ _ _ (hnext 1)) fun rawValidation => Ensures.of_and fun hrawValidation => ?_
  refine Ensures.bind (allocateArtifactId_at _ _ _ _ (hnext 2)) fun normalizedDiagnostics =>
    Ensures.of_and fun hnormalized => ?_
  refine Ensures.bind (allocateArtifactId_at _ _ _ _ (hnext 3)) fun review => Ensures.of_and fun hreview => ?_
  refine Ensures.bind (allocateArtifactId_at _ _ _ _ (hnext 4)) fun revision => Ensures.of_and fun hrevision => ?_
  refine Ensures.bind (allocateArtifactId_at _ _ _ _ (hnext 5)) fun finalValidation =>
    Ensures.of_and fun hfinalValidation => ?_
  subst hdraft hrawValidation hnormalized hreview hrevision hfinalValidation
  exact Ensures.pure fun _ hexecutor => ⟨rfl, hexecutor⟩

/-- The identities of an execution are the next ones of each sequence. -/
theorem reserveExecution_at (specification : ArtifactReference) (c : CorrectiveWorkflowConfiguration) :
    Ensures (· = base) (reserveExecution specification c)
      (fun plan executor => plan = base.planned specification c ∧ executor = base.reserved) (RanOut base) := by
  refine Ensures.bind (allocateWorkflowId_at base base.nextWorkflowId base.nextTaskId base.nextArtifactId
    le_rfl) fun workflow => Ensures.of_and fun hworkflow => ?_
  refine Ensures.bind (reserveTaskIds_at _ _ _ _ le_rfl) fun tasks => Ensures.of_and fun htasks => ?_
  refine Ensures.bind (reserveOutputReferences_at _ _ _ _ le_rfl) fun artifacts => Ensures.of_and fun hartifacts => ?_
  subst hworkflow htasks hartifacts
  exact Ensures.pure fun _ hexecutor => ⟨rfl, hexecutor⟩

end Reservation

/-! ### A whole execution -/

section Execution

variable {P : ModelTaskExecutor M} {Q : ValidationTaskExecutor V} {J : List PortCall → M → V → Prop}
  {base executor : CorrectiveWorkflowExecutor M V} {c : CorrectiveWorkflowConfiguration} {specificationId : ArtifactId}
  {specification : ArtifactReference}

theorem requireSpecification_ok (h : requireSpecification specificationId base = .ok specification) :
    ∃ artifact, base.artifacts.get specificationId = some artifact ∧ artifact.reference = specification := by
  simp only [requireSpecification, Except.bind_eq_ok, Except.okOr_eq_ok, Except.failIf_eq_ok, Except.pure_eq_ok] at h
  obtain ⟨artifact, hget, -, -, rfl⟩ := h
  exact ⟨artifact, hget, rfl⟩

/-- The specification was given out before the identities of the execution. -/
theorem specification_lt (hsane : base.Sane) (h : requireSpecification specificationId base = .ok specification) :
    (base.artifacts.get specification.id).map Artifact.reference = some specification ∧
      specification.id < base.nextArtifactId := by
  obtain ⟨artifact, hget, rfl⟩ := requireSpecification_ok h
  obtain ⟨hid, hlt⟩ := hsane _ _ hget
  rw [hid, hget]
  exact ⟨rfl, hlt⟩

/-- An execution that is admitted is prepared. -/
theorem prepared (hsane : base.Sane) (hadmitted : base.admitExecution c = .ok ())
    (hspecification : requireSpecification specificationId base = .ok specification) :
    Prepared (base.planned specification c) base.reserved where
  pipeline := numbered_pipeline ..
  room := by
    obtain ⟨hartifacts, hevents⟩ := admitExecution_room hadmitted
    have hids : (base.planned specification c).stages.map (·.output.id) = List.range' base.nextArtifactId 6 := rfl
    have hsum : ((base.planned specification c).stages.map fun stage => 2 * stage.budget.maximumAttempts.get).sum =
        2 * (3 * c.modelBudget.maximumAttempts.get + 2 * c.validationBudget.maximumAttempts.get + 1) := by
      show 2 * c.modelBudget.maximumAttempts.get + (2 * c.validationBudget.maximumAttempts.get + (2 * 1 +
        (2 * c.modelBudget.maximumAttempts.get + (2 * c.modelBudget.maximumAttempts.get +
          (2 * c.validationBudget.maximumAttempts.get + 0))))) = _
      ring
    refine ⟨?_, fun stage hstage => ?_, hartifacts, ?_⟩
    · rw [hids]
      exact List.nodup_range'
    · have hmem := List.mem_map_of_mem (f := fun stage : StageTask => stage.output.id) hstage
      rw [hids, List.mem_range'_1] at hmem
      cases hget : base.reserved.artifacts.get stage.output.id with
      | none => rfl
      | some artifact => exact absurd (hsane _ _ hget).2 (not_lt.mpr hmem.1)
    · rw [hsum]
      exact hevents
  specification := (specification_lt hsane hspecification).1

theorem checkExecution_ok (h : checkExecution specificationId c base = .ok specification) :
    requireSpecification specificationId base = .ok specification ∧ base.admitExecution c = .ok () := by
  simp only [checkExecution, Except.bind_eq_ok, Except.pure_eq_ok] at h
  obtain ⟨_, -, _, hrequire, _, hadmitted, rfl⟩ := h
  exact ⟨hrequire, hadmitted⟩

/-- The plan of an execution is valid, and its stages run on a table of their own. -/
theorem executePlan_ensures (hsane : base.Sane) (hj : J [] base.model base.validator)
    (hcheck : checkExecution specificationId c base = .ok specification)
    (hports : PortsKeep P Q (base.planned specification c) J) :
    Ensures (· = base.reserved) (executePlan P Q (base.planned specification c))
      (fun outcome executor => ∃ made, Completed (base.planned specification c) J base.reserved made outcome executor)
      fun e executor => FailedIn (base.planned specification c) J base.reserved e executor := by
  obtain ⟨hrequire, hadmitted⟩ := checkExecution_ok hcheck
  have hvalid : validatePlan (base.planned specification c).canonical = .ok ⟨List.replicate taskCount .default⟩ :=
    numbered_valid _ _ _ _ _ (specification_lt hsane hrequire).2
  have hrun := runStages_records (prepared hsane hadmitted hrequire) hports
    ⟨([], ""), ([], ⟨.passed, []⟩), ([], ""), ([], ""), ([], ⟨.passed, []⟩)⟩
  have hstart : At (base.planned specification c).canonical.graph (J []) base.reserved [] [] 0 .default
      ⟨base.reserved, ⟨List.replicate taskCount .default⟩⟩ :=
    ⟨Books.refl _, Progress.initial _, hj⟩
  refine Ensures.bind (Q := fun table executor => table = ⟨List.replicate taskCount .default⟩ ∧
    executor = base.reserved) ?_ fun table => Ensures.of_and fun htable => ?_
  · refine Ensures.check ?_ ?_
    · rintro _ table rfl hcheck
      rw [hvalid] at hcheck
      exact ⟨(Except.ok.inj hcheck).symm, rfl⟩
    · rintro _ e rfl hcheck
      rw [hvalid] at hcheck
      cases hcheck
  subst htable
  constructor
  · rintro _ outcome executor rfl hexecute
    rcases hstages : runStages P Q (base.planned specification c)
      ⟨base.reserved, ⟨List.replicate taskCount .default⟩⟩ with ⟨result, run⟩
    simp only [hstages] at hexecute
    obtain ⟨rfl, rfl⟩ := Prod.mk.inj hexecute
    exact hrun.ok hstart hstages
  · rintro _ e executor rfl hexecute
    rcases hstages : runStages P Q (base.planned specification c)
      ⟨base.reserved, ⟨List.replicate taskCount .default⟩⟩ with ⟨result, run⟩
    simp only [hstages] at hexecute
    obtain ⟨rfl, rfl⟩ := Prod.mk.inj hexecute
    exact hrun.error hstart hstages

/-- How an execution ends, with what its ports keep. -/
theorem execute_ensures (specificationId : ArtifactId) (c : CorrectiveWorkflowConfiguration) (hsane : base.Sane)
    (hj : J [] base.model base.validator) (hports : ∀ specification,
      checkExecution specificationId c base = .ok specification → PortsKeep P Q (base.planned specification c) J) :
    Ensures (· = base) (execute P Q specificationId c)
      (fun outcome executor => ∃ specification made, checkExecution specificationId c base = .ok specification ∧
        Completed (base.planned specification c) J base.reserved made outcome executor)
      fun e executor => (checkExecution specificationId c base = .error e ∧ executor = base) ∨
        ∃ specification, checkExecution specificationId c base = .ok specification ∧
          (RanOut base e executor ∨ FailedIn (base.planned specification c) J base.reserved e executor) := by
  refine Ensures.bind (Q := fun specification executor => checkExecution specificationId c base = .ok specification ∧
    executor = base) ?_ fun specification => ?_
  · refine Ensures.check ?_ ?_
    · rintro _ specification rfl hcheck
      exact ⟨hcheck, rfl⟩
    · rintro _ e rfl hcheck
      exact Or.inl ⟨hcheck, rfl⟩
  refine Ensures.of_and fun hcheck => ?_
  refine Ensures.bind ((reserveExecution_at base specification c).weaken (fun _ => id) (fun _ _ => id)
    fun e executor hran => Or.inr ⟨specification, hcheck, Or.inl hran⟩) fun plan => ?_
  refine Ensures.of_and fun hplan => ?_
  subst hplan
  exact (executePlan_ensures hsane hj hcheck (hports specification hcheck)).weaken (fun _ => id)
    (fun _ _ ⟨made, hcompleted⟩ => ⟨specification, made, hcheck, hcompleted⟩)
    fun _ _ hfailed => Or.inr ⟨specification, hcheck, Or.inr hfailed⟩

/-! ### Identities of the store -/

theorem Books.sane {records : List StageRecord} {unfinished : List WorkflowEvent} (hsane : base.Sane)
    (hids : ∀ record ∈ records, base.nextArtifactId ≤ record.stage.output.id ∧
      record.stage.output.id < base.nextArtifactId + 6)
    (h : Books base.reserved records unfinished executor) : executor.Sane := by
  intro id artifact hget
  rw [h.get, Option.or_eq_some_iff] at hget
  rw [h.identities.2.2]
  obtain hget | ⟨-, hget⟩ := hget
  · obtain ⟨record, hfind, rfl⟩ := Option.map_eq_some_iff.mp hget
    have hid : record.stage.output.id = id := by simpa using List.find?_some hfind
    exact ⟨hid, hid ▸ (hids record (List.mem_of_find?_eq_some hfind)).2⟩
  · obtain ⟨hid, hlt⟩ := hsane id artifact hget
    exact ⟨hid, Nat.lt_add_right 6 hlt⟩

theorem records_ids (made : WorkflowPayloads) (done : ℕ) :
    ∀ record ∈ ((base.planned specification c).records made).take done,
      base.nextArtifactId ≤ record.stage.output.id ∧ record.stage.output.id < base.nextArtifactId + 6 := by
  intro record hrecord
  have hids : ((base.planned specification c).records made).map (fun record => record.stage.output.id) =
      List.range' base.nextArtifactId 6 := rfl
  have hmem := List.mem_map_of_mem (f := fun record : StageRecord => record.stage.output.id)
    (List.mem_of_mem_take hrecord)
  rw [hids, List.mem_range'_1] at hmem
  exact hmem

theorem execute_sane (P : ModelTaskExecutor M) (Q : ValidationTaskExecutor V) (hsane : base.Sane) :
    (execute P Q specificationId c base).2.Sane := by
  have hends := execute_ensures specificationId c hsane trivial fun _ _ => PortsKeep.trivial P Q _
  rcases hexecute : execute P Q specificationId c base with ⟨result, executor⟩
  cases result with
  | ok outcome =>
    obtain ⟨specification, made, -, hcompleted⟩ := hends.ok rfl hexecute
    exact hcompleted.books.sane hsane (records_ids made 6)
  | error e =>
    obtain ⟨-, rfl⟩ | ⟨specification, -, ⟨kind, workflow, task, artifact, -, hle, rfl⟩ | hfailed⟩ :=
      hends.error rfl hexecute
    · exact hsane
    · exact fun id artifact hget => ⟨(hsane id artifact hget).1, (hsane id artifact hget).2.trans_le hle⟩
    · obtain ⟨made, done, stage, diagnostics, output, -, -, hfailed⟩ := hfailed
      exact hfailed.books.sane hsane (records_ids made done)

theorem insertSpecification_sane (specification : String) (hsane : base.Sane) :
    (insertSpecification specification base).2.Sane := by
  have hends : Ensures (· = base) (insertSpecification specification) (fun _ executor => executor.Sane)
      fun _ executor => executor.Sane := by
    refine Ensures.bind (Q := fun _ executor => executor = base) (Ensures.check (fun _ _ h _ => h) ?_) fun _ => ?_
    · rintro _ e rfl -
      exact hsane
    have hallocate := allocateArtifactId_at base base.nextWorkflowId base.nextTaskId base.nextArtifactId le_rfl
    refine Ensures.bind (hallocate.weaken (fun _ => id) (fun _ _ => id) ?_) fun id => Ensures.of_and fun hid => ?_
    · rintro e executor ⟨kind, workflow, task, artifact, -, hle, rfl⟩
      exact fun id artifact hget => ⟨(hsane id artifact hget).1, (hsane id artifact hget).2.trans_le hle⟩
    subst hid
    have hlater : (base.withIds base.nextWorkflowId base.nextTaskId (base.nextArtifactId + 1)).Sane :=
      fun id artifact hget => ⟨(hsane id artifact hget).1, (hsane id artifact hget).2.trans (Nat.lt_succ_self _)⟩
    refine Ensures.bind (Q := fun _ executor => executor.Sane) ?_ fun _ => Ensures.pure fun _ h => h
    refine insertArtifact_ensures ?_ ?_
    · rintro _ rfl - - - id artifact hget
      rw [get_withArtifact] at hget
      split_ifs at hget with hid
      · obtain rfl := Option.some.inj hget
        exact ⟨hid.symm, hid ▸ Nat.lt_succ_self _⟩
      · exact hlater id artifact hget
    · rintro _ e rfl -
      exact hlater
  exact hends.after rfl

end Execution

/-! ### Runs of an executor -/

/-- A call of the executor's owner. -/
inductive WorkflowCall where
  | insertSpecification (specification : String)
  | execute (specificationId : ArtifactId) (c : CorrectiveWorkflowConfiguration)
  | pollEvent
deriving DecidableEq

section Runs

variable (P : ModelTaskExecutor M) (Q : ValidationTaskExecutor V)

def WorkflowCall.apply (executor : CorrectiveWorkflowExecutor M V) : WorkflowCall → CorrectiveWorkflowExecutor M V
  | .insertSpecification specification => (CorrectiveWorkflowExecutor.insertSpecification specification executor).2
  | .execute specificationId c => (CorrectiveWorkflowExecutor.execute P Q specificationId c executor).2
  | .pollEvent => executor.pollEvent.2

def runCalls : List WorkflowCall → CorrectiveWorkflowExecutor M V → CorrectiveWorkflowExecutor M V
  | [], executor => executor
  | call :: calls, executor => runCalls calls (call.apply P Q executor)

/-- The executors that a new one becomes. -/
def WorkflowReaches (executor : CorrectiveWorkflowExecutor M V) : Prop :=
  ∃ model validator limits calls, runCalls P Q calls (.new model validator limits) = executor

variable {P Q} {executor : CorrectiveWorkflowExecutor M V}

theorem runCalls_append (calls calls' : List WorkflowCall) (executor : CorrectiveWorkflowExecutor M V) :
    runCalls P Q (calls ++ calls') executor = runCalls P Q calls' (runCalls P Q calls executor) := by
  induction calls generalizing executor with
  | nil => rfl
  | cons call calls ih => exact ih _

theorem sane_new (model : M) (validator : V) (limits : WorkflowExecutorLimits) :
    (CorrectiveWorkflowExecutor.new model validator limits).Sane :=
  fun _ _ hget => by cases hget

theorem WorkflowCall.apply_sane (call : WorkflowCall) (hsane : executor.Sane) : (call.apply P Q executor).Sane := by
  cases call with
  | insertSpecification specification => exact insertSpecification_sane specification hsane
  | execute specificationId c => exact execute_sane P Q hsane
  | pollEvent => exact hsane

theorem runCalls_sane (calls : List WorkflowCall) (hsane : executor.Sane) : (runCalls P Q calls executor).Sane := by
  induction calls generalizing executor with
  | nil => exact hsane
  | cons call calls ih => exact ih (call.apply_sane hsane)

theorem WorkflowReaches.sane (h : WorkflowReaches P Q executor) : executor.Sane := by
  obtain ⟨model, validator, limits, calls, rfl⟩ := h
  exact runCalls_sane calls (sane_new _ _ _)

end Runs

end LlmApp
