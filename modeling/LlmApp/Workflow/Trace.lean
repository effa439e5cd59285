/-
# The trace of an execution

What the stages of a pipeline leave in the executor. A stage that has ended is a
`StageRecord`: the diagnostics of its failed attempts, and the payload it committed.
The records of the stages so far give the events, the store and the calls of the
ports exactly (`Books`, `StageRecord.calls`), and with `Room` for all of them no
event, artifact or table operation is refused: a stage ends with one more record,
or fails for what a port has answered (`runAttempts_records`,
`runNormalizationStage_records`).

Key definitions: `PortCall`, `StageRecord`, `Books`, `Room`, `At`, `StageFailure`.
Key theorems: `startAttempt_at`, `commitOutput_at`, `runAttempts_records`,
`runNormalizationStage_records`.
-/
import LlmApp.Workflow.Pipeline
import LlmApp.Workflow.Stages

namespace LlmApp

open CorrectiveWorkflowExecutor

/-! ### Calls of the ports -/

/-- What a port answered. -/
inductive PortAnswer where
  | text (text : String)
  | report (report : ValidationReport)
  | failure (diagnostic : String)
deriving DecidableEq, Repr

/-- A call of a port for an attempt. -/
structure PortCall where
  attempt : TaskAttempt
  answer : PortAnswer
deriving DecidableEq, Repr

/-- What a port returned, as an answer. -/
def PortAnswer.of {ρ : Type} (answer : ρ → PortAnswer) : Except String ρ → PortAnswer
  | .ok value => answer value
  | .error diagnostic => .failure diagnostic

/-- The answer that a payload is. The normal form of a report is no answer. -/
def ArtifactContent.answer? : ArtifactContent → Option PortAnswer
  | .draft text | .review text | .revision text => some (.text text)
  | .rawValidation report | .finalValidation report => some (.report report)
  | .specification _ | .normalizedDiagnostics _ => none

/-! ### Events of a stage -/

namespace StageTask

variable (stage : StageTask)

/-- The attempt that comes after so many failed ones. -/
def attempt (failed : ℕ) : TaskAttempt := ⟨stage.task, OfNat.ofNat (failed + 1)⟩

def started (failed : ℕ) : WorkflowEvent := .stageStarted stage.workflow stage.stage (stage.attempt failed)

def retry (failed : ℕ) : WorkflowEvent :=
  .retryScheduled stage.workflow stage.stage (stage.attempt failed) (stage.attempt (failed + 1))

def committed (failed : ℕ) : WorkflowEvent :=
  .artifactCommitted stage.workflow stage.stage (stage.attempt failed) stage.output

/-- Failed attempts, each made again. -/
def retries : ℕ → List WorkflowEvent
  | 0 => []
  | failed + 1 => retries failed ++ [stage.started failed, stage.retry failed]

theorem length_retries (failed : ℕ) : (stage.retries failed).length = 2 * failed := by
  induction failed with
  | zero => rfl
  | succ failed ih =>
    rw [retries, List.length_append, ih]
    rfl

theorem attempt_eq {failed : ℕ} {number : NonZeroU16} (h : number.get = failed + 1) :
    (⟨stage.task, number⟩ : TaskAttempt) = stage.attempt failed := by
  have hle := number.le
  have hnumber : number = OfNat.ofNat (failed + 1) := NonZeroU16.ext (by
    rw [h] at hle ⊢
    exact (min_eq_left hle).symm)
  rw [hnumber]
  rfl

/-- The calls of the failed attempts. -/
def failures (diagnostics : List String) : List PortCall :=
  diagnostics.zipIdx.map fun (diagnostic, failed) => ⟨stage.attempt failed, .failure diagnostic⟩

/-- The calls of all attempts, the last of which has an output. -/
def calls (diagnostics : List String) : Except String ArtifactContent → List PortCall
  | .ok content =>
    stage.failures diagnostics ++ content.answer?.toList.map fun answer => ⟨stage.attempt diagnostics.length, answer⟩
  | .error diagnostic => stage.failures (diagnostics ++ [diagnostic])

theorem failures_append (diagnostics : List String) (diagnostic : String) :
    stage.failures (diagnostics ++ [diagnostic]) =
      stage.failures diagnostics ++ [⟨stage.attempt diagnostics.length, .failure diagnostic⟩] := by
  rw [failures, List.zipIdx_append, List.map_append]
  simp [failures]

theorem calls_ok (diagnostics : List String) {content : ArtifactContent} {answer : PortAnswer}
    (h : content.answer? = some answer) : stage.calls diagnostics (.ok content) =
      stage.failures diagnostics ++ [⟨stage.attempt diagnostics.length, answer⟩] := by
  rw [calls, h]
  rfl

end StageTask

/-- What a stage that has ended did: the diagnostics of its failed attempts, and
what the last one committed. -/
structure StageRecord where
  stage : StageTask
  diagnostics : List String
  content : ArtifactContent
deriving DecidableEq, Repr

namespace StageRecord

variable (record : StageRecord)

def failed : ℕ := record.diagnostics.length

def calls : List PortCall := record.stage.calls record.diagnostics (.ok record.content)

def events : List WorkflowEvent :=
  record.stage.retries record.failed ++ [record.stage.started record.failed, record.stage.committed record.failed]

def artifact : Artifact := ⟨record.stage.output, record.content⟩

/-- The attempts are within the budget, and the payload within its limit. -/
structure Fits : Prop where
  attempts : record.failed < record.stage.budget.maximumAttempts.get
  size : ∃ n ≤ record.stage.maximumBytes, artifactContentSize record.content = some n

theorem length_events : record.events.length = 2 * (record.failed + 1) := by
  rw [events, List.length_append, StageTask.length_retries]
  rfl

end StageRecord

/-! ### The executor after some stages -/

variable {M V ρ : Type}

/-- The executor after the stages of the records, and some events of the stage
that runs. -/
structure Books (base : CorrectiveWorkflowExecutor M V) (records : List StageRecord) (unfinished : List WorkflowEvent)
    (executor : CorrectiveWorkflowExecutor M V) : Prop where
  events : executor.events = base.events ++ records.flatMap StageRecord.events ++ unfinished
  get : ∀ id, executor.artifacts.get id =
    ((records.find? fun record => record.stage.output.id = id).map StageRecord.artifact).or (base.artifacts.get id)
  size : executor.artifacts.artifacts.size = base.artifacts.artifacts.size + records.length
  maximum : executor.artifacts.maximumArtifacts = base.artifacts.maximumArtifacts
  limits : executor.limits = base.limits
  identities : executor.nextWorkflowId = base.nextWorkflowId ∧ executor.nextTaskId = base.nextTaskId ∧
    executor.nextArtifactId = base.nextArtifactId

namespace Books

variable {base executor executor' : CorrectiveWorkflowExecutor M V} {records : List StageRecord}
  {unfinished : List WorkflowEvent}

theorem refl (base : CorrectiveWorkflowExecutor M V) : Books base [] [] base where
  events := by simp
  get _ := rfl
  size := rfl
  maximum := rfl
  limits := rfl
  identities := ⟨rfl, rfl, rfl⟩

theorem withEvent (h : Books base records unfinished executor) (event : WorkflowEvent) :
    Books base records (unfinished ++ [event]) (executor.withEvent event) where
  events := by
    rw [withEvent_events, h.events]
    simp
  get := h.get
  size := h.size
  maximum := h.maximum
  limits := h.limits
  identities := h.identities

/-- The ports are not in the books. -/
theorem withPorts (h : Books base records unfinished executor) (model : M) (validator : V) :
    Books base records unfinished { executor with model := model, validator := validator } :=
  ⟨h.events, h.get, h.size, h.maximum, h.limits, h.identities⟩

/-- The commit of a stage makes its record. -/
theorem commit (record : StageRecord) (h : Books base records
      (record.stage.retries record.failed ++ [record.stage.started record.failed]) executor)
    (hnew : executor.artifacts.get record.stage.output.id = none) :
    Books base (records ++ [record]) []
      ((executor.withArtifact record.stage.output record.content).withEvent (record.stage.committed record.failed)) where
  events := by
    rw [withEvent_events, withArtifact_events, h.events]
    simp [StageRecord.events]
  get id := by
    rw [withEvent_artifacts, get_withArtifact, List.find?_append]
    by_cases hid : id = record.stage.output.id
    · subst hid
      rw [h.get] at hnew
      obtain ⟨hnone, -⟩ := Option.or_eq_none_iff.mp hnew
      rw [Option.map_eq_none_iff] at hnone
      simp [hnone, StageRecord.artifact]
    · rw [if_neg hid, h.get]
      simp [Ne.symm hid]
  size := by
    rw [List.length_append, List.length_singleton, ← Nat.add_assoc, ← h.size]
    exact OrdMap.size_insert_of_none hnew _
  maximum := h.maximum
  limits := h.limits
  identities := h.identities

end Books

/-- There is room for all that the stages can add: every attempt of every budget,
an artifact for each, and the completion. -/
structure Room (base : CorrectiveWorkflowExecutor M V) (stages : List StageTask) : Prop where
  outputs : (stages.map (·.output.id)).Nodup
  fresh : ∀ stage ∈ stages, base.artifacts.get stage.output.id = none
  artifacts : base.artifacts.artifacts.size + stages.length ≤ base.artifacts.maximumArtifacts
  events : base.events.length + (stages.map fun stage => 2 * stage.budget.maximumAttempts.get).sum <
    base.limits.pendingEvents

section Room

variable {base executor : CorrectiveWorkflowExecutor M V} {records : List StageRecord} {unfinished : List WorkflowEvent}
  {stages rest : List StageTask} {stage : StageTask}

theorem length_events_le (hfits : ∀ record ∈ records, record.Fits) : (records.flatMap StageRecord.events).length ≤
    (records.map fun record => 2 * record.stage.budget.maximumAttempts.get).sum := by
  rw [List.length_flatMap]
  refine List.sum_le_sum fun record hrecord => ?_
  have hlt := (hfits record hrecord).attempts
  rw [StageRecord.length_events]
  omega

/-- The events of some stages leave room for those of the others and for one more. -/
theorem Room.length_lt (h : Room base stages) (hstages : stages = records.map (·.stage) ++ rest)
    (hfits : ∀ record ∈ records, record.Fits) :
    base.events.length + (records.flatMap StageRecord.events).length +
      (rest.map fun stage => 2 * stage.budget.maximumAttempts.get).sum < base.limits.pendingEvents := by
  have hle := length_events_le hfits
  have hevents := h.events
  rw [hstages, List.map_append, List.map_map, List.sum_append] at hevents
  have hsum : (records.map ((fun stage => 2 * stage.budget.maximumAttempts.get) ∘ fun record => record.stage)).sum =
      (records.map fun record => 2 * record.stage.budget.maximumAttempts.get).sum := rfl
  omega

/-- Before a stage has used up its budget there is room for an event of it. -/
theorem Room.remainingEventCapacity (h : Room base stages) (hstages : stages = records.map (·.stage) ++ stage :: rest)
    (hfits : ∀ record ∈ records, record.Fits) (hbooks : Books base records unfinished executor)
    (hlt : unfinished.length < 2 * stage.budget.maximumAttempts.get) : executor.remainingEventCapacity ≠ 0 := by
  have hlength := h.length_lt hstages hfits
  rw [List.map_cons, List.sum_cons] at hlength
  rw [remainingEventCapacity_eq, hbooks.limits, hbooks.events, List.length_append, List.length_append]
  omega

theorem Room.completion (h : Room base stages) (hstages : stages = records.map (·.stage))
    (hfits : ∀ record ∈ records, record.Fits) (hbooks : Books base records [] executor) :
    executor.remainingEventCapacity ≠ 0 := by
  have hlength := h.length_lt (hstages.trans (List.append_nil _).symm) hfits
  rw [remainingEventCapacity_eq, hbooks.limits, hbooks.events, List.append_nil, List.length_append]
  omega

theorem Room.remainingCapacity (h : Room base stages) (hstages : stages = records.map (·.stage) ++ stage :: rest)
    (hbooks : Books base records unfinished executor) : executor.artifacts.remainingCapacity ≠ 0 := by
  have hartifacts := h.artifacts
  rw [hstages, List.length_append, List.length_map, List.length_cons] at hartifacts
  rw [ArtifactStore.remainingCapacity_eq, hbooks.maximum, hbooks.size]
  omega

/-- The output of a stage is not stored before its commit. -/
theorem Room.output_new (h : Room base stages) (hstages : stages = records.map (·.stage) ++ stage :: rest)
    (hbooks : Books base records unfinished executor) : executor.artifacts.get stage.output.id = none := by
  have houtputs := h.outputs
  rw [hstages, List.map_append, List.map_map, List.map_cons] at houtputs
  have hfind : (records.find? fun record => record.stage.output.id = stage.output.id) = none := by
    rw [List.find?_eq_none]
    intro record hrecord heq
    have hmem : stage.output.id ∈ records.map ((fun stage => stage.output.id) ∘ fun record => record.stage) :=
      List.mem_map.mpr ⟨record, hrecord, of_decide_eq_true heq⟩
    exact (List.nodup_append.mp houtputs).2.2 _ hmem _ List.mem_cons_self rfl
  rw [hbooks.get, hfind, Option.map_none, Option.none_or]
  exact h.fresh stage (by rw [hstages]; simp)

end Room

/-! ### A run between two steps -/

/-- A run after the stages of the records, with the events of the stage that runs,
the table, and what is known of the ports. -/
structure At (graph : TaskGraph) (J : M → V → Prop) (base : CorrectiveWorkflowExecutor M V)
    (records : List StageRecord) (unfinished : List WorkflowEvent) (done : ℕ) (s : TaskRuntimeState)
    (run : WorkflowRun M V) : Prop where
  books : Books base records unfinished run.executor
  progress : Progress graph done s run.table
  ports : J run.executor.model run.executor.validator

/-- The state of a task after failed attempts. -/
def waiting : ℕ → TaskRuntimeState
  | 0 => .default
  | failed + 1 => ⟨.failed, failed + 1⟩

theorem waiting_status (failed : ℕ) : (waiting failed).status = .pending ∨ (waiting failed).status = .failed := by
  cases failed with
  | zero => exact Or.inl rfl
  | succ => exact Or.inr rfl

theorem waiting_attempts (failed : ℕ) : (waiting failed).attempts = failed := by
  cases failed <;> rfl

/-- How a stage can fail for the output of the attempt after so many failed ones:
it is the failure that uses up the budget, or a payload that has no size or is
over its limit. -/
inductive StageFailure (stage : StageTask) (failed : ℕ) : Except String ArtifactContent → WorkflowError → Prop
  | exhausted (diagnostic : String) (h : failed + 1 = stage.budget.maximumAttempts.get) :
      StageFailure stage failed (.error diagnostic)
        (.taskExhausted stage.workflow stage.stage stage.task (failed + 1) diagnostic)
  | overflow (content : ArtifactContent) (hsize : artifactContentSize content = none) :
      StageFailure stage failed (.ok content)
        (.artifactSizeOverflow stage.workflow stage.stage stage.task stage.output.id)
  | exceeded (content : ArtifactContent) (n : ℕ) (hsize : artifactContentSize content = some n)
      (h : stage.maximumBytes < n) :
      StageFailure stage failed (.ok content)
        (.outputCapacityExceeded stage.workflow stage.stage stage.task stage.output.id n stage.maximumBytes)

/-- A run that ended in a stage, for the output of an attempt. -/
structure FailedAt (J : M → V → Prop) (base : CorrectiveWorkflowExecutor M V) (records : List StageRecord)
    (stage : StageTask) (diagnostics : List String) (output : Except String ArtifactContent) (e : WorkflowError)
    (executor : CorrectiveWorkflowExecutor M V) : Prop where
  books : Books base records (stage.retries diagnostics.length ++ [stage.started diagnostics.length]) executor
  failure : StageFailure stage diagnostics.length output e
  attempts : diagnostics.length < stage.budget.maximumAttempts.get
  ports : J executor.model executor.validator

section Rules

variable {graph : TaskGraph} {J : M → V → Prop} {base : CorrectiveWorkflowExecutor M V} {stages rest : List StageTask}
  {records : List StageRecord} {stage : StageTask} {failed : ℕ} {diagnostics : List String}

/-- What a stage runs in: a pipeline with room, after the records of the stages before it. -/
structure Place (graph : TaskGraph) (base : CorrectiveWorkflowExecutor M V) (stages : List StageTask)
    (records : List StageRecord) (stage : StageTask) (rest : List StageTask) : Prop where
  pipeline : Pipeline graph stages
  room : Room base stages
  stages : stages = records.map (·.stage) ++ stage :: rest
  fits : ∀ record ∈ records, record.Fits

theorem Place.length_lt (h : Place graph base stages records stage rest) : records.length < graph.nodes.length := by
  simpa using h.pipeline.lt_length h.stages

theorem startAttempt_at (failed : ℕ) (h : Place graph base stages records stage rest)
    (hlt : failed < stage.budget.maximumAttempts.get) :
    Ensures (At graph J base records (stage.retries failed) records.length (waiting failed)) (startAttempt graph stage)
      (fun attempt run => attempt = stage.attempt failed ∧ At graph J base records
        (stage.retries failed ++ [stage.started failed]) records.length ⟨.running, failed + 1⟩ run)
      fun _ _ => False := by
  have hroom : ∀ executor, Books base records (stage.retries failed) executor → executor.remainingEventCapacity ≠ 0 := by
    intro executor hbooks
    refine h.room.remainingEventCapacity h.stages h.fits hbooks ?_
    rw [StageTask.length_retries]
    omega
  have hstart : ∀ table, Progress graph records.length (waiting failed) table → ∃ number : NonZeroU16,
      number.get = failed + 1 ∧ table.start graph stage.task =
        (.ok ⟨stage.task, number⟩, table.set records.length ⟨.running, failed + 1⟩) := by
    intro table hprogress
    have hlength : Progress graph (records.map (·.stage)).length (waiting failed) table := by
      rwa [List.length_map]
    have hspec := h.pipeline.start h.stages hlength (waiting_status failed) (by rwa [waiting_attempts])
    rwa [List.length_map, waiting_attempts] at hspec
  refine startAttempt_ensures ?_ ?_ ?_
  · intro executor table attempt table' hat _ hok
    obtain ⟨number, hnumber, heq⟩ := hstart table hat.progress
    obtain ⟨hattempt, rfl⟩ := Prod.mk.inj (heq.symm.trans hok)
    rw [← Except.ok.inj hattempt, stage.attempt_eq hnumber]
    exact ⟨rfl, hat.books.withEvent _, hat.progress.set _, hat.ports⟩
  · intro executor table hat hzero
    exact hroom executor hat.books hzero
  · intro executor table e table' hat herror
    obtain ⟨number, -, heq⟩ := hstart table hat.progress
    cases heq.symm.trans herror

theorem commitOutput_at (h : Place graph base stages records stage rest)
    (hlt : diagnostics.length < stage.budget.maximumAttempts.get) {content : ArtifactContent}
    (hkind : (stage.output.kind, stage.output.role) = content.kind.reference) :
    Ensures (At graph J base records (stage.retries diagnostics.length ++ [stage.started diagnostics.length])
        records.length ⟨.running, diagnostics.length + 1⟩)
      (onExecutor (commitOutput stage (stage.attempt diagnostics.length) content))
      (fun _ run => StageRecord.Fits ⟨stage, diagnostics, content⟩ ∧
        At graph J base (records ++ [⟨stage, diagnostics, content⟩]) [] records.length
          ⟨.running, diagnostics.length + 1⟩ run)
      fun e run => FailedAt J base records stage diagnostics (.ok content) e run.executor := by
  have hlength : (stage.retries diagnostics.length ++ [stage.started diagnostics.length]).length <
      2 * stage.budget.maximumAttempts.get := by
    rw [List.length_append, StageTask.length_retries, List.length_singleton]
    omega
  refine onExecutor_ensures fun table => commitOutput_ensures ?_ ?_ ?_ ?_ ?_
  · intro executor n hat hsize hle _ hnew _ _
    exact ⟨⟨hlt, n, hle, hsize⟩, hat.books.commit ⟨stage, diagnostics, content⟩ hnew, hat.progress, hat.ports⟩
  · intro executor hat hsize
    exact ⟨hat.books, .overflow content hsize, hlt, hat.ports⟩
  · intro executor n hat hsize hexceeded
    exact ⟨hat.books, .exceeded content n hsize hexceeded, hlt, hat.ports⟩
  · intro executor hat hzero
    exact absurd hzero (h.room.remainingEventCapacity h.stages h.fits hat.books hlength)
  · rintro executor e hat (⟨hmismatch, -⟩ | ⟨hknown, -⟩ | ⟨hfull, -⟩)
    · exact absurd hkind hmismatch
    · exact absurd (h.room.output_new h.stages hat.books) hknown
    · exact absurd hfull (h.room.remainingCapacity h.stages hat.books)

/-- The task of a committed attempt succeeds, and the next stage has its place. -/
theorem succeedAttempt_at (h : Place graph base stages records stage rest) {E : WorkflowError → WorkflowRun M V → Prop}
    {record : StageRecord} {attempt : TaskAttempt} (hattempt : attempt = stage.attempt failed)
    (hlt : failed < stage.budget.maximumAttempts.get) :
    Ensures (At graph J base (records ++ [record]) [] records.length ⟨.running, failed + 1⟩)
      (onTable fun table => table.succeedAttempt graph attempt)
      (fun _ => At graph J base (records ++ [record]) [] (records.length + 1) .default) E := by
  have hmax := stage.budget.maximumAttempts.le
  have hnumber : (OfNat.ofNat (failed + 1) : NonZeroU16).get = failed + 1 := min_eq_left (by omega)
  have hsucceed : ∀ table, Progress graph records.length ⟨.running, failed + 1⟩ table →
      table.succeedAttempt graph attempt = (.ok (), table.set records.length ⟨.succeeded, failed + 1⟩) := by
    intro table hprogress
    have hrunning : Progress graph (records.map (·.stage)).length
        ⟨.running, (OfNat.ofNat (failed + 1) : NonZeroU16).get⟩ table := by
      rwa [List.length_map, hnumber]
    have hspec := h.pipeline.succeedAttempt h.stages hrunning
    rw [List.length_map, hnumber] at hspec
    rw [hattempt]
    exact hspec
  refine onTable_ensures ?_ ?_
  · intro executor table _ table' hat hok
    obtain ⟨-, rfl⟩ := Prod.mk.inj ((hsucceed table hat.progress).symm.trans hok)
    exact ⟨hat.books, (hat.progress.set _).next h.length_lt, hat.ports⟩
  · intro executor table e table' hat herror
    cases (hsucceed table hat.progress).symm.trans herror

/-- A failed attempt is made again while the budget has one left. -/
theorem handleOperationalFailure_at (h : Place graph base stages records stage rest)
    (hlt : diagnostics.length < stage.budget.maximumAttempts.get) {attempt : TaskAttempt}
    (hattempt : attempt = stage.attempt diagnostics.length) {diagnostic : String} :
    Ensures (At graph J base records (stage.retries diagnostics.length ++ [stage.started diagnostics.length])
        records.length ⟨.running, diagnostics.length + 1⟩)
      (handleOperationalFailure graph stage attempt diagnostic)
      (fun _ run => diagnostics.length + 1 < stage.budget.maximumAttempts.get ∧ At graph J base records
        (stage.retries (diagnostics.length + 1)) records.length (waiting (diagnostics.length + 1)) run)
      fun e run => FailedAt J base records stage diagnostics (.error diagnostic) e run.executor := by
  generalize hfailed : diagnostics.length = failed at hlt hattempt
  have hmax := stage.budget.maximumAttempts.le
  have hnumber : (OfNat.ofNat (failed + 1) : NonZeroU16).get = failed + 1 := min_eq_left (by omega)
  have hget : attempt.number.get = failed + 1 := by rw [hattempt]; exact hnumber
  have hfail : ∀ table, Progress graph records.length ⟨.running, failed + 1⟩ table →
      table.failAttempt graph attempt = (.ok (), table.set records.length
        ⟨if stage.budget.maximumAttempts.get ≤ failed + 1 then .exhausted else .failed, failed + 1⟩) := by
    intro table hprogress
    have hrunning : Progress graph (records.map (·.stage)).length
        ⟨.running, (OfNat.ofNat (failed + 1) : NonZeroU16).get⟩ table := by
      rwa [List.length_map, hnumber]
    have hspec := h.pipeline.failAttempt h.stages hrunning
    rw [List.length_map, hnumber] at hspec
    rw [hattempt]
    exact hspec
  have hlength : (stage.retries failed ++ [stage.started failed]).length < 2 * stage.budget.maximumAttempts.get := by
    rw [List.length_append, StageTask.length_retries, List.length_singleton]
    omega
  refine handleOperationalFailure_ensures ?_ ?_ ?_ ?_
  · intro executor table table' next hat hok hretry hnext _
    rw [hget] at hretry hnext
    obtain ⟨-, rfl⟩ := Prod.mk.inj ((hfail table hat.progress).symm.trans hok)
    refine ⟨hretry, ?_, ?_, hat.ports⟩
    · have hevent : WorkflowEvent.retryScheduled stage.workflow stage.stage attempt ⟨attempt.task, next⟩ =
          stage.retry failed := by
        rw [hattempt]
        exact congrArg (WorkflowEvent.retryScheduled _ _ _) (stage.attempt_eq hnext)
      have hbooks := hat.books.withEvent (stage.retry failed)
      rw [List.append_assoc] at hbooks
      rw [hevent]
      exact hbooks
    · rw [if_neg (not_le.mpr hretry)]
      exact hat.progress.set _
  · intro executor table table' hat hok hle
    rw [hget] at hle ⊢
    rw [hattempt]
    subst hfailed
    exact ⟨hat.books, .exhausted diagnostic (by omega), hlt, hat.ports⟩
  · intro executor table table' hat _ _ hzero
    exact absurd hzero (h.room.remainingEventCapacity h.stages h.fits hat.books hlength)
  · intro executor table e table' hat herror
    cases (hfail table hat.progress).symm.trans herror

/-- What a call of a port changes, from the books of an attempt. -/
def CallKeeps (J : List PortCall → M → V → Prop) (base : CorrectiveWorkflowExecutor M V) (records : List StageRecord)
    (stage : StageTask) (answer : ρ → PortAnswer) (call : CorrectiveWorkflowExecutor M V → TaskAttempt →
      ArtifactInputs → Except String ρ × CorrectiveWorkflowExecutor M V) : Prop :=
  ∀ failed calls executor, Books base records (stage.retries failed ++ [stage.started failed]) executor →
    J calls executor.model executor.validator → ∃ model validator,
      let called := call executor (stage.attempt failed) ⟨executor.artifacts, stage.inputArtifacts⟩
      called.2 = { executor with model := model, validator := validator } ∧
        J (calls ++ [⟨stage.attempt failed, .of answer called.1⟩]) model validator

/-- A stage that a port works for ends with its record, or fails in one of its
attempts. -/
theorem runAttempts_records {J : List PortCall → M → V → Prop} (calls : List PortCall)
    (h : Place graph base stages records stage rest) {answer : ρ → PortAnswer}
    {call : CorrectiveWorkflowExecutor M V → TaskAttempt → ArtifactInputs →
      Except String ρ × CorrectiveWorkflowExecutor M V} {makeContent : ρ → ArtifactContent}
    (hkind : ∀ value, (stage.output.kind, stage.output.role) = (makeContent value).kind.reference)
    (hanswer : ∀ value, (makeContent value).answer? = some (answer value))
    (hcall : CallKeeps J base records stage answer call) :
    Ensures (At graph (J calls) base records [] records.length .default) (runAttempts graph stage call makeContent)
      (fun value run => ∃ diagnostics, StageRecord.Fits ⟨stage, diagnostics, makeContent value⟩ ∧
        At graph (J (calls ++ StageRecord.calls ⟨stage, diagnostics, makeContent value⟩)) base
          (records ++ [⟨stage, diagnostics, makeContent value⟩]) [] (records.length + 1) .default run)
      fun e run => ∃ diagnostics output, (∀ content, output = .ok content → ∃ value, content = makeContent value) ∧
        FailedAt (J (calls ++ stage.calls diagnostics output)) base records stage diagnostics output e run.executor := by
  -- Between two attempts the failed ones are retried, and the budget has one left.
  let Waiting : WorkflowRun M V → Prop := fun run => ∃ diagnostics : List String,
    diagnostics.length < stage.budget.maximumAttempts.get ∧
      At graph (J (calls ++ stage.failures diagnostics)) base records (stage.retries diagnostics.length) records.length
        (waiting diagnostics.length) run
  have hloop : Ensures Waiting (runAttempts graph stage call makeContent)
      (fun value run => ∃ diagnostics, StageRecord.Fits ⟨stage, diagnostics, makeContent value⟩ ∧
        At graph (J (calls ++ StageRecord.calls ⟨stage, diagnostics, makeContent value⟩)) base
          (records ++ [⟨stage, diagnostics, makeContent value⟩]) [] (records.length + 1) .default run)
      fun e run => ∃ diagnostics output, (∀ content, output = .ok content → ∃ value, content = makeContent value) ∧
        FailedAt (J (calls ++ stage.calls diagnostics output)) base records stage diagnostics output e
          run.executor := by
    refine runAttempts_ensures (Ensures.of_exists fun diagnostics => Ensures.of_and fun hlt => ?_)
    let Running : List PortCall → WorkflowRun M V → Prop := fun made run => At graph (J made) base records
      (stage.retries diagnostics.length ++ [stage.started diagnostics.length]) records.length
        ⟨.running, diagnostics.length + 1⟩ run
    let answered : Except String ρ → List PortCall := fun result =>
      calls ++ stage.failures diagnostics ++ [⟨stage.attempt diagnostics.length, .of answer result⟩]
    have hok : ∀ value, answered (.ok value) = calls ++ stage.calls diagnostics (.ok (makeContent value)) := by
      intro value
      rw [stage.calls_ok diagnostics (hanswer value), ← List.append_assoc]
      rfl
    have hfailed : ∀ diagnostic, answered (.error diagnostic) = calls ++ stage.failures (diagnostics ++ [diagnostic]) := by
      intro diagnostic
      rw [stage.failures_append, ← List.append_assoc]
      rfl
    refine runAttempt_ensures
      (S := fun attempt run => attempt = stage.attempt diagnostics.length ∧
        Running (calls ++ stage.failures diagnostics) run)
      (R := fun attempt result run => attempt = stage.attempt diagnostics.length ∧ Running (answered result) run)
      (C := fun attempt value run => attempt = stage.attempt diagnostics.length ∧
        StageRecord.Fits ⟨stage, diagnostics, makeContent value⟩ ∧
        At graph (J (answered (.ok value))) base (records ++ [⟨stage, diagnostics, makeContent value⟩]) []
          records.length ⟨.running, diagnostics.length + 1⟩ run)
      ?_ ?_ ?_ ?_ ?_
    · exact (startAttempt_at _ h hlt).weaken (fun _ => id) (fun _ _ => id) fun _ _ => False.elim
    · rintro attempt executor table ⟨rfl, hat⟩
      obtain ⟨model, validator, heq, hports⟩ := hcall _ _ executor hat.books hat.ports
      rw [heq]
      exact ⟨rfl, hat.books.withPorts model validator, hat.progress, hports⟩
    · intro attempt value
      refine Ensures.of_and fun hattempt => ?_
      subst hattempt
      refine (commitOutput_at h hlt (hkind value)).weaken (fun _ => id) (fun _ _ hat => ⟨rfl, hat⟩) ?_
      intro e run hfailed
      rw [hok value] at hfailed
      refine ⟨diagnostics, .ok (makeContent value), fun content heq => ⟨value, (Except.ok.inj heq).symm⟩, hfailed⟩
    · intro attempt value
      refine Ensures.of_and fun hattempt => Ensures.of_and fun hfits => ?_
      rw [hok value]
      exact (succeedAttempt_at h hattempt hlt).weaken (fun _ => id) (fun _ _ hat => ⟨diagnostics, hfits, hat⟩)
        fun _ _ h => h
    · intro attempt diagnostic
      refine Ensures.of_and fun hattempt => ?_
      rw [hfailed diagnostic]
      refine (handleOperationalFailure_at h hlt hattempt).weaken (fun _ => id) ?_ ?_
      · intro _ run hat
        refine ⟨diagnostics ++ [diagnostic], ?_⟩
        rw [List.length_append, List.length_singleton]
        exact hat
      · exact fun e run hfailed => ⟨diagnostics, .error diagnostic, nofun, hfailed⟩
  refine hloop.of_pre fun run hat => ⟨[], stage.budget.maximumAttempts.pos, ?_⟩
  rw [StageTask.failures, List.zipIdx_nil, List.map_nil, List.append_nil]
  exact hat

/-- The normalization reads the raw report of the record that has it, and takes
one attempt. -/
theorem runNormalizationStage_records (h : Place graph base stages records stage rest)
    (hkind : (stage.output.kind, stage.output.role) = ArtifactContentKind.normalizedDiagnostics.reference)
    {input : ArtifactId} {report : ValidationReport}
    (hinput : ((records.find? fun record => record.stage.output.id = input).map StageRecord.content) =
      some (.rawValidation report)) :
    Ensures (At graph J base records [] records.length .default)
      (runNormalizationStage graph stage input : Fallible (WorkflowRun M V) WorkflowError Unit)
      (fun _ run => StageRecord.Fits ⟨stage, [], .normalizedDiagnostics (normalizeValidationReport report)⟩ ∧
        At graph J base (records ++ [⟨stage, [], .normalizedDiagnostics (normalizeValidationReport report)⟩]) []
          (records.length + 1) .default run)
      fun e run => FailedAt J base records stage [] (.ok (.normalizedDiagnostics (normalizeValidationReport report))) e
        run.executor := by
  have hlt : 0 < stage.budget.maximumAttempts.get := stage.budget.maximumAttempts.pos
  refine Ensures.bind ((startAttempt_at 0 h hlt).weaken (fun _ => id) (fun _ _ => id)
    fun _ _ => False.elim) fun attempt => ?_
  refine Ensures.of_and fun hattempt => ?_
  subst hattempt
  have hread : ∀ {executor : CorrectiveWorkflowExecutor M V} {unfinished : List WorkflowEvent},
      Books base records unfinished executor → requireRawValidation input executor = .ok report := by
    intro executor unfinished hbooks
    obtain ⟨record, hrecord, hcontent⟩ := Option.map_eq_some_iff.mp hinput
    rw [requireRawValidation, hbooks.get, hrecord]
    simp [StageRecord.artifact, hcontent]
  refine Ensures.bind (Q := fun read run => read = report ∧ At graph J base records
    (stage.retries 0 ++ [stage.started 0]) records.length ⟨.running, 1⟩ run) ?_ fun read => ?_
  · refine onExecutor_ensures fun table => Ensures.check (fun executor read hat hcheck => ?_)
      fun executor e hat hcheck => ?_
    · exact ⟨Except.ok.inj (hcheck.symm.trans (hread hat.books)), hat⟩
    · cases hcheck.symm.trans (hread hat.books)
  refine Ensures.of_and fun hreport => ?_
  subst hreport
  refine Ensures.bind (@commitOutput_at _ _ _ _ _ _ _ _ _ [] h hlt _ hkind) fun _ => ?_
  refine Ensures.of_and fun hfits => ?_
  exact (succeedAttempt_at h rfl hlt).weaken (fun _ => id) (fun _ _ hat => ⟨hfits, hat⟩) fun _ _ => id

end Rules

end LlmApp
