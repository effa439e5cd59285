/-
# What an executor guarantees

The rules of an execution, as its owner sees them. After an execution is admitted
only what a port answers can fail it (`admission_suffices`); its events and the
store are those of its records, stage by stage, and the records are what the ports
have answered (`execution_traced`); its ports are called with what the plan declares
(`execution_provenance`); and over any sequence of calls the store only grows, within
its bounds and under identities that are given out once (`artifacts_kept`).

Key definitions: `ExecutionTrace`, `ModelTaskExecutor.recorded`, `WorkflowCall.givenOut`.
Key theorems: `admission_suffices`, `execution_traced`, `execution_provenance`,
`artifacts_kept`.
-/
import LlmApp.Workflow.Execution

namespace LlmApp

open CorrectiveWorkflowExecutor Relation

variable {M V : Type}

/-! ### An executor to run -/

/-- A new executor that was given a specification. -/
def specified (model : M) (validator : V) : CorrectiveWorkflowExecutor M V :=
  (insertSpecification "sort a list" (.new model validator ⟨16, 64, 1024⟩)).2

theorem specified_reaches (P : ModelTaskExecutor M) (Q : ValidationTaskExecutor V) (model : M) (validator : V) :
    WorkflowReaches P Q (specified model validator) :=
  ⟨model, validator, ⟨16, 64, 1024⟩, [.insertSpecification "sort a list"], rfl⟩

/-- Two attempts for each stage. -/
def twoAttempts : CorrectiveWorkflowConfiguration :=
  ⟨.compileCheck, .anyCompatible, ⟨512, 256, 2⟩, ⟨512, 256, 2⟩, ⟨4096, 4096, 4096, 4096, 4096, 4096⟩⟩

/-- A model that fails its first call and answers those after it. -/
def wakingModel : ModelTaskExecutor Bool where
  executeModelTask awake _ _ := (if awake then .ok "sorted" else .error "asleep", true)

/-- A validator that accepts. -/
def acceptingValidator : ValidationTaskExecutor Unit where
  executeValidationTask _ _ _ := (.ok ⟨.passed, []⟩, ())

/-! ### Failures -/

/-- The events, the store and the calls of the ports after so many stages of a plan,
and how it ended: complete, or with an attempt of the next stage. -/
structure ExecutionTrace (P : ModelTaskExecutor M) (Q : ValidationTaskExecutor V) (plan : WorkflowPlan)
    (before : CorrectiveWorkflowExecutor M V) (made : WorkflowPayloads) (done : ℕ)
    (result : Except WorkflowError WorkflowOutcome) (after : CorrectiveWorkflowExecutor M V) : Prop where
  fits : ∀ record ∈ (plan.records made).take done, record.Fits
  store : ∀ id, after.artifacts.get id = ((((plan.records made).take done).find? fun record =>
    record.stage.output.id = id).map StageRecord.artifact).or (before.artifacts.get id)
  ending : (done = 6 ∧ result = .ok (plan.outcome made.finalValidation.2.verdict) ∧
      after.events = before.events ++ (plan.records made).flatMap StageRecord.events ++
        [(plan.outcome made.finalValidation.2.verdict).completion] ∧
      Answered P Q plan before.model before.validator (portCalls (plan.records made)) after.model after.validator) ∨
    ∃ stage diagnostics output e, plan.Attempted made done stage diagnostics output ∧
      diagnostics.length < stage.budget.maximumAttempts.get ∧ result = .error e ∧
      StageFailure stage diagnostics.length output e ∧
      after.events = before.events ++ ((plan.records made).take done).flatMap StageRecord.events ++
        (stage.retries diagnostics.length ++ [stage.started diagnostics.length]) ∧
      Answered P Q plan before.model before.validator
        (portCalls ((plan.records made).take done) ++ stage.calls diagnostics output) after.model after.validator

/-- An execution that is admitted runs out of identities with nothing else
changed, or leaves the trace of its stages. -/
theorem execution_traced (P : ModelTaskExecutor M) (Q : ValidationTaskExecutor V)
    {executor : CorrectiveWorkflowExecutor M V} (hreaches : WorkflowReaches P Q executor)
    (specificationId : ArtifactId) (c : CorrectiveWorkflowConfiguration) {specification : ArtifactReference}
    (hcheck : checkExecution specificationId c executor = .ok specification) :
    let (result, executor') := execute P Q specificationId c executor
    (∃ e, result = .error e ∧ RanOut executor e executor') ∨
      ∃ made done, ExecutionTrace P Q (executor.planned specification c) executor made done result executor' := by
  have hports : ∀ specification', checkExecution specificationId c executor = .ok specification' →
      PortsKeep P Q (executor.planned specification' c)
        (Answered P Q (executor.planned specification c) executor.model executor.validator) := by
    intro specification' hcheck'
    obtain rfl := Except.ok.inj (hcheck.symm.trans hcheck')
    exact Answered.keep P Q (executor.planned specification c) executor.model executor.validator
  have hends := execute_ensures specificationId c hreaches.sane .start hports
  rcases hexecute : execute P Q specificationId c executor with ⟨result, executor'⟩
  show _ ∨ _
  cases result with
  | ok outcome =>
    obtain ⟨specification', made, hcheck', hcompleted⟩ := hends.ok rfl hexecute
    obtain rfl := Except.ok.inj (hcheck.symm.trans hcheck')
    have hevents := hcompleted.books.events
    rw [hcompleted.outcome] at hevents
    exact Or.inr ⟨made, 6, hcompleted.fits, hcompleted.books.get,
      Or.inl ⟨rfl, congrArg Except.ok hcompleted.outcome, hevents, hcompleted.ports⟩⟩
  | error e =>
    obtain ⟨hrefused, -⟩ | ⟨specification', hcheck', hran | hfailed⟩ := hends.error rfl hexecute
    · cases hcheck.symm.trans hrefused
    · exact Or.inl ⟨e, rfl, hran⟩
    · obtain rfl := Except.ok.inj (hcheck.symm.trans hcheck')
      obtain ⟨made, done, stage, diagnostics, output, hattempted, hfits, hfailed⟩ := hfailed
      exact Or.inr ⟨made, done, hfits, hfailed.books.get, Or.inr ⟨stage, diagnostics, output, e, hattempted,
        hfailed.attempts, rfl, hfailed.failure, hfailed.books.events, hfailed.ports⟩⟩

/-- The draft is made at the second attempt. -/
theorem execution_traced_specified :
    let executor := specified false ()
    let (result, executor') := execute wakingModel acceptingValidator 1 twoAttempts executor
    (∃ e, result = .error e ∧ RanOut executor e executor') ∨
      ∃ made done, ExecutionTrace wakingModel acceptingValidator
        (executor.planned ⟨1, .text, .specification⟩ twoAttempts) executor made done result executor' :=
  execution_traced wakingModel acceptingValidator (specified_reaches ..) 1 twoAttempts (by decide +kernel)

/-! ### Provenance -/

/-- The port, keeping what it was called with. -/
def ModelTaskExecutor.recorded (P : ModelTaskExecutor M) :
    ModelTaskExecutor (M × List (ModelTaskRequest × ArtifactInputs)) where
  executeModelTask m request inputs :=
    let (result, model) := P.executeModelTask m.1 request inputs
    (result, (model, m.2 ++ [(request, inputs)]))

def ValidationTaskExecutor.recorded (Q : ValidationTaskExecutor V) :
    ValidationTaskExecutor (V × List (ValidationTaskRequest × ArtifactInputs)) where
  executeValidationTask v request inputs :=
    let (result, validator) := Q.executeValidationTask v.1 request inputs
    (result, (validator, v.2 ++ [(request, inputs)]))

/-- Every call of a port is one that the plan declares, and finds exactly the
artifacts that it declares for the task. -/
theorem execution_provenance (P : ModelTaskExecutor M) (Q : ValidationTaskExecutor V)
    {executor : CorrectiveWorkflowExecutor (M × List (ModelTaskRequest × ArtifactInputs))
      (V × List (ValidationTaskRequest × ArtifactInputs))}
    (hreaches : WorkflowReaches P.recorded Q.recorded executor)
    (specificationId : ArtifactId) (c : CorrectiveWorkflowConfiguration) {specification : ArtifactReference}
    (hcheck : checkExecution specificationId c executor = .ok specification) :
    let executor' := (execute P.recorded Q.recorded specificationId c executor).2
    ∃ calls validations, executor'.model.2 = executor.model.2 ++ calls ∧
      executor'.validator.2 = executor.validator.2 ++ validations ∧
      (∀ call ∈ calls, ModelCallDeclared (executor.planned specification c) call.1 call.2) ∧
      ∀ call ∈ validations, ValidationCallDeclared (executor.planned specification c) call.1 call.2 := by
  let J : M × List (ModelTaskRequest × ArtifactInputs) → V × List (ValidationTaskRequest × ArtifactInputs) → Prop :=
    fun m v => ∃ calls validations, m.2 = executor.model.2 ++ calls ∧ v.2 = executor.validator.2 ++ validations ∧
      (∀ call ∈ calls, ModelCallDeclared (executor.planned specification c) call.1 call.2) ∧
      ∀ call ∈ validations, ValidationCallDeclared (executor.planned specification c) call.1 call.2
  have hj : J executor.model executor.validator :=
    ⟨[], [], (List.append_nil _).symm, (List.append_nil _).symm, fun _ h => absurd h List.not_mem_nil,
      fun _ h => absurd h List.not_mem_nil⟩
  have hports : ∀ specification', checkExecution specificationId c executor = .ok specification' →
      PortsKeep P.recorded Q.recorded (executor.planned specification' c) fun _ => J := by
    intro specification' hcheck'
    obtain rfl := Except.ok.inj (hcheck.symm.trans hcheck')
    constructor
    · rintro - m v request inputs ⟨calls, validations, hm, hv, hcalls, hvalidations⟩ hdeclared
      refine ⟨calls ++ [(request, inputs)], validations, ?_, hv, ?_, hvalidations⟩
      · rw [← List.append_assoc, ← hm]
        rfl
      · intro call hcall
        obtain hcall | hcall := List.mem_append.mp hcall
        · exact hcalls call hcall
        · rw [List.mem_singleton.mp hcall]
          exact hdeclared
    · rintro - m v request inputs ⟨calls, validations, hm, hv, hcalls, hvalidations⟩ hdeclared
      refine ⟨calls, validations ++ [(request, inputs)], hm, ?_, hcalls, ?_⟩
      · rw [← List.append_assoc, ← hv]
        rfl
      · intro call hcall
        obtain hcall | hcall := List.mem_append.mp hcall
        · exact hvalidations call hcall
        · rw [List.mem_singleton.mp hcall]
          exact hdeclared
  have hends := execute_ensures specificationId c hreaches.sane hj hports
  rcases hexecute : execute P.recorded Q.recorded specificationId c executor with ⟨result, executor'⟩
  show J executor'.model executor'.validator
  cases result with
  | ok outcome =>
    obtain ⟨_, _, -, hcompleted⟩ := hends.ok rfl hexecute
    exact hcompleted.ports
  | error e =>
    obtain ⟨-, rfl⟩ | ⟨_, -, ⟨_, _, _, _, -, -, rfl⟩ | ⟨_, _, _, _, _, -, -, hfailed⟩⟩ := hends.error rfl hexecute
    · exact hj
    · exact hj
    · exact hfailed.ports

/-- The ports of the execution above, with no call yet. -/
theorem execution_provenance_specified :
    let executor := specified (false, []) ((), [])
    let executor' := (execute wakingModel.recorded acceptingValidator.recorded 1 twoAttempts executor).2
    ∃ calls validations, executor'.model.2 = [] ++ calls ∧ executor'.validator.2 = [] ++ validations ∧
      (∀ call ∈ calls, ModelCallDeclared (executor.planned ⟨1, .text, .specification⟩ twoAttempts) call.1 call.2) ∧
      ∀ call ∈ validations, ValidationCallDeclared (executor.planned ⟨1, .text, .specification⟩ twoAttempts) call.1
        call.2 :=
  execution_provenance wakingModel acceptingValidator (specified_reaches ..) 1 twoAttempts (by decide +kernel)

/-! ### Whole runs -/

/-- The store and the queue are within their limits. -/
structure CorrectiveWorkflowExecutor.Bounded (executor : CorrectiveWorkflowExecutor M V) : Prop where
  maximum : executor.artifacts.maximumArtifacts = executor.limits.artifacts
  artifacts : executor.artifacts.artifacts.size ≤ executor.limits.artifacts
  events : executor.events.length ≤ executor.limits.pendingEvents

/-- Nothing that was stored is replaced or removed, and what is new is stored under
new identities. -/
structure Extends (executor executor' : CorrectiveWorkflowExecutor M V) : Prop where
  kept : ∀ id artifact, executor.artifacts.get id = some artifact → executor'.artifacts.get id = some artifact
  added : ∀ id artifact, executor'.artifacts.get id = some artifact →
    executor.artifacts.get id = some artifact ∨ executor.nextArtifactId ≤ id
  identities : executor.nextArtifactId ≤ executor'.nextArtifactId

theorem Extends.of_same {executor executor' : CorrectiveWorkflowExecutor M V} (h : executor'.artifacts = executor.artifacts)
    (hle : executor.nextArtifactId ≤ executor'.nextArtifactId) : Extends executor executor' :=
  ⟨fun _ _ hget => h ▸ hget, fun _ _ hget => Or.inl (h ▸ hget), hle⟩

theorem Extends.trans {executor₁ executor₂ executor₃ : CorrectiveWorkflowExecutor M V} (h : Extends executor₁ executor₂)
    (h' : Extends executor₂ executor₃) : Extends executor₁ executor₃ where
  kept id artifact hget := h'.kept id artifact (h.kept id artifact hget)
  added id artifact hget := by
    obtain hget | hle := h'.added id artifact hget
    · exact h.added id artifact hget
    · exact Or.inr (h.identities.trans hle)
  identities := h.identities.trans h'.identities

section Steps

variable {P : ModelTaskExecutor M} {Q : ValidationTaskExecutor V} {base executor : CorrectiveWorkflowExecutor M V}
  {records : List StageRecord} {unfinished : List WorkflowEvent}

theorem Extends.of_books (hfresh : ∀ record ∈ records, base.artifacts.get record.stage.output.id = none)
    (hids : ∀ record ∈ records, base.nextArtifactId ≤ record.stage.output.id ∧
      record.stage.output.id < base.nextArtifactId + 6)
    (h : Books base.reserved records unfinished executor) : Extends base executor where
  kept id artifact hget := by
    have hfind : (records.find? fun record => record.stage.output.id = id) = none := by
      rw [List.find?_eq_none]
      intro record hrecord heq
      have hnone := hfresh record hrecord
      rw [of_decide_eq_true heq, hget] at hnone
      cases hnone
    rw [h.get, hfind, Option.map_none, Option.none_or]
    exact hget
  added id artifact hget := by
    rw [h.get, Option.or_eq_some_iff] at hget
    obtain hget | ⟨-, hget⟩ := hget
    · obtain ⟨record, hfind, -⟩ := Option.map_eq_some_iff.mp hget
      have hid : record.stage.output.id = id := by simpa using List.find?_some hfind
      exact Or.inr (hid ▸ (hids record (List.mem_of_find?_eq_some hfind)).1)
    · exact Or.inl hget
  identities := by
    rw [h.identities.2.2]
    exact Nat.le_add_right _ _

theorem CorrectiveWorkflowExecutor.Bounded.of_books (hbounded : base.Bounded)
    (hroom : base.artifacts.artifacts.size + records.length ≤ base.artifacts.maximumArtifacts)
    (hevents : executor.events.length ≤ base.limits.pendingEvents)
    (h : Books base.reserved records unfinished executor) : executor.Bounded where
  maximum := by
    rw [h.maximum, h.limits]
    exact hbounded.maximum
  artifacts := by
    rw [h.size, h.limits]
    exact hbounded.maximum ▸ hroom
  events := by
    rw [h.limits]
    exact hevents

theorem execute_extends {specificationId : ArtifactId} {c : CorrectiveWorkflowConfiguration} (hsane : base.Sane)
    (hbounded : base.Bounded) :
    Extends base (execute P Q specificationId c base).2 ∧ (execute P Q specificationId c base).2.Bounded := by
  have hends := execute_ensures specificationId c hsane trivial fun _ _ => PortsKeep.trivial P Q _
  have hprepared : ∀ {specification}, checkExecution specificationId c base = .ok specification →
      Prepared (base.planned specification c) base.reserved := by
    intro specification hcheck
    obtain ⟨hrequire, hadmitted⟩ := checkExecution_ok hcheck
    exact prepared hsane hadmitted hrequire
  rcases hexecute : execute P Q specificationId c base with ⟨result, executor⟩
  cases result with
  | ok outcome =>
    obtain ⟨specification, made, hcheck, hcompleted⟩ := hends.ok rfl hexecute
    have hroom := (hprepared hcheck).room
    have hstages : (base.planned specification c).stages =
        ((base.planned specification c).records made).map (·.stage) ++ [] := rfl
    have hartifacts : base.artifacts.artifacts.size + ((base.planned specification c).records made).length ≤
        base.artifacts.maximumArtifacts := hroom.artifacts
    refine ⟨.of_books (fun record hrecord => hroom.fresh _ ?_) (records_ids made 6) hcompleted.books,
      hbounded.of_books hartifacts ?_ hcompleted.books⟩
    · rw [hstages, List.append_nil]
      exact List.mem_map_of_mem hrecord
    · have hlt := hroom.length_lt hstages hcompleted.fits
      simp only [hcompleted.books.events, List.length_append, List.length_singleton]
      exact hlt
  | error e =>
    obtain ⟨-, rfl⟩ | ⟨specification, hcheck, ⟨kind, workflow, task, artifact, -, hle, rfl⟩ |
      ⟨made, done, stage, diagnostics, output, hattempted, hfits, hfailed⟩⟩ := hends.error rfl hexecute
    · exact ⟨.of_same rfl le_rfl, hbounded⟩
    · exact ⟨.of_same rfl hle, hbounded.maximum, hbounded.artifacts, hbounded.events⟩
    · have hroom := (hprepared hcheck).room
      have hplace := (hprepared hcheck).place hattempted.place hfits
      refine ⟨.of_books (fun record hrecord => hroom.fresh _ ?_) (records_ids made done) hfailed.books,
        hbounded.of_books ?_ ?_ hfailed.books⟩
      · rw [hplace.stages]
        exact List.mem_append_left _ (List.mem_map_of_mem hrecord)
      · have hlength : (((base.planned specification c).records made).take done).length ≤ 6 := List.length_take_le' ..
        exact (Nat.add_le_add_left hlength _).trans hroom.artifacts
      · have hlt := hfailed.attempts
        have hlength := hroom.length_lt hplace.stages hfits
        rw [List.map_cons, List.sum_cons] at hlength
        simp only [hfailed.books.events, List.length_append, StageTask.length_retries, List.length_singleton]
        show _ ≤ base.reserved.limits.pendingEvents
        omega

theorem insertSpecification_extends (specification : String) (hsane : base.Sane) (hbounded : base.Bounded) :
    Extends base (insertSpecification specification base).2 ∧ (insertSpecification specification base).2.Bounded := by
  have hends : Ensures (· = base) (insertSpecification specification)
      (fun _ executor => Extends base executor ∧ executor.Bounded) fun _ executor =>
        Extends base executor ∧ executor.Bounded := by
    refine Ensures.bind (Q := fun _ executor => executor = base) (Ensures.check (fun _ _ h _ => h) ?_) fun _ => ?_
    · rintro _ e rfl -
      exact ⟨.of_same rfl le_rfl, hbounded⟩
    have hallocate := allocateArtifactId_at base base.nextWorkflowId base.nextTaskId base.nextArtifactId le_rfl
    refine Ensures.bind (hallocate.weaken (fun _ => id) (fun _ _ => id) ?_) fun id => Ensures.of_and fun hid => ?_
    · rintro e executor ⟨kind, workflow, task, artifact, -, hle, rfl⟩
      exact ⟨.of_same rfl hle, hbounded.maximum, hbounded.artifacts, hbounded.events⟩
    subst hid
    refine Ensures.bind (Q := fun _ executor => Extends base executor ∧ executor.Bounded) ?_
      fun _ => Ensures.pure fun _ h => h
    refine insertArtifact_ensures ?_ ?_
    · rintro _ rfl - hnew hroom
      have hnone : base.artifacts.get base.nextArtifactId = none := hnew
      refine ⟨⟨fun id artifact hget => ?_, fun id artifact hget => ?_, Nat.le_succ _⟩, hbounded.maximum, ?_,
        hbounded.events⟩
      · rw [get_withArtifact, if_neg]
        · exact hget
        · rintro rfl
          cases hnone.symm.trans hget
      · rw [get_withArtifact] at hget
        split_ifs at hget with hid
        · exact Or.inr hid.ge
        · exact Or.inl hget
      · rw [ArtifactStore.remainingCapacity_eq] at hroom
        have hsize := OrdMap.size_insert_of_none hnone
          ⟨⟨base.nextArtifactId, .text, .specification⟩, .specification specification⟩
        have hmaximum := hbounded.maximum
        show (base.artifacts.artifacts.insert _ _).size ≤ base.limits.artifacts
        rw [hsize, ← hmaximum]
        have hlt : base.artifacts.maximumArtifacts - base.artifacts.artifacts.size ≠ 0 := hroom
        omega
    · rintro _ e rfl -
      exact ⟨.of_same rfl (Nat.le_succ _), hbounded.maximum, hbounded.artifacts, hbounded.events⟩
  exact hends.after rfl

theorem WorkflowCall.extends (call : WorkflowCall) (hsane : base.Sane) (hbounded : base.Bounded) :
    Extends base (call.apply P Q base) ∧ (call.apply P Q base).Bounded := by
  cases call with
  | insertSpecification specification => exact insertSpecification_extends specification hsane hbounded
  | execute specificationId c => exact execute_extends hsane hbounded
  | pollEvent =>
    refine ⟨.of_same rfl le_rfl, hbounded.maximum, hbounded.artifacts, ?_⟩
    show base.events.tail.length ≤ base.limits.pendingEvents
    rw [List.length_tail]
    exact (Nat.sub_le _ _).trans hbounded.events

theorem runCalls_extends (calls : List WorkflowCall) (hsane : base.Sane) (hbounded : base.Bounded) :
    Extends base (runCalls P Q calls base) ∧ (runCalls P Q calls base).Bounded := by
  induction calls generalizing base with
  | nil => exact ⟨.of_same rfl le_rfl, hbounded⟩
  | cons call calls ih =>
    obtain ⟨hextends, hbounded'⟩ := call.extends hsane hbounded
    obtain ⟨hrest, hfinal⟩ := ih (call.apply_sane hsane) hbounded'
    exact ⟨hextends.trans hrest, hfinal⟩

end Steps

/-! ### Identities given out -/

/-- The artifact identities of so many allocations, up to the first that fails. -/
def allocations : ℕ → CorrectiveWorkflowExecutor M V → List ArtifactId × CorrectiveWorkflowExecutor M V
  | 0, executor => ([], executor)
  | n + 1, executor =>
    match allocateArtifactId executor with
    | (.ok id, following) => (id :: (allocations n following).1, (allocations n following).2)
    | (.error _, following) => ([], following)

/-- The allocations of an execution before those of its artifacts. -/
def reserveTasks : Fallible (CorrectiveWorkflowExecutor M V) WorkflowError (WorkflowId × TaskIdentities) := do
  let workflow ← allocateWorkflowId
  let tasks ← reserveTaskIds
  return (workflow, tasks)

/-- The artifact identities that a call gives out. -/
def WorkflowCall.givenOut (executor : CorrectiveWorkflowExecutor M V) : WorkflowCall → List ArtifactId
  | .insertSpecification specification =>
    match checkSpecification specification executor with
    | .ok () => (allocations 1 executor).1
    | .error _ => []
  | .execute specificationId c =>
    match checkExecution specificationId c executor, reserveTasks executor with
    | .ok _, (.ok _, following) => (allocations workflowOutputCount following).1
    | _, _ => []
  | .pollEvent => []

def givenOut (P : ModelTaskExecutor M) (Q : ValidationTaskExecutor V) :
    List WorkflowCall → CorrectiveWorkflowExecutor M V → List ArtifactId
  | [], _ => []
  | call :: calls, executor => call.givenOut executor ++ givenOut P Q calls (call.apply P Q executor)

section Identities

variable {P : ModelTaskExecutor M} {Q : ValidationTaskExecutor V} {base : CorrectiveWorkflowExecutor M V}

theorem allocateArtifactId_cases (executor : CorrectiveWorkflowExecutor M V) :
    allocateArtifactId executor =
        (.ok executor.nextArtifactId, { executor with nextArtifactId := executor.nextArtifactId + 1 }) ∨
      ∃ e, allocateArtifactId executor = (.error e, executor) := by
  have hends : Ensures (· = executor) allocateArtifactId (fun id following => id = executor.nextArtifactId ∧
      following = { executor with nextArtifactId := executor.nextArtifactId + 1 }) fun _ following =>
        following = executor := by
    refine allocateId_ensures (·.nextArtifactId) (fun next executor => { executor with nextArtifactId := next })
      .artifact id ?_ ?_
    · rintro _ rfl -
      exact ⟨rfl, rfl⟩
    · rintro _ rfl -
      rfl
  rcases hallocate : allocateArtifactId executor with ⟨result, following⟩
  cases result with
  | ok id =>
    obtain ⟨rfl, rfl⟩ := hends.ok rfl hallocate
    exact Or.inl rfl
  | error e =>
    obtain rfl := hends.error rfl hallocate
    exact Or.inr ⟨e, rfl⟩

/-- Allocations give out the next identities, each once. -/
theorem allocations_eq (n : ℕ) (executor : CorrectiveWorkflowExecutor M V) : ∃ k,
    (allocations n executor).1 = List.range' executor.nextArtifactId k ∧
      (allocations n executor).2.nextArtifactId = executor.nextArtifactId + k := by
  induction n generalizing executor with
  | zero => exact ⟨0, rfl, rfl⟩
  | succ n ih =>
    rw [allocations]
    obtain hallocate | ⟨e, hallocate⟩ := allocateArtifactId_cases executor
    · obtain ⟨k, hids, hnext⟩ := ih { executor with nextArtifactId := executor.nextArtifactId + 1 }
      rw [hallocate]
      refine ⟨k + 1, ?_, hnext.trans (Nat.add_right_comm _ _ _)⟩
      rw [List.range'_succ]
      exact congrArg _ hids
    · rw [hallocate]
      exact ⟨0, rfl, rfl⟩

theorem allocations_bind {α : Type} {f : ArtifactId → Fallible (CorrectiveWorkflowExecutor M V) WorkflowError α} {n : ℕ}
    (h : ∀ id executor, (f id executor).2 = (allocations n executor).2) (executor : CorrectiveWorkflowExecutor M V) :
    ((allocateArtifactId >>= f) executor).2 = (allocations (n + 1) executor).2 := by
  rw [allocations]
  rcases hallocate : allocateArtifactId executor with ⟨result, following⟩
  cases result with
  | ok id =>
    rw [Fallible.bind_ok hallocate]
    exact h id following
  | error e => rw [Fallible.bind_error hallocate]

theorem reserveOutputReferences_allocates (executor : CorrectiveWorkflowExecutor M V) :
    (reserveOutputReferences executor).2 = (allocations workflowOutputCount executor).2 :=
  allocations_bind (fun _ => allocations_bind fun _ => allocations_bind fun _ => allocations_bind fun _ =>
    allocations_bind fun _ => allocations_bind fun _ _ => rfl) executor

/-- The identities of a workflow and of its tasks are no artifact's. -/
theorem reserveTasks_next (executor : CorrectiveWorkflowExecutor M V) :
    (reserveTasks executor).2.nextArtifactId = executor.nextArtifactId := by
  let Same : CorrectiveWorkflowExecutor M V → Prop := fun following =>
    following.nextArtifactId = executor.nextArtifactId
  have hworkflow : Ensures Same allocateWorkflowId (fun _ => Same) fun _ => Same :=
    allocateId_ensures (·.nextWorkflowId) (fun next executor => { executor with nextWorkflowId := next }) .workflow id
      (fun _ h _ => h) fun _ h _ => h
  have htask : Ensures Same allocateTaskId (fun _ => Same) fun _ => Same :=
    allocateId_ensures (·.nextTaskId) (fun next executor => { executor with nextTaskId := next }) .task id
      (fun _ h _ => h) fun _ h _ => h
  have htasks : Ensures Same reserveTaskIds (fun _ => Same) fun _ => Same :=
    Ensures.bind htask fun _ => Ensures.bind htask fun _ => Ensures.bind htask fun _ => Ensures.bind htask fun _ =>
      Ensures.bind htask fun _ => Ensures.bind htask fun _ => Ensures.pure fun _ h => h
  have hends : Ensures Same reserveTasks (fun _ => Same) fun _ => Same :=
    Ensures.bind hworkflow fun _ => Ensures.bind htasks fun _ => Ensures.pure fun _ h => h
  exact hends.after rfl

theorem insertArtifact_next (reference : ArtifactReference) (content : ArtifactContent)
    (executor : CorrectiveWorkflowExecutor M V) :
    (insertArtifact reference content executor).2.nextArtifactId = executor.nextArtifactId := by
  have hends : Ensures (· = executor) (insertArtifact reference content)
      (fun _ following => following.nextArtifactId = executor.nextArtifactId) fun _ following =>
        following.nextArtifactId = executor.nextArtifactId := by
    refine insertArtifact_ensures ?_ ?_
    · rintro _ rfl - - -
      rfl
    · rintro _ e rfl -
      rfl
  exact hends.after rfl

theorem insertSpecification_next {specification : String} {u : Unit} (h : checkSpecification specification base = .ok u) :
    (insertSpecification specification base).2.nextArtifactId = (allocations 1 base).2.nextArtifactId := by
  rw [insertSpecification, Fallible.bind_ok (Fallible.check_ok h), allocations]
  rcases hallocate : allocateArtifactId base with ⟨result, following⟩
  cases result with
  | error e => rw [Fallible.bind_error hallocate]
  | ok id =>
    rw [Fallible.bind_ok hallocate]
    have hnext := insertArtifact_next ⟨id, .text, .specification⟩ (.specification specification) following
    rcases hinsert : insertArtifact ⟨id, .text, .specification⟩ (.specification specification) following with
      ⟨result, last⟩
    rw [hinsert] at hnext
    cases result with
    | ok u =>
      rw [Fallible.bind_ok hinsert]
      exact hnext
    | error e =>
      rw [Fallible.bind_error hinsert]
      exact hnext

/-- An execution gives out the identities of its reservation, and then none. -/
theorem execute_next {specificationId : ArtifactId} {c : CorrectiveWorkflowConfiguration}
    {specification : ArtifactReference} (hsane : base.Sane)
    (hcheck : checkExecution specificationId c base = .ok specification) :
    (execute P Q specificationId c base).2.nextArtifactId =
      (reserveExecution specification c base).2.nextArtifactId := by
  rw [execute, Fallible.bind_ok (Fallible.check_ok hcheck)]
  rcases hreserve : reserveExecution specification c base with ⟨result, following⟩
  cases result with
  | error e => rw [Fallible.bind_error hreserve]
  | ok plan =>
    rw [Fallible.bind_ok hreserve]
    obtain ⟨rfl, rfl⟩ := (reserveExecution_at base specification c).ok rfl hreserve
    have hends := executePlan_ensures hsane trivial hcheck (PortsKeep.trivial P Q _)
    rcases hexecute : executePlan P Q (base.planned specification c) base.reserved with ⟨result, executor⟩
    cases result with
    | ok outcome =>
      obtain ⟨made, hcompleted⟩ := hends.ok rfl hexecute
      exact hcompleted.books.identities.2.2
    | error e =>
      obtain ⟨made, done, stage, diagnostics, output, -, -, hfailed⟩ := hends.error rfl hexecute
      exact hfailed.books.identities.2.2

theorem reserveExecution_allocates {specification : ArtifactReference} {c : CorrectiveWorkflowConfiguration} :
    (reserveExecution specification c base).2 = match reserveTasks base with
      | (.ok _, following) => (allocations workflowOutputCount following).2
      | (.error _, following) => following := by
  rw [reserveExecution, reserveTasks]
  rcases hworkflow : allocateWorkflowId base with ⟨result, following⟩
  cases result with
  | error e => rw [Fallible.bind_error hworkflow, Fallible.bind_error hworkflow]
  | ok workflow =>
    rw [Fallible.bind_ok hworkflow, Fallible.bind_ok hworkflow]
    rcases htasks : reserveTaskIds following with ⟨result, later⟩
    cases result with
    | error e => rw [Fallible.bind_error htasks, Fallible.bind_error htasks]
    | ok tasks =>
      rw [Fallible.bind_ok htasks, Fallible.bind_ok htasks]
      have hallocates := reserveOutputReferences_allocates later
      rcases hreferences : reserveOutputReferences later with ⟨result, last⟩
      rw [hreferences] at hallocates
      cases result with
      | ok references =>
        rw [Fallible.bind_ok hreferences]
        exact hallocates
      | error e =>
        rw [Fallible.bind_error hreferences]
        exact hallocates

/-- A call gives out the next identities, each once. -/
theorem WorkflowCall.givenOut_eq (P : ModelTaskExecutor M) (Q : ValidationTaskExecutor V) (call : WorkflowCall)
    (hsane : base.Sane) : ∃ k, call.givenOut base = List.range' base.nextArtifactId k ∧
      (call.apply P Q base).nextArtifactId = base.nextArtifactId + k := by
  cases call with
  | pollEvent => exact ⟨0, rfl, rfl⟩
  | insertSpecification specification =>
    cases hcheck : checkSpecification specification base with
    | error e =>
      have hrefused : CorrectiveWorkflowExecutor.insertSpecification specification base = (.error e, base) :=
        Fallible.bind_error (Fallible.check_error hcheck)
      refine ⟨0, by rw [givenOut, hcheck]; rfl, ?_⟩
      rw [apply, hrefused]
      rfl
    | ok u =>
      obtain ⟨k, hids, hnext⟩ := allocations_eq 1 base
      refine ⟨k, by rw [givenOut, hcheck]; exact hids, ?_⟩
      rw [apply, insertSpecification_next hcheck]
      exact hnext
  | execute specificationId c =>
    cases hcheck : checkExecution specificationId c base with
    | error e =>
      have hrefused : CorrectiveWorkflowExecutor.execute P Q specificationId c base = (.error e, base) :=
        Fallible.bind_error (Fallible.check_error hcheck)
      refine ⟨0, by rw [givenOut, hcheck]; rfl, ?_⟩
      rw [apply, hrefused]
      rfl
    | ok specification =>
      have htasks := reserveTasks_next base
      rw [givenOut, apply, execute_next hsane hcheck, reserveExecution_allocates, hcheck]
      rcases hreserve : reserveTasks base with ⟨result, following⟩
      rw [hreserve] at htasks
      cases result with
      | error e => exact ⟨0, rfl, htasks⟩
      | ok ids =>
        obtain ⟨k, hids, hnext⟩ := allocations_eq workflowOutputCount following
        have hsame : following.nextArtifactId = base.nextArtifactId := htasks
        rw [hsame] at hids hnext
        exact ⟨k, hids, hnext⟩

theorem givenOut_eq (P : ModelTaskExecutor M) (Q : ValidationTaskExecutor V) (calls : List WorkflowCall)
    (hsane : base.Sane) : ∃ k, givenOut P Q calls base = List.range' base.nextArtifactId k ∧
      (runCalls P Q calls base).nextArtifactId = base.nextArtifactId + k := by
  induction calls generalizing base with
  | nil => exact ⟨0, rfl, rfl⟩
  | cons call calls ih =>
    obtain ⟨k, hids, hnext⟩ := call.givenOut_eq P Q hsane
    obtain ⟨k', hids', hnext'⟩ := ih (call.apply_sane hsane)
    rw [hnext] at hids' hnext'
    refine ⟨k + k', ?_, hnext'.trans (Nat.add_assoc _ _ _)⟩
    rw [givenOut, hids, hids', List.range'_append_1]

end Identities

/-- Over any calls of a new executor: an artifact that is stored stays as it is, the
store and the queue of events stay within their limits, no artifact identity is
given out twice, and all artifacts are stored under identities that were. -/
theorem artifacts_kept (P : ModelTaskExecutor M) (Q : ValidationTaskExecutor V) (model : M) (validator : V)
    (limits : WorkflowExecutorLimits) (calls calls' : List WorkflowCall) :
    let start : CorrectiveWorkflowExecutor M V := .new model validator limits
    let executor := runCalls P Q calls start
    let executor' := runCalls P Q calls' executor
    Extends executor executor' ∧ executor'.Bounded ∧ (givenOut P Q (calls ++ calls') start).Nodup ∧
      ∀ id artifact, executor'.artifacts.get id = some artifact → id ∈ givenOut P Q (calls ++ calls') start := by
  intro start executor executor'
  have hsane : start.Sane := sane_new _ _ _
  have hbounded : start.Bounded := ⟨rfl, Nat.zero_le _, Nat.zero_le _⟩
  have hsane' : executor.Sane := runCalls_sane calls hsane
  obtain ⟨hstored, hbounded'⟩ := runCalls_extends (P := P) (Q := Q) calls hsane hbounded
  obtain ⟨hextends, hfinal⟩ := runCalls_extends (P := P) (Q := Q) calls' hsane' hbounded'
  obtain ⟨k, hids, hnext⟩ := givenOut_eq P Q (calls ++ calls') hsane
  rw [runCalls_append] at hnext
  refine ⟨hextends, hfinal, ?_, fun id artifact hget => ?_⟩
  · rw [hids]
    exact List.nodup_range'
  · rw [hids, List.mem_range'_1, ← hnext]
    refine ⟨?_, (runCalls_sane calls' hsane' id artifact hget).2⟩
    obtain hnone | hle := (hstored.trans hextends).added id artifact hget
    · cases hnone
    · exact hle

/-- A specification gets the first identity, the outputs of an execution those after
it, and a second specification the next. -/
theorem artifacts_kept_specified :
    let start : CorrectiveWorkflowExecutor Bool Unit := .new false () ⟨16, 64, 1024⟩
    let calls : List WorkflowCall := [.insertSpecification "sort a list", .execute 1 twoAttempts]
    let calls' : List WorkflowCall := [.pollEvent, .insertSpecification "sort it again"]
    let executor := runCalls wakingModel acceptingValidator calls start
    let executor' := runCalls wakingModel acceptingValidator calls' executor
    givenOut wakingModel acceptingValidator (calls ++ calls') start = [1, 2, 3, 4, 5, 6, 7, 8] ∧
      executor'.artifacts.artifacts.size = 8 ∧ Extends executor executor' ∧ executor'.Bounded := by
  intro start calls calls' executor executor'
  obtain ⟨hextends, hbounded, -⟩ := artifacts_kept wakingModel acceptingValidator false () ⟨16, 64, 1024⟩ calls calls'
  exact ⟨by decide +kernel, by decide +kernel, hextends, hbounded⟩

end LlmApp
