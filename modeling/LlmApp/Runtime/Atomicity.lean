/-
# Admission is atomic

A failed admission of a model or of a sequence leaves the registry as it was,
unless the resource it had to give back could not be destroyed. Then that
resource is quarantined, with the footprint the backend planned for it and one
attempt, and nothing else has changed.

Key definitions: `FailedLoad`, `FailedStart`.
Key theorems: `loadModel_failed`, `startRequestWithReservation_failed`,
`admission_atomic`.
-/
import LlmApp.Runtime.Accounting

namespace LlmApp

open InferenceRuntime

variable {σ Source : Type} (b : Backend σ Source)

/-! ### Failed admissions -/

namespace InferenceRuntime

/-- What a load asks the backend to plan. -/
def loadConfiguration (rt : InferenceRuntime σ) (m : ModelId) (device : DeviceId) (kind : DeviceKind) :
    LoadConfiguration :=
  ⟨⟨m, (rt.generations.get? m).getD 0 + 1⟩, device, kind,
    remainingBudget rt.limits.memoryBudget rt.reservedFootprint⟩

/-- The registry after a load whose model could not be given back. -/
def quarantineLoad (rt : InferenceRuntime σ) (m : ModelId) (model : ModelRef) (planned : MemoryFootprint)
    (report : CleanupFailureReport) (loader : BackendState σ) : InferenceRuntime σ :=
  { rt with
    loader := loader
    pendingModels := rt.pendingModels.insert m ⟨model, planned, report, 1, 0⟩
    generations := rt.generations.insert m ((rt.generations.get? m).getD 0 + 1)
    reservedFootprint := rt.reservedFootprint + planned
    lastCleanup := some (rt.firstFailure report (.model m)) }

/-- The registry after a start whose sequence could not be given back. -/
def quarantineStart (rt : InferenceRuntime σ) (m : ModelId) (slot : ModelSlot) (r : RequestId) (s : SequenceId)
    (sequence : BackendSequence) (planned : MemoryFootprint) (report : CleanupFailureReport)
    (loader : BackendState σ) : InferenceRuntime σ :=
  { rt with
    loader := loader
    models := rt.models.insert m { slot with
      pendingSequences := slot.pendingSequences.insert r ⟨r, s, sequence, planned, report, 1⟩
      reservedFootprint := slot.reservedFootprint + planned
      poisoned := true }
    pendingRequestIndex := rt.pendingRequestIndex.insert r m
    pendingSequenceIndex := rt.pendingSequenceIndex.insert s r
    pendingCleanupSequences := rt.pendingCleanupSequences + 1
    reservedFootprint := rt.reservedFootprint + planned
    lastCleanup := some (rt.firstFailure report (.sequence m r s)) }

end InferenceRuntime

/-- The ways a load fails. -/
inductive FailedLoad (rt : InferenceRuntime σ) (m : ModelId) (source : Source) (device : DeviceId)
    (kind : DeviceKind) : Answer σ LoadReceipt → Prop
  | unchanged {e : RuntimeError} (he : e.isCleanup = false) (loader : BackendState σ) :
      FailedLoad rt m source device kind (.error e, { rt with loader := loader })
  | quarantined {plan : LoadPlan} (model : ModelRef) (report : CleanupFailureReport) (loader : BackendState σ)
      (hm : rt.models.get? m = none) (hp : rt.pendingModels.get? m = none)
      (hplan : (b.planLoad rt.loader.world source (rt.loadConfiguration m device kind)).1 = .ok plan) :
      FailedLoad rt m source device kind (.error (cleanupRetentionError (rt.firstFailure report (.model m))),
        rt.quarantineLoad m model plan.expectedFootprint report loader)

/-- The ways a start fails. -/
inductive FailedStart (rt : InferenceRuntime σ) (m : ModelId) (r : RequestId) (s : SequenceId)
    (configuration : SequenceConfiguration) : Answer σ RequestStartReceipt → Prop
  | unchanged {e : RuntimeError} (he : e.isCleanup = false) (loader : BackendState σ) :
      FailedStart rt m r s configuration (.error e, { rt with loader := loader })
  | quarantined {slot : ModelSlot} {plan : SequencePlan} (sequence : BackendSequence)
      (report : CleanupFailureReport) (loader : BackendState σ) (hm : rt.models.get? m = some slot)
      (hr : rt.requestIndex.get? r = none) (hpr : rt.pendingRequestIndex.get? r = none)
      (hs : rt.sequenceIndex.get? s = none) (hps : rt.pendingSequenceIndex.get? s = none)
      (hplan : (b.planSequence rt.loader.world slot.model configuration).1 = .ok plan) :
      FailedStart rt m r s configuration
        (.error (cleanupRetentionError (rt.firstFailure report (.sequence m r s))),
          rt.quarantineStart m slot r s sequence plan.expectedFootprint report loader)

/-! ### The errors of the checks -/

/-- The error is not of a cleanup. -/
def NoCleanup (e : RuntimeError) : Prop := e.isCleanup = false

section Checks

open Except

variable {α : Type} (rt : InferenceRuntime σ)

theorem failIf_noCleanup {c : Prop} [Decidable c] {e : RuntimeError} (h : e.isCleanup = false) :
    ErrorsIn NoCleanup (failIf c e) := errorsIn_failIf h

theorem okOr_noCleanup {o : Option α} {e : RuntimeError} (h : e.isCleanup = false) :
    ErrorsIn NoCleanup (okOr o e) := errorsIn_okOr h

theorem rejectIfShuttingDown_errors : ErrorsIn NoCleanup rt.rejectIfShuttingDown := failIf_noCleanup rfl

theorem nextHandle_errors (m : ModelId) : ErrorsIn NoCleanup (rt.nextHandle m) :=
  (okOr_noCleanup rfl).bind fun _ => errorsIn_pure

theorem checkLoad_errors (m : ModelId) : ErrorsIn NoCleanup (rt.checkLoad m) := by
  refine (rejectIfShuttingDown_errors rt).bind fun _ => ?_
  refine (failIf_noCleanup rfl).bind fun _ => ?_
  exact (failIf_noCleanup rfl).bind fun _ => nextHandle_errors rt m

theorem checkedAddFootprint_errors (left right : MemoryFootprint) :
    ErrorsIn NoCleanup (checkedAddFootprint left right) := by
  have field (a c : ℕ) : ErrorsIn NoCleanup (okOr (checkedAdd u64Max a c) .memoryArithmeticOverflow) :=
    okOr_noCleanup rfl
  exact (field _ _).bind fun _ => (field _ _).bind fun _ => (field _ _).bind fun _ =>
    (field _ _).bind fun _ => (field _ _).bind fun _ => errorsIn_pure

theorem admitFootprint_errors (current additional : MemoryFootprint) (budget : MemoryBudget) :
    ErrorsIn NoCleanup (admitFootprint current additional budget) := by
  refine (checkedAddFootprint_errors current additional).bind fun _ => ?_
  exact (failIf_noCleanup rfl).bind fun _ => (failIf_noCleanup rfl).bind fun _ => errorsIn_pure

theorem checkIdentities_errors (r : RequestId) (s : SequenceId) :
    ErrorsIn NoCleanup (rt.checkIdentities r s) := by
  refine (rejectIfShuttingDown_errors rt).bind fun _ => ?_
  exact (failIf_noCleanup rfl).bind fun _ => (failIf_noCleanup rfl).bind fun _ => failIf_noCleanup rfl

theorem exactModel_errors (handle : ModelHandle) : ErrorsIn NoCleanup (rt.exactModel handle) :=
  (okOr_noCleanup rfl).bind fun _ => (failIf_noCleanup rfl).bind fun _ => errorsIn_pure

theorem checkStart_errors (handle : ModelHandle) (r : RequestId) (s : SequenceId) (workspace : MemoryFootprint)
    (capacity : Option ℕ) : ErrorsIn NoCleanup (rt.checkStart handle r s workspace capacity) := by
  refine (checkIdentities_errors rt r s).bind fun _ => (okOr_noCleanup rfl).bind fun _ => ?_
  refine ErrorsIn.bind ?_ fun _ => ErrorsIn.bind ?_ fun _ => (exactModel_errors rt handle).bind fun _ => ?_
  · split_ifs
    · exact okOr_noCleanup rfl
    · exact errorsIn_ok
  · split_ifs
    · exact checkedAddFootprint_errors _ _
    · exact errorsIn_ok
  · refine (failIf_noCleanup rfl).bind fun _ => (failIf_noCleanup rfl).bind fun _ => ?_
    exact (failIf_noCleanup rfl).bind fun _ => (failIf_noCleanup rfl).bind fun _ => errorsIn_pure

theorem checkPlan_errors (slot : ModelSlot) (plan : SequencePlan) (configuration : SequenceConfiguration)
    (workspace : MemoryFootprint) (capacity : Option ℕ) :
    ErrorsIn NoCleanup (rt.checkPlan slot plan configuration workspace capacity) := by
  refine (failIf_noCleanup rfl).bind fun _ => (checkedAddFootprint_errors _ _).bind fun _ => ?_
  refine (admitFootprint_errors _ _ _).bind fun _ => (admitFootprint_errors _ _ _).bind fun _ => ?_
  exact (checkedAddFootprint_errors _ _).bind fun _ => (checkedAddFootprint_errors _ _).bind fun _ => errorsIn_pure

end Checks

/-! ### What a failed admission leaves -/

namespace InferenceRuntime

variable {b} {rt : InferenceRuntime σ}

theorem loadModel_failed (m : ModelId) (source : Source) (device : DeviceId) (kind : DeviceKind) {e : RuntimeError}
    (h : (rt.loadModel b m source device kind).1 = .error e) :
    FailedLoad b rt m source device kind (rt.loadModel b m source device kind) := by
  revert h
  unfold loadModel
  split
  · next e' hcheck => exact fun _ => .unchanged (checkLoad_errors rt m e' hcheck) rt.loader
  next handle hcheck =>
  obtain ⟨hm, hp, hid, hgeneration⟩ := checkLoad_ok hcheck
  have hhandle : handle = ⟨m, (rt.generations.get? m).getD 0 + 1⟩ := by
    cases handle
    simp only at hid hgeneration
    rw [hid, hgeneration]
  subst hhandle
  dsimp only
  split
  · exact fun _ => .unchanged rfl rt.loader
  next lifecycle hbegin =>
  split
  · exact fun _ => .unchanged rfl _
  next plan loader hplan =>
  have hplanned : (b.planLoad rt.loader.world source (rt.loadConfiguration m device kind)).1 = .ok plan := by
    simpa [BackendState.planLoad, loadConfiguration] using congrArg Prod.fst hplan
  split
  · next e' hadmit => exact fun _ => .unchanged (admitFootprint_errors _ _ _ e' hadmit) loader
  next nextReserved hadmit =>
  obtain ⟨rfl, -, -, -⟩ := admitFootprint_ok.mp hadmit
  split
  · exact fun _ => .unchanged rfl _
  next model loaded loader' hload =>
  split
  · next primary hvalid =>
    have hprimary : primary.isCleanup = false := by
      split_ifs at hvalid
      · cases hvalid
        rfl
      · split at hvalid
        · cases hvalid
        · cases hvalid
          rfl
    split
    · exact fun _ => .quarantined model _ _ hm hp hplanned
    · exact fun _ => .unchanged hprimary _
  · intro h
    cases h

/-- A rollback after the checks of a start. -/
theorem rollbackSequence_failed {m : ModelId} {slot : ModelSlot} {r : RequestId} {s : SequenceId}
    {configuration : SequenceConfiguration} {workspace : MemoryFootprint} {capacity : Option ℕ}
    {sequence : BackendSequence} {plan : SequencePlan} {footprints : StartFootprints} {loader : BackendState σ}
    {primary : RuntimeError} (hm : rt.models.get? m = some slot) (hr : rt.requestIndex.get? r = none)
    (hpr : rt.pendingRequestIndex.get? r = none) (hs : rt.sequenceIndex.get? s = none)
    (hps : rt.pendingSequenceIndex.get? s = none)
    (hcap : rt.activeRequests + rt.pendingCleanupSequences < rt.limits.maximumActiveRequests.get)
    (hplanned : (b.planSequence rt.loader.world slot.model configuration).1 = .ok plan)
    (hplan : ∃ before : BackendState σ, ({ rt with loader := before } : InferenceRuntime σ).checkPlan slot plan
      configuration workspace capacity = .ok footprints)
    (hprimary : primary.isCleanup = false) :
    FailedStart b rt m r s configuration
      (rollbackSequence b { rt with loader := loader } slot m r s sequence plan footprints primary) := by
  obtain ⟨before, hplan⟩ := hplan
  obtain ⟨-, hres, -, hslot, -⟩ := checkPlan_ok hplan
  unfold rollbackSequence
  split
  · simp only [OrdMap.insert_eq_self hm]
    exact .unchanged hprimary _
  · have hnext : checkedAdd u32Max rt.pendingCleanupSequences 1 = some (rt.pendingCleanupSequences + 1) :=
      checkedAdd_eq_some.mpr ⟨rfl, by have := rt.limits.maximumActiveRequests.le; omega⟩
    simp only [hnext, ← hres, ← hslot]
    exact .quarantined sequence _ _ hm hr hpr hs hps hplanned

theorem startRequestWithReservation_failed (hi : Consistent rt) (handle : ModelHandle) (r : RequestId)
    (s : SequenceId) (configuration : SequenceConfiguration) (workspace : MemoryFootprint) (capacity : Option ℕ)
    {e : RuntimeError}
    (h : (rt.startRequestWithReservation b handle r s configuration workspace capacity).1 = .error e) :
    FailedStart b rt handle.id r s configuration
      (rt.startRequestWithReservation b handle r s configuration workspace capacity) := by
  revert h
  unfold startRequestWithReservation
  split
  · next e' hstart => exact fun _ => .unchanged (checkStart_errors rt _ _ _ _ _ e' hstart) rt.loader
  next reservation hstart =>
  obtain ⟨hr, hpr, hs, hps, hcap, hm, -⟩ := checkStart_ok hstart
  obtain ⟨lifecycle, hlife, -⟩ := checkStart_startRequest hi hstart
  dsimp only
  split
  · exact fun _ => .unchanged rfl _
  next plan loader hplan =>
  have hplanned : (b.planSequence rt.loader.world reservation.slot.model configuration).1 = .ok plan := by
    simpa [BackendState.planSequence] using congrArg Prod.fst hplan
  split
  · next e' hcheck => exact fun _ => .unchanged (checkPlan_errors _ _ _ _ _ _ e' hcheck) loader
  next footprints hcheck =>
  split
  · exact fun _ => .unchanged rfl _
  next sequence loader' hcreate =>
  simp only [hlife]
  split_ifs
  · exact fun _ => rollbackSequence_failed hm hr hpr hs hps hcap hplanned ⟨_, hcheck⟩ rfl
  · intro h
    cases h

end InferenceRuntime

/-! ### Every run -/

/-- In every state of a run: an admission that fails leaves the registry as it
was, or with the one resource it could not give back in quarantine. -/
theorem admission_atomic (loader : σ) (limits : RuntimeLimits) (ops : List (Operation Source)) :
    let rt := Operation.applyAll b ops (InferenceRuntime.new loader limits)
    (∀ m source device kind e, (rt.loadModel b m source device kind).1 = .error e →
      FailedLoad b rt m source device kind (rt.loadModel b m source device kind)) ∧
    (∀ handle r s configuration e, (rt.startRequest b handle r s configuration).1 = .error e →
      FailedStart b rt handle.id r s configuration (rt.startRequest b handle r s configuration)) ∧
    (∀ handle r s configuration workspace capacity e,
      (rt.startGenerationRequest b handle r s configuration workspace capacity).1 = .error e →
      FailedStart b rt handle.id r s configuration
        (rt.startGenerationRequest b handle r s configuration workspace capacity)) := by
  intro rt
  have hi : Consistent rt := (Operation.applyAll_reached b ops (.new loader limits)).consistent
  refine ⟨?_, ?_, ?_⟩
  · intro m source device kind e h
    exact loadModel_failed m source device kind h
  · intro handle r s configuration e h
    exact startRequestWithReservation_failed hi handle r s configuration 0 none h
  · intro handle r s configuration workspace capacity e h
    exact startRequestWithReservation_failed hi handle r s configuration workspace (some capacity) h

/-- A sequence with another token capacity than planned, whose destruction
fails, is quarantined without the workspace of its generation. -/
theorem admission_atomic_quarantine :
    let b := Backend.scripted ⟨1, 0, 2, 0, 0⟩ (fun _ _ => false) (fun _ _ => true)
    let limits : RuntimeLimits := ⟨⟨1, by decide, by decide⟩, ⟨1, by decide, by decide⟩, ⟨100, 100⟩,
      ⟨⟨3, by decide, by decide⟩⟩⟩
    let configuration : SequenceConfiguration := ⟨⟨4, by decide, by decide⟩, ⟨4, by decide, by decide⟩⟩
    let rt := Operation.applyAll b [.loadModel 7 () 0 .cpu] (InferenceRuntime.new () limits)
    FailedStart b rt 7 1 1 configuration (rt.startGenerationRequest b ⟨7, 1⟩ 1 1 configuration ⟨5, 0, 0, 0, 0⟩ 2) ∧
      (rt.startGenerationRequest b ⟨7, 1⟩ 1 1 configuration ⟨5, 0, 0, 0, 0⟩ 2).2.reservedFootprint =
        ⟨2, 0, 4, 0, 0⟩ := by
  intro b limits configuration rt
  refine ⟨?_, by decide +kernel⟩
  have herr : ∃ e, (rt.startGenerationRequest b ⟨7, 1⟩ 1 1 configuration ⟨5, 0, 0, 0, 0⟩ 2).1 = .error e :=
    ⟨.cleanupFailed ⟨.sequenceAdmission, .backendContract, .sequenceDestruction, .sequence⟩, by decide +kernel⟩
  obtain ⟨e, herr⟩ := herr
  exact (admission_atomic b () limits [.loadModel 7 () 0 .cpu]).2.2 ⟨7, 1⟩ 1 1 configuration ⟨5, 0, 0, 0, 0⟩ 2 e herr

end LlmApp
