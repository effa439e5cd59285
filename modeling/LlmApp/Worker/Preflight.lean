/-
# The preflight agrees with the start

Before the host allocates a generation's workspaces, the registry makes the
checks of its start without starting it. The two are written apart: the start
counts the new request and workspace, admits the backend's share by itself and
adds up the account of the slot, and each of these can overflow.

`Admissible` is what both check. In a state of the worker the rest of the start
follows: its counters have room (`InferenceRuntime.Balanced`), and what a slot
has reserved is a part of the total (`Covered.slot_part`).

Key definitions: `Admissible`, `PassesStart`, `CreationFails`.
Key theorems: `preflight_ok_iff`, `Admissible.passesStart`, `preflight_agrees`.
-/
import LlmApp.Worker.Coverage

namespace LlmApp

open InferenceRuntime

variable {σ Source τ : Type} (b : Backend σ Source) (s : Sampling τ)

theorem MemoryFootprint.hostBytes_add_le (f g : MemoryFootprint) : f.hostBytes ≤ (f + g).hostBytes := by
  simp only [hostBytes, saturatingAdd, add_hostWeightBytes, add_hostWorkingBytes]
  omega

theorem MemoryFootprint.deviceBytes_add_le (f g : MemoryFootprint) : f.deviceBytes ≤ (f + g).deviceBytes := by
  simp only [deviceBytes, saturatingAdd, add_deviceWeightBytes, add_deviceWorkingBytes]
  omega

/-! ### What both check -/

section Checks

variable (rt : InferenceRuntime σ) (handle : ModelHandle) (r : RequestId) (sequenceId : SequenceId)
  (configuration : SequenceConfiguration) (w : MemoryFootprint) (capacity : ℕ)

/-- The checks before the plan. -/
structure Plannable (slot : ModelSlot) : Prop where
  identities : rt.checkIdentities r sequenceId = .ok ()
  resident : rt.exactModel handle = .ok slot
  healthy : slot.poisoned ≠ true
  serving : slot.lifecycle.state.serving ≠ false
  sequences : checkSequences slot = .ok ()

/-- The checks of the preflight, on the slot of the model and the plan of the
sequence. -/
structure Admissible (slot : ModelSlot) (plan : SequencePlan) : Prop extends Plannable rt handle r sequenceId slot where
  configuration : plan.configuration = configuration
  logits : plan.logitsCapacity = capacity
  committed : (plan.expectedFootprint + w).Fits
  admitted : ∃ reserved, admitFootprint rt.reservedFootprint (plan.expectedFootprint + w)
    rt.limits.memoryBudget = .ok reserved

/-- The start passes every check it makes before it creates the sequence. -/
def PassesStart : Prop :=
  ∃ reservation plan loader footprints,
    rt.checkStart handle r sequenceId w (some capacity) = .ok reservation ∧
    rt.loader.planSequence b reservation.slot.model configuration = (.ok plan, loader) ∧
    rt.checkPlan reservation.slot plan configuration w (some capacity) = .ok footprints

/-- The backend fails to create the sequence, or creates one with another
identity or token capacity. -/
def CreationFails (loader : BackendState σ) (model : ModelRef) : Prop :=
  match loader.createSequence b model sequenceId configuration with
  | (.error _, _) => True
  | (.ok sequence, loader) =>
    sequence.id ≠ sequenceId ∨ b.tokenCapacity loader.world sequence.ref ≠ configuration.maximumTokens.get

variable {rt handle r sequenceId configuration w capacity} {slot : ModelSlot} {plan : SequencePlan}

theorem Plannable.isOpen (h : Plannable rt handle r sequenceId slot) : rt.shuttingDown = false := by
  have hids := h.identities
  simp only [checkIdentities, rejectIfShuttingDown, Except.bind_eq_ok, Except.failIf_eq_ok] at hids
  obtain ⟨_, hopen, -⟩ := hids
  simpa using hopen

/-- The checks before the plan do not read the backend. -/
theorem Plannable.of_loader {loader : BackendState σ}
    (h : Plannable { rt with loader := loader } handle r sequenceId slot) : Plannable rt handle r sequenceId slot :=
  ⟨h.identities, h.resident, h.healthy, h.serving, h.sequences⟩

theorem Admissible.withLoader (h : Admissible rt handle r sequenceId configuration w capacity slot plan)
    (loader : BackendState σ) :
    Admissible { rt with loader := loader } handle r sequenceId configuration w capacity slot plan :=
  ⟨⟨h.identities, h.resident, h.healthy, h.serving, h.sequences⟩, h.configuration, h.logits, h.committed, h.admitted⟩

/-- Once its first checks pass, the preflight asks for a plan. -/
theorem Plannable.preflight_state (h : Plannable rt handle r sequenceId slot) (configuration : SequenceConfiguration)
    (w : MemoryFootprint) (capacity : ℕ) :
    (rt.preflightGenerationResources b handle r sequenceId configuration w capacity).2 =
      { rt with loader := (rt.loader.planSequence b slot.model configuration).2 } := by
  have hpoisoned : Except.failIf (slot.poisoned = true) (RuntimeError.modelDegraded handle.id) = .ok () :=
    Except.failIf_eq_ok.mpr h.healthy
  have hserving : Except.failIf (slot.lifecycle.state.serving = false)
      (RuntimeError.lifecycle .invalidTransition) = .ok () := Except.failIf_eq_ok.mpr h.serving
  unfold preflightGenerationResources
  simp only [h.identities, h.resident, hpoisoned, hserving, h.sequences, Except.ok_bind, pure, Except.pure]
  rcases rt.loader.planSequence b slot.model configuration with ⟨_ | _, loader⟩ <;> rfl

/-- The preflight changes nothing but the backend. -/
theorem preflight_registry : ∃ loader,
    (rt.preflightGenerationResources b handle r sequenceId configuration w capacity).2 = { rt with loader := loader } := by
  unfold preflightGenerationResources
  dsimp only
  split
  · exact ⟨rt.loader, rfl⟩
  · split <;> exact ⟨_, rfl⟩

/-- The preflight returns `Ok` exactly if a plan passes its checks. -/
theorem preflight_ok_iff :
    (rt.preflightGenerationResources b handle r sequenceId configuration w capacity).1 = .ok () ↔
      ∃ slot plan loader, rt.loader.planSequence b slot.model configuration = (.ok plan, loader) ∧
        Admissible rt handle r sequenceId configuration w capacity slot plan := by
  unfold preflightGenerationResources
  dsimp only
  constructor
  · intro h
    split at h
    · cases h
    next slot hchecks =>
    simp only [Except.bind_eq_ok, Except.failIf_eq_ok, Except.pure_eq_ok] at hchecks
    obtain ⟨_, hids, slot', hslot, _, hpoisoned, _, hserving, _, hsequences, rfl⟩ := hchecks
    split at h
    · cases h
    next plan loader hplan =>
    simp only [Except.bind_eq_ok, Except.failIf_eq_ok, checkedAddFootprint_ok, not_or, not_not] at h
    obtain ⟨_, ⟨hconfiguration, hlogits⟩, _, ⟨rfl, hfits⟩, reserved, hreserved, -⟩ := h
    exact ⟨slot', plan, loader, hplan, ⟨hids, hslot, hpoisoned, hserving, hsequences⟩, hconfiguration, hlogits,
      hfits, reserved, hreserved⟩
  · rintro ⟨slot, plan, loader, hplan, h⟩
    obtain ⟨reserved, hreserved⟩ := h.admitted
    have hpoisoned : Except.failIf (slot.poisoned = true) (RuntimeError.modelDegraded handle.id) = .ok () :=
      Except.failIf_eq_ok.mpr h.healthy
    have hserving : Except.failIf (slot.lifecycle.state.serving = false)
        (RuntimeError.lifecycle .invalidTransition) = .ok () := Except.failIf_eq_ok.mpr h.serving
    have hmatches : Except.failIf (plan.configuration ≠ configuration ∨ plan.logitsCapacity ≠ capacity)
        RuntimeError.backendContractViolation = .ok () :=
      Except.failIf_eq_ok.mpr (by simp [h.configuration, h.logits])
    have hcommitted : checkedAddFootprint plan.expectedFootprint w = .ok (plan.expectedFootprint + w) :=
      checkedAddFootprint_ok.mpr ⟨rfl, h.committed⟩
    simp only [h.identities, h.resident, hpoisoned, hserving, h.sequences, Except.ok_bind, pure, Except.pure, hplan,
      hmatches, hcommitted, hreserved]

/-- What passes the checks of the start passes those of the preflight. -/
theorem PassesStart.admissible (h : PassesStart b rt handle r sequenceId configuration w capacity) :
    ∃ slot plan loader, rt.loader.planSequence b slot.model configuration = (.ok plan, loader) ∧
      Admissible rt handle r sequenceId configuration w capacity slot plan := by
  obtain ⟨reservation, plan, loader, footprints, hstart, hplan, hadmit⟩ := h
  simp only [checkStart, Except.bind_eq_ok, Except.failIf_eq_ok, Except.pure_eq_ok] at hstart
  obtain ⟨_, hids, _, -, _, -, _, -, slot, hslot, _, hpoisoned, _, hserving, _, -, _, hsequences, rfl⟩ := hstart
  simp only [checkPlan, Except.bind_eq_ok, Except.failIf_eq_ok, Except.pure_eq_ok, checkedAddFootprint_ok,
    Option.any_some, decide_eq_true_eq, not_or, not_not] at hadmit
  obtain ⟨_, ⟨hconfiguration, hlogits⟩, _, ⟨rfl, hfits⟩, _, -, reserved, hreserved, -⟩ := hadmit
  exact ⟨slot, plan, loader, hplan, ⟨hids, hslot, hpoisoned, hserving, hsequences⟩, hconfiguration, hlogits, hfits,
    reserved, hreserved⟩

/-- What is admissible passes the checks of the start, where the counters have
room and the slot's account is a part of the total. -/
theorem Admissible.passesStart (hi : Consistent rt) (hroom : rt.generationWorkspaces < u32Max)
    (hpart : rt.shuttingDown = false → ∀ slot, rt.models.get? handle.id = some slot →
      ∃ rest, slot.reservedFootprint + rest = rt.reservedFootprint)
    {loader : BackendState σ} (hplan : rt.loader.planSequence b slot.model configuration = (.ok plan, loader))
    (h : Admissible rt handle r sequenceId configuration w capacity slot plan) :
    PassesStart b rt handle r sequenceId configuration w capacity := by
  obtain ⟨hr, -, -, -, hcapacity⟩ := checkIdentities_ok h.identities
  obtain ⟨hm, -⟩ := exactModel_ok h.resident
  obtain ⟨total, htotal⟩ := h.admitted
  obtain ⟨rfl, htotalFits, hhost, hdevice⟩ := admitFootprint_ok.mp htotal
  -- The counters.
  have hactive : checkedAdd u32Max rt.activeRequests 1 = some (rt.activeRequests + 1) := by
    have hmaximum := rt.limits.maximumActiveRequests.le
    exact checkedAdd_eq_some.mpr ⟨rfl, by omega⟩
  have hworkspaces : checkedAdd u32Max rt.generationWorkspaces 1 = some (rt.generationWorkspaces + 1) :=
    checkedAdd_eq_some.mpr ⟨rfl, hroom⟩
  -- The total over the tasks is a part of what is reserved.
  have hworkspace : checkedAddFootprint rt.reservedGenerationWorkspace w =
      .ok (rt.reservedGenerationWorkspace + w) := by
    refine checkedAddFootprint_ok.mpr ⟨rfl, MemoryFootprint.Fits.of_add (b := rt.backendTotal + plan.expectedFootprint) ?_⟩
    have hsum : rt.reservedGenerationWorkspace + w + (rt.backendTotal + plan.expectedFootprint) =
        rt.reservedFootprint + (plan.expectedFootprint + w) := by
      rw [hi.reserved]
      ac_rfl
    rw [hsum]
    exact htotalFits
  have hrequest : slot.requests.contains r ≠ true := by
    intro hcontains
    rw [OrdMap.contains_eq] at hcontains
    obtain ⟨q, hq⟩ := Option.isSome_iff_exists.mp hcontains
    have hindex := (hi.active_index hm hq).1
    rw [hr] at hindex
    cases hindex
  -- The backend's share is a part of the committed footprint.
  have hbackend : rt.reservedFootprint + plan.expectedFootprint + w =
      rt.reservedFootprint + (plan.expectedFootprint + w) := add_assoc ..
  have hadmit : admitFootprint rt.reservedFootprint plan.expectedFootprint rt.limits.memoryBudget =
      .ok (rt.reservedFootprint + plan.expectedFootprint) := by
    rw [← hbackend] at htotalFits hhost hdevice
    exact admitFootprint_ok.mpr ⟨rfl, htotalFits.of_add, (MemoryFootprint.hostBytes_add_le ..).trans hhost,
      (MemoryFootprint.deviceBytes_add_le ..).trans hdevice⟩
  -- The slot's account is a part of the total.
  obtain ⟨rest, hrest⟩ := hpart h.isOpen slot hm
  have hslot : (slot.reservedFootprint + (plan.expectedFootprint + w)).Fits := by
    refine MemoryFootprint.Fits.of_add (b := rest) ?_
    have hsum : slot.reservedFootprint + (plan.expectedFootprint + w) + rest =
        rt.reservedFootprint + (plan.expectedFootprint + w) := by
      rw [← hrest]
      ac_rfl
    rw [hsum]
    exact htotalFits
  have hslotBackend : (slot.reservedFootprint + plan.expectedFootprint).Fits := by
    rw [← add_assoc] at hslot
    exact hslot.of_add
  have hstart : rt.checkStart handle r sequenceId w (some capacity) = .ok ⟨rt.activeRequests + 1,
      rt.generationWorkspaces + 1, rt.reservedGenerationWorkspace + w, slot⟩ := by
    simp only [checkStart, Except.bind_eq_ok, Except.failIf_eq_ok, Except.pure_eq_ok, Except.okOr_eq_ok,
      Option.isSome_some, if_true]
    exact ⟨(), h.identities, _, hactive, _, hworkspaces, _, hworkspace, slot, h.resident, (), h.healthy, (), h.serving,
      (), hrequest, (), h.sequences, rfl⟩
  have hplanned : rt.checkPlan slot plan configuration w (some capacity) = .ok ⟨plan.expectedFootprint + w,
      rt.reservedFootprint + plan.expectedFootprint, rt.reservedFootprint + (plan.expectedFootprint + w),
      slot.reservedFootprint + plan.expectedFootprint, slot.reservedFootprint + (plan.expectedFootprint + w)⟩ := by
    simp only [checkPlan, Except.bind_eq_ok, Except.failIf_eq_ok, Except.pure_eq_ok, Option.any_some,
      decide_eq_true_eq, not_or, not_not]
    exact ⟨(), ⟨h.configuration, h.logits⟩, _, checkedAddFootprint_ok.mpr ⟨rfl, h.committed⟩, _, hadmit, _, htotal, _,
      checkedAddFootprint_ok.mpr ⟨rfl, hslotBackend⟩, _, checkedAddFootprint_ok.mpr ⟨rfl, hslot⟩, rfl⟩
  exact ⟨_, plan, loader, _, hstart, hplan, hplanned⟩

/-- A start that passes its checks fails exactly if the creation does. -/
theorem PassesStart.error_iff (hi : Consistent rt)
    (h : PassesStart b rt handle r sequenceId configuration w capacity) (hm : rt.models.get? handle.id = some slot) :
    (∃ e, (rt.startGenerationRequest b handle r sequenceId configuration w capacity).1 = .error e) ↔
      CreationFails b sequenceId configuration (rt.loader.planSequence b slot.model configuration).2 slot.model := by
  obtain ⟨reservation, plan, loader, footprints, hstart, hplan, hadmit⟩ := h
  obtain ⟨-, -, -, -, -, hm', -⟩ := checkStart_ok hstart
  obtain rfl : reservation.slot = slot := Option.some.inj (hm'.symm.trans hm)
  obtain ⟨lifecycle, hlife, -⟩ := checkStart_startRequest hi hstart
  have hconfiguration : plan.configuration = configuration := by
    simp only [checkPlan, Except.bind_eq_ok, Except.failIf_eq_ok, not_or, not_not] at hadmit
    exact hadmit.choose_spec.1.1
  unfold startGenerationRequest startRequestWithReservation CreationFails
  simp only [hstart, hplan, hadmit, hconfiguration]
  rcases loader.createSequence b reservation.slot.model sequenceId configuration with ⟨e | sequence, loader'⟩
  · exact iff_of_true ⟨_, rfl⟩ trivial
  dsimp only
  by_cases hwrong : sequence.id ≠ sequenceId ∨
      b.tokenCapacity loader'.world sequence.ref ≠ configuration.maximumTokens.get
  · rw [if_pos hwrong]
    exact iff_of_true (rollbackSequence_error b ..) hwrong
  · rw [if_neg hwrong, hlife]
    refine iff_of_false ?_ hwrong
    rintro ⟨_, he⟩
    cases he

end Checks

/-! ### The states of the worker -/

/-- In every state of a run with room for one more workspace: the preflight
returns `Ok` exactly if a start passes its checks. If a plan asked for twice is
answered the same, that is so of the start after the preflight too, and after
`Ok` that start fails exactly if the creation of the sequence does. -/
theorem preflight_agrees (loader : σ) (limits : RuntimeLimits) (output : TokenOutput GenerationOutputState)
    (eventBacklogCapacity : ℕ) (inputs : List (WorkerInput Source)) :
    let w : Worker σ τ := Worker.run b s inputs (Worker.start loader limits output eventBacklogCapacity)
    w.runtime.generationWorkspaces < u32Max →
    ∀ handle r sequenceId configuration footprint capacity,
      let preflight := w.runtime.preflightGenerationResources b handle r sequenceId configuration footprint capacity
      (preflight.1 = .ok () ↔ PassesStart b w.runtime handle r sequenceId configuration footprint capacity) ∧
      ((∀ slot, w.runtime.models.get? handle.id = some slot →
          let planned := w.runtime.loader.planSequence b slot.model configuration
          (planned.2.planSequence b slot.model configuration).1 = planned.1) →
        (preflight.1 = .ok () ↔ PassesStart b preflight.2 handle r sequenceId configuration footprint capacity) ∧
        (preflight.1 = .ok () → ∀ slot, preflight.2.models.get? handle.id = some slot →
          ((∃ e, (preflight.2.startGenerationRequest b handle r sequenceId configuration footprint capacity).1 =
              .error e) ↔
            CreationFails b sequenceId configuration
              (preflight.2.loader.planSequence b slot.model configuration).2 slot.model))) := by
  intro w hroom handle r sequenceId configuration footprint capacity preflight
  obtain ⟨ha, hcovered⟩ := Worker.run_covered b s loader limits output eventBacklogCapacity inputs
  have hi : Consistent w.runtime := LlmApp.Accounted.consistent ha
  have hpart : w.runtime.shuttingDown = false → ∀ slot, w.runtime.models.get? handle.id = some slot →
      ∃ rest, slot.reservedFootprint + rest = w.runtime.reservedFootprint :=
    fun hopen slot hm => LlmApp.Covered.slot_part hcovered ha hopen hm
  have hagrees : preflight.1 = .ok () ↔ PassesStart b w.runtime handle r sequenceId configuration footprint capacity := by
    refine (preflight_ok_iff b).trans ⟨?_, fun h => h.admissible b⟩
    rintro ⟨slot, plan, loader', hplan, hadmissible⟩
    exact hadmissible.passesStart b hi hroom hpart hplan
  refine ⟨hagrees, fun hagain => ?_⟩
  obtain ⟨loader', hrt⟩ : ∃ loader', preflight.2 = { w.runtime with loader := loader' } := preflight_registry b
  have hi' : Consistent preflight.2 := (preflightGenerationResources_steps b w.runtime ..).consistent hi
  have hafter : preflight.1 = .ok () ↔
      PassesStart b preflight.2 handle r sequenceId configuration footprint capacity := by
    constructor
    · intro hok
      obtain ⟨slot, plan, loader₁, hplan, hadmissible⟩ := (preflight_ok_iff b).mp hok
      have hstate : preflight.2 = { w.runtime with loader := loader₁ } := by
        rw [hadmissible.toPlannable.preflight_state b configuration footprint capacity, hplan]
      have hplan₁ := hagain slot (exactModel_ok hadmissible.resident).1
      rw [hplan] at hplan₁
      have hplan₂ : loader₁.planSequence b slot.model configuration =
          (.ok plan, (loader₁.planSequence b slot.model configuration).2) := Prod.ext hplan₁ rfl
      rw [hstate] at hi' ⊢
      exact (hadmissible.withLoader loader₁).passesStart b hi' hroom hpart hplan₂
    · intro hpasses
      rw [hrt] at hpasses
      obtain ⟨slot, plan, loader₁, hplan, hadmissible⟩ := hpasses.admissible b
      have hplannable : Plannable w.runtime handle r sequenceId slot := hadmissible.toPlannable.of_loader
      have hstate := hplannable.preflight_state b configuration footprint capacity
      have hloader : loader' = (w.runtime.loader.planSequence b slot.model configuration).2 :=
        congrArg InferenceRuntime.loader (hrt.symm.trans hstate)
      have hplanned : (w.runtime.loader.planSequence b slot.model configuration).1 = .ok plan := by
        rw [← hagain slot (exactModel_ok hplannable.resident).1, ← hloader]
        exact congrArg Prod.fst hplan
      exact (preflight_ok_iff b).mpr ⟨slot, plan, loader', Prod.ext hplanned hloader.symm,
        hadmissible.withLoader w.runtime.loader⟩
  exact ⟨hafter, fun hok slot hm => (hafter.mp hok).error_iff b hi' hm⟩

/-- A generation on the only model, in the state after its load. -/
theorem preflight_agrees_loaded :
    let b := Backend.scripted ⟨1, 0, 2, 0, 0⟩ (fun _ _ => true) (fun _ _ => true)
    let s := Sampling.scripted fun _ => .ok 0
    let limits : RuntimeLimits := ⟨⟨1, by decide, by decide⟩, ⟨1, by decide, by decide⟩, ⟨100, 1000⟩,
      ⟨⟨1, by decide, by decide⟩⟩⟩
    let configuration : SequenceConfiguration := ⟨⟨8, by decide, by decide⟩, ⟨8, by decide, by decide⟩⟩
    let w := Worker.run b s (WorkerInput.commands [.loadModel 1 7 () 0 .cpu])
      (Worker.start () limits { tokenCapacity := 8, recordCapacity := 8 } 8)
    let preflight := w.runtime.preflightGenerationResources b ⟨7, 1⟩ 1 1 configuration ⟨0, 0, 5, 0, 0⟩ 2
    preflight.1 = .ok () ∧ PassesStart b preflight.2 ⟨7, 1⟩ 1 1 configuration ⟨0, 0, 5, 0, 0⟩ 2 ∧
      ¬∃ e, (preflight.2.startGenerationRequest b ⟨7, 1⟩ 1 1 configuration ⟨0, 0, 5, 0, 0⟩ 2).1 = .error e := by
  intro b s limits configuration w preflight
  have hroom : w.runtime.generationWorkspaces < u32Max := by decide +kernel
  have hok : preflight.1 = .ok () := by decide +kernel
  have hagain : ∀ (l : BackendState Unit) (model : ModelRef),
      ((l.planSequence b model configuration).2.planSequence b model configuration).1 =
        (l.planSequence b model configuration).1 := fun _ _ => rfl
  have h := preflight_agrees b s () limits { tokenCapacity := 8, recordCapacity := 8 } 8
    (WorkerInput.commands [.loadModel 1 7 () 0 .cpu])
  dsimp only at h
  generalize hw : Worker.run b s _ _ = w' at h
  obtain rfl : w = w' := hw
  have hpasses := ((h hroom ⟨7, 1⟩ 1 1 configuration ⟨0, 0, 5, 0, 0⟩ 2).2 fun _ _ => hagain _ _).1.mp hok
  refine ⟨hok, hpasses, ?_⟩
  rintro ⟨e, he⟩
  have hstarted : (preflight.2.startGenerationRequest b ⟨7, 1⟩ 1 1 configuration ⟨0, 0, 5, 0, 0⟩ 2).1.isOk = true := by
    decide +kernel
  rw [he] at hstarted
  cases hstarted

end LlmApp
