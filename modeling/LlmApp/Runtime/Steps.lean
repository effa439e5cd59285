/-
# Every operation is a sequence of changes

One lemma for each operation of the runtime, whatever the backend answers and
whether it returns `Ok` or `Err`. A start of a generation may end with the
admission of its workspace, and a release of a workspace is that one change.
`prefill` and `decode` are one operation with parameters (`stepRequest`), and
`Taken` lists the ways it can go.

Key definitions: `RequestStep`, `stepRequest`, `Taken`.
Key theorems: `loadModel_steps`, `startRequestWithReservation_steps`,
`unloadModel_steps`, `pollUnloadTransition_steps`, `shutdown_steps`,
`stepRequest_taken`, `releaseGenerationWorkspace_step`.
-/
import LlmApp.Runtime.Effects
import LlmApp.Runtime.Operations

namespace LlmApp

namespace InferenceRuntime

variable {σ Source : Type} (b : Backend σ Source) {rt : InferenceRuntime σ}

/-! ### Admission -/

theorem checkLoad_ok {m : ModelId} {handle : ModelHandle} (h : rt.checkLoad m = .ok handle) :
    rt.models.get? m = none ∧ rt.pendingModels.get? m = none ∧ handle.id = m ∧
      handle.generation = (rt.generations.get? m).getD 0 + 1 := by
  simp only [checkLoad, rejectIfShuttingDown, nextHandle, Except.bind_eq_ok, Except.failIf_eq_ok,
    Except.okOr_eq_ok, Except.pure_eq_ok, checkedAdd_eq_some] at h
  obtain ⟨-, -, -, h1, -, -, _, ⟨hnext, -⟩, rfl⟩ := h
  simp only [OrdMap.contains_eq, not_or, Bool.not_eq_true, Option.isSome_eq_false_iff,
    Option.isNone_iff_eq_none] at h1
  exact ⟨h1.1, h1.2, rfl, hnext.symm⟩

theorem loadModel_steps (rt : InferenceRuntime σ) (m : ModelId) (source : Source) (device : DeviceId)
    (deviceKind : DeviceKind) : Steps rt (rt.loadModel b m source device deviceKind).2 := by
  unfold loadModel
  split
  · exact .refl rt
  next handle hcheck =>
  obtain ⟨hm, hp, hid, hnext⟩ := checkLoad_ok hcheck
  dsimp only
  split
  · exact .refl rt
  next lifecycle hbegin =>
  have hplan := BackendState.planLoad_advance b rt.loader source
    ⟨handle, device, deviceKind, remainingBudget rt.limits.memoryBudget rt.reservedFootprint⟩
  split
  · next h => exact .single (.asked (by rwa [h] at hplan))
  next plan loader h =>
  rw [h] at hplan
  split
  · exact .single (.asked hplan)
  next nextReserved hadmit =>
  obtain ⟨hres, hfits, -, -⟩ := admitFootprint_ok.mp hadmit
  split
  · next h =>
    exact .single (.asked (hplan.trans (BackendState.load_error_advance b loader h)))
  next model loaded loader' h =>
  obtain ⟨hmodel, hload⟩ := BackendState.load_ok_advance b loader h
  have hmodel' : model = rt.loader.models := by rw [hmodel, hplan.models, Nat.add_zero]
  have hloaded := hplan.trans hload
  split
  · split
    · next e loader'' h =>
      have hprep := hloaded.trans (BackendState.prepareUnload_advance b loader' h)
      exact .head (.loadQuarantined (p := ⟨model, plan.expectedFootprint, _, 1, 0⟩) hm hp hmodel' rfl hres
        hprep hnext) (.noted _ _ _ _ id)
    · next loader'' h =>
      have hprep := hloaded.trans (BackendState.prepareUnload_advance b loader' h)
      exact .single (.loadRolledBack hm hp hmodel' hprep)
  · next lifecycle' hvalid =>
    have hstate : lifecycle'.state = .ready := by
      split_ifs at hvalid
      unfold ModelLifecycle.completeLoad at hvalid
      split_ifs at hvalid
      cases hvalid
      rfl
    exact .single (.loaded hm hp hid ⟨hstate, rfl, rfl, rfl, rfl⟩ hmodel' hres hfits hloaded hnext)

/-- What the checks before the plan of a sequence establish. -/
theorem checkIdentities_ok {r : RequestId} {s : SequenceId} {u : Unit}
    (h : rt.checkIdentities r s = .ok u) :
    rt.requestIndex.get? r = none ∧ rt.pendingRequestIndex.get? r = none ∧
      rt.sequenceIndex.get? s = none ∧ rt.pendingSequenceIndex.get? s = none ∧
      rt.activeRequests + rt.pendingCleanupSequences < rt.limits.maximumActiveRequests.get := by
  simp only [checkIdentities, rejectIfShuttingDown, Except.bind_eq_ok, Except.failIf_eq_ok] at h
  simp only [OrdMap.contains_eq, not_or, Bool.not_eq_true, Option.isSome_eq_false_iff,
    Option.isNone_iff_eq_none, not_le] at h
  obtain ⟨-, -, -, ⟨h1, h2⟩, -, ⟨h3, h4⟩, h5⟩ := h
  refine ⟨h1, h2, h3, h4, ?_⟩
  have := rt.limits.maximumActiveRequests.le
  unfold saturatingAdd at h5
  omega

theorem exactModel_ok {handle : ModelHandle} {slot : ModelSlot} (h : rt.exactModel handle = .ok slot) :
    rt.models.get? handle.id = some slot ∧ slot.handle = handle := by
  simp only [exactModel, Except.bind_eq_ok, Except.okOr_eq_ok, Except.failIf_eq_ok,
    Except.pure_eq_ok, ne_eq, not_not] at h
  obtain ⟨_, h1, -, h2, rfl⟩ := h
  exact ⟨h1, h2⟩

theorem checkStart_ok {handle : ModelHandle} {r : RequestId} {s : SequenceId}
    {workspace : MemoryFootprint} {capacity : Option ℕ} {reservation : StartReservation}
    (h : rt.checkStart handle r s workspace capacity = .ok reservation) :
    rt.requestIndex.get? r = none ∧ rt.pendingRequestIndex.get? r = none ∧
      rt.sequenceIndex.get? s = none ∧ rt.pendingSequenceIndex.get? s = none ∧
      rt.activeRequests + rt.pendingCleanupSequences < rt.limits.maximumActiveRequests.get ∧
      rt.models.get? handle.id = some reservation.slot ∧
      reservation.slot.lifecycle.state.serving = true ∧
      reservation.nextActiveRequests = rt.activeRequests + 1 ∧
      (capacity = none → reservation.nextGenerationWorkspaces = rt.generationWorkspaces ∧
        reservation.nextReservedGenerationWorkspace = rt.reservedGenerationWorkspace) ∧
      (capacity.isSome = true → reservation.nextGenerationWorkspaces = rt.generationWorkspaces + 1 ∧
        reservation.nextReservedGenerationWorkspace = rt.reservedGenerationWorkspace + workspace) := by
  simp only [checkStart, Except.bind_eq_ok, Except.okOr_eq_ok, Except.failIf_eq_ok,
    Except.pure_eq_ok, checkedAdd_eq_some] at h
  obtain ⟨_, hids, active, ⟨hactive, -⟩, workspaces, hworkspaces, reserved, hreserved, slot, hslot, _, -,
    _, hserving, _, -, _, -, rfl⟩ := h
  obtain ⟨h1, h2, h3, h4, h5⟩ := checkIdentities_ok hids
  refine ⟨h1, h2, h3, h4, h5, (exactModel_ok hslot).1, by simpa using hserving, hactive.symm, ?_, ?_⟩
  · rintro rfl
    simp only [Option.isSome_none, Bool.false_eq_true, if_false, Except.ok.injEq] at hworkspaces hreserved
    exact ⟨hworkspaces.symm, hreserved.symm⟩
  · intro hc
    simp only [hc, if_true, Except.okOr_eq_ok, checkedAdd_eq_some, checkedAddFootprint_ok] at hworkspaces hreserved
    exact ⟨hworkspaces.1.symm, hreserved.1.symm⟩

/-- The lifecycle of a serving model with room for one more request accepts it. -/
theorem checkStart_startRequest (hi : Consistent rt) {handle : ModelHandle} {r : RequestId} {s : SequenceId}
    {workspace : MemoryFootprint} {capacity : Option ℕ} {reservation : StartReservation}
    (h : rt.checkStart handle r s workspace capacity = .ok reservation) :
    ∃ lifecycle, reservation.slot.lifecycle.startRequest = (.ok .none, lifecycle) ∧
      lifecycle.state = .active (reservation.slot.requests.size + 1) := by
  obtain ⟨-, -, -, -, hcap, hm, hserving, -⟩ := checkStart_ok h
  refine ModelLifecycle.startRequest_ok (hi.slot hm).lifecycle hserving ?_
  have h1 := OrdMap.total_erase (fun _ slot => slot.requests.size) hm
  rw [← hi.activeRequests] at h1
  have := rt.limits.maximumActiveRequests.le
  omega

theorem checkPlan_ok {slot : ModelSlot} {plan : SequencePlan} {configuration : SequenceConfiguration}
    {workspace : MemoryFootprint} {capacity : Option ℕ} {footprints : StartFootprints}
    (h : rt.checkPlan slot plan configuration workspace capacity = .ok footprints) :
    plan.expectedFootprint + workspace = footprints.committed ∧
      rt.reservedFootprint + plan.expectedFootprint = footprints.backendNextReserved ∧
      rt.reservedFootprint + footprints.committed = footprints.committedNextReserved ∧
      slot.reservedFootprint + plan.expectedFootprint = footprints.backendNextSlotReserved ∧
      footprints.backendNextSlotReserved.Fits ∧
      slot.reservedFootprint + footprints.committed = footprints.committedNextSlotReserved ∧
      footprints.committedNextSlotReserved.Fits := by
  simp only [checkPlan, Except.bind_eq_ok, Except.failIf_eq_ok, Except.pure_eq_ok,
    checkedAddFootprint_ok, admitFootprint_ok] at h
  obtain ⟨-, -, _, ⟨h1, -⟩, _, ⟨h2, -⟩, _, ⟨h3, -⟩, _, ⟨h4, h5⟩, _, ⟨h6, h7⟩, rfl⟩ := h
  exact ⟨h1, h2, h3, h4, h5, h6, h7⟩

/-- The rollback of a created sequence, from the state before its plan. -/
theorem rollbackSequence_steps {m : ModelId} {slot : ModelSlot} {r : RequestId}
    {sequenceId : SequenceId} {sequence : BackendSequence} {plan : SequencePlan}
    {configuration : SequenceConfiguration} {workspace : MemoryFootprint} {capacity : Option ℕ}
    {footprints : StartFootprints} {loader : BackendState σ} (hm : rt.models.get? m = some slot)
    (hr : rt.requestIndex.get? r = none) (hpr : rt.pendingRequestIndex.get? r = none)
    (hs : rt.sequenceIndex.get? sequenceId = none)
    (hps : rt.pendingSequenceIndex.get? sequenceId = none)
    (hcap : rt.activeRequests + rt.pendingCleanupSequences < rt.limits.maximumActiveRequests.get)
    (hplan : rt.checkPlan slot plan configuration workspace capacity = .ok footprints)
    (href : sequence.ref = rt.loader.sequences)
    (hl : rt.loader.Advance 0 1 [.createSequence slot.model (some sequence.ref)] loader)
    (primary : RuntimeError) :
    Steps rt (rollbackSequence b { rt with loader := loader } slot m r sequenceId sequence plan footprints
      primary).2 := by
  obtain ⟨-, hres, -, hslot, hfits, -, -⟩ := checkPlan_ok hplan
  unfold rollbackSequence
  split
  · next loader' h =>
    have hl' := hl.trans (BackendState.destroySequence_advance b loader h)
    simp only [OrdMap.insert_eq_self hm]
    exact .single (.admissionRolledBack hm hr hpr href hl')
  · next e loader' h =>
    have hl' := hl.trans (BackendState.destroySequence_advance b loader h)
    have hnext : checkedAdd u32Max rt.pendingCleanupSequences 1 = some (rt.pendingCleanupSequences + 1) :=
      checkedAdd_eq_some.mpr ⟨rfl, by have := rt.limits.maximumActiveRequests.le; omega⟩
    simp only [hnext]
    exact .head (.admissionQuarantined (p := ⟨r, sequenceId, sequence, plan.expectedFootprint, _, 1⟩)
      hm hr hpr hs hps hcap rfl rfl hslot hfits hres href hl') (.noted _ _ _ _ id)

theorem rollbackSequence_error (rt : InferenceRuntime σ) (slot : ModelSlot) (m : ModelId)
    (r : RequestId) (sequenceId : SequenceId) (sequence : BackendSequence) (plan : SequencePlan)
    (footprints : StartFootprints) (primary : RuntimeError) :
    ∃ e, (rollbackSequence b rt slot m r sequenceId sequence plan footprints primary).1 = .error e := by
  unfold rollbackSequence
  split
  · exact ⟨_, rfl⟩
  · dsimp only
    split <;> exact ⟨_, rfl⟩

/-- What a start does to the workspaces if it succeeds. -/
def startEffect (workspace : MemoryFootprint) : Option ℕ → WorkspaceEffect
  | none => .keep
  | some _ => .reserve workspace

/-- A start that returns `Ok` ends with the admission of the sequence and of
its workspace; one that returns `Err` admits none. -/
theorem startRequestWithReservation_steps (hi : Consistent rt) (handle : ModelHandle) (r : RequestId)
    (sequenceId : SequenceId) (configuration : SequenceConfiguration) (workspace : MemoryFootprint)
    (capacity : Option ℕ) (hw : capacity = none → workspace = 0) :
    ((∃ e, (rt.startRequestWithReservation b handle r sequenceId configuration workspace capacity).1 =
        .error e) ∧
      Steps rt (rt.startRequestWithReservation b handle r sequenceId configuration workspace capacity).2) ∨
    ((∃ receipt, (rt.startRequestWithReservation b handle r sequenceId configuration workspace
        capacity).1 = .ok receipt) ∧
      ∃ mid, Steps rt mid ∧ Transition (startEffect workspace capacity) mid
        (rt.startRequestWithReservation b handle r sequenceId configuration workspace capacity).2) := by
  unfold startRequestWithReservation
  split
  · exact Or.inl ⟨⟨_, rfl⟩, .refl rt⟩
  next reservation hstart =>
  obtain ⟨hr, hpr, hs, hps, hcap, hm, hserving, hactive, hnone, hsome⟩ := checkStart_ok hstart
  have hplanned := BackendState.planSequence_advance b rt.loader reservation.slot.model configuration
  dsimp only
  split
  · next h =>
    rw [h] at hplanned
    exact Or.inl ⟨⟨_, rfl⟩, .single (.used hm .planSequence hplanned)⟩
  next plan loader h =>
  rw [h] at hplanned
  -- The registry between the plan and the creation.
  have hmid : Transition .keep rt { rt with loader := loader } := .used hm .planSequence hplanned
  have hm' : ({ rt with loader := loader } : InferenceRuntime σ).models.get? _ = some _ := hm
  split
  · exact Or.inl ⟨⟨_, rfl⟩, .single hmid⟩
  next footprints hplan =>
  split
  · next h =>
    exact Or.inl ⟨⟨_, rfl⟩, .head hmid (.single (.used hm'
      .createSequence (BackendState.createSequence_error_advance b loader h)))⟩
  next sequence loader' h =>
  obtain ⟨href, hcreated⟩ := BackendState.createSequence_ok_advance b loader h
  have hmid' : Steps rt { rt with loader := loader } := .single hmid
  obtain ⟨lifecycle, hlife, hactiveState⟩ := checkStart_startRequest hi hstart
  simp only [hlife]
  split_ifs with hinvalid
  · refine Or.inl ⟨rollbackSequence_error b .., hmid'.trans ?_⟩
    exact rollbackSequence_steps b hm' hr hpr hs hps hcap hplan href
      hcreated _
  obtain ⟨hid, -⟩ := not_or.mp hinvalid
  rw [not_not] at hid
  obtain ⟨hcommitted, -, hres, -, -, hslot, hfits⟩ := checkPlan_ok hplan
  refine Or.inr ⟨⟨_, rfl⟩, _, hmid', ?_⟩
  rw [← hid, hactive]
  have heffect : (startEffect workspace capacity = .keep ∧ workspace = 0 ∧
        reservation.nextGenerationWorkspaces = rt.generationWorkspaces ∧
        reservation.nextReservedGenerationWorkspace = rt.reservedGenerationWorkspace) ∨
      (startEffect workspace capacity = .reserve workspace ∧
        reservation.nextGenerationWorkspaces = rt.generationWorkspaces + 1 ∧
        reservation.nextReservedGenerationWorkspace = rt.reservedGenerationWorkspace + workspace) := by
    cases capacity with
    | none => exact Or.inl ⟨rfl, hw rfl, hnone rfl⟩
    | some _ => exact Or.inr ⟨rfl, hsome rfl⟩
  exact .admitted
    (q := ⟨sequence, plan.expectedFootprint, workspace, {}⟩) hm' hr hpr (hid ▸ hs) (hid ▸ hps) hcap
    hserving hactiveState heffect (by rw [hcommitted]; exact hslot) hfits (by rw [hcommitted]; exact hres)
    href hcreated

theorem preflightGenerationResources_steps (rt : InferenceRuntime σ) (handle : ModelHandle)
    (r : RequestId) (sequenceId : SequenceId) (configuration : SequenceConfiguration)
    (workspace : MemoryFootprint) (capacity : ℕ) :
    Steps rt (rt.preflightGenerationResources b handle r sequenceId configuration workspace capacity).2 := by
  unfold preflightGenerationResources
  dsimp only
  split
  · exact .refl rt
  next slot hchecks =>
  simp only [Except.bind_eq_ok, Except.pure_eq_ok] at hchecks
  obtain ⟨_, -, slot', hslot, _, -, _, -, _, -, rfl⟩ := hchecks
  have hplanned := BackendState.planSequence_advance b rt.loader slot'.model configuration
  split
  · next h =>
    rw [h] at hplanned
    exact .single (.used (exactModel_ok hslot).1 .planSequence hplanned)
  · next h =>
    rw [h] at hplanned
    exact .single (.used (exactModel_ok hslot).1 .planSequence hplanned)

/-- A release of a workspace takes it out of the account, or changes nothing. -/
theorem releaseGenerationWorkspace_step (rt : InferenceRuntime σ) (w : MemoryFootprint) :
    (∃ e, rt.releaseGenerationWorkspace w = (.error e, rt)) ∨
      ((rt.releaseGenerationWorkspace w).1 = .ok () ∧
        Transition (.release w) rt (rt.releaseGenerationWorkspace w).2) := by
  unfold releaseGenerationWorkspace
  dsimp only
  split
  · exact Or.inl ⟨_, rfl⟩
  next workspaces reserved total h =>
  simp only [Except.bind_eq_ok, Except.okOr_eq_ok, checkedSub_eq_some, checkedSubFootprint_ok,
    Except.pure_eq_ok, Prod.mk.injEq] at h
  obtain ⟨_, hn, _, hw, _, hres, rfl, rfl, rfl⟩ := h
  exact Or.inr ⟨rfl, .workspaceReleased hn hw hres⟩

/-- The workspaces in the account can be released. -/
theorem releaseGenerationWorkspace_ok (hi : Consistent rt) {w : MemoryFootprint}
    {ws : Multiset MemoryFootprint} (ho : Outstanding rt (w ::ₘ ws)) :
    (rt.releaseGenerationWorkspace w).1 = .ok () := by
  have h1 : checkedSub rt.generationWorkspaces 1 = some ws.card := by
    rw [checkedSub_eq_some, ho.count, Multiset.card_cons]
  have h2 : checkedSubFootprint rt.reservedGenerationWorkspace w = .ok ws.sum := by
    rw [checkedSubFootprint_ok, ho.sum, Multiset.sum_cons, add_comm]
  have h3 : checkedSubFootprint rt.reservedFootprint w = .ok (rt.backendTotal + ws.sum) := by
    rw [checkedSubFootprint_ok, hi.reserved, ho.sum, Multiset.sum_cons]
    ac_rfl
  simp [releaseGenerationWorkspace, h1, h2, h3]

/-! ### Cancellation and release of a model -/

theorem setCancelledRequests_steps (hi : Consistent rt) (m : ModelId) (cancelled : ℕ) :
    Steps rt (rt.setCancelledRequests m cancelled) := by
  unfold setCancelledRequests
  split
  · next slot hm => exact .single (.lifecycleChanged cancelled hm (hi.slot hm).lifecycle fun h => h)
  · exact .refl rt

theorem cancelAllRequestsLoop_steps (m : ModelId) : ∀ (fuel cancelled : ℕ) {rt : InferenceRuntime σ},
    Consistent rt → Steps rt (cancelAllRequestsLoop b m fuel cancelled rt).2
  | 0, _, rt, _ => .refl rt
  | fuel + 1, cancelled, rt, hi => by
    rw [cancelAllRequestsLoop]
    split
    · exact .refl rt
    next r _ =>
    have hremove := removeRequest_steps b hi r .cancellation .cancellation
    split
    · next rt' h =>
      rw [h] at hremove
      have hset := setCancelledRequests_steps (hremove.consistent hi) m (saturatingAdd u32Max cancelled 1)
      dsimp only
      split_ifs
      · exact hremove.trans (hset.trans
          (cancelAllRequestsLoop_steps m fuel _ (hset.consistent (hremove.consistent hi))))
      · exact hremove
    · next e rt' h =>
      rw [h] at hremove
      split_ifs
      · exact hremove.trans (setCancelledRequests_steps (hremove.consistent hi) m _)
      · exact hremove

theorem cancelAllRequests_steps (hi : Consistent rt) (m : ModelId) :
    Steps rt (rt.cancelAllRequests b m).2 := by
  unfold cancelAllRequests
  split
  · exact .refl rt
  · exact cancelAllRequestsLoop_steps b m _ _ hi

theorem cancelAndRelease_steps (hi : Consistent rt) (m : ModelId) (handle : ModelHandle) :
    Steps rt (rt.cancelAndRelease b m handle).2 := by
  unfold cancelAndRelease
  have hcancel := cancelAllRequests_steps b hi m
  split
  · next h =>
    rw [h] at hcancel
    exact hcancel
  · next h =>
    rw [h] at hcancel
    have hrelease := releaseModelWithPrimary_steps b (hcancel.consistent hi) m .cancellation .cancellation
    split_ifs
    · split <;> next h' =>
        rw [h'] at hrelease
        exact hcancel.trans hrelease
    · exact hcancel

theorem unloadModel_steps (hi : Consistent rt) (handle : ModelHandle) (policy : UnloadPolicy)
    (now : MonotonicMillis) : Steps rt (rt.unloadModel b handle policy now).2 := by
  unfold unloadModel
  split_ifs
  · exact .refl rt
  split
  · exact .refl rt
  next slot hexact =>
  obtain ⟨hm, -⟩ := exactModel_ok hexact
  have hlife := (hi.slot hm).lifecycle
  split
  · next e lifecycle h =>
    rw [ModelLifecycle.requestUnload_error h, OrdMap.insert_eq_self hm]
    exact .refl rt
  next action lifecycle h =>
  obtain ⟨-, hmatches, hunload, -⟩ := ModelLifecycle.requestUnload_ok hlife h
  have hstep : Transition .keep rt
      { rt with models := rt.models.insert handle.id { slot with lifecycle := lifecycle } } :=
    .lifecycleChanged _ hm hmatches fun _ => hunload
  dsimp only
  split
  · exact .single hstep
  · exact .head hstep (cancelAndRelease_steps b (hstep.consistent hi) handle.id handle)
  · have hrelease := releaseModelWithPrimary_steps b (hstep.consistent hi) handle.id .modelUnload .completion
    rw [releaseModel]
    split <;> next h' =>
      rw [h'] at hrelease
      exact .head hstep hrelease
  · exact .single hstep

theorem pollDrains_steps (now : MonotonicMillis) : ∀ (ms : List ModelId) {rt : InferenceRuntime σ},
    Consistent rt → Steps rt (pollDrains now ms rt).2
  | [], rt, _ => .refl rt
  | m :: ms, rt, hi => by
    rw [pollDrains]
    split
    · exact pollDrains_steps now ms hi
    next slot hm =>
    split
    · next n w hstate =>
      have hpoll := ModelLifecycle.poll_draining hstate now
      have hlife := (hi.slot hm).lifecycle
      rw [hstate] at hlife
      have hn : n = slot.requests.size ∧ 0 < n := by cases hlife with | draining h => exact ⟨rfl, h⟩
      rw [hpoll]
      split_ifs
      · refine .single (.lifecycleChanged _ hm ?_ fun _ => rfl)
        rw [← hn.1]
        exact .cancelling hn.2
      · simp only [OrdMap.insert_eq_self hm]
        exact pollDrains_steps now ms hi
    · exact pollDrains_steps now ms hi

theorem pollUnloadTransition_steps (hi : Consistent rt) (now : MonotonicMillis) :
    Steps rt (rt.pollUnloadTransition b now).2 := by
  unfold pollUnloadTransition
  have hdrains := pollDrains_steps now rt.models.keys hi
  split
  · next h =>
    rw [h] at hdrains
    exact hdrains
  · next h =>
    rw [h] at hdrains
    exact hdrains.trans (cancelAndRelease_steps b (hdrains.consistent hi) _ _)
  next h =>
  rw [h] at hdrains
  have hi' := hdrains.consistent hi
  split
  · exact hdrains.trans (cancelAndRelease_steps b hi' _ _)
  split
  · next m handle _ =>
    have hrelease := releaseModelWithPrimary_steps b hi' m .modelUnload .completion
    rw [releaseModel]
    split <;> next h' =>
      rw [h'] at hrelease
      exact hdrains.trans hrelease
  · exact hdrains

theorem poll_steps (hi : Consistent rt) (now : MonotonicMillis) : Steps rt (rt.poll b now).2 := by
  have h := pollUnloadTransition_steps b hi now
  unfold poll
  split <;> next h' =>
    rw [h'] at h
    exact h

/-! ### Backend steps and the ends of a request -/

theorem endWith_steps {α : Type} (hi : Consistent rt) (r : RequestId) (operation : RuntimeOperation)
    (failure : FailureClass) (result : Except RuntimeError α) :
    Steps rt (endWith b rt r operation failure result).2 := by
  have h := removeRequest_steps b hi r operation failure
  unfold endWith
  dsimp only
  split <;> exact h

theorem setUsage_step {m : ModelId} {slot : ModelSlot} {r : RequestId} {q : RequestSlot}
    (hm : rt.models.get? m = some slot) (hr : slot.requests.get? r = some q) (usage : GenerationUsage) :
    Transition .keep rt (rt.setUsage m slot r q usage) :=
  .usageChanged usage hm hr

/-! ### The backend step of a request

`prefill` and `decode` take a checked step of other values and read its
outcome in other ways; everything else they share. -/

/-- What `prefill` and `decode` do not share: the operation of a failure, the
checked step, what its outcome ends with or adds to the usage, and the receipt. -/
structure RequestStep (σ α ρ : Type) where
  operation : RuntimeOperation
  step : BackendState σ → ModelRef → SequenceRef → List F32 → BackendState.CheckedStep σ α
  read : α → Except FinishReason (GenerationUsage → GenerationUsage)
  receipt : α → GenerationUsage → ρ
  uses {slot : ModelSlot} {r : RequestId} {q : RequestSlot} (h : slot.requests.get? r = some q) (l : BackendState σ)
    (logits : List F32) : slot.Uses (step l slot.model q.sequence.ref logits).call

def RequestStep.prefill (b : Backend σ Source) (tokens : List TokenId) (emitLogits : Bool) :
    RequestStep σ PrefillOutcome PrefillReceipt where
  operation := .prefill
  step l m s := l.prefillStep b m s ⟨tokens, emitLogits⟩
  read
    | .ready consumedTokens _ _ => .ok fun usage =>
      { usage with promptTokens := saturatingAdd u64Max usage.promptTokens (saturatingU64 consumedTokens) }
    | .finished reason => .error reason
  receipt := .mk
  uses h _ _ := .prefill h

def RequestStep.decode (b : Backend σ Source) (token : TokenId) : RequestStep σ DecodeOutcome DecodeReceipt where
  operation := .decode
  step l m s := l.decodeStep b m s token
  read
    | .ready _ _ => .ok fun usage => { usage with generatedTokens := saturatingAdd u64Max usage.generatedTokens 1 }
    | .finished reason => .error reason
  receipt := .mk
  uses h _ _ := .decode h

section Step

variable {α ρ : Type} (k : RequestStep σ α ρ)

/-- What `prefill` and `decode` share. -/
def stepRequest (rt : InferenceRuntime σ) (r : RequestId) (logits : List F32) :
    Except RuntimeError ρ × List F32 × InferenceRuntime σ :=
  match rt.requestModelId r with
  | .error e => (.error e, logits, rt)
  | .ok modelId =>
  match rt.models.get? modelId with
  | none => (.error (.modelNotLoaded modelId), logits, rt)
  | some slot =>
  match slot.requests.get? r with
  | none => (.error (.requestNotActive r), logits, rt)
  | some request =>
  match (k.step rt.loader slot.model request.sequence.ref logits).run rt.loader logits .running with
  | (.ok outcome, logits, loader) =>
    match k.read outcome with
    | .ok spend =>
      (.ok (k.receipt outcome (spend request.usage)), logits,
        setUsage { rt with loader := loader } modelId slot r request (spend request.usage))
    | .error reason =>
      let ended := endWith b { rt with loader := loader } r (finishOperation reason) (finishFailureClass reason)
        (.ok (k.receipt outcome request.usage))
      (ended.1, logits, ended.2)
  | (.error error, logits, loader) =>
    let primary := RuntimeError.sequence error
    let ended := endWith b { rt with loader := loader } r k.operation primary.failureClass (.error primary)
    (ended.1, logits, ended.2)

theorem prefill_eq (rt : InferenceRuntime σ) (r : RequestId) (tokens : List TokenId) (emitLogits : Bool)
    (logits : List F32) : rt.prefill b r tokens emitLogits logits =
      stepRequest b (.prefill b tokens emitLogits) rt r logits := by
  unfold prefill stepRequest
  rcases rt.requestModelId r with _ | m
  · rfl
  rcases hm : rt.models.get? m with _ | slot <;> simp only [hm]
  rcases slot.requests.get? r with _ | q
  · rfl
  dsimp only
  rw [BackendState.prefillChecked_eq]
  simp only [RequestStep.prefill]
  rcases (rt.loader.prefillStep b slot.model q.sequence.ref ⟨tokens, emitLogits⟩ logits).run rt.loader logits .running
    with ⟨_ | ⟨_ | _⟩, _, _⟩ <;> rfl

theorem decode_eq (rt : InferenceRuntime σ) (r : RequestId) (token : TokenId) (logits : List F32) :
    rt.decode b r token logits = stepRequest b (.decode b token) rt r logits := by
  unfold decode stepRequest
  rcases rt.requestModelId r with _ | m
  · rfl
  rcases hm : rt.models.get? m with _ | slot <;> simp only [hm]
  rcases slot.requests.get? r with _ | q
  · rfl
  dsimp only
  rw [BackendState.decodeChecked_eq]
  simp only [RequestStep.decode]
  rcases (rt.loader.decodeStep b slot.model q.sequence.ref token logits).run rt.loader logits .running
    with ⟨_ | ⟨_ | _⟩, _, _⟩ <;> rfl

/-- The ways of a backend step of request `r`: it is not active, or the
registry is no registry; the step goes on; it is ended, by the backend or by
its error, and the request removed. -/
inductive Taken (rt : InferenceRuntime σ) (r : RequestId) (logits : List F32) :
    Except RuntimeError ρ × List F32 × InferenceRuntime σ → Prop
  | inactive (hr : rt.requestIndex.get? r = none) : Taken rt r logits (.error (.requestNotActive r), logits, rt)
  | torn {e : RuntimeError} (hi : ¬Consistent rt) : Taken rt r logits (.error e, logits, rt)
  | ready {m : ModelId} {slot : ModelSlot} {q : RequestSlot} {outcome : α} {logits' : List F32}
      {loader : BackendState σ} {spend : GenerationUsage → GenerationUsage} (hm : rt.models.get? m = some slot)
      (hr : slot.requests.get? r = some q)
      (hstep : (k.step rt.loader slot.model q.sequence.ref logits).run rt.loader logits .running =
        (.ok outcome, logits', loader))
      (hread : k.read outcome = .ok spend) :
      Taken rt r logits (.ok (k.receipt outcome (spend q.usage)), logits',
        setUsage { rt with loader := loader } m slot r q (spend q.usage))
  | finished {m : ModelId} {slot : ModelSlot} {q : RequestSlot} {outcome : α} {logits' : List F32}
      {loader : BackendState σ} {reason : FinishReason} (hm : rt.models.get? m = some slot)
      (hr : slot.requests.get? r = some q)
      (hstep : (k.step rt.loader slot.model q.sequence.ref logits).run rt.loader logits .running =
        (.ok outcome, logits', loader))
      (hread : k.read outcome = .error reason) :
      Taken rt r logits ((endWith b { rt with loader := loader } r (finishOperation reason)
          (finishFailureClass reason) (.ok (k.receipt outcome q.usage))).1, logits',
        (endWith b { rt with loader := loader } r (finishOperation reason) (finishFailureClass reason)
          (.ok (k.receipt outcome q.usage))).2)
  | failed {m : ModelId} {slot : ModelSlot} {q : RequestSlot} {e : SequenceError} {logits' : List F32}
      {loader : BackendState σ} (hm : rt.models.get? m = some slot) (hr : slot.requests.get? r = some q)
      (hstep : (k.step rt.loader slot.model q.sequence.ref logits).run rt.loader logits .running =
        (.error e, logits', loader)) :
      Taken rt r logits ((endWith b { rt with loader := loader } r k.operation
          (RuntimeError.sequence e).failureClass (.error (.sequence e) : Except RuntimeError ρ)).1, logits',
        (endWith b { rt with loader := loader } r k.operation (RuntimeError.sequence e).failureClass
          (.error (.sequence e) : Except RuntimeError ρ)).2)

theorem stepRequest_taken (rt : InferenceRuntime σ) (r : RequestId) (logits : List F32) :
    Taken b k rt r logits (stepRequest b k rt r logits) := by
  unfold stepRequest
  rcases hidx : rt.requestIndex.get? r with _ | m
  · rw [requestModelId, hidx]
    exact .inactive hidx
  rw [requestModelId, hidx]
  dsimp only [Except.okOr]
  rcases hm : rt.models.get? m with _ | slot
  · refine .torn fun hi => ?_
    obtain ⟨slot, q, hslot, -⟩ := hi.slot_of_request hidx
    rw [hm] at hslot
    cases hslot
  dsimp only
  rcases hr : slot.requests.get? r with _ | q
  · refine .torn fun hi => ?_
    obtain ⟨slot', q, hslot, hq⟩ := hi.slot_of_request hidx
    obtain rfl : slot = slot' := Option.some.inj (hm.symm.trans hslot)
    rw [hr] at hq
    cases hq
  dsimp only
  rcases hstep : (k.step rt.loader slot.model q.sequence.ref logits).run rt.loader logits .running with
    ⟨e | outcome, logits', loader⟩ <;> dsimp only
  · exact .failed hm hr hstep
  rcases hread : k.read outcome with reason | spend
  · exact .finished hm hr hstep hread
  · exact .ready hm hr hstep hread

variable {b k}

/-- A backend step leaves a trace in the record and the world only. -/
theorem RequestStep.keeps {m : ModelId} {slot : ModelSlot} {r : RequestId} {q : RequestSlot} {logits : List F32}
    {answer : Except SequenceError α × List F32 × BackendState σ} (hm : rt.models.get? m = some slot)
    (hr : slot.requests.get? r = some q)
    (hstep : (k.step rt.loader slot.model q.sequence.ref logits).run rt.loader logits .running = answer) :
    Transition .keep rt { rt with loader := answer.2.2 } := by
  have hl := (k.step rt.loader slot.model q.sequence.ref logits).run_advance rt.loader logits .running
  rw [hstep] at hl
  rcases hl with hl | hl
  · exact .asked hl
  · exact .used hm (k.uses hr rt.loader logits) hl

theorem Taken.steps {r : RequestId} {logits : List F32} {answer : Except RuntimeError ρ × List F32 × InferenceRuntime σ}
    (h : Taken b k rt r logits answer) (hi : Consistent rt) : Steps rt answer.2.2 := by
  cases h with
  | inactive | torn => exact .refl rt
  | ready hm hr hstep =>
    exact .head (RequestStep.keeps hm hr hstep) (.single (setUsage_step (by exact hm) hr _))
  | finished hm hr hstep | failed hm hr hstep =>
    have hkeep := RequestStep.keeps hm hr hstep
    exact .head hkeep (endWith_steps b (hkeep.consistent hi) ..)

end Step

theorem prefill_steps (hi : Consistent rt) (r : RequestId) (tokens : List TokenId) (emitLogits : Bool)
    (logits : List F32) : Steps rt (rt.prefill b r tokens emitLogits logits).2.2 := by
  rw [prefill_eq]
  exact (stepRequest_taken b _ rt r logits).steps hi

theorem decode_steps (hi : Consistent rt) (r : RequestId) (token : TokenId) (logits : List F32) :
    Steps rt (rt.decode b r token logits).2.2 := by
  rw [decode_eq]
  exact (stepRequest_taken b _ rt r logits).steps hi

theorem completeRequest_steps (hi : Consistent rt) (r : RequestId) (reason : FinishReason) :
    Steps rt (rt.completeRequest b r reason).2 := by
  have h := removeRequest_steps b hi r (finishOperation reason) (finishFailureClass reason)
  unfold completeRequest
  split <;> next h' =>
    rw [h'] at h
    exact h

theorem cancelRequest_steps (hi : Consistent rt) (r : RequestId) (reason : CancellationReason) :
    Steps rt (rt.cancelRequest b r reason).2 := by
  have h := removeRequest_steps b hi r .cancellation .cancellation
  unfold cancelRequest
  split <;> next h' =>
    rw [h'] at h
    exact h

/-! ### Shutdown -/

theorem cancelAllForShutdownLoop_steps (m : ModelId) : ∀ (fuel cancelled : ℕ) {rt : InferenceRuntime σ},
    Consistent rt → Steps rt (cancelAllForShutdownLoop b m fuel cancelled rt).2
  | 0, _, rt, _ => .refl rt
  | fuel + 1, cancelled, rt, hi => by
    rw [cancelAllForShutdownLoop]
    split
    · exact .refl rt
    next r _ =>
    have hremove := removeRequest_steps b hi r .shutdown .shutdown
    split
    · next h =>
      rw [h] at hremove
      exact hremove.trans (cancelAllForShutdownLoop_steps m fuel _ (hremove.consistent hi))
    · next h =>
      rw [h] at hremove
      split_ifs
      · exact hremove.trans (cancelAllForShutdownLoop_steps m fuel _ (hremove.consistent hi))
      · exact hremove

theorem cancelAllRequestsForShutdown_steps (hi : Consistent rt) (m : ModelId) :
    Steps rt (rt.cancelAllRequestsForShutdown b m).2 :=
  cancelAllForShutdownLoop_steps b m _ _ hi

/-- In a consistent registry the unload of a model is always accepted at
shutdown, and every state becomes one that has accepted it. -/
theorem shutdownUnload_ok (hi : Consistent rt) {m : ModelId} {slot : ModelSlot}
    (hm : rt.models.get? m = some slot) : ∃ lifecycle : ModelLifecycle,
      LifecycleMatches lifecycle.state slot.requests.size ∧ lifecycle.state.unloadAccepted = true ∧
      rt.shutdownUnload m slot =
        (.ok (), { rt with models := rt.models.insert m { slot with lifecycle := lifecycle } }) := by
  have hlife := (hi.slot hm).lifecycle
  have hsame : { rt with models := rt.models.insert m { slot with lifecycle := slot.lifecycle } } = rt := by
    simp only [OrdMap.insert_eq_self hm]
  generalize slot.requests.size = k at hlife
  rcases hstate : slot.lifecycle.state with _ | _ | _ | n | ⟨n, w⟩ | ⟨n, c⟩ | _ | ⟨ph, fl⟩ <;>
    rw [hstate] at hlife
  · cases hlife
  · cases hlife
  · refine ⟨⟨.unloading⟩, ?_, rfl, by simp [shutdownUnload, hstate, ModelLifecycle.requestUnload]⟩
    cases hlife with | ready => exact .unloading
  · refine ⟨⟨.cancelling n .modelUnload⟩, ?_, rfl, by
      simp [shutdownUnload, hstate, ModelLifecycle.requestUnload]⟩
    cases hlife with | active h => exact .cancelling h
  · exact ⟨slot.lifecycle, hstate ▸ hlife, by rw [hstate]; rfl, by simp [shutdownUnload, hstate, hsame]⟩
  · exact ⟨slot.lifecycle, hstate ▸ hlife, by rw [hstate]; rfl, by simp [shutdownUnload, hstate, hsame]⟩
  · exact ⟨slot.lifecycle, hstate ▸ hlife, by rw [hstate]; rfl, by simp [shutdownUnload, hstate, hsame]⟩
  · cases hlife

/-- Shutdown's pass over a model whose unload was accepted. -/
theorem shutdownModel_after_steps {m : ModelId} {slot : ModelSlot} {mid : InferenceRuntime σ}
    (hm : rt.models.get? m = some slot) (heq : rt.shutdownUnload m slot = (.ok (), mid)) (hi : Consistent mid) :
    Steps mid (rt.shutdownModel b m).2 := by
  have hcancel := cancelAllRequestsForShutdown_steps b hi m
  unfold shutdownModel
  simp only [hm, heq]
  generalize mid.cancelAllRequestsForShutdown b m = answer at hcancel ⊢
  obtain ⟨e | cancelled, rt'⟩ := answer
  · exact hcancel
  have hrelease := releaseModelWithPrimary_steps b (hcancel.consistent hi) m .shutdown .shutdown
  dsimp only at hrelease ⊢
  split_ifs
  · generalize rt'.releaseModelWithPrimary b m .shutdown .shutdown = answer at hrelease ⊢
    obtain ⟨e | ⟨⟩, rt''⟩ := answer
    · dsimp only
      split_ifs <;> exact hcancel.trans hrelease
    · exact hcancel.trans hrelease
  · exact hcancel

theorem shutdownModel_steps (hi : Consistent rt) (m : ModelId) : Steps rt (rt.shutdownModel b m).2 := by
  rcases hm : rt.models.get? m with _ | slot
  · simp only [shutdownModel, hm]
    exact .refl rt
  obtain ⟨lifecycle, hmatches, hunload, heq⟩ := shutdownUnload_ok hi hm
  have hstep : Transition .keep rt
      { rt with models := rt.models.insert m { slot with lifecycle := lifecycle } } :=
    .lifecycleChanged _ hm hmatches fun _ => hunload
  exact .head hstep (shutdownModel_after_steps b hm heq (hstep.consistent hi))

theorem shutdownModels_steps : ∀ (ms : List ModelId) (cancelled : ℕ) {rt : InferenceRuntime σ},
    Consistent rt → Steps rt (shutdownModels b ms cancelled rt).2
  | [], _, rt, _ => .refl rt
  | m :: ms, cancelled, rt, hi => by
    rw [shutdownModels]
    have h := shutdownModel_steps b hi m
    split <;> next h' =>
      rw [h'] at h
      first
      | exact h
      | exact h.trans (shutdownModels_steps ms _ (h.consistent hi))

theorem exhaustCleanup_steps : ∀ (fuel : ℕ) {rt : InferenceRuntime σ},
    Consistent rt → Steps rt (exhaustCleanup b fuel rt).2
  | 0, rt, _ => .refl rt
  | fuel + 1, rt, hi => by
    rw [exhaustCleanup]
    have h := pollCleanup_steps b hi
    split <;> next h' =>
      rw [h'] at h
      first
      | exact h
      | exact h.trans (exhaustCleanup_steps fuel (h.consistent hi))

/-- Shutdown after its pass over the models. -/
theorem shutdown_after_steps (hi : Consistent (shutdownModels b rt.models.keys 0 { rt with shuttingDown := true }).2) :
    Steps (shutdownModels b rt.models.keys 0 { rt with shuttingDown := true }).2 (rt.shutdown b).2 := by
  unfold shutdown
  dsimp only
  generalize shutdownModels b rt.models.keys 0 { rt with shuttingDown := true } = answer at hi ⊢
  obtain ⟨e | cancelled, rt'⟩ := answer
  · exact .refl rt'
  have hloop := exhaustCleanup_steps b rt'.cleanupBudget hi
  dsimp only at hloop ⊢
  generalize exhaustCleanup b rt'.cleanupBudget rt' = answer at hloop ⊢
  obtain ⟨e | ⟨⟩, rt''⟩ := answer
  · exact hloop
  dsimp only
  split
  · exact hloop
  · split_ifs <;> exact hloop

theorem shutdown_steps (hi : Consistent rt) : Steps rt (rt.shutdown b).2 := by
  have hnoted : Steps rt { rt with shuttingDown := true } :=
    .noted rt rt.lastCleanup rt.maintenanceError true fun _ => rfl
  have hpass := hnoted.trans (shutdownModels_steps b rt.models.keys 0 (hnoted.consistent hi))
  exact hpass.trans (shutdown_after_steps b (hpass.consistent hi))

end InferenceRuntime

end LlmApp
