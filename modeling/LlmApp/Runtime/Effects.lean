/-
# What removal, release and retry do

In a consistent registry the arithmetic and index checks of the cleanup
operations succeed, so each has as many outcomes as its backend call: the
request or model is gone, or it is held in quarantine with one more attempt.
This module computes each operation at each outcome and shows that it is a
sequence of elementary changes.

Key definitions: `Steps`, `ModelSlot.Ready`, `InferenceRuntime.afterDestroy`,
`InferenceRuntime.afterQuarantine`, `InferenceRuntime.afterRelease`,
`InferenceRuntime.afterReleaseFailure`.
Key theorems: `releaseModelWithPrimary_ok`, `releaseModelWithPrimary_failed`,
`removeRequest_destroyed`, `removeRequest_quarantined`,
`retrySequence_released`, `retrySequence_failed`, `removeRequest_steps`.
-/
import LlmApp.Runtime.Transition

namespace LlmApp

open InferenceRuntime

variable {σ Source : Type}

/-! ### Sequences of changes -/

/-- Changes one after another, none of which admits or releases a workspace. -/
def Steps : InferenceRuntime σ → InferenceRuntime σ → Prop := Relation.ReflTransGen (Transition .keep)

namespace Steps

variable {rt rt' rt'' : InferenceRuntime σ}

theorem refl (rt : InferenceRuntime σ) : Steps rt rt := Relation.ReflTransGen.refl

theorem single (h : Transition .keep rt rt') : Steps rt rt' := Relation.ReflTransGen.single h

theorem trans (h : Steps rt rt') (h' : Steps rt' rt'') : Steps rt rt'' := Relation.ReflTransGen.trans h h'

theorem tail (h : Steps rt rt') (h' : Transition .keep rt' rt'') : Steps rt rt'' :=
  Relation.ReflTransGen.tail h h'

theorem head (h : Transition .keep rt rt') (h' : Steps rt' rt'') : Steps rt rt'' :=
  Relation.ReflTransGen.head h h'

theorem consistent (h : Steps rt rt') (hi : Consistent rt) : Consistent rt' := by
  induction h with
  | refl => exact hi
  | tail _ ht ih => exact ht.consistent ih

theorem outstanding (h : Steps rt rt') {ws : Multiset MemoryFootprint} (ho : Outstanding rt ws) :
    Outstanding rt' ws := by
  induction h with
  | refl => exact ho
  | tail _ ht ih => exact ht.outstanding ih

theorem limits (h : Steps rt rt') : rt'.limits = rt.limits := by
  induction h with
  | refl => rfl
  | tail _ ht ih => exact ht.limits.trans ih

/-- A property each change keeps, where the registry is consistent, is kept
by a sequence of them. -/
theorem keeps {P : InferenceRuntime σ → Prop}
    (hP : ∀ {r r' : InferenceRuntime σ}, Consistent r → Transition .keep r r' → P r → P r')
    (h : Steps rt rt') (hi : Consistent rt) (h0 : P rt) : P rt' := by
  induction h with
  | refl => exact h0
  | tail hs ht ih => exact hP (Steps.consistent hs hi) ht ih

theorem noted (rt : InferenceRuntime σ) (last : Option CleanupRetryState)
    (error : Option RuntimeError) (shuttingDown : Bool) (hstays : rt.shuttingDown = true → shuttingDown = true) :
    Steps rt { rt with lastCleanup := last, maintenanceError := error, shuttingDown := shuttingDown } :=
  single (.noted last error shuttingDown hstays)

end Steps

/-! ### The states after -/

/-- Nothing is left on the model, and its lifecycle says so. -/
structure ModelSlot.Ready (slot : ModelSlot) : Prop where
  requests : slot.requests.isEmpty = true
  pendingSequences : slot.pendingSequences.isEmpty = true
  unloading : slot.lifecycle.state = .unloading

namespace InferenceRuntime

section States

variable (rt : InferenceRuntime σ) (m : ModelId) (slot : ModelSlot) (r : RequestId) (q : RequestSlot)
  (p : PendingSequence) (report : CleanupFailureReport) (loader : BackendState σ)
  (slotReserved reserved : MemoryFootprint)

/-- The cleanup state of a resource after its first failed attempt. -/
def firstFailure (resource : CleanupResource) : CleanupRetryState :=
  ⟨resource, report, 1, rt.maximumCleanupAttempts⟩

/-- An active sequence was destroyed. -/
def afterDestroy : InferenceRuntime σ :=
  { rt with
    loader := loader
    models := rt.models.insert m { slot with
      requests := slot.requests.erase r
      reservedFootprint := slotReserved
      lifecycle := ⟨ModelLifecycle.finishState slot.lifecycle.state slot.requests.size⟩ }
    requestIndex := rt.requestIndex.erase r
    sequenceIndex := rt.sequenceIndex.erase q.sequence.id
    activeRequests := rt.activeRequests - 1
    reservedFootprint := reserved }

/-- The destruction of an active sequence failed. -/
def afterQuarantine : InferenceRuntime σ :=
  { rt with
    loader := loader
    models := rt.models.insert m { slot with
      requests := slot.requests.erase r
      reservedFootprint := slotReserved
      pendingSequences := slot.pendingSequences.insert r
        ⟨r, q.sequence.id, q.sequence, q.backendFootprint, report, 1⟩
      poisoned := true
      lifecycle := ⟨ModelLifecycle.finishState slot.lifecycle.state slot.requests.size⟩ }
    requestIndex := rt.requestIndex.erase r
    sequenceIndex := rt.sequenceIndex.erase q.sequence.id
    pendingRequestIndex := rt.pendingRequestIndex.insert r m
    pendingSequenceIndex := rt.pendingSequenceIndex.insert q.sequence.id r
    activeRequests := rt.activeRequests - 1
    pendingCleanupSequences := rt.pendingCleanupSequences + 1
    lastCleanup := some (rt.firstFailure report (.sequence m r q.sequence.id)) }

/-- A resident model was released. -/
def afterRelease : InferenceRuntime σ :=
  { rt with loader := loader, models := rt.models.erase m, reservedFootprint := reserved }

/-- The unload preparation of a resident model failed. -/
def afterReleaseFailure : InferenceRuntime σ :=
  { rt with
    loader := loader
    models := rt.models.erase m
    pendingModels := rt.pendingModels.insert m
      ⟨slot.model, slot.modelFootprint, report, 1, slot.cancelledRequestsDuringUnload⟩
    lastCleanup := some (rt.firstFailure report (.model m)) }

/-- The cleanup state of a quarantined sequence after one more attempt. -/
def sequenceRetried : CleanupRetryState :=
  ⟨.sequence m r p.sequenceId, p.failure, p.attempts + 1, rt.maximumCleanupAttempts⟩

/-- A retry of a quarantined sequence failed. -/
def afterRetryFailure : InferenceRuntime σ :=
  { rt with
    loader := loader
    models := rt.models.insert m { slot with
      pendingSequences := slot.pendingSequences.insert r { p with attempts := p.attempts + 1 } }
    lastCleanup := some (rt.sequenceRetried m r p) }

/-- A retry of a quarantined sequence destroyed it. -/
def afterSequenceRelease : InferenceRuntime σ :=
  { rt with
    loader := loader
    models := rt.models.insert m { slot with
      pendingSequences := slot.pendingSequences.erase r
      reservedFootprint := slotReserved
      poisoned := !(slot.pendingSequences.erase r).isEmpty }
    pendingRequestIndex := rt.pendingRequestIndex.erase r
    pendingSequenceIndex := rt.pendingSequenceIndex.erase p.sequenceId
    pendingCleanupSequences := rt.pendingCleanupSequences - 1
    lastCleanup := some (rt.sequenceRetried m r p)
    reservedFootprint := reserved }

end States

variable (b : Backend σ Source) {rt : InferenceRuntime σ} {m : ModelId} {slot : ModelSlot}
  {r : RequestId} {q : RequestSlot} {p : PendingSequence}

/-! ### Releasing a model -/

theorem releaseModelWithPrimary_absent (hm : rt.models.get? m = none) (op : RuntimeOperation)
    (f : FailureClass) :
    rt.releaseModelWithPrimary b m op f = (.error (.modelNotLoaded m), rt) := by
  simp [releaseModelWithPrimary, hm]

theorem releaseModelWithPrimary_notReady (hm : rt.models.get? m = some slot) (hr : ¬ slot.Ready)
    (op : RuntimeOperation) (f : FailureClass) :
    rt.releaseModelWithPrimary b m op f = (.error (.lifecycle .invalidTransition), rt) := by
  simp only [releaseModelWithPrimary, hm]
  rw [if_pos]
  by_contra hne
  simp only [not_or, Bool.not_eq_false, not_not] at hne
  exact hr ⟨hne.1, hne.2.1, hne.2.2.1⟩

/-- Part of the total is there to be taken out. -/
theorem exists_release (hi : Consistent rt) (hm : rt.models.get? m = some slot) :
    ∃ reserved, reserved + slot.modelFootprint = rt.reservedFootprint := by
  refine ⟨slot.requests.total (fun _ request => request.backendFootprint) +
    slot.pendingSequences.total (fun _ pending => pending.footprint) +
    (rt.models.erase m).total (fun _ slot => slot.backendTotal) +
    rt.pendingModels.total (fun _ p => p.footprint) + rt.reservedGenerationWorkspace, ?_⟩
  rw [hi.reserved, backendTotal, OrdMap.total_erase _ hm, ModelSlot.backendTotal]
  ac_rfl

theorem Ready.reserved (hr : slot.Ready) {k : ℕ} (hs : slot.Consistent k) :
    slot.reservedFootprint = slot.modelFootprint := by
  rw [hs.reserved, OrdMap.eq_empty_of_isEmpty hr.requests, OrdMap.eq_empty_of_isEmpty hr.pendingSequences]
  simp

theorem releaseModelWithPrimary_ok (hi : Consistent rt) (hm : rt.models.get? m = some slot)
    (hr : slot.Ready) (hu : (rt.loader.prepareUnload b slot.model).1 = .ok ()) (op : RuntimeOperation)
    (f : FailureClass) : ∃ reserved, reserved + slot.modelFootprint = rt.reservedFootprint ∧
      rt.releaseModelWithPrimary b m op f =
        (.ok (), rt.afterRelease m (rt.loader.prepareUnload b slot.model).2 reserved) := by
  obtain ⟨reserved, hres⟩ := exists_release hi hm
  refine ⟨reserved, hres, ?_⟩
  have hsub := checkedSubFootprint_ok.mpr hres
  have hprep : rt.loader.prepareUnload b slot.model =
      (.ok (), (rt.loader.prepareUnload b slot.model).2) := by rw [← hu]
  simp only [releaseModelWithPrimary, hm]
  rw [if_neg (by simp [hr.requests, hr.pendingSequences, hr.unloading, Ready.reserved hr (hi.slot hm)]),
    hprep]
  simp [ModelLifecycle.completeUnload_ok hr.unloading, hsub, afterRelease]

theorem releaseModelWithPrimary_failed (hi : Consistent rt) (hm : rt.models.get? m = some slot)
    (hr : slot.Ready) {e : SynchronizationError} (hu : (rt.loader.prepareUnload b slot.model).1 = .error e)
    (op : RuntimeOperation) (f : FailureClass) : rt.releaseModelWithPrimary b m op f =
      (.error (cleanupRetentionError (rt.firstFailure ⟨op, f, .modelUnload, .synchronization⟩ (.model m))),
        rt.afterReleaseFailure m slot ⟨op, f, .modelUnload, .synchronization⟩
          (rt.loader.prepareUnload b slot.model).2) := by
  have hprep : rt.loader.prepareUnload b slot.model =
      (.error e, (rt.loader.prepareUnload b slot.model).2) := by rw [← hu]
  simp only [releaseModelWithPrimary, hm]
  rw [if_neg (by simp [hr.requests, hr.pendingSequences, hr.unloading, Ready.reserved hr (hi.slot hm)]),
    hprep]
  rfl

theorem afterRelease_step (hm : rt.models.get? m = some slot) (hr : slot.Ready)
    (hu : (rt.loader.prepareUnload b slot.model).1 = .ok ()) {reserved : MemoryFootprint}
    (hres : reserved + slot.modelFootprint = rt.reservedFootprint) :
    Transition .keep rt (rt.afterRelease m (rt.loader.prepareUnload b slot.model).2 reserved) :=
  .modelReleased hm hr.requests hr.pendingSequences hr.unloading hres
    (BackendState.prepareUnload_advance b rt.loader (Prod.ext hu rfl))

theorem afterReleaseFailure_steps (hm : rt.models.get? m = some slot) (hr : slot.Ready)
    {e : SynchronizationError} (hu : (rt.loader.prepareUnload b slot.model).1 = .error e)
    (report : CleanupFailureReport) :
    Steps rt (rt.afterReleaseFailure m slot report (rt.loader.prepareUnload b slot.model).2) :=
  .head (.modelQuarantined (p := ⟨slot.model, slot.modelFootprint, report, 1,
      slot.cancelledRequestsDuringUnload⟩) hm hr.requests hr.pendingSequences hr.unloading rfl rfl rfl
    (BackendState.prepareUnload_advance b rt.loader (Prod.ext hu rfl))) (.noted _ _ _ _ id)

theorem releaseModelWithPrimary_steps (hi : Consistent rt) (m : ModelId) (op : RuntimeOperation)
    (f : FailureClass) : Steps rt (rt.releaseModelWithPrimary b m op f).2 := by
  rcases hm : rt.models.get? m with _ | slot
  · rw [releaseModelWithPrimary_absent b hm]
    exact .refl rt
  by_cases hr : slot.Ready
  · rcases hu : (rt.loader.prepareUnload b slot.model).1 with e | ⟨⟩
    · rw [releaseModelWithPrimary_failed b hi hm hr hu]
      exact afterReleaseFailure_steps b hm hr hu _
    · obtain ⟨reserved, hres, heq⟩ := releaseModelWithPrimary_ok b hi hm hr hu op f
      rw [heq]
      exact .single (afterRelease_step b hm hr hu hres)
  · rw [releaseModelWithPrimary_notReady b hm hr]
    exact .refl rt

/-! ### Removing a request -/

theorem requestModelId_eq (hi : Consistent rt) (hm : rt.models.get? m = some slot)
    (hr : slot.requests.get? r = some q) : rt.requestModelId r = .ok m := by
  simp [requestModelId, (hi.active_index hm hr).1]

theorem removeRequest_inactive (hr : rt.requestIndex.get? r = none)
    (op : RuntimeOperation) (f : FailureClass) :
    rt.removeRequest b r op f = (.error (.requestNotActive r), rt) := by
  simp [removeRequest, requestModelId, hr]

theorem exists_remove (hi : Consistent rt) (hm : rt.models.get? m = some slot)
    (hr : slot.requests.get? r = some q) :
    ∃ reserved, reserved + q.backendFootprint = rt.reservedFootprint := by
  refine ⟨slot.modelFootprint + (slot.requests.erase r).total (fun _ request => request.backendFootprint) +
    slot.pendingSequences.total (fun _ pending => pending.footprint) +
    (rt.models.erase m).total (fun _ slot => slot.backendTotal) +
    rt.pendingModels.total (fun _ p => p.footprint) + rt.reservedGenerationWorkspace, ?_⟩
  rw [hi.reserved, backendTotal, OrdMap.total_erase _ hm, ModelSlot.backendTotal,
    OrdMap.total_erase _ hr]
  ac_rfl

theorem removeRequest_destroyed (hi : Consistent rt) (hm : rt.models.get? m = some slot)
    (hr : slot.requests.get? r = some q)
    (hd : (rt.loader.destroySequence b slot.model q.sequence.ref).1 = .ok ()) (op : RuntimeOperation)
    (f : FailureClass) : ∃ slotReserved reserved,
      slotReserved + (q.backendFootprint + q.workspaceFootprint) = slot.reservedFootprint ∧
      reserved + q.backendFootprint = rt.reservedFootprint ∧
      rt.removeRequest b r op f =
        let after := rt.afterDestroy m slot r q (rt.loader.destroySequence b slot.model q.sequence.ref).2
          slotReserved reserved
        if ModelLifecycle.finishAction slot.lifecycle.state slot.requests.size = .releaseModel then
          after.releaseModelWithPrimary b m op f
        else (.ok (), after) := by
  have hs := hi.slot hm
  have hpos := hi.activeRequests_pos hm hr
  obtain ⟨reserved, hres⟩ := exists_remove hi hm hr
  obtain ⟨slotReserved, hslot⟩ : ∃ x, x + (q.backendFootprint + q.workspaceFootprint) =
      slot.reservedFootprint := ⟨_, (hs.split_request hr).symm⟩
  refine ⟨slotReserved, reserved, hslot, hres, ?_⟩
  have hdestroy : rt.loader.destroySequence b slot.model q.sequence.ref =
      (.ok (), (rt.loader.destroySequence b slot.model q.sequence.ref).2) := by rw [← hd]
  have hfits : (q.backendFootprint + q.workspaceFootprint).Fits := by
    have := hs.fits
    rw [← hslot, add_comm] at this
    exact this.of_add
  have htotal := checkedAddFootprint_ok.mpr ⟨rfl, hfits⟩
  have hactive : checkedSub rt.activeRequests 1 = some (rt.activeRequests - 1) :=
    checkedSub_eq_some.mpr (by omega)
  have hfinish := ModelLifecycle.finishRequest_ok hs.lifecycle (OrdMap.size_pos hr)
  simp only [removeRequest, requestModelId_eq hi hm hr, hm, hr]
  rw [hdestroy]
  simp only [forgetRequest, htotal, checkedSubFootprint_ok.mpr hslot, hfinish, hactive,
    checkedSubFootprint_ok.mpr hres]
  rfl

theorem removeRequest_quarantined (hi : Consistent rt) (hm : rt.models.get? m = some slot)
    (hr : slot.requests.get? r = some q) {e : SequenceError}
    (hd : (rt.loader.destroySequence b slot.model q.sequence.ref).1 = .error e) (op : RuntimeOperation)
    (f : FailureClass) : ∃ slotReserved,
      slotReserved + q.workspaceFootprint = slot.reservedFootprint ∧
      rt.removeRequest b r op f =
        (.error (cleanupRetentionError (rt.firstFailure ⟨op, f, .sequenceDestruction, .sequence⟩
          (.sequence m r q.sequence.id))),
          rt.afterQuarantine m slot r q ⟨op, f, .sequenceDestruction, .sequence⟩
            (rt.loader.destroySequence b slot.model q.sequence.ref).2 slotReserved) := by
  have hs := hi.slot hm
  have hpos := hi.activeRequests_pos hm hr
  obtain ⟨slotReserved, hslot⟩ : ∃ x, x + q.workspaceFootprint = slot.reservedFootprint :=
    ⟨_, ((hs.split_request hr).trans (add_assoc _ _ _).symm).symm⟩
  refine ⟨slotReserved, hslot, ?_⟩
  have hdestroy : rt.loader.destroySequence b slot.model q.sequence.ref =
      (.error e, (rt.loader.destroySequence b slot.model q.sequence.ref).2) := by rw [← hd]
  have hactive : checkedSub rt.activeRequests 1 = some (rt.activeRequests - 1) :=
    checkedSub_eq_some.mpr (by omega)
  have hpending : checkedAdd u32Max rt.pendingCleanupSequences 1 = some (rt.pendingCleanupSequences + 1) :=
    checkedAdd_eq_some.mpr ⟨rfl, by
      have := hi.capacity
      have := rt.limits.maximumActiveRequests.le
      omega⟩
  have hfinish := ModelLifecycle.finishRequest_ok hs.lifecycle (OrdMap.size_pos hr)
  simp only [removeRequest, requestModelId_eq hi hm hr, hm, hr]
  rw [hdestroy]
  simp only [quarantineRequest, checkedSubFootprint_ok.mpr hslot, hfinish, hactive, hpending]
  rfl

theorem afterDestroy_step (hm : rt.models.get? m = some slot) (hr : slot.requests.get? r = some q)
    (hd : (rt.loader.destroySequence b slot.model q.sequence.ref).1 = .ok ())
    {slotReserved reserved : MemoryFootprint}
    (hslot : slotReserved + (q.backendFootprint + q.workspaceFootprint) = slot.reservedFootprint)
    (hres : reserved + q.backendFootprint = rt.reservedFootprint) :
    Transition .keep rt (rt.afterDestroy m slot r q
      (rt.loader.destroySequence b slot.model q.sequence.ref).2 slotReserved reserved) :=
  .requestDestroyed hm hr hslot hres
    (BackendState.destroySequence_advance b rt.loader (Prod.ext hd rfl))

theorem afterQuarantine_steps (hm : rt.models.get? m = some slot) (hr : slot.requests.get? r = some q)
    {e : SequenceError} (hd : (rt.loader.destroySequence b slot.model q.sequence.ref).1 = .error e)
    (report : CleanupFailureReport) {slotReserved : MemoryFootprint}
    (hslot : slotReserved + q.workspaceFootprint = slot.reservedFootprint) :
    Steps rt (rt.afterQuarantine m slot r q report
      (rt.loader.destroySequence b slot.model q.sequence.ref).2 slotReserved) :=
  .head (.requestQuarantined (p := ⟨r, q.sequence.id, q.sequence, q.backendFootprint, report, 1⟩)
    hm hr rfl rfl rfl rfl rfl hslot
    (BackendState.destroySequence_advance b rt.loader (Prod.ext hd rfl))) (.noted _ _ _ _ id)

theorem removeRequest_steps (hi : Consistent rt) (r : RequestId) (op : RuntimeOperation)
    (f : FailureClass) : Steps rt (rt.removeRequest b r op f).2 := by
  rcases hidx : rt.requestIndex.get? r with _ | m
  · rw [removeRequest_inactive b hidx]
    exact .refl rt
  obtain ⟨slot, q, hm, hr⟩ := hi.slot_of_request hidx
  rcases hd : (rt.loader.destroySequence b slot.model q.sequence.ref).1 with e | ⟨⟩
  · obtain ⟨slotReserved, hslot, heq⟩ := removeRequest_quarantined b hi hm hr hd op f
    rw [heq]
    exact afterQuarantine_steps b hm hr hd _ hslot
  · obtain ⟨slotReserved, reserved, hslot, hres, heq⟩ := removeRequest_destroyed b hi hm hr hd op f
    have hstep := afterDestroy_step b hm hr hd hslot hres
    rw [heq]
    dsimp only
    split_ifs
    · exact .head hstep (releaseModelWithPrimary_steps b (hstep.consistent hi) m op f)
    · exact .single hstep

/-! ### Retrying -/

theorem exists_retry (hi : Consistent rt) (hm : rt.models.get? m = some slot)
    (hr : slot.pendingSequences.get? r = some p) :
    ∃ reserved, reserved + p.footprint = rt.reservedFootprint := by
  refine ⟨slot.modelFootprint + slot.requests.total (fun _ request => request.backendFootprint) +
    (slot.pendingSequences.erase r).total (fun _ pending => pending.footprint) +
    (rt.models.erase m).total (fun _ slot => slot.backendTotal) +
    rt.pendingModels.total (fun _ p => p.footprint) + rt.reservedGenerationWorkspace, ?_⟩
  rw [hi.reserved, backendTotal, OrdMap.total_erase _ hm, ModelSlot.backendTotal,
    OrdMap.total_erase _ hr]
  ac_rfl

theorem nextAttempt {attempts : ℕ} (ha : attempts < rt.maximumCleanupAttempts) :
    checkedAdd u32Max attempts 1 = some (attempts + 1) :=
  checkedAdd_eq_some.mpr ⟨rfl, (Nat.succ_le_of_lt ha).trans rt.maximumCleanupAttempts_le⟩

theorem retrySequence_failed (hm : rt.models.get? m = some slot)
    (hr : slot.pendingSequences.get? r = some p) (ha : p.attempts < rt.maximumCleanupAttempts)
    {e : SequenceError} (hd : (rt.loader.destroySequence b slot.model p.sequence.ref).1 = .error e) :
    rt.retrySequence b m r = (.ok (failedRetry (rt.sequenceRetried m r p)),
      rt.afterRetryFailure m slot r p (rt.loader.destroySequence b slot.model p.sequence.ref).2) := by
  have hdestroy : rt.loader.destroySequence b slot.model p.sequence.ref =
      (.error e, (rt.loader.destroySequence b slot.model p.sequence.ref).2) := by rw [← hd]
  simp only [retrySequence, hm, hr, nextAttempt ha]
  rw [hdestroy]
  rfl

/-- A retry that destroys the sequence also tries to release a model that
waits for it. -/
theorem retrySequence_released (hi : Consistent rt) (hm : rt.models.get? m = some slot)
    (hr : slot.pendingSequences.get? r = some p) (ha : p.attempts < rt.maximumCleanupAttempts)
    (hd : (rt.loader.destroySequence b slot.model p.sequence.ref).1 = .ok ()) :
    ∃ slotReserved reserved, slotReserved + p.footprint = slot.reservedFootprint ∧
      reserved + p.footprint = rt.reservedFootprint ∧
      rt.retrySequence b m r =
        let after := rt.afterSequenceRelease m slot r p
          (rt.loader.destroySequence b slot.model p.sequence.ref).2 slotReserved reserved
        if slot.lifecycle.state = .unloading then
          match after.releaseModelWithPrimary b m p.failure.primaryOperation p.failure.primaryFailure with
          | (.ok (), rt') => (.ok (.released (rt.sequenceRetried m r p)), rt')
          | (.error e, rt') =>
            if e.isCleanup then (.ok (.released (rt.sequenceRetried m r p)), rt') else (.error e, rt')
        else (.ok (.released (rt.sequenceRetried m r p)), after) := by
  have hs := hi.slot hm
  have hpos := hi.pendingCleanupSequences_pos hm hr
  obtain ⟨reserved, hres⟩ := exists_retry hi hm hr
  obtain ⟨slotReserved, hslot⟩ : ∃ x, x + p.footprint = slot.reservedFootprint :=
    ⟨_, (hs.split_pending hr).symm⟩
  refine ⟨slotReserved, reserved, hslot, hres, ?_⟩
  have hdestroy : rt.loader.destroySequence b slot.model p.sequence.ref =
      (.ok (), (rt.loader.destroySequence b slot.model p.sequence.ref).2) := by rw [← hd]
  have hpending : checkedSub rt.pendingCleanupSequences 1 = some (rt.pendingCleanupSequences - 1) :=
    checkedSub_eq_some.mpr (by omega)
  simp only [retrySequence, hm, hr, nextAttempt ha]
  rw [hdestroy]
  simp only [checkedSubFootprint_ok.mpr hslot, hpending, checkedSubFootprint_ok.mpr hres]
  rfl

theorem afterRetryFailure_steps (hm : rt.models.get? m = some slot)
    (hr : slot.pendingSequences.get? r = some p) (ha : p.attempts < rt.maximumCleanupAttempts)
    {e : SequenceError} (hd : (rt.loader.destroySequence b slot.model p.sequence.ref).1 = .error e) :
    Steps rt (rt.afterRetryFailure m slot r p
      (rt.loader.destroySequence b slot.model p.sequence.ref).2) :=
  .head (.sequenceRetryFailed hm hr ha
    (BackendState.destroySequence_advance b rt.loader (Prod.ext hd rfl))) (.noted _ _ _ _ id)

theorem afterSequenceRelease_steps (hm : rt.models.get? m = some slot)
    (hr : slot.pendingSequences.get? r = some p) (ha : p.attempts < rt.maximumCleanupAttempts)
    (hd : (rt.loader.destroySequence b slot.model p.sequence.ref).1 = .ok ())
    {slotReserved reserved : MemoryFootprint} (hslot : slotReserved + p.footprint = slot.reservedFootprint)
    (hres : reserved + p.footprint = rt.reservedFootprint) :
    Steps rt (rt.afterSequenceRelease m slot r p
      (rt.loader.destroySequence b slot.model p.sequence.ref).2 slotReserved reserved) :=
  .head (.sequenceReleased hm hr ha hslot hres
    (BackendState.destroySequence_advance b rt.loader (Prod.ext hd rfl))) (.noted _ _ _ _ id)

theorem retrySequence_steps (hi : Consistent rt) (hm : rt.models.get? m = some slot)
    (hr : slot.pendingSequences.get? r = some p) (ha : p.attempts < rt.maximumCleanupAttempts) :
    Steps rt (rt.retrySequence b m r).2 := by
  rcases hd : (rt.loader.destroySequence b slot.model p.sequence.ref).1 with e | ⟨⟩
  · rw [retrySequence_failed b hm hr ha hd]
    exact afterRetryFailure_steps b hm hr ha hd
  · obtain ⟨slotReserved, reserved, hslot, hres, heq⟩ := retrySequence_released b hi hm hr ha hd
    have hsteps := afterSequenceRelease_steps b hm hr ha hd hslot hres
    have hrelease := fun op f =>
      hsteps.trans (releaseModelWithPrimary_steps b (hsteps.consistent hi) m op f)
    rw [heq]
    dsimp only
    split_ifs with hu
    · have h := hrelease p.failure.primaryOperation p.failure.primaryFailure
      split
      · next h' => rwa [h'] at h
      · next h' =>
        rw [h'] at h
        split_ifs <;> exact h
    · exact hsteps

/-- The cleanup state of a pending model after one more attempt. -/
def modelRetried (rt : InferenceRuntime σ) (m : ModelId) (p : PendingModel) : CleanupRetryState :=
  ⟨.model m, p.failure, p.attempts + 1, rt.maximumCleanupAttempts⟩

theorem retryModel_failed {p : PendingModel} (hp : rt.pendingModels.get? m = some p)
    (ha : p.attempts < rt.maximumCleanupAttempts) {e : SynchronizationError}
    (hu : (rt.loader.prepareUnload b p.model).1 = .error e) :
    rt.retryModel b m = (.ok (failedRetry (rt.modelRetried m p)),
      { rt with
        loader := (rt.loader.prepareUnload b p.model).2
        pendingModels := rt.pendingModels.insert m { p with attempts := p.attempts + 1 }
        lastCleanup := some (rt.modelRetried m p) }) := by
  have hprep : rt.loader.prepareUnload b p.model = (.error e, (rt.loader.prepareUnload b p.model).2) := by
    rw [← hu]
  simp only [retryModel, hp, nextAttempt ha]
  rw [hprep]
  rfl

theorem retryModel_released (hi : Consistent rt) {p : PendingModel}
    (hp : rt.pendingModels.get? m = some p) (ha : p.attempts < rt.maximumCleanupAttempts)
    (hu : (rt.loader.prepareUnload b p.model).1 = .ok ()) :
    ∃ reserved, reserved + p.footprint = rt.reservedFootprint ∧
      rt.retryModel b m = (.ok (.released (rt.modelRetried m p)),
        { rt with
          loader := (rt.loader.prepareUnload b p.model).2
          pendingModels := rt.pendingModels.erase m
          lastCleanup := some (rt.modelRetried m p)
          reservedFootprint := reserved }) := by
  obtain ⟨reserved, hres⟩ : ∃ x, x + p.footprint = rt.reservedFootprint := by
    refine ⟨rt.models.total (fun _ slot => slot.backendTotal) +
      (rt.pendingModels.erase m).total (fun _ p => p.footprint) + rt.reservedGenerationWorkspace, ?_⟩
    rw [hi.reserved, backendTotal, OrdMap.total_erase _ hp]
    ac_rfl
  refine ⟨reserved, hres, ?_⟩
  have hprep : rt.loader.prepareUnload b p.model = (.ok (), (rt.loader.prepareUnload b p.model).2) := by
    rw [← hu]
  simp only [retryModel, hp, nextAttempt ha]
  rw [hprep]
  simp only [checkedSubFootprint_ok.mpr hres]
  rfl

theorem retryModel_steps (hi : Consistent rt) {p : PendingModel}
    (hp : rt.pendingModels.get? m = some p) (ha : p.attempts < rt.maximumCleanupAttempts) :
    Steps rt (rt.retryModel b m).2 := by
  rcases hu : (rt.loader.prepareUnload b p.model).1 with e | ⟨⟩
  · rw [retryModel_failed b hp ha hu]
    exact .head (.modelRetryFailed hp ha
      (BackendState.prepareUnload_advance b rt.loader (Prod.ext hu rfl))) (.noted _ _ _ _ id)
  · obtain ⟨reserved, hres, heq⟩ := retryModel_released b hi hp ha hu
    rw [heq]
    exact .head (.pendingModelReleased hp ha hres
      (BackendState.prepareUnload_advance b rt.loader (Prod.ext hu rfl))) (.noted _ _ _ _ id)

/-! ### What cleanup maintenance picks -/

theorem retryableSequence_some (h : rt.retryableSequence = some (m, r)) :
    ∃ slot p, rt.models.get? m = some slot ∧ slot.pendingSequences.get? r = some p ∧
      p.attempts < rt.maximumCleanupAttempts := by
  obtain ⟨⟨m', slot⟩, hmem, h⟩ := List.exists_of_findSome?_eq_some h
  simp only [Option.map_eq_some_iff] at h
  obtain ⟨⟨r', p⟩, hfind, heq⟩ := h
  cases heq
  obtain ⟨hp, ha⟩ := OrdMap.get?_of_find? hfind
  exact ⟨slot, p, OrdMap.get?_eq_some.mpr hmem, hp, by simpa using ha⟩

theorem retryableModel_some (h : rt.retryableModel = some m) :
    ∃ p, rt.pendingModels.get? m = some p ∧ p.attempts < rt.maximumCleanupAttempts := by
  simp only [retryableModel, Option.map_eq_some_iff] at h
  obtain ⟨⟨m', p⟩, hfind, rfl⟩ := h
  obtain ⟨hp, ha⟩ := OrdMap.get?_of_find? hfind
  exact ⟨p, hp, by simpa using ha⟩

theorem retryableSequence_none (h : rt.retryableSequence = none) (hm : rt.models.get? m = some slot)
    (hr : slot.pendingSequences.get? r = some p) : rt.maximumCleanupAttempts ≤ p.attempts := by
  have h1 := List.findSome?_eq_none_iff.mp h (m, slot) (OrdMap.get?_eq_some.mp hm)
  simp only [Option.map_eq_none_iff] at h1
  simpa using OrdMap.find?_eq_none.mp h1 r p hr

theorem retryableModel_none (h : rt.retryableModel = none) {p : PendingModel}
    (hp : rt.pendingModels.get? m = some p) : rt.maximumCleanupAttempts ≤ p.attempts := by
  simp only [retryableModel, Option.map_eq_none_iff] at h
  simpa using OrdMap.find?_eq_none.mp h m p hp

theorem pollCleanup_steps (hi : Consistent rt) : Steps rt (rt.pollCleanup b).2 := by
  unfold pollCleanup
  split
  · next h =>
    obtain ⟨slot, p, hm, hr, ha⟩ := retryableSequence_some h
    exact retrySequence_steps b hi hm hr ha
  · split
    · exact .refl rt
    · next h =>
      obtain ⟨p, hp, ha⟩ := retryableModel_some h
      exact retryModel_steps b hi hp ha

end InferenceRuntime

end LlmApp
