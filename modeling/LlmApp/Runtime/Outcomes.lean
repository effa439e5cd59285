/-
# Removal and retry, by the backend's answers

In a reached state the answers of the next cleanup calls can be read off the
backend's tables: no cleanup call was made on an active sequence or a resident
model, and as many as the counter says on a quarantined one. `Removal` and
`Retry` list what `removeRequest` and `pollCleanup` return and the registry
they leave, by these answers.

Key definitions: `Removal`, `Retry`.
Key theorems: `Reached.removal`, `Reached.retry`.
-/
import LlmApp.Runtime.Quarantine

namespace LlmApp

open InferenceRuntime

variable {σ Source : Type}

/-! ### What can happen -/

/-- The results of removing the active request `r` from the model `m`, with the
registry after each. -/
inductive Removal (b : Backend σ Source) (rt : InferenceRuntime σ) (m : ModelId) (slot : ModelSlot)
    (r : RequestId) (q : RequestSlot) (op : RuntimeOperation) (f : FailureClass) :
    Answer σ Unit → Prop
  | quarantined {e : SequenceError} {loader : BackendState σ} {slotReserved : MemoryFootprint}
      (hd : b.destroySequence q.sequence.ref 0 = .error e) :
      Removal b rt m slot r q op f
        (.error (cleanupRetentionError (rt.firstFailure ⟨op, f, .sequenceDestruction, .sequence⟩
          (.sequence m r q.sequence.id))),
        rt.afterQuarantine m slot r q ⟨op, f, .sequenceDestruction, .sequence⟩ loader slotReserved)
  | destroyed {loader : BackendState σ} {slotReserved reserved : MemoryFootprint}
      (hd : b.destroySequence q.sequence.ref 0 = .ok ())
      (hstay : ModelLifecycle.finishState slot.lifecycle.state slot.requests.size ≠ .unloading) :
      Removal b rt m slot r q op f (.ok (), rt.afterDestroy m slot r q loader slotReserved reserved)
  | stranded {loader : BackendState σ} {slotReserved reserved : MemoryFootprint}
      (hd : b.destroySequence q.sequence.ref 0 = .ok ())
      (hlast : ModelLifecycle.finishState slot.lifecycle.state slot.requests.size = .unloading)
      (hpend : slot.pendingSequences.isEmpty = false) :
      Removal b rt m slot r q op f (.error (.lifecycle .invalidTransition),
        rt.afterDestroy m slot r q loader slotReserved reserved)
  | released {loader loader' : BackendState σ} {slotReserved reserved reserved' : MemoryFootprint}
      (hd : b.destroySequence q.sequence.ref 0 = .ok ())
      (hlast : ModelLifecycle.finishState slot.lifecycle.state slot.requests.size = .unloading)
      (hpend : slot.pendingSequences.isEmpty = true) (hu : b.prepareUnload slot.model 0 = .ok ()) :
      Removal b rt m slot r q op f (.ok (),
        (rt.afterDestroy m slot r q loader slotReserved reserved).afterRelease m loader' reserved')
  | retained {e : SynchronizationError} {loader loader' : BackendState σ} {slot' : ModelSlot}
      {slotReserved reserved : MemoryFootprint} (hd : b.destroySequence q.sequence.ref 0 = .ok ())
      (hlast : ModelLifecycle.finishState slot.lifecycle.state slot.requests.size = .unloading)
      (hpend : slot.pendingSequences.isEmpty = true) (hu : b.prepareUnload slot.model 0 = .error e) :
      Removal b rt m slot r q op f
        (.error (cleanupRetentionError (rt.firstFailure ⟨op, f, .modelUnload, .synchronization⟩
          (.model m))),
        (rt.afterDestroy m slot r q loader slotReserved reserved).afterReleaseFailure m slot'
          ⟨op, f, .modelUnload, .synchronization⟩ loader')

/-- The results of one turn of cleanup maintenance, with the registry after
each. -/
inductive Retry (b : Backend σ Source) (rt : InferenceRuntime σ) : Answer σ CleanupPoll → Prop
  | idle (hs : rt.retryableSequence = none) (hm : rt.retryableModel = none) : Retry b rt (.ok .idle, rt)
  | sequenceFailed {m : ModelId} {slot : ModelSlot} {r : RequestId} {p : PendingSequence}
      {e : SequenceError} {loader : BackendState σ} (hm : rt.models.get? m = some slot)
      (hr : slot.pendingSequences.get? r = some p) (ha : p.attempts < rt.maximumCleanupAttempts)
      (hd : b.destroySequence p.sequence.ref p.attempts = .error e) :
      Retry b rt (.ok (failedRetry (rt.sequenceRetried m r p)), rt.afterRetryFailure m slot r p loader)
  | sequenceReleased {m : ModelId} {slot : ModelSlot} {r : RequestId} {p : PendingSequence}
      {loader : BackendState σ} {slotReserved reserved : MemoryFootprint}
      (hm : rt.models.get? m = some slot) (hr : slot.pendingSequences.get? r = some p)
      (ha : p.attempts < rt.maximumCleanupAttempts)
      (hd : b.destroySequence p.sequence.ref p.attempts = .ok ())
      (hstate : slot.lifecycle.state ≠ .unloading) :
      Retry b rt (.ok (.released (rt.sequenceRetried m r p)),
        rt.afterSequenceRelease m slot r p loader slotReserved reserved)
  | stranded {m : ModelId} {slot : ModelSlot} {r : RequestId} {p : PendingSequence}
      {loader : BackendState σ} {slotReserved reserved : MemoryFootprint}
      (hm : rt.models.get? m = some slot) (hr : slot.pendingSequences.get? r = some p)
      (ha : p.attempts < rt.maximumCleanupAttempts)
      (hd : b.destroySequence p.sequence.ref p.attempts = .ok ())
      (hstate : slot.lifecycle.state = .unloading)
      (hpend : (slot.pendingSequences.erase r).isEmpty = false) :
      Retry b rt (.error (.lifecycle .invalidTransition),
        rt.afterSequenceRelease m slot r p loader slotReserved reserved)
  | released {m : ModelId} {slot : ModelSlot} {r : RequestId} {p : PendingSequence}
      {loader loader' : BackendState σ} {slotReserved reserved reserved' : MemoryFootprint}
      (hm : rt.models.get? m = some slot) (hr : slot.pendingSequences.get? r = some p)
      (ha : p.attempts < rt.maximumCleanupAttempts)
      (hd : b.destroySequence p.sequence.ref p.attempts = .ok ())
      (hstate : slot.lifecycle.state = .unloading)
      (hpend : (slot.pendingSequences.erase r).isEmpty = true)
      (hu : b.prepareUnload slot.model 0 = .ok ()) :
      Retry b rt (.ok (.released (rt.sequenceRetried m r p)),
        (rt.afterSequenceRelease m slot r p loader slotReserved reserved).afterRelease m loader' reserved')
  | retained {m : ModelId} {slot slot' : ModelSlot} {r : RequestId} {p : PendingSequence}
      {e : SynchronizationError} {loader loader' : BackendState σ}
      {slotReserved reserved : MemoryFootprint} {report : CleanupFailureReport}
      (hm : rt.models.get? m = some slot) (hr : slot.pendingSequences.get? r = some p)
      (ha : p.attempts < rt.maximumCleanupAttempts)
      (hd : b.destroySequence p.sequence.ref p.attempts = .ok ())
      (hstate : slot.lifecycle.state = .unloading)
      (hpend : (slot.pendingSequences.erase r).isEmpty = true)
      (hu : b.prepareUnload slot.model 0 = .error e) :
      Retry b rt (.ok (.released (rt.sequenceRetried m r p)),
        (rt.afterSequenceRelease m slot r p loader slotReserved reserved).afterReleaseFailure m slot' report
          loader')
  | modelFailed {m : ModelId} {p : PendingModel} {e : SynchronizationError} {loader : BackendState σ}
      (hp : rt.pendingModels.get? m = some p) (ha : p.attempts < rt.maximumCleanupAttempts)
      (hu : b.prepareUnload p.model p.attempts = .error e) :
      Retry b rt (.ok (failedRetry (rt.modelRetried m p)), { rt with
        loader := loader
        pendingModels := rt.pendingModels.insert m { p with attempts := p.attempts + 1 }
        lastCleanup := some (rt.modelRetried m p) })
  | modelReleased {m : ModelId} {p : PendingModel} {loader : BackendState σ} {reserved : MemoryFootprint}
      (hp : rt.pendingModels.get? m = some p) (ha : p.attempts < rt.maximumCleanupAttempts)
      (hu : b.prepareUnload p.model p.attempts = .ok ()) :
      Retry b rt (.ok (.released (rt.modelRetried m p)), { rt with
        loader := loader
        pendingModels := rt.pendingModels.erase m
        lastCleanup := some (rt.modelRetried m p)
        reservedFootprint := reserved })

/-! ### It is what happens -/

@[simp] theorem cleanupRetentionError_isCleanup (state : CleanupRetryState) :
    (cleanupRetentionError state).isCleanup = true := by
  unfold cleanupRetentionError
  split_ifs <;> rfl

/-- A leaving model without a quarantined sequence has no request left either. -/
theorem ModelSlot.ready_of_unloading {slot : ModelSlot} {r : RequestId} {k : ℕ} (hs : slot.Consistent k)
    (hstate : slot.lifecycle.state = .unloading) (hlast : (slot.pendingSequences.erase r).isEmpty = true)
    (slotReserved : MemoryFootprint) : ModelSlot.Ready { slot with
      pendingSequences := slot.pendingSequences.erase r
      reservedFootprint := slotReserved
      poisoned := !(slot.pendingSequences.erase r).isEmpty } := by
  have hlife := hs.lifecycle
  rw [hstate] at hlife
  have hreq : slot.requests.isEmpty = true := by
    generalize hn : slot.requests.size = n at hlife
    cases hlife
    exact OrdMap.size_eq_zero.mp hn
  exact ⟨hreq, hlast, hstate⟩

namespace Reached

variable (b : Backend σ Source) {rt : InferenceRuntime σ} {m : ModelId} {slot : ModelSlot} {r : RequestId}

theorem destroy_active (h : Reached rt) (hm : rt.models.get? m = some slot) {q : RequestSlot}
    (hr : slot.requests.get? r = some q) :
    (rt.loader.destroySequence b slot.model q.sequence.ref).1 = b.destroySequence q.sequence.ref 0 := by
  rw [BackendState.destroySequence, h.active_sequence hm hr]

theorem destroy_pending (h : Reached rt) (hm : rt.models.get? m = some slot) {p : PendingSequence}
    (hr : slot.pendingSequences.get? r = some p) :
    (rt.loader.destroySequence b slot.model p.sequence.ref).1 =
      b.destroySequence p.sequence.ref p.attempts := by
  rw [BackendState.destroySequence, h.pending_sequence hm hr]

theorem unload_resident (h : Reached rt) (hm : rt.models.get? m = some slot) :
    (rt.loader.prepareUnload b slot.model).1 = b.prepareUnload slot.model 0 := by
  rw [BackendState.prepareUnload, h.resident_model hm]

theorem unload_pending (h : Reached rt) {p : PendingModel} (hp : rt.pendingModels.get? m = some p) :
    (rt.loader.prepareUnload b p.model).1 = b.prepareUnload p.model p.attempts := by
  rw [BackendState.prepareUnload, h.pending_model hp]

/-- The last request of a leaving model is the only one left. -/
theorem ready_of_last {q : RequestSlot} (hr : slot.requests.get? r = some q)
    (hlife : LifecycleMatches slot.lifecycle.state slot.requests.size)
    (hlast : ModelLifecycle.finishState slot.lifecycle.state slot.requests.size = .unloading) :
    (slot.requests.erase r).isEmpty = true := by
  have hsize := OrdMap.size_erase hr
  have h := ModelLifecycle.finishState_matches hlife (OrdMap.size_pos hr)
  rw [hlast] at h
  refine OrdMap.size_eq_zero.mp ?_
  generalize hn : slot.requests.size - 1 = n at h
  cases h
  omega

theorem removal (h : Reached rt) (hm : rt.models.get? m = some slot) {q : RequestSlot}
    (hr : slot.requests.get? r = some q) (op : RuntimeOperation) (f : FailureClass) :
    Removal b rt m slot r q op f (rt.removeRequest b r op f) := by
  have hi := h.consistent
  have hlife := (hi.slot hm).lifecycle
  have hanswer := h.destroy_active b hm hr
  rcases hd : (rt.loader.destroySequence b slot.model q.sequence.ref).1 with e | ⟨⟩
  · obtain ⟨slotReserved, -, heq⟩ := removeRequest_quarantined b hi hm hr hd op f
    rw [heq]
    exact .quarantined (hanswer ▸ hd)
  obtain ⟨slotReserved, reserved, hslot, hres, heq⟩ := removeRequest_destroyed b hi hm hr hd op f
  have hstep := afterDestroy_step b hm hr hd hslot hres
  have hd' := hanswer ▸ hd
  rw [heq]
  dsimp only
  by_cases hlast : ModelLifecycle.finishState slot.lifecycle.state slot.requests.size = .unloading
  · rw [if_pos ((ModelLifecycle.finishAction_release hlife (OrdMap.size_pos hr)).mpr hlast)]
    have h' := h.tail hstep
    have hm' : (rt.afterDestroy m slot r q (rt.loader.destroySequence b slot.model q.sequence.ref).2
        slotReserved reserved).models.get? m = some _ := OrdMap.get?_insert_self ..
    have hu' := h'.unload_resident b hm'
    cases hpend : slot.pendingSequences.isEmpty with
    | false =>
      rw [releaseModelWithPrimary_notReady b hm' fun hr' =>
        Bool.false_ne_true (hpend.symm.trans hr'.pendingSequences)]
      exact .stranded hd' hlast hpend
    | true =>
      have hready : ModelSlot.Ready { slot with
          requests := slot.requests.erase r
          reservedFootprint := slotReserved
          lifecycle := ⟨ModelLifecycle.finishState slot.lifecycle.state slot.requests.size⟩ } :=
        ⟨ready_of_last hr hlife hlast, hpend, hlast⟩
      rcases hu : b.prepareUnload slot.model 0 with e | ⟨⟩
      · rw [releaseModelWithPrimary_failed b h'.consistent hm' hready (hu'.trans hu)]
        exact .retained hd' hlast hpend hu
      · obtain ⟨reserved', -, heq'⟩ :=
          releaseModelWithPrimary_ok b h'.consistent hm' hready (hu'.trans hu) op f
        rw [heq']
        exact .released hd' hlast hpend hu
  · rw [if_neg fun ha => hlast ((ModelLifecycle.finishAction_release hlife (OrdMap.size_pos hr)).mp ha)]
    exact .destroyed hd' hlast

theorem retry_sequence (h : Reached rt) (hm : rt.models.get? m = some slot) {p : PendingSequence}
    (hr : slot.pendingSequences.get? r = some p) (ha : p.attempts < rt.maximumCleanupAttempts) :
    Retry b rt (rt.retrySequence b m r) := by
  have hi := h.consistent
  have hanswer := h.destroy_pending b hm hr
  rcases hd : (rt.loader.destroySequence b slot.model p.sequence.ref).1 with e | ⟨⟩
  · rw [retrySequence_failed b hm hr ha hd]
    exact .sequenceFailed hm hr ha (hanswer ▸ hd)
  obtain ⟨slotReserved, reserved, hslot, hres, heq⟩ := retrySequence_released b hi hm hr ha hd
  have h' := h.steps (afterSequenceRelease_steps b hm hr ha hd hslot hres)
  have hd' := hanswer ▸ hd
  rw [heq]
  dsimp only
  by_cases hstate : slot.lifecycle.state = .unloading
  · rw [if_pos hstate]
    have hm' : (rt.afterSequenceRelease m slot r p
        (rt.loader.destroySequence b slot.model p.sequence.ref).2 slotReserved reserved).models.get? m =
        some _ := OrdMap.get?_insert_self ..
    have hu' := h'.unload_resident b hm'
    cases hpend : (slot.pendingSequences.erase r).isEmpty with
    | false =>
      rw [releaseModelWithPrimary_notReady b hm' fun hr' =>
        Bool.false_ne_true (hpend.symm.trans hr'.pendingSequences)]
      exact .stranded hm hr ha hd' hstate hpend
    | true =>
      have hready := ModelSlot.ready_of_unloading (hi.slot hm) hstate hpend slotReserved
      rcases hu : b.prepareUnload slot.model 0 with e | ⟨⟩
      · rw [releaseModelWithPrimary_failed b h'.consistent hm' hready (hu'.trans hu)]
        simp only [cleanupRetentionError_isCleanup, if_true]
        exact .retained hm hr ha hd' hstate hpend hu
      · obtain ⟨reserved', -, heq'⟩ := releaseModelWithPrimary_ok b h'.consistent hm' hready
          (hu'.trans hu) p.failure.primaryOperation p.failure.primaryFailure
        rw [heq']
        exact .released hm hr ha hd' hstate hpend hu
  · rw [if_neg hstate]
    exact .sequenceReleased hm hr ha hd' hstate

theorem retry (h : Reached rt) : Retry b rt (rt.pollCleanup b) := by
  unfold pollCleanup
  split
  · next hs =>
    obtain ⟨slot, p, hm, hr, ha⟩ := retryableSequence_some hs
    exact h.retry_sequence b hm hr ha
  next hs =>
  split
  · next hm => exact .idle hs hm
  next m hm =>
  obtain ⟨p, hp, ha⟩ := retryableModel_some hm
  have hanswer := h.unload_pending b hp
  rcases hu : (rt.loader.prepareUnload b p.model).1 with e | ⟨⟩
  · rw [retryModel_failed b hp ha hu]
    exact .modelFailed hp ha (hanswer ▸ hu)
  · obtain ⟨reserved, -, heq⟩ := retryModel_released b h.consistent hp ha hu
    rw [heq]
    exact .modelReleased hp ha (hanswer ▸ hu)

end Reached

end LlmApp
