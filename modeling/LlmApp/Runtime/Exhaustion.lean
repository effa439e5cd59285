/-
# Bounded cleanup

The attempts counted for a quarantined resource are the cleanup calls made on
it, and never more than the configured maximum. At the maximum its entry no
longer changes: no change of the registry has a cleanup call for it, its
identity is refused and its footprint stays in the account. A retry that
succeeds takes the identity, the count and the footprint out once.

Key theorems: `Transition.exhausted_sequence`, `Transition.exhausted_model`,
`retry_releases_sequence`, `retry_releases_model`, `bounded_cleanup`.
-/
import LlmApp.Runtime.Quarantine

namespace LlmApp

open InferenceRuntime

variable {σ Source : Type}

/-! ### An exhausted entry stays -/

namespace Transition

variable {effect : WorkspaceEffect} {rt rt' : InferenceRuntime σ} {m : ModelId} {r : RequestId}

theorem exhausted_sequence {p : PendingSequence} (h : Transition effect rt rt') (hi : Consistent rt)
    (hp : rt.quarantined (m, r) = some p) (hk : rt.maximumCleanupAttempts ≤ p.attempts) :
    rt'.quarantined (m, r) = some p := by
  have hidx : rt.pendingRequestIndex.get? r = some m := hi.pendingRequest.of_entry hp
  obtain ⟨slot, hm, hr⟩ := OrdMap.nested_eq_some.mp hp
  -- A change to a slot that keeps the entry keeps the view.
  have keep : ∀ {slot' : ModelSlot}, (slot'.pendingSequences.get? r = some p) →
      OrdMap.nested ModelSlot.pendingSequences (rt.models.insert m slot') (m, r) = some p := by
    intro slot' hs
    simp [OrdMap.nested, hs]
  -- So does a change to another slot.
  have other : ∀ {m' : ModelId} {slot' : ModelSlot}, m' ≠ m →
      OrdMap.nested ModelSlot.pendingSequences (rt.models.insert m' slot') (m, r) = some p := by
    intro m' slot' hne
    simpa [quarantined, OrdMap.nested, Ne.symm hne] using hp
  have same : ∀ {m' : ModelId} {slot₀ slot' : ModelSlot}, rt.models.get? m' = some slot₀ →
      (m' = m → slot₀.pendingSequences.get? r = some p → slot'.pendingSequences.get? r = some p) →
      OrdMap.nested ModelSlot.pendingSequences (rt.models.insert m' slot') (m, r) = some p := by
    intro m' slot₀ slot' hm' hs
    by_cases hne : m' = m
    · subst hne
      rw [hm] at hm'
      cases hm'
      exact keep (hs rfl hr)
    · exact other hne
  cases h with
  | noted | asked | used | loadQuarantined | loadRolledBack | admissionRolledBack | modelRetryFailed
  | pendingModelReleased | workspaceReleased => exact hp
  | @loaded _ m' slot' _ _ hm' =>
    refine other fun he => ?_
    rw [he, hm] at hm'
    cases hm'
  | admitted hm' => exact same hm' fun _ h => h
  | usageChanged _ hm' => exact same hm' fun _ h => h
  | lifecycleChanged _ hm' => exact same hm' fun _ h => h
  | requestDestroyed hm' => exact same hm' fun _ h => h
  | @admissionQuarantined _ m' slot' r' _ _ _ _ hm' _ hpr =>
    refine same hm' fun _ h => ?_
    have hne : r ≠ r' := by rintro rfl; rw [hidx] at hpr; cases hpr
    simpa [hne] using h
  | @requestQuarantined _ m' slot' r' q _ _ _ hm' hr' =>
    refine same hm' fun _ h => ?_
    have hne : r ≠ r' := by rintro rfl; rw [hi.not_quarantined hm' hr'] at h; cases h
    simpa [hne] using h
  | @sequenceRetryFailed _ m' slot' r' p' _ hm' hr' ha =>
    refine same hm' fun _ h => ?_
    have hne : r ≠ r' := by rintro rfl; rw [hr'] at h; cases h; omega
    simpa [hne] using h
  | @sequenceReleased _ m' slot' r' p' _ _ _ hm' hr' ha =>
    refine same hm' fun _ h => ?_
    have hne : r ≠ r' := by rintro rfl; rw [hr'] at h; cases h; omega
    simpa [hne] using h
  | @modelReleased _ m' slot' _ _ hm' _ hpend =>
    have hne : m ≠ m' := by
      rintro rfl
      rw [hm] at hm'
      cases hm'
      rw [OrdMap.isEmpty_iff.mp hpend] at hr
      cases hr
    simpa [quarantined, OrdMap.nested, hne] using hp
  | @modelQuarantined _ m' slot' _ _ hm' _ hpend =>
    have hne : m ≠ m' := by
      rintro rfl
      rw [hm] at hm'
      cases hm'
      rw [OrdMap.isEmpty_iff.mp hpend] at hr
      cases hr
    simpa [quarantined, OrdMap.nested, hne] using hp

theorem exhausted_model {p : PendingModel} (h : Transition effect rt rt') (hi : Consistent rt)
    (hp : rt.pendingModels.get? m = some p) (hk : rt.maximumCleanupAttempts ≤ p.attempts) :
    rt'.pendingModels.get? m = some p := by
  have same : ∀ {m' : ModelId} {p' : PendingModel}, m ≠ m' →
      (rt.pendingModels.insert m' p').get? m = some p := by
    intro m' p' hne
    simpa [hne] using hp
  cases h with
  | @loadQuarantined _ m' _ _ _ _ _ hp' =>
    exact same fun he => by rw [← he, hp] at hp'; cases hp'
  | @modelQuarantined _ m' slot _ _ hm' =>
    exact same fun he => by rw [← he, hi.not_resident hp] at hm'; cases hm'
  | @modelRetryFailed _ m' _ _ hp' ha =>
    exact same fun he => by rw [← he, hp] at hp'; cases hp'; omega
  | @pendingModelReleased _ m' _ _ _ hp' ha =>
    have hne : m ≠ m' := fun he => by rw [← he, hp] at hp'; cases hp'; omega
    simpa [hne] using hp
  | _ => exact hp

end Transition

/-! ### Its identity is refused -/

namespace InferenceRuntime

variable {b : Backend σ Source} {rt : InferenceRuntime σ}

theorem checkIdentities_refused {r : RequestId} {s : SequenceId}
    (h : (rt.pendingRequestIndex.get? r).isSome = true ∨ (rt.pendingSequenceIndex.get? s).isSome = true) :
    ∃ e, rt.checkIdentities r s = .error e := by
  rcases he : rt.checkIdentities r s with e | u
  · exact ⟨e, rfl⟩
  · obtain ⟨-, h1, -, h2, -⟩ := checkIdentities_ok he
    simp [h1, h2] at h

/-- A start that names an identity in quarantine fails and changes nothing. -/
theorem start_refused {r : RequestId} {s : SequenceId}
    (h : (rt.pendingRequestIndex.get? r).isSome = true ∨ (rt.pendingSequenceIndex.get? s).isSome = true)
    (handle : ModelHandle) (configuration : SequenceConfiguration) (workspace : MemoryFootprint)
    (capacity : Option ℕ) :
    ∃ e, rt.startRequestWithReservation b handle r s configuration workspace capacity = (.error e, rt) := by
  obtain ⟨e, he⟩ := checkIdentities_refused h
  exact ⟨e, by simp [startRequestWithReservation, checkStart, he]⟩

/-- A load of a model that is resident or in quarantine fails and changes
nothing. -/
theorem load_refused {m : ModelId} (h : (rt.models.get? m).isSome = true ∨ (rt.pendingModels.get? m).isSome = true)
    (source : Source) (device : DeviceId) (deviceKind : DeviceKind) :
    ∃ e, rt.loadModel b m source device deviceKind = (.error e, rt) := by
  rcases he : rt.checkLoad m with e | handle
  · exact ⟨e, by simp [loadModel, he]⟩
  · obtain ⟨h1, h2, -⟩ := checkLoad_ok he
    simp [h1, h2] at h

end InferenceRuntime

/-! ### A successful retry takes the resource out -/

/-- What is left of the account when a model may go with its last sequence. -/
def releasedFootprint (rt : InferenceRuntime σ) (m : ModelId) (slot : ModelSlot) : MemoryFootprint :=
  match rt.heldModel m with
  | none => slot.modelFootprint
  | some _ => 0

section Retry

variable (b : Backend σ Source) {rt : InferenceRuntime σ} {m : ModelId} {slot : ModelSlot} {r : RequestId}

/-- The release that may follow leaves the identities alone. -/
theorem releaseModelWithPrimary_frame (hi : Consistent rt) (hm : rt.models.get? m = some slot)
    (op : RuntimeOperation) (f : FailureClass) :
    let rt' := (rt.releaseModelWithPrimary b m op f).2
    rt'.pendingRequestIndex = rt.pendingRequestIndex ∧ rt'.pendingSequenceIndex = rt.pendingSequenceIndex ∧
      rt'.pendingCleanupSequences = rt.pendingCleanupSequences ∧
      rt'.reservedFootprint + releasedFootprint rt' m slot = rt.reservedFootprint := by
  intro rt'
  by_cases hr : slot.Ready
  · rcases hu : (rt.loader.prepareUnload b slot.model).1 with e | ⟨⟩
    · have heq : rt' = _ := congrArg Prod.snd (releaseModelWithPrimary_failed b hi hm hr hu op f)
      rw [heq]
      refine ⟨rfl, rfl, rfl, ?_⟩
      simp [releasedFootprint, heldModel, afterReleaseFailure]
    · obtain ⟨reserved, hres, h⟩ := releaseModelWithPrimary_ok b hi hm hr hu op f
      have heq : rt' = _ := congrArg Prod.snd h
      rw [heq]
      refine ⟨rfl, rfl, rfl, ?_⟩
      simpa [releasedFootprint, heldModel, afterRelease, hi.resident hm] using hres
  · have heq : rt' = rt := congrArg Prod.snd (releaseModelWithPrimary_notReady b hm hr op f)
    rw [heq]
    exact ⟨rfl, rfl, rfl, by simp [releasedFootprint, heldModel, hm]⟩

/-- A retry that destroys a quarantined sequence takes out its identities, its
place in the count and its footprint, and with it at most its model. -/
theorem retry_releases_sequence (hi : Consistent rt) (hm : rt.models.get? m = some slot)
    {p : PendingSequence} (hr : slot.pendingSequences.get? r = some p)
    (hpick : rt.retryableSequence = some (m, r))
    (hd : (rt.loader.destroySequence b slot.model p.sequence.ref).1 = .ok ()) :
    let rt' := (rt.pollCleanup b).2
    rt'.pendingRequestIndex = rt.pendingRequestIndex.erase r ∧
      rt'.pendingSequenceIndex = rt.pendingSequenceIndex.erase p.sequenceId ∧
      rt'.pendingCleanupSequences + 1 = rt.pendingCleanupSequences ∧
      rt'.reservedFootprint + releasedFootprint rt' m slot + p.footprint = rt.reservedFootprint := by
  intro rt'
  obtain ⟨slot', p', hm', hr', ha⟩ := retryableSequence_some hpick
  rw [hm] at hm'
  cases hm'
  rw [hr] at hr'
  cases hr'
  have hpos := hi.pendingCleanupSequences_pos hm hr
  obtain ⟨slotReserved, reserved, hslot, hres, heq⟩ := retrySequence_released b hi hm hr ha hd
  have hsteps := afterSequenceRelease_steps b hm hr ha hd hslot hres
  have hi' := hsteps.consistent hi
  have hrt' : rt' = (rt.retrySequence b m r).2 := by
    simp only [rt', pollCleanup, hpick]
  rw [hrt', heq]
  dsimp only
  split_ifs with hu
  · have hframe := releaseModelWithPrimary_frame b (m := m) hi' (OrdMap.get?_insert_self ..)
      p.failure.primaryOperation p.failure.primaryFailure
    dsimp only at hframe
    have hgoal : ∀ {final : InferenceRuntime σ},
        final = (releaseModelWithPrimary b (rt.afterSequenceRelease m slot r p
          (rt.loader.destroySequence b slot.model p.sequence.ref).2 slotReserved reserved) m
          p.failure.primaryOperation p.failure.primaryFailure).2 →
        final.pendingRequestIndex = rt.pendingRequestIndex.erase r ∧
          final.pendingSequenceIndex = rt.pendingSequenceIndex.erase p.sequenceId ∧
          final.pendingCleanupSequences + 1 = rt.pendingCleanupSequences ∧
          final.reservedFootprint + releasedFootprint final m slot + p.footprint = rt.reservedFootprint := by
      rintro final rfl
      refine ⟨hframe.1, hframe.2.1, ?_, ?_⟩
      · rw [hframe.2.2.1]
        simp only [afterSequenceRelease]
        omega
      · rw [← hres]
        exact congrArg (· + p.footprint) hframe.2.2.2
    split
    · next h => exact hgoal (congrArg Prod.snd h).symm
    · next h => split_ifs <;> exact hgoal (congrArg Prod.snd h).symm
  · refine ⟨rfl, rfl, ?_, ?_⟩
    · simp only [afterSequenceRelease]
      omega
    · simpa [releasedFootprint, heldModel, afterSequenceRelease] using hres

/-- A retry that unloads a pending model takes out its entry and footprint. -/
theorem retry_releases_model (hi : Consistent rt) {p : PendingModel}
    (hp : rt.pendingModels.get? m = some p) (hnone : rt.retryableSequence = none)
    (hpick : rt.retryableModel = some m) (hu : (rt.loader.prepareUnload b p.model).1 = .ok ()) :
    let rt' := (rt.pollCleanup b).2
    rt'.pendingModels = rt.pendingModels.erase m ∧ rt'.models = rt.models ∧
      rt'.reservedFootprint + p.footprint = rt.reservedFootprint := by
  intro rt'
  obtain ⟨p', hp', ha⟩ := retryableModel_some hpick
  rw [hp] at hp'
  cases hp'
  obtain ⟨reserved, hres, heq⟩ := retryModel_released b hi hp ha hu
  have hrt' : rt' = (rt.retryModel b m).2 := by simp only [rt', pollCleanup, hnone, hpick]
  rw [hrt', heq]
  exact ⟨rfl, rfl, hres⟩

end Retry

/-! ### Bounded, exactly-once cleanup -/

/-- The exhausted entry `p` of a sequence is still there: no cleanup call was
added, a start with its request or sequence identity is refused, as is a load
of its model, and its footprint is in the account. -/
structure SequenceRetained (b : Backend σ Source) (rt : InferenceRuntime σ) (m : ModelId) (r : RequestId)
    (p : PendingSequence) : Prop where
  entry : rt.quarantined (m, r) = some p
  calls : rt.loader.destroyCalls p.sequence.ref = p.attempts
  request (handle : ModelHandle) (s : SequenceId) (configuration : SequenceConfiguration)
    (workspace : MemoryFootprint) (capacity : Option ℕ) : ∃ e,
      rt.startRequestWithReservation b handle r s configuration workspace capacity = (.error e, rt)
  sequence (handle : ModelHandle) (r' : RequestId) (configuration : SequenceConfiguration)
    (workspace : MemoryFootprint) (capacity : Option ℕ) : ∃ e,
      rt.startRequestWithReservation b handle r' p.sequenceId configuration workspace capacity =
        (.error e, rt)
  model (source : Source) (device : DeviceId) (deviceKind : DeviceKind) :
    ∃ e, rt.loadModel b m source device deviceKind = (.error e, rt)
  counted : ∃ rest, rt.reservedFootprint = p.footprint + rest

/-- The exhausted entry `p` of a model is still there. -/
structure ModelRetained (b : Backend σ Source) (rt : InferenceRuntime σ) (m : ModelId)
    (p : PendingModel) : Prop where
  entry : rt.pendingModels.get? m = some p
  calls : rt.loader.unloadCalls p.model = p.attempts
  model (source : Source) (device : DeviceId) (deviceKind : DeviceKind) :
    ∃ e, rt.loadModel b m source device deviceKind = (.error e, rt)
  counted : ∃ rest, rt.reservedFootprint = p.footprint + rest

theorem Reached.sequenceRetained {rt : InferenceRuntime σ} (h : Reached rt) (b : Backend σ Source)
    {m : ModelId} {r : RequestId} {p : PendingSequence} (hp : rt.quarantined (m, r) = some p) :
    SequenceRetained b rt m r p := by
  have hi := h.consistent
  obtain ⟨slot, hm, hr⟩ := OrdMap.nested_eq_some.mp hp
  have hidx := hi.quarantined_index hm hr
  refine ⟨hp, h.pending_sequence hm hr, fun _ _ _ _ _ => start_refused (Or.inl (by simp [hidx.1])) ..,
    fun _ _ _ _ _ => start_refused (Or.inr (by simp [hidx.2])) ..,
    fun _ _ _ => load_refused (Or.inl (by simp [hm])) .., ?_⟩
  obtain ⟨rest, hrest⟩ := exists_retry hi hm hr
  exact ⟨rest, by rw [← hrest, add_comm]⟩

theorem Reached.modelRetained {rt : InferenceRuntime σ} (h : Reached rt) (b : Backend σ Source)
    {m : ModelId} {p : PendingModel} (hp : rt.pendingModels.get? m = some p) : ModelRetained b rt m p := by
  refine ⟨hp, h.pending_model hp, fun _ _ _ => load_refused (Or.inr (by simp [hp])) .., ?_⟩
  refine ⟨rt.models.total (fun _ slot => slot.backendTotal) +
    (rt.pendingModels.erase m).total (fun _ p => p.footprint) + rt.reservedGenerationWorkspace, ?_⟩
  rw [h.consistent.reserved, backendTotal, OrdMap.total_erase _ hp]
  ac_rfl

/-- In every state of a run: the attempts of a quarantined resource are the
cleanup calls made on it and at most the maximum; an exhausted one is retained
whatever operations follow; and a successful retry takes one out once. -/
theorem bounded_cleanup (b : Backend σ Source) (loader : σ) (limits : RuntimeLimits)
    (ops : List (Operation Source)) :
    let rt := Operation.applyAll b ops (InferenceRuntime.new loader limits)
    let k := limits.cleanupRetry.maximumAttempts.get
    (∀ m r p, rt.quarantined (m, r) = some p →
      rt.loader.destroyCalls p.sequence.ref = p.attempts ∧ p.attempts ≤ k) ∧
    (∀ m p, rt.pendingModels.get? m = some p →
      rt.loader.unloadCalls p.model = p.attempts ∧ p.attempts ≤ k) ∧
    (∀ s, rt.loader.destroyCalls s ≤ k) ∧ (∀ m, rt.loader.unloadCalls m ≤ k) ∧
    (∀ m r p, rt.quarantined (m, r) = some p → p.attempts = k →
      ∀ more, SequenceRetained b (Operation.applyAll b more rt) m r p) ∧
    (∀ m p, rt.pendingModels.get? m = some p → p.attempts = k →
      ∀ more, ModelRetained b (Operation.applyAll b more rt) m p) ∧
    (∀ m slot r p, rt.models.get? m = some slot → slot.pendingSequences.get? r = some p →
      rt.retryableSequence = some (m, r) → b.destroySequence p.sequence.ref p.attempts = .ok () →
      let rt' := (rt.pollCleanup b).2
      rt'.pendingRequestIndex = rt.pendingRequestIndex.erase r ∧
        rt'.pendingSequenceIndex = rt.pendingSequenceIndex.erase p.sequenceId ∧
        rt'.pendingCleanupSequences + 1 = rt.pendingCleanupSequences ∧
        rt'.reservedFootprint + releasedFootprint rt' m slot + p.footprint = rt.reservedFootprint) ∧
    (∀ m p, rt.pendingModels.get? m = some p → rt.retryableSequence = none →
      rt.retryableModel = some m → b.prepareUnload p.model p.attempts = .ok () →
      let rt' := (rt.pollCleanup b).2
      rt'.pendingModels = rt.pendingModels.erase m ∧ rt'.models = rt.models ∧
        rt'.reservedFootprint + p.footprint = rt.reservedFootprint) ∧
    (∀ before m s after, rt.loader.calls = before ++ .destroySequence m s true :: after →
      ∀ c ∈ after, c.onSequence ≠ some s) ∧
    (∀ before m after, rt.loader.calls = before ++ .prepareUnload m true :: after →
      ∀ c ∈ after, c.onModel ≠ some m) := by
  intro rt k
  have hreached : Reached rt := Operation.applyAll_reached b ops (.new loader limits)
  have hi := hreached.consistent
  have hk : rt.maximumCleanupAttempts = k := by
    rw [maximumCleanupAttempts, applyAll_limits b ops (consistent_new loader limits)]
    rfl
  have hsafe := hreached.safe
  rw [hk] at hsafe
  refine ⟨fun m r p hp => ?_, fun m p hp => ⟨hreached.pending_model hp, hk ▸ (hi.pendingModel hp).2⟩,
    hsafe.sequences.bounded, hsafe.models.bounded, fun m r p hp ha more => ?_, fun m p hp ha more => ?_,
    fun m slot r p hm hr hpick hd => ?_, fun m p hp hnone hpick hu => ?_,
    fun _ _ _ _ heq => hsafe.ordered.after_destroyed heq,
    fun _ _ _ heq => hsafe.ordered.after_unloaded heq⟩
  · obtain ⟨slot, hm, hr⟩ := OrdMap.nested_eq_some.mp hp
    exact ⟨hreached.pending_sequence hm hr, hk ▸ ((hi.slot hm).pending hr).2.2⟩
  · refine (Operation.applyAll_reached b more hreached).sequenceRetained b ?_
    exact (applyAll_keeps b (P := fun r' => r'.limits = rt.limits ∧ r'.quarantined (m, r) = some p)
      (fun hi ht h => ⟨ht.limits.trans h.1, ht.exhausted_sequence hi h.2 (by
        rw [maximumCleanupAttempts, h.1, ← maximumCleanupAttempts, hk, ha])⟩) more hi ⟨rfl, hp⟩).2
  · refine (Operation.applyAll_reached b more hreached).modelRetained b ?_
    exact (applyAll_keeps b (P := fun r' => r'.limits = rt.limits ∧ r'.pendingModels.get? m = some p)
      (fun hi ht h => ⟨ht.limits.trans h.1, ht.exhausted_model hi h.2 (by
        rw [maximumCleanupAttempts, h.1, ← maximumCleanupAttempts, hk, ha])⟩) more hi ⟨rfl, hp⟩).2
  · refine retry_releases_sequence b hi hm hr hpick ?_
    rw [BackendState.destroySequence, hreached.pending_sequence hm hr]
    exact hd
  · refine retry_releases_model b hi hp hnone hpick ?_
    rw [BackendState.prepareUnload, hreached.pending_model hp]
    exact hu

end LlmApp
