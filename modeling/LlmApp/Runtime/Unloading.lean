/-
# No unload is stuck

A resident model that is unloading waits for its last quarantined sequence:
the operation that takes the last sequence out of such a model also tries to
release it, and a release leaves the model absent or among the pending ones.
Natural drain, cancellation, escalation, quarantine retry and shutdown each
reach `unloading` in their own function, so each operation has its lemma here:
what is stuck after it was stuck before.

Key definitions: `Stuck`.
Key theorems: `removeRequest_stuck`, `pollCleanup_stuck`,
`Operation.apply_stuck`, `no_stuck_unload`.
-/
import LlmApp.Runtime.Outcomes

namespace LlmApp

open InferenceRuntime

variable {σ Source : Type}

/-- The model is unloading and nothing of it is left to be destroyed. -/
def Stuck (rt : InferenceRuntime σ) (m : ModelId) : Prop :=
  ∃ slot, rt.models.get? m = some slot ∧ slot.lifecycle.state = .unloading ∧
    slot.pendingSequences.isEmpty = true

section Slots

variable {rt rt' : InferenceRuntime σ} {m m' : ModelId} {slot : ModelSlot}

theorem Stuck.of_models (h : rt'.models = rt.models) (hs : Stuck rt' m') : Stuck rt m' := by
  rwa [Stuck, h] at hs

theorem Stuck.of_erase (h : rt'.models = rt.models.erase m) (hs : Stuck rt' m') : Stuck rt m' := by
  obtain ⟨slot, hm, hrest⟩ := hs
  rw [h] at hm
  exact ⟨slot, OrdMap.get?_of_erase hm, hrest⟩

/-- A slot was written that is not stuck, or that was there and stuck. -/
theorem Stuck.of_insert (h : rt'.models = rt.models.insert m slot)
    (hslot : slot.lifecycle.state = .unloading → slot.pendingSequences.isEmpty = true → Stuck rt m)
    (hs : Stuck rt' m') : Stuck rt m' := by
  obtain ⟨slot', hm, hstate, hp⟩ := hs
  rw [h, OrdMap.get?_insert] at hm
  split_ifs at hm with hmm
  · cases hm
    cases hmm
    exact hslot hstate hp
  · exact ⟨slot', hm, hstate, hp⟩

theorem not_stuck_of_absent (h : rt.models.get? m = none) : ¬Stuck rt m := by
  rintro ⟨slot, hm, -⟩
  rw [h] at hm
  cases hm

end Slots

section Operations

variable (b : Backend σ Source) {rt : InferenceRuntime σ} {m m' : ModelId} {r : RequestId}

/-! ### Releases and removals -/

theorem releaseModelWithPrimary_stuck (hi : Consistent rt) (op : RuntimeOperation) (f : FailureClass)
    (hs : Stuck (rt.releaseModelWithPrimary b m op f).2 m') : m' ≠ m ∧ Stuck rt m' := by
  rcases hm : rt.models.get? m with _ | slot
  · rw [releaseModelWithPrimary_absent b hm] at hs
    refine ⟨?_, hs⟩
    rintro rfl
    exact not_stuck_of_absent hm hs
  by_cases hready : slot.Ready
  · have hgone : (rt.releaseModelWithPrimary b m op f).2.models = rt.models.erase m := by
      rcases hu : (rt.loader.prepareUnload b slot.model).1 with e | ⟨⟩
      · rw [releaseModelWithPrimary_failed b hi hm hready hu]
        rfl
      · obtain ⟨reserved, -, heq⟩ := releaseModelWithPrimary_ok b hi hm hready hu op f
        rw [heq]
        rfl
    refine ⟨?_, hs.of_erase hgone⟩
    rintro rfl
    exact not_stuck_of_absent (by rw [hgone, OrdMap.get?_erase, if_pos rfl]) hs
  · rw [releaseModelWithPrimary_notReady b hm hready] at hs
    refine ⟨?_, hs⟩
    rintro rfl
    obtain ⟨slot', hm', hstate, hp⟩ := hs
    obtain rfl := Option.some.inj (hm.symm.trans hm')
    have hlife := (hi.slot hm).lifecycle
    rw [hstate] at hlife
    generalize hn : slot.requests.size = n at hlife
    cases hlife
    exact hready ⟨OrdMap.size_eq_zero.mp hn, hp, hstate⟩

theorem removeRequest_stuck (h : Reached rt) (op : RuntimeOperation) (f : FailureClass)
    (hs : Stuck (rt.removeRequest b r op f).2 m') : Stuck rt m' := by
  rcases hidx : rt.requestIndex.get? r with _ | m
  · rwa [removeRequest_inactive b hidx] at hs
  obtain ⟨slot, q, hm, hr⟩ := h.consistent.slot_of_request hidx
  have hremoval := h.removal b hm hr op f
  generalize rt.removeRequest b r op f = answer at hremoval hs
  cases hremoval with
  | quarantined =>
    refine hs.of_insert (m := m) rfl fun _ hp => ?_
    have hsome := OrdMap.isEmpty_iff.mp hp r
    rw [OrdMap.get?_insert_self] at hsome
    cases hsome
  | destroyed _ hstay => exact hs.of_insert (m := m) rfl fun hstate _ => absurd hstate hstay
  | stranded _ _ hpend =>
    refine hs.of_insert (m := m) rfl fun _ hp => ?_
    rw [hp] at hpend
    cases hpend
  | released | retained =>
    obtain ⟨slot', hm', hrest⟩ := hs
    simp only [afterRelease, afterReleaseFailure, afterDestroy, OrdMap.erase_insert] at hm'
    exact ⟨slot', OrdMap.get?_of_erase hm', hrest⟩

theorem pollCleanup_stuck (h : Reached rt) (hs : Stuck (rt.pollCleanup b).2 m') : Stuck rt m' := by
  have hretry := h.retry b
  generalize rt.pollCleanup b = answer at hretry hs
  cases hretry with
  | idle => exact hs
  | @sequenceFailed m _ r =>
    refine hs.of_insert (m := m) rfl fun _ hp => ?_
    have hsome := OrdMap.isEmpty_iff.mp hp r
    rw [OrdMap.get?_insert_self] at hsome
    cases hsome
  | @sequenceReleased m _ _ _ _ _ _ _ _ _ _ hstate =>
    refine hs.of_insert (m := m) rfl fun hunloading _ => ?_
    exact absurd hunloading hstate
  | @stranded m _ _ _ _ _ _ _ _ _ _ _ hpend =>
    refine hs.of_insert (m := m) rfl fun _ hp => ?_
    rw [hp] at hpend
    cases hpend
  | released | retained =>
    obtain ⟨slot', hm', hrest⟩ := hs
    simp only [afterRelease, afterReleaseFailure, afterSequenceRelease, OrdMap.erase_insert] at hm'
    exact ⟨slot', OrdMap.get?_of_erase hm', hrest⟩
  | modelFailed | modelReleased => exact hs

/-! ### Admission -/

theorem loadModel_stuck (source : Source) (device : DeviceId) (kind : DeviceKind)
    (hs : Stuck (rt.loadModel b m source device kind).2 m') : Stuck rt m' := by
  unfold loadModel at hs
  split at hs
  · exact hs
  dsimp only at hs
  split at hs
  · exact hs
  split at hs
  · exact hs
  split at hs
  · exact hs
  split at hs
  · exact hs
  split at hs
  · split at hs <;> exact hs
  next lifecycle hvalid =>
  refine hs.of_insert (m := m) rfl fun hstate _ => ?_
  split_ifs at hvalid
  unfold ModelLifecycle.completeLoad at hvalid
  split_ifs at hvalid
  cases hvalid
  cases hstate

theorem rollbackSequence_stuck {slot : ModelSlot} (hserving : slot.lifecycle.state.serving = true)
    (sequenceId : SequenceId) (sequence : BackendSequence) (plan : SequencePlan) (footprints : StartFootprints)
    (primary : RuntimeError)
    (hs : Stuck (rollbackSequence b rt slot m r sequenceId sequence plan footprints primary).2 m') :
    Stuck rt m' := by
  have hstate : slot.lifecycle.state ≠ .unloading := by
    intro hstate
    rw [hstate] at hserving
    cases hserving
  unfold rollbackSequence at hs
  split at hs
  · exact hs.of_insert (m := m) rfl fun hunloading _ => absurd hunloading hstate
  · dsimp only at hs
    split at hs
    all_goals
      refine hs.of_insert (m := m) rfl fun hunloading _ => ?_
      exact absurd hunloading hstate

theorem startRequestWithReservation_stuck (hi : Consistent rt) (handle : ModelHandle) (sequenceId : SequenceId)
    (configuration : SequenceConfiguration) (workspaceFootprint : MemoryFootprint)
    (expectedLogitsCapacity : Option ℕ)
    (hs : Stuck (rt.startRequestWithReservation b handle r sequenceId configuration workspaceFootprint
      expectedLogitsCapacity).2 m') : Stuck rt m' := by
  unfold startRequestWithReservation at hs
  split at hs
  · exact hs
  next reservation hcheck =>
  obtain ⟨-, -, -, -, -, hm, hserving, -⟩ := checkStart_ok hcheck
  dsimp only at hs
  split at hs
  · exact hs
  split at hs
  · exact hs
  split at hs
  · exact hs
  next loader' _ =>
  obtain ⟨lifecycle, hlife, hactive⟩ := checkStart_startRequest hi hcheck
  simp only [hlife] at hs
  split_ifs at hs
  · have hstart : Stuck { rt with loader := loader' } m' := rollbackSequence_stuck b hserving _ _ _ _ _ hs
    exact hstart.of_models rfl
  · refine hs.of_insert (m := handle.id) rfl fun hunloading _ => ?_
    rw [hactive] at hunloading
    cases hunloading

/-! ### Unloads -/

theorem setCancelledRequests_stuck (cancelled : ℕ) (hs : Stuck (rt.setCancelledRequests m cancelled) m') :
    Stuck rt m' := by
  unfold setCancelledRequests at hs
  split at hs
  · next slot hm =>
    refine hs.of_insert (m := m) rfl fun hstate hp => ?_
    exact ⟨slot, hm, hstate, hp⟩
  · exact hs

theorem cancelAllRequestsLoop_stuck (m : ModelId) : ∀ (fuel cancelled : ℕ) {rt : InferenceRuntime σ},
    Reached rt → Stuck (cancelAllRequestsLoop b m fuel cancelled rt).2 m' → Stuck rt m'
  | 0, _, _, _, hs => hs
  | fuel + 1, cancelled, rt, h, hs => by
    rw [cancelAllRequestsLoop] at hs
    split at hs
    · exact hs
    next r _ =>
    have hsteps := h.steps (removeRequest_steps b h.consistent r .cancellation .cancellation)
    refine removeRequest_stuck (r := r) b h .cancellation .cancellation ?_
    generalize rt.removeRequest b r .cancellation .cancellation = answer at hs hsteps ⊢
    obtain ⟨e | _, rt'⟩ := answer
    · dsimp only at hs
      split_ifs at hs
      · exact setCancelledRequests_stuck _ hs
      · exact hs
    · dsimp only at hs
      split_ifs at hs
      · exact setCancelledRequests_stuck _ (cancelAllRequestsLoop_stuck m fuel _
          (hsteps.steps (setCancelledRequests_steps hsteps.consistent m _)) hs)
      · exact hs

theorem cancelAndRelease_stuck (h : Reached rt) (handle : ModelHandle)
    (hs : Stuck (rt.cancelAndRelease b m handle).2 m') : Stuck rt m' := by
  have hsteps := h.steps (cancelAllRequests_steps b h.consistent m)
  have hcancel : Stuck (rt.cancelAllRequests b m).2 m' → Stuck rt m' := by
    intro hs
    unfold cancelAllRequests at hs
    split at hs
    · exact hs
    · exact cancelAllRequestsLoop_stuck b m _ _ h hs
  unfold cancelAndRelease at hs
  generalize rt.cancelAllRequests b m = answer at hs hsteps hcancel
  obtain ⟨e | cancelled, rt'⟩ := answer
  · exact hcancel hs
  dsimp only at hs
  split_ifs at hs
  · refine hcancel (releaseModelWithPrimary_stuck b (m := m) hsteps.consistent .cancellation .cancellation ?_).2
    generalize rt'.releaseModelWithPrimary b m .cancellation .cancellation = answer at hs ⊢
    obtain ⟨_ | _, rt''⟩ := answer <;> exact hs
  · exact hcancel hs

/-- The state between an accepted unload and its release may be stuck, and
only that of the model. -/
theorem Stuck.of_accepted {slot : ModelSlot} {lifecycle : ModelLifecycle}
    (hs : Stuck { rt with models := rt.models.insert m { slot with lifecycle := lifecycle } } m')
    (h : m' = m → lifecycle.state ≠ .unloading) : Stuck rt m' := by
  by_cases hm : m' = m
  · subst hm
    refine hs.of_insert (m := m') rfl fun hunloading _ => ?_
    exact absurd hunloading (h rfl)
  · obtain ⟨slot', hget, hrest⟩ := hs
    rw [OrdMap.get?_insert, if_neg hm] at hget
    exact ⟨slot', hget, hrest⟩

theorem unloadModel_stuck (h : Reached rt) (handle : ModelHandle) (policy : UnloadPolicy) (now : MonotonicMillis)
    (hs : Stuck (rt.unloadModel b handle policy now).2 m') : Stuck rt m' := by
  have hi := h.consistent
  unfold unloadModel at hs
  split_ifs at hs
  · exact hs
  split at hs
  · exact hs
  next slot hexact =>
  obtain ⟨hm, -⟩ := exactModel_ok hexact
  have hlife := (hi.slot hm).lifecycle
  split at hs
  · next lifecycle herr =>
    refine hs.of_insert (m := handle.id) rfl fun hstate hp => ?_
    rw [ModelLifecycle.requestUnload_error herr] at hstate
    exact ⟨slot, hm, hstate, hp⟩
  next action lifecycle hok =>
  obtain ⟨hserving, hmatch, haccepted, hcases⟩ := ModelLifecycle.requestUnload_ok hlife hok
  have ht : Transition .keep rt { rt with
      models := rt.models.insert handle.id { slot with lifecycle := lifecycle } } :=
    .lifecycleChanged slot.cancelledRequestsDuringUnload hm hmatch fun _ => haccepted
  have h' := h.tail ht
  rcases hcases with ⟨rfl, -, hstate⟩ | ⟨rfl, -, hstate⟩ | ⟨rfl, t, -, hstate⟩
  · dsimp only at hs
    have hrelease := @releaseModelWithPrimary_stuck _ _ b _ handle.id m' h'.consistent .modelUnload .completion
    unfold releaseModel at hs
    generalize releaseModelWithPrimary b _ handle.id .modelUnload .completion = answer at hs hrelease
    have hs' : Stuck answer.2 m' := by obtain ⟨_ | _, rt'⟩ := answer <;> exact hs
    obtain ⟨hne, hs'⟩ := hrelease hs'
    exact hs'.of_accepted fun heq => absurd heq hne
  · refine (cancelAndRelease_stuck b h' handle hs).of_accepted fun _ hunloading => ?_
    rw [hstate] at hunloading
    cases hunloading
  · refine hs.of_accepted fun _ hunloading => ?_
    rw [hstate] at hunloading
    cases hunloading

theorem pollDrains_stuck (now : MonotonicMillis) : ∀ (ms : List ModelId) {rt : InferenceRuntime σ},
    Stuck (pollDrains now ms rt).2 m' → Stuck rt m'
  | [], _, hs => hs
  | m :: ms, rt, hs => by
    rw [pollDrains] at hs
    split at hs
    · exact pollDrains_stuck now ms hs
    next slot hm =>
    split at hs
    · next n w hstate =>
      rw [ModelLifecycle.poll_draining hstate] at hs
      have hback : ∀ {lifecycle : ModelLifecycle}, lifecycle.state ≠ .unloading →
          Stuck { rt with models := rt.models.insert m { slot with lifecycle := lifecycle } } m' → Stuck rt m' :=
        fun hne hs => hs.of_accepted fun _ => hne
      split_ifs at hs
      · exact hback (by simp) hs
      · exact hback (by simp [hstate]) (pollDrains_stuck now ms hs)
    · exact pollDrains_stuck now ms hs

theorem pollUnloadTransition_stuck (h : Reached rt) (now : MonotonicMillis)
    (hs : Stuck (rt.pollUnloadTransition b now).2 m') : Stuck rt m' := by
  have hdrains : Stuck (pollDrains now rt.models.keys rt).2 m' → Stuck rt m' := pollDrains_stuck now rt.models.keys
  have hsteps := h.steps (pollDrains_steps now rt.models.keys h.consistent)
  unfold pollUnloadTransition at hs
  generalize pollDrains now rt.models.keys rt = polled at hs hdrains hsteps
  obtain ⟨_ | ⟨m, handle⟩ | ⟨handle, e⟩, rt'⟩ := polled
  · dsimp only at hs
    split at hs
    · exact hdrains (cancelAndRelease_stuck b hsteps _ hs)
    split at hs
    · next m handle _ =>
      refine hdrains (releaseModelWithPrimary_stuck b (m := m) hsteps.consistent .modelUnload .completion ?_).2
      unfold releaseModel at hs
      generalize rt'.releaseModelWithPrimary b m .modelUnload .completion = answer at hs ⊢
      obtain ⟨_ | _, rt''⟩ := answer <;> exact hs
    · exact hdrains hs
  · exact hdrains (cancelAndRelease_stuck b hsteps handle hs)
  · exact hdrains hs

/-! ### Backend steps and the ends of a request -/

theorem setUsage_stuck {slot : ModelSlot} {q : RequestSlot} {usage : GenerationUsage}
    (hm : rt.models.get? m = some slot) (hs : Stuck (setUsage rt m slot r q usage) m') : Stuck rt m' := by
  refine hs.of_insert (m := m) rfl fun hstate hp => ?_
  exact ⟨slot, hm, hstate, hp⟩

theorem endWith_stuck (h : Reached rt) {α : Type} (op : RuntimeOperation) (f : FailureClass)
    (result : Except RuntimeError α) (hs : Stuck (endWith b rt r op f result).2 m') : Stuck rt m' := by
  refine removeRequest_stuck (r := r) b h op f ?_
  unfold endWith at hs
  dsimp only at hs
  split at hs <;> exact hs

theorem InferenceRuntime.Taken.stuck {α ρ : Type} {k : RequestStep σ α ρ} {logits : List F32}
    {answer : Except RuntimeError ρ × List F32 × InferenceRuntime σ} (htaken : Taken b k rt r logits answer)
    (h : Reached rt) (hs : Stuck answer.2.2 m') : Stuck rt m' := by
  cases htaken with
  | inactive | torn => exact hs
  | @ready m slot q outcome logits' loader spend hm hr hstep =>
    have hset : Stuck { rt with loader := loader } m' := setUsage_stuck hm hs
    exact hset.of_models rfl
  | finished hm hr hstep | failed hm hr hstep =>
    have h' := h.tail (RequestStep.keeps hm hr hstep)
    exact (endWith_stuck b h' _ _ _ hs).of_models rfl

theorem prefill_stuck (h : Reached rt) (tokens : List TokenId) (emitLogits : Bool) (logits : List F32)
    (hs : Stuck (rt.prefill b r tokens emitLogits logits).2.2 m') : Stuck rt m' := by
  rw [prefill_eq] at hs
  exact (stepRequest_taken b _ rt r logits).stuck b h hs

theorem decode_stuck (h : Reached rt) (token : TokenId) (logits : List F32)
    (hs : Stuck (rt.decode b r token logits).2.2 m') : Stuck rt m' := by
  rw [decode_eq] at hs
  exact (stepRequest_taken b _ rt r logits).stuck b h hs

/-! ### Shutdown -/

theorem cancelAllForShutdownLoop_stuck (m : ModelId) : ∀ (fuel cancelled : ℕ) {rt : InferenceRuntime σ},
    Reached rt → Stuck (cancelAllForShutdownLoop b m fuel cancelled rt).2 m' → Stuck rt m'
  | 0, _, _, _, hs => hs
  | fuel + 1, cancelled, rt, h, hs => by
    rw [cancelAllForShutdownLoop] at hs
    split at hs
    · exact hs
    next r _ =>
    have hsteps := h.steps (removeRequest_steps b h.consistent r .shutdown .shutdown)
    refine removeRequest_stuck (r := r) b h .shutdown .shutdown ?_
    generalize rt.removeRequest b r .shutdown .shutdown = answer at hs hsteps ⊢
    obtain ⟨e | _, rt'⟩ := answer
    · dsimp only at hs
      split_ifs at hs
      · exact cancelAllForShutdownLoop_stuck m fuel _ hsteps hs
      · exact hs
    · exact cancelAllForShutdownLoop_stuck m fuel _ hsteps hs

/-- A stuck model has no requests, and is ready to be released. -/
theorem Stuck.ready (hi : Consistent rt) (hs : Stuck rt m) :
    rt.requestCount m = 0 ∧ rt.readyToRelease m = true := by
  obtain ⟨slot, hm, hstate, hp⟩ := hs
  have hlife := (hi.slot hm).lifecycle
  rw [hstate] at hlife
  generalize hn : slot.requests.size = n at hlife
  cases hlife
  exact ⟨by simp [requestCount, hm, hn], by simp [readyToRelease, hm, OrdMap.size_eq_zero.mp hn, hp, hstate]⟩

theorem shutdownModel_stuck (h : Reached rt) (hs : Stuck (rt.shutdownModel b m).2 m') : Stuck rt m' := by
  have hi := h.consistent
  unfold shutdownModel at hs
  split at hs
  · exact hs
  next slot hm =>
  obtain ⟨lifecycle, hmatches, hunload, heq⟩ := shutdownUnload_ok hi hm
  rw [heq] at hs
  have h' := h.tail (.lifecycleChanged slot.cancelledRequestsDuringUnload hm hmatches fun _ => hunload)
  have hreached := h'.steps (cancelAllRequestsForShutdown_steps b h'.consistent m)
  have hloop {m' : ModelId} := @cancelAllForShutdownLoop_stuck _ _ b m' m
    (requestCount { rt with models := rt.models.insert m { slot with lifecycle := lifecycle } } m) 0 _ h'
  have hback : Stuck { rt with models := rt.models.insert m { slot with lifecycle := lifecycle } } m' →
      (m' = m → lifecycle.state ≠ .unloading) → Stuck rt m' := fun hs => hs.of_accepted
  -- A model that has no requests left is passed by without an error.
  have hempty : Stuck { rt with models := rt.models.insert m { slot with lifecycle := lifecycle } } m →
      (cancelAllRequestsForShutdown b
        { rt with models := rt.models.insert m { slot with lifecycle := lifecycle } } m).1 = .ok 0 := by
    intro hs
    unfold cancelAllRequestsForShutdown
    rw [(hs.ready h'.consistent).1]
    rfl
  dsimp only at hs
  unfold cancelAllRequestsForShutdown at hs hreached hempty
  generalize cancelAllForShutdownLoop b m _ 0 _ = answer at hs hreached hloop hempty
  obtain ⟨e | cancelled, rt'⟩ := answer
  · have hmid := hloop hs
    refine hback hmid fun heq => ?_
    subst heq
    cases hempty hmid
  dsimp only at hs
  split_ifs at hs with hready
  · have hrelease := @releaseModelWithPrimary_stuck _ _ b _ m m' hreached.consistent .shutdown .shutdown
    generalize releaseModelWithPrimary b rt' m .shutdown .shutdown = answer at hs hrelease
    have hs' : Stuck answer.2 m' := by
      obtain ⟨e | _, rt''⟩ := answer
      · dsimp only at hs
        split_ifs at hs <;> exact hs
      · exact hs
    obtain ⟨hne, hs''⟩ := hrelease hs'
    exact hback (hloop hs'') fun heq => absurd heq hne
  · refine hback (hloop hs) fun heq => ?_
    subst heq
    exact absurd (hs.ready hreached.consistent).2 hready

theorem shutdownModels_stuck : ∀ (ms : List ModelId) (cancelled : ℕ) {rt : InferenceRuntime σ},
    Reached rt → Stuck (shutdownModels b ms cancelled rt).2 m' → Stuck rt m'
  | [], _, _, _, hs => hs
  | m :: ms, cancelled, rt, h, hs => by
    have hsteps := h.steps (shutdownModel_steps b h.consistent m)
    refine shutdownModel_stuck b (m := m) h ?_
    rw [shutdownModels] at hs
    generalize rt.shutdownModel b m = answer at hs hsteps ⊢
    obtain ⟨e | more, rt'⟩ := answer
    · exact hs
    · exact shutdownModels_stuck ms _ hsteps hs

theorem exhaustCleanup_stuck : ∀ (fuel : ℕ) {rt : InferenceRuntime σ},
    Reached rt → Stuck (exhaustCleanup b fuel rt).2 m' → Stuck rt m'
  | 0, _, _, hs => hs
  | fuel + 1, rt, h, hs => by
    have hsteps := h.steps (pollCleanup_steps b h.consistent)
    refine pollCleanup_stuck b h ?_
    rw [exhaustCleanup] at hs
    generalize rt.pollCleanup b = answer at hs hsteps ⊢
    obtain ⟨e | _ | _, rt'⟩ := answer
    · exact hs
    · exact hs
    all_goals exact exhaustCleanup_stuck fuel hsteps hs

theorem shutdown_stuck (h : Reached rt) (hs : Stuck (rt.shutdown b).2 m') : Stuck rt m' := by
  have h' : Reached { rt with shuttingDown := true } :=
    h.steps (.noted rt rt.lastCleanup rt.maintenanceError true fun _ => rfl)
  have hpass := h'.steps (shutdownModels_steps b rt.models.keys 0 h'.consistent)
  suffices hs' : Stuck (shutdownModels b rt.models.keys 0 { rt with shuttingDown := true }).2 m' from
    (shutdownModels_stuck b rt.models.keys 0 h' hs').of_models rfl
  unfold shutdown at hs
  dsimp only at hs
  generalize shutdownModels b rt.models.keys 0 { rt with shuttingDown := true } = answer at hs hpass ⊢
  obtain ⟨e | cancelled, rt'⟩ := answer
  · exact hs
  refine exhaustCleanup_stuck b rt'.cleanupBudget hpass ?_
  dsimp only at hs
  generalize exhaustCleanup b rt'.cleanupBudget rt' = answer at hs ⊢
  obtain ⟨e | ⟨⟩, rt''⟩ := answer
  · exact hs
  dsimp only at hs
  split at hs
  · exact hs
  · split_ifs at hs <;> exact hs

/-! ### Runs -/

/-- No operation leaves a model stuck that was not. -/
theorem Operation.apply_stuck (h : Reached rt) (op : Operation Source) (hs : Stuck (op.apply b rt) m') :
    Stuck rt m' := by
  cases op with
  | loadModel => exact loadModel_stuck b _ _ _ hs
  | startRequest => exact startRequestWithReservation_stuck b h.consistent _ _ _ _ _ hs
  | startGenerationRequest => exact startRequestWithReservation_stuck b h.consistent _ _ _ _ _ hs
  | preflightGenerationResources =>
    dsimp only [apply] at hs
    unfold InferenceRuntime.preflightGenerationResources at hs
    dsimp only at hs
    split at hs
    · exact hs
    · split at hs <;> exact hs
  | prefill => exact prefill_stuck b h _ _ _ hs
  | decode => exact decode_stuck b h _ _ hs
  | completeRequest r reason =>
    refine removeRequest_stuck (r := r) b h (finishOperation reason) (finishFailureClass reason) ?_
    dsimp only [apply] at hs
    unfold InferenceRuntime.completeRequest at hs
    generalize rt.removeRequest b r _ _ = answer at hs ⊢
    obtain ⟨_ | _, rt'⟩ := answer <;> exact hs
  | cancelRequest r reason =>
    refine removeRequest_stuck (r := r) b h .cancellation .cancellation ?_
    dsimp only [apply] at hs
    unfold InferenceRuntime.cancelRequest at hs
    generalize rt.removeRequest b r _ _ = answer at hs ⊢
    obtain ⟨_ | _, rt'⟩ := answer <;> exact hs
  | failRequest r op f => exact removeRequest_stuck b h op f hs
  | unloadModel handle policy now => exact unloadModel_stuck b h handle policy now hs
  | poll now =>
    refine pollUnloadTransition_stuck b h now ?_
    dsimp only [apply] at hs
    unfold InferenceRuntime.poll at hs
    generalize rt.pollUnloadTransition b now = answer at hs ⊢
    obtain ⟨_ | ⟨_, _ | _⟩, rt'⟩ := answer <;> exact hs
  | pollCleanup => exact pollCleanup_stuck b h hs
  | shutdown => exact shutdown_stuck b h hs
  | releaseGenerationWorkspace w =>
    dsimp only [apply] at hs
    unfold InferenceRuntime.releaseGenerationWorkspace at hs
    dsimp only at hs
    split at hs <;> exact hs

/-- No model of a run is stuck. -/
theorem Operation.applyAll_not_stuck : ∀ (ops : List (Operation Source)) {rt : InferenceRuntime σ}, Reached rt →
    (∀ m, ¬Stuck rt m) → ∀ m, ¬Stuck (applyAll b ops rt) m
  | [], _, _, hn => hn
  | op :: ops, _, h, hn =>
    applyAll_not_stuck ops (op.apply_reached b h) fun m hs => hn m (op.apply_stuck b h hs)

/-- After every operation of a run, a resident model that is unloading has no
active request and a quarantined sequence, one that is draining or cancelling
has an active request, and so one whose unload was accepted has a sequence
that was not destroyed. -/
theorem no_stuck_unload (loader : σ) (limits : RuntimeLimits) (ops : List (Operation Source)) :
    let rt := Operation.applyAll b ops (InferenceRuntime.new loader limits)
    ∀ m slot, rt.models.get? m = some slot →
      (slot.lifecycle.state = .unloading →
        slot.requests.isEmpty = true ∧ slot.pendingSequences.isEmpty = false) ∧
      ((∃ n w, slot.lifecycle.state = .draining n w) ∨ (∃ n reason, slot.lifecycle.state = .cancelling n reason) →
        slot.requests.isEmpty = false) ∧
      (slot.lifecycle.state.unloadAccepted = true →
        ¬(slot.requests.isEmpty = true ∧ slot.pendingSequences.isEmpty = true)) := by
  intro rt m slot hm
  have hreached : Reached rt := Operation.applyAll_reached b ops (.new loader limits)
  have hnot : ¬Stuck rt m := Operation.applyAll_not_stuck b ops (.new loader limits)
    (fun m => not_stuck_of_absent rfl) m
  have hlife := (hreached.consistent.slot hm).lifecycle
  have hpend : slot.lifecycle.state = .unloading → slot.pendingSequences.isEmpty = false := fun hstate =>
    Bool.eq_false_iff.mpr fun hp => hnot ⟨slot, hm, hstate, hp⟩
  have hleaving : 0 < slot.requests.size → slot.requests.isEmpty = false := fun hpos =>
    Bool.eq_false_iff.mpr fun he => by
      rw [OrdMap.size_eq_zero.mpr he] at hpos
      exact absurd hpos (lt_irrefl 0)
  refine ⟨fun hstate => ⟨?_, hpend hstate⟩, ?_, fun haccepted => ?_⟩
  · rw [hstate] at hlife
    generalize hn : slot.requests.size = n at hlife
    cases hlife
    exact OrdMap.size_eq_zero.mp hn
  · rintro (⟨n, w, hstate⟩ | ⟨n, reason, hstate⟩) <;> rw [hstate] at hlife <;> refine hleaving ?_
    · generalize slot.requests.size = k at hlife
      cases hlife
      assumption
    · generalize slot.requests.size = k at hlife
      cases hlife
      assumption
  · rintro ⟨hreq, hp⟩
    rw [OrdMap.size_eq_zero.mpr hreq] at hlife
    rcases hlife.of_zero with hstate | hstate
    · rw [hstate] at haccepted
      cases haccepted
    · rw [hpend hstate] at hp
      cases hp

end Operations

end LlmApp
