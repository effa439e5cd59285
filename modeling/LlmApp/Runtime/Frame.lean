/-
# What other operations do to a request

Only a start makes a sequence. So every other operation leaves the backend's
counter of sequences (`removeRequest_kept` and its siblings), and a
sequence of changes that leaves the counter makes no request active and no
request known that was not (`Steps.untouched`). A removal, whatever it
returns, leaves its request inactive. A registry that is shutting down stays so.

Key definitions: `Untouched`.
Key theorems: `Transition.active_cases`, `Steps.untouched`, `startRequestWithReservation_untouched`,
`Reached.removeRequest_ends`.
-/
import LlmApp.Runtime.Exhaustion
import LlmApp.Runtime.Outcomes

namespace LlmApp

open InferenceRuntime

variable {σ Source : Type} (b : Backend σ Source)

/-! ### The counter of sequences -/

namespace BackendState

variable (l : BackendState σ)

@[simp] theorem destroySequence_sequences (m : ModelRef) (s : SequenceRef) :
    (l.destroySequence b m s).2.sequences = l.sequences := rfl

@[simp] theorem prepareUnload_sequences (m : ModelRef) : (l.prepareUnload b m).2.sequences = l.sequences := rfl

@[simp] theorem planLoad_sequences (source : Source) (configuration : LoadConfiguration) :
    (l.planLoad b source configuration).2.sequences = l.sequences := rfl

@[simp] theorem planSequence_sequences (m : ModelRef) (configuration : SequenceConfiguration) :
    (l.planSequence b m configuration).2.sequences = l.sequences := rfl

@[simp] theorem load_sequences (source : Source) (configuration : LoadConfiguration) :
    (l.load b source configuration).2.sequences = l.sequences := by
  unfold load
  split <;> rfl

@[simp] theorem CheckedStep.run_sequences {α : Type} (step : CheckedStep σ α) (logits : List F32)
    (c : CancellationStatus) : (step.run l logits c).2.2.sequences = l.sequences := by
  rcases step.run_advance l logits c with h | h <;> exact h.sequences

end BackendState

namespace InferenceRuntime

variable (rt : InferenceRuntime σ)

/-- The sequences the backend has made. -/
abbrev made : ℕ := rt.loader.sequences

/-- What only the admissions and the backend steps change: the sequences made
and the world of the backend. -/
abbrev kept : ℕ × σ := (rt.loader.sequences, rt.loader.world)

theorem destroySequence_kept (l : BackendState σ) (m : ModelRef) (s : SequenceRef) :
    ((l.destroySequence b m s).2.sequences, (l.destroySequence b m s).2.world) = (l.sequences, l.world) := rfl

theorem prepareUnload_kept (l : BackendState σ) (m : ModelRef) :
    ((l.prepareUnload b m).2.sequences, (l.prepareUnload b m).2.world) = (l.sequences, l.world) := rfl

theorem releaseModelWithPrimary_kept (m : ModelId) (op : RuntimeOperation) (f : FailureClass) :
    (rt.releaseModelWithPrimary b m op f).2.kept = rt.kept := by
  unfold releaseModelWithPrimary
  split
  · rfl
  next slot _ =>
  split_ifs
  · rfl
  have hl := prepareUnload_kept b rt.loader slot.model
  split
  · next h => rw [h] at hl; exact hl
  next h =>
  rw [h] at hl
  split
  · exact hl
  · dsimp only
    split <;> exact hl

theorem quarantineRequest_kept (m : ModelId) (slot : ModelSlot) (r : RequestId) (q : RequestSlot)
    (report : CleanupFailureReport) : (rt.quarantineRequest m slot r q report).2.kept = rt.kept := by
  unfold quarantineRequest
  dsimp only
  repeat' split
  all_goals rfl

theorem forgetRequest_kept (m : ModelId) (slot : ModelSlot) (r : RequestId) (q : RequestSlot) :
    (rt.forgetRequest m slot r q).2.kept = rt.kept := by
  unfold forgetRequest
  dsimp only
  repeat' split
  all_goals rfl

theorem removeRequest_kept (r : RequestId) (op : RuntimeOperation) (f : FailureClass) :
    (rt.removeRequest b r op f).2.kept = rt.kept := by
  unfold removeRequest
  split
  · rfl
  next m _ =>
  split
  · rfl
  next slot _ =>
  split
  · rfl
  next q _ =>
  have hl := destroySequence_kept b rt.loader slot.model q.sequence.ref
  split
  · next h =>
    rw [h] at hl
    exact (quarantineRequest_kept _ m slot r q _).trans hl
  next loader h =>
  rw [h] at hl
  have hf := (forgetRequest_kept { rt with loader := loader } m slot r q).trans hl
  split
  · next h' => rw [h'] at hf; exact hf
  next h' =>
  rw [h'] at hf
  split_ifs
  · exact (releaseModelWithPrimary_kept b _ m op f).trans hf
  · exact hf

theorem setCancelledRequests_kept (m : ModelId) (cancelled : ℕ) :
    (rt.setCancelledRequests m cancelled).kept = rt.kept := by
  unfold setCancelledRequests
  split <;> rfl

theorem cancelAllRequestsLoop_kept (m : ModelId) : ∀ (fuel cancelled : ℕ) (rt : InferenceRuntime σ),
    (cancelAllRequestsLoop b m fuel cancelled rt).2.kept = rt.kept
  | 0, _, _ => rfl
  | fuel + 1, cancelled, rt => by
    unfold cancelAllRequestsLoop
    split
    · rfl
    next r _ =>
    have hr := rt.removeRequest_kept b r .cancellation .cancellation
    split
    · next h =>
      rw [h] at hr
      dsimp only
      split_ifs
      · exact (cancelAllRequestsLoop_kept m fuel _ _).trans ((setCancelledRequests_kept _ m _).trans hr)
      · exact hr
    · next h =>
      rw [h] at hr
      split_ifs
      · exact (setCancelledRequests_kept _ m _).trans hr
      · exact hr

theorem cancelAllRequests_kept (m : ModelId) : (rt.cancelAllRequests b m).2.kept = rt.kept := by
  unfold cancelAllRequests
  split
  · rfl
  · exact cancelAllRequestsLoop_kept b m ..

theorem cancelAndRelease_kept (m : ModelId) (handle : ModelHandle) :
    (rt.cancelAndRelease b m handle).2.kept = rt.kept := by
  have hc := rt.cancelAllRequests_kept b m
  unfold cancelAndRelease
  split
  · next h => rw [h] at hc; exact hc
  next rt' h =>
  rw [h] at hc
  have hr := (rt'.releaseModelWithPrimary_kept b m .cancellation .cancellation).trans hc
  split_ifs
  · split <;> next h' => rw [h'] at hr; exact hr
  · exact hc

theorem cancelAllForShutdownLoop_kept (m : ModelId) : ∀ (fuel cancelled : ℕ) (rt : InferenceRuntime σ),
    (cancelAllForShutdownLoop b m fuel cancelled rt).2.kept = rt.kept
  | 0, _, _ => rfl
  | fuel + 1, cancelled, rt => by
    unfold cancelAllForShutdownLoop
    split
    · rfl
    next r _ =>
    have hr := rt.removeRequest_kept b r .shutdown .shutdown
    split
    · next h =>
      rw [h] at hr
      exact (cancelAllForShutdownLoop_kept m fuel _ _).trans hr
    · next h =>
      rw [h] at hr
      split_ifs
      · exact (cancelAllForShutdownLoop_kept m fuel _ _).trans hr
      · exact hr

theorem retrySequence_kept (m : ModelId) (r : RequestId) : (rt.retrySequence b m r).2.kept = rt.kept := by
  unfold retrySequence
  split
  · rfl
  next slot _ =>
  split
  · rfl
  next p _ =>
  split
  · rfl
  have hl := destroySequence_kept b rt.loader slot.model p.sequence.ref
  dsimp only
  split
  · next h => rw [h] at hl; exact hl
  next h =>
  rw [h] at hl
  split
  · exact hl
  split
  · exact hl
  split
  · exact hl
  split_ifs
  · split
    · next h' => exact (congrArg (fun a => a.2.kept) h').symm.trans ((releaseModelWithPrimary_kept b _ m _ _).trans hl)
    · next h' =>
      have := (congrArg (fun a => a.2.kept) h').symm.trans ((releaseModelWithPrimary_kept b _ m _ _).trans hl)
      split_ifs <;> exact this
  · exact hl

theorem retryModel_kept (m : ModelId) : (rt.retryModel b m).2.kept = rt.kept := by
  unfold retryModel
  split
  · rfl
  next p _ =>
  split
  · rfl
  have hl := prepareUnload_kept b rt.loader p.model
  dsimp only
  split
  · next h => rw [h] at hl; exact hl
  next h =>
  rw [h] at hl
  split <;> exact hl

theorem pollCleanup_kept : (rt.pollCleanup b).2.kept = rt.kept := by
  unfold pollCleanup
  split
  · exact rt.retrySequence_kept b _ _
  · split
    · rfl
    · exact rt.retryModel_kept b _

theorem shutdownUnload_kept (m : ModelId) (slot : ModelSlot) : (rt.shutdownUnload m slot).2.kept = rt.kept := by
  unfold shutdownUnload
  split
  · split
    · rfl
    · dsimp only
      split_ifs <;> rfl
  · split <;> rfl
  all_goals rfl

theorem shutdownModel_kept (m : ModelId) : (rt.shutdownModel b m).2.kept = rt.kept := by
  unfold shutdownModel
  split
  · rfl
  next slot _ =>
  have hu := rt.shutdownUnload_kept m slot
  split
  · next h => rw [h] at hu; exact hu
  next rt₁ h =>
  rw [h] at hu
  have hc : (rt₁.cancelAllRequestsForShutdown b m).2.kept = rt.kept :=
    (cancelAllForShutdownLoop_kept b m ..).trans hu
  split
  · next h' => rw [h'] at hc; exact hc
  next rt₂ h' =>
  rw [h'] at hc
  have hr := (rt₂.releaseModelWithPrimary_kept b m .shutdown .shutdown).trans hc
  split_ifs
  · split
    · next h'' => rw [h''] at hr; exact hr
    · next h'' =>
      rw [h''] at hr
      split_ifs <;> exact hr
  · exact hc

theorem shutdownModels_kept : ∀ (ms : List ModelId) (cancelled : ℕ) (rt : InferenceRuntime σ),
    (shutdownModels b ms cancelled rt).2.kept = rt.kept
  | [], _, _ => rfl
  | m :: ms, cancelled, rt => by
    have hm := rt.shutdownModel_kept b m
    unfold shutdownModels
    split
    · next h => rw [h] at hm; exact hm
    · next h =>
      rw [h] at hm
      exact (shutdownModels_kept ms _ _).trans hm

theorem exhaustCleanup_kept : ∀ (fuel : ℕ) (rt : InferenceRuntime σ),
    (exhaustCleanup b fuel rt).2.kept = rt.kept
  | 0, _ => rfl
  | fuel + 1, rt => by
    have hp := rt.pollCleanup_kept b
    unfold exhaustCleanup
    split
    · next h => rw [h] at hp; exact hp
    · next h => rw [h] at hp; exact hp
    · next h =>
      rw [h] at hp
      exact (exhaustCleanup_kept fuel _).trans hp

theorem shutdown_kept : (rt.shutdown b).2.kept = rt.kept := by
  have hs := shutdownModels_kept b rt.models.keys 0 { rt with shuttingDown := true }
  unfold shutdown
  dsimp only
  split
  · next h => rw [h] at hs; exact hs
  next rt₁ h =>
  rw [h] at hs
  have he := (exhaustCleanup_kept b rt₁.cleanupBudget rt₁).trans hs
  split
  · next h' => rw [h'] at he; exact he
  next h' =>
  rw [h'] at he
  split
  · exact he
  · split_ifs <;> exact he

theorem pollDrains_kept (now : MonotonicMillis) : ∀ (ms : List ModelId) (rt : InferenceRuntime σ),
    (pollDrains now ms rt).2.kept = rt.kept
  | [], _ => rfl
  | m :: ms, rt => by
    unfold pollDrains
    split
    · exact pollDrains_kept now ms rt
    split
    · dsimp only
      split
      · rfl
      · exact pollDrains_kept now ms _
      · rfl
    · exact pollDrains_kept now ms rt

theorem pollUnloadTransition_kept (now : MonotonicMillis) : (rt.pollUnloadTransition b now).2.kept = rt.kept := by
  have hd := pollDrains_kept now rt.models.keys rt
  unfold pollUnloadTransition
  split
  · next h => rw [h] at hd; exact hd
  · next h =>
    rw [h] at hd
    exact (cancelAndRelease_kept b _ _ _).trans hd
  next rt' h =>
  rw [h] at hd
  split
  · exact (cancelAndRelease_kept b _ _ _).trans hd
  split
  · next m handle _ =>
    have hr := (rt'.releaseModelWithPrimary_kept b m .modelUnload .completion).trans hd
    split <;> next h' => exact (congrArg (fun a => a.2.kept) h').symm.trans hr
  · exact hd

theorem unloadModel_kept (handle : ModelHandle) (policy : UnloadPolicy) (now : MonotonicMillis) :
    (rt.unloadModel b handle policy now).2.kept = rt.kept := by
  unfold unloadModel
  split_ifs
  · rfl
  split
  · rfl
  split
  · rfl
  dsimp only
  split
  · rfl
  · exact cancelAndRelease_kept b ..
  · split <;>
      next h => exact (congrArg (fun a => a.2.kept) h).symm.trans (releaseModelWithPrimary_kept b _ _ _ _)
  · rfl

theorem endWith_kept {α : Type} (r : RequestId) (op : RuntimeOperation) (f : FailureClass)
    (result : Except RuntimeError α) : (endWith b rt r op f result).2.kept = rt.kept := by
  have hr := rt.removeRequest_kept b r op f
  unfold endWith
  split
  next h =>
  rw [h] at hr
  split <;> exact hr

theorem completeRequest_kept (r : RequestId) (reason : FinishReason) :
    (rt.completeRequest b r reason).2.kept = rt.kept := by
  have hr := rt.removeRequest_kept b r (finishOperation reason) (finishFailureClass reason)
  unfold completeRequest
  split <;> next h => rw [h] at hr; exact hr

theorem cancelRequest_kept (r : RequestId) (reason : CancellationReason) :
    (rt.cancelRequest b r reason).2.kept = rt.kept := by
  have hr := rt.removeRequest_kept b r .cancellation .cancellation
  unfold cancelRequest
  split <;> next h => rw [h] at hr; exact hr

/-- What leaves both leaves the counter. -/
theorem kept_made {rt rt' : InferenceRuntime σ} (h : rt'.kept = rt.kept) : rt'.made = rt.made :=
  congrArg Prod.fst h

theorem kept_world {rt rt' : InferenceRuntime σ} (h : rt'.kept = rt.kept) :
    rt'.loader.world = rt.loader.world :=
  congrArg Prod.snd h

/-- A backend step keeps what its checked step keeps. -/
theorem Taken.kept {α ρ : Type} {k : RequestStep σ α ρ} {r : RequestId} {logits : List F32}
    {answer : Except RuntimeError ρ × List F32 × InferenceRuntime σ} (h : Taken b k rt r logits answer) :
    answer.2.2.kept = rt.kept ∨ ∃ m slot q, rt.models.get? m = some slot ∧ slot.requests.get? r = some q ∧
      let loader := ((k.step rt.loader slot.model q.sequence.ref logits).run rt.loader logits .running).2.2
      answer.2.2.kept = (loader.sequences, loader.world) := by
  cases h with
  | inactive | torn => exact .inl rfl
  | ready hm hr hstep =>
    refine .inr ⟨_, _, _, hm, hr, ?_⟩
    rw [hstep]
    rfl
  | finished hm hr hstep | failed hm hr hstep =>
    refine .inr ⟨_, _, _, hm, hr, ?_⟩
    rw [hstep]
    exact endWith_kept b ..

theorem Taken.made {α ρ : Type} {k : RequestStep σ α ρ} {r : RequestId} {logits : List F32}
    {answer : Except RuntimeError ρ × List F32 × InferenceRuntime σ} (h : Taken b k rt r logits answer) :
    answer.2.2.made = rt.made := by
  rcases h.kept with h | ⟨m, slot, q, -, -, h⟩
  · exact kept_made h
  · exact (congrArg Prod.fst h).trans (BackendState.CheckedStep.run_sequences ..)

theorem prefill_made (r : RequestId) (tokens : List TokenId) (emitLogits : Bool) (logits : List F32) :
    (rt.prefill b r tokens emitLogits logits).2.2.made = rt.made := by
  rw [prefill_eq]
  exact (stepRequest_taken b _ rt r logits).made

theorem decode_made (r : RequestId) (token : TokenId) (logits : List F32) :
    (rt.decode b r token logits).2.2.made = rt.made := by
  rw [decode_eq]
  exact (stepRequest_taken b _ rt r logits).made

theorem loadModel_made (m : ModelId) (source : Source) (device : DeviceId) (kind : DeviceKind) :
    (rt.loadModel b m source device kind).2.made = rt.made := by
  unfold loadModel
  split
  · rfl
  next handle _ =>
  dsimp only
  split
  · rfl
  have hp := rt.loader.planLoad_sequences b source
    ⟨handle, device, kind, remainingBudget rt.limits.memoryBudget rt.reservedFootprint⟩
  split
  · next h => rw [h] at hp; exact hp
  next loader h =>
  rw [h] at hp
  split
  · exact hp
  have hl := (loader.load_sequences b source
    ⟨handle, device, kind, remainingBudget rt.limits.memoryBudget rt.reservedFootprint⟩).trans hp
  split
  · next h' => rw [h'] at hl; exact hl
  next model loaded loader' h' =>
  rw [h'] at hl
  split
  · have hu := (loader'.prepareUnload_sequences b model).trans hl
    split <;> next h'' => rw [h''] at hu; exact hu
  · exact hl

theorem preflightGenerationResources_made (handle : ModelHandle) (r : RequestId) (sequenceId : SequenceId)
    (configuration : SequenceConfiguration) (w : MemoryFootprint) (capacity : ℕ) :
    (rt.preflightGenerationResources b handle r sequenceId configuration w capacity).2.made = rt.made := by
  unfold preflightGenerationResources
  dsimp only
  split
  · rfl
  next slot _ =>
  have hl := rt.loader.planSequence_sequences b slot.model configuration
  split <;> next h => rw [h] at hl; exact hl

theorem releaseGenerationWorkspace_made (w : MemoryFootprint) :
    (rt.releaseGenerationWorkspace w).2.made = rt.made := by
  unfold releaseGenerationWorkspace
  dsimp only
  split <;> rfl

end InferenceRuntime

/-! ### Changes that make no sequence -/

/-- Nothing was made active, or known, of the request; its sequence is the one
it had, and an exhausted entry of it stays. -/
structure Untouched (r : RequestId) (rt rt' : InferenceRuntime σ) : Prop where
  inactive (h : rt.requestIndex.get? r = none) : rt'.requestIndex.get? r = none
  unknown (h : rt.requestIndex.get? r = none) (hp : rt.pendingRequestIndex.get? r = none) :
    rt'.pendingRequestIndex.get? r = none
  active {m : ModelId} {q' : RequestSlot} (h : rt'.active (m, r) = some q') :
    ∃ q, rt.active (m, r) = some q ∧ q.sequence = q'.sequence
  exhausted {m : ModelId} {p : PendingSequence} (h : rt.quarantined (m, r) = some p)
    (hk : rt.maximumCleanupAttempts ≤ p.attempts) : rt'.quarantined (m, r) = some p
  limits : rt'.limits = rt.limits

namespace Untouched

variable {r : RequestId} {rt rt' rt'' : InferenceRuntime σ}

/-- All that the registry knows of the request is the same. -/
theorem of_same (hidx : rt'.requestIndex.get? r = rt.requestIndex.get? r)
    (hpidx : rt'.pendingRequestIndex.get? r = rt.pendingRequestIndex.get? r)
    (ha : ∀ m, rt'.active (m, r) = rt.active (m, r))
    (hq : ∀ m, rt'.quarantined (m, r) = rt.quarantined (m, r)) (hl : rt'.limits = rt.limits) :
    Untouched r rt rt' where
  inactive h := hidx.trans h
  unknown _ h := hpidx.trans h
  active {m q'} h := ⟨q', (ha m).symm.trans h, rfl⟩
  exhausted {m _} h _ := (hq m).trans h
  limits := hl

theorem refl (r : RequestId) (rt : InferenceRuntime σ) : Untouched r rt rt :=
  of_same rfl rfl (fun _ => rfl) (fun _ => rfl) rfl

theorem trans (h : Untouched r rt rt') (h' : Untouched r rt' rt'') : Untouched r rt rt'' where
  inactive hr := h'.inactive (h.inactive hr)
  unknown hr hp := h'.unknown (h.inactive hr) (h.unknown hr hp)
  active ha := by
    obtain ⟨q, hq, hs⟩ := h'.active ha
    obtain ⟨q₀, hq₀, hs₀⟩ := h.active hq
    exact ⟨q₀, hq₀, hs₀.trans hs⟩
  exhausted hp hk := by
    refine h'.exhausted (h.exhausted hp hk) ?_
    rwa [maximumCleanupAttempts, h.limits]
  limits := h'.limits.trans h.limits

end Untouched

namespace Transition

variable {effect : WorkspaceEffect} {rt rt' : InferenceRuntime σ}

theorem made_le (h : Transition effect rt rt') : rt.made ≤ rt'.made := by
  cases h with
  | noted | lifecycleChanged | usageChanged | workspaceReleased => exact le_rfl
  | _ =>
    simp only [made, (‹BackendState.Advance rt.loader _ _ _ _›).sequences]
    omega

/-- An active request was active before, or the change admitted it. -/
theorem active_cases (h : Transition effect rt rt') {i : ModelId × RequestId} {q' : RequestSlot}
    (ha : rt'.active i = some q') :
    (∃ q, rt.active i = some q ∧ q.sequence = q'.sequence ∧ q.workspaceFootprint = q'.workspaceFootprint) ∨
      rt.made < rt'.made ∧ (q'.workspaceFootprint = 0 ∨ effect = .reserve q'.workspaceFootprint) := by
  have stays : rt.active i = some q' → (∃ q, rt.active i = some q ∧ q.sequence = q'.sequence ∧
      q.workspaceFootprint = q'.workspaceFootprint) ∨
        rt.made < rt'.made ∧ (q'.workspaceFootprint = 0 ∨ effect = .reserve q'.workspaceFootprint) :=
    fun hold => Or.inl ⟨q', hold, rfl, rfl⟩
  have same : rt'.active = rt.active → _ := fun heq => stays (by rw [← heq, ha])
  cases h with
  | noted | asked | used | loadQuarantined | loadRolledBack | admissionRolledBack | modelRetryFailed
  | pendingModelReleased | workspaceReleased => exact same rfl
  | loaded hm _ _ hfresh => exact same (OrdMap.nested_new hm hfresh.requests)
  | @admitted _ _ m slot r q _ _ _ _ _ _ hm _ _ _ _ _ _ _ heffect _ _ _ _ hl =>
    have heq : Function.update rt.active (m, r) (some q) i = some q' := by
      rw [← ha]
      exact (congrFun (OrdMap.nested_insert hm rfl) i).symm
    by_cases hi : i = (m, r)
    · subst hi
      rw [Function.update_self] at heq
      obtain rfl := Option.some.inj heq
      refine Or.inr ⟨?_, heffect.imp (fun hkeep => hkeep.2.1) fun hreserve => hreserve.1⟩
      simp only [made, hl.sequences]
      omega
    · exact stays (by simpa [hi] using heq)
  | @usageChanged _ m slot r q usage hm hr =>
    have heq : Function.update rt.active (m, r) (some { q with usage := usage }) i = some q' := by
      rw [← ha]
      exact (congrFun (OrdMap.nested_insert hm rfl) i).symm
    by_cases hi : i = (m, r)
    · subst hi
      rw [Function.update_self] at heq
      cases heq
      exact Or.inl ⟨q, OrdMap.nested_of_get? hm hr, rfl, rfl⟩
    · exact stays (by simpa [hi] using heq)
  | lifecycleChanged _ hm | admissionQuarantined hm | sequenceRetryFailed hm | sequenceReleased hm =>
    exact same (OrdMap.nested_keep hm rfl)
  | @requestDestroyed _ m slot r _ _ _ _ hm | @requestQuarantined _ m slot r _ _ _ _ hm =>
    have heq : Function.update rt.active (m, r) none i = some q' := by
      rw [← ha]
      exact (congrFun (OrdMap.nested_erase hm rfl) i).symm
    by_cases hi : i = (m, r)
    · simp [hi] at heq
    · exact stays (by simpa [hi] using heq)
  | modelReleased hm hreq | modelQuarantined hm hreq => exact same (OrdMap.nested_remove hm hreq)

/-- A change that makes no sequence keeps those that stay active. -/
theorem active_kept (h : Transition effect rt rt') (hmade : rt'.made = rt.made) {i : ModelId × RequestId}
    {q' : RequestSlot} (ha : rt'.active i = some q') : ∃ q, rt.active i = some q ∧ q.sequence = q'.sequence := by
  obtain ⟨q, hq, hsequence, -⟩ | ⟨hlt, -⟩ := h.active_cases ha
  · exact ⟨q, hq, hsequence⟩
  · omega

theorem shuttingDown_stays (h : Transition effect rt rt') : rt.shuttingDown = true → rt'.shuttingDown = true := by
  cases h with
  | noted _ _ _ hstays => exact hstays
  | _ => exact id

/-- A change that makes no sequence touches no request. -/
theorem untouched (h : Transition effect rt rt') (hmade : rt'.made = rt.made) (r : RequestId)
    (hi : Consistent rt) : Untouched r rt rt' := by
  suffices hindex : (rt.requestIndex.get? r = none → rt'.requestIndex.get? r = none) ∧
      (rt.requestIndex.get? r = none → rt.pendingRequestIndex.get? r = none →
        rt'.pendingRequestIndex.get? r = none) from
    ⟨hindex.1, hindex.2, h.active_kept hmade, h.exhausted_sequence hi, h.limits⟩
  cases h with
  | admitted | admissionQuarantined =>
    simp only [made, (‹BackendState.Advance rt.loader _ _ _ _›).sequences] at hmade
    omega
  | requestDestroyed =>
    exact ⟨fun hr => by simp [hr], fun _ hp => hp⟩
  | @requestQuarantined _ _ _ r' _ _ _ _ hm hr' =>
    have hne : rt.requestIndex.get? r = none → r ≠ r' := by
      rintro hr rfl
      rw [(hi.active_index hm hr').1] at hr
      cases hr
    exact ⟨fun hr => by simp [hr], fun hr hp => by simp [hne hr, hp]⟩
  | sequenceReleased => exact ⟨id, fun _ hp => by simp [hp]⟩
  | _ => exact ⟨id, fun _ h => h⟩

end Transition

theorem Steps.untouched {rt rt' : InferenceRuntime σ} (h : Steps rt rt') (hmade : rt'.made = rt.made)
    (r : RequestId) (hi : Consistent rt) : Untouched r rt rt' := by
  have hle : rt.made ≤ rt'.made ∧ (rt'.made = rt.made → Untouched r rt rt') := by
    clear hmade
    induction h with
    | refl => exact ⟨le_rfl, fun _ => .refl r rt⟩
    | tail hs ht ih =>
      refine ⟨ih.1.trans ht.made_le, fun hmade => ?_⟩
      have hmid := le_antisymm (ht.made_le.trans hmade.le) ih.1
      exact (ih.2 hmid).trans (ht.untouched (hmade.trans hmid.symm) r (Steps.consistent hs hi))
  exact hle.2 hmade

section Start

variable {rt : InferenceRuntime σ} {m : ModelId} {slot slot' : ModelSlot} {r r' : RequestId}

/-- A change to the slot of a model that leaves the requests other than `r'`. -/
theorem Untouched.of_slot (hne : r ≠ r') (hm : rt.models.get? m = some slot) {rt' : InferenceRuntime σ}
    (hmodels : rt'.models = rt.models.insert m slot')
    (hreq : slot'.requests = slot.requests ∨ ∃ q, slot'.requests = slot.requests.insert r' q)
    (hpend : slot'.pendingSequences = slot.pendingSequences ∨
      ∃ p, slot'.pendingSequences = slot.pendingSequences.insert r' p)
    (hidx : rt'.requestIndex.get? r = rt.requestIndex.get? r)
    (hpidx : rt'.pendingRequestIndex.get? r = rt.pendingRequestIndex.get? r) (hl : rt'.limits = rt.limits) :
    Untouched r rt rt' := by
  refine .of_same hidx hpidx (fun m' => ?_) (fun m' => ?_) hl
  · rcases hreq with h | ⟨q, h⟩
    · rw [InferenceRuntime.active, hmodels, OrdMap.nested_keep hm h]
      rfl
    · rw [InferenceRuntime.active, hmodels, OrdMap.nested_insert hm h]
      exact Function.update_of_ne (by simp [hne]) ..
  · rcases hpend with h | ⟨p, h⟩
    · rw [quarantined, hmodels, OrdMap.nested_keep hm h]
      rfl
    · rw [quarantined, hmodels, OrdMap.nested_insert hm h]
      exact Function.update_of_ne (by simp [hne]) ..

theorem rollbackSequence_untouched (hne : r ≠ r') (hm : rt.models.get? m = some slot)
    (hreq : slot'.requests = slot.requests) (hpend : slot'.pendingSequences = slot.pendingSequences)
    (sequenceId : SequenceId) (sequence : BackendSequence) (plan : SequencePlan) (footprints : StartFootprints)
    (primary : RuntimeError) :
    Untouched r rt (rollbackSequence b rt slot' m r' sequenceId sequence plan footprints primary).2 := by
  unfold rollbackSequence
  split
  · exact .of_slot hne hm rfl (Or.inl hreq) (Or.inl hpend) rfl rfl rfl
  · dsimp only
    have hinsert := congrArg (OrdMap.insert · r') hpend
    split <;> exact .of_slot hne hm rfl (Or.inl hreq) (Or.inr ⟨_, congrFun hinsert _⟩) rfl (by simp [hne]) rfl

/-- A start touches no other request. -/
theorem startRequestWithReservation_untouched (rt : InferenceRuntime σ) (handle : ModelHandle)
    (hne : r ≠ r') (sequenceId : SequenceId) (configuration : SequenceConfiguration)
    (w : MemoryFootprint) (capacity : Option ℕ) :
    Untouched r rt (rt.startRequestWithReservation b handle r' sequenceId configuration w capacity).2 := by
  have hloader : ∀ loader : BackendState σ, Untouched r rt { rt with loader := loader } :=
    fun _ => .of_same rfl rfl (fun _ => rfl) (fun _ => rfl) rfl
  unfold startRequestWithReservation
  split
  · exact .refl r rt
  next reservation hstart =>
  obtain ⟨-, -, -, -, -, hm, -⟩ := checkStart_ok hstart
  dsimp only
  split
  · exact hloader _
  split
  · exact hloader _
  split
  · exact hloader _
  next loader _ =>
  have hm' : ({ rt with loader := loader } : InferenceRuntime σ).models.get? handle.id = some reservation.slot := hm
  refine (hloader loader).trans ?_
  split_ifs
  · exact rollbackSequence_untouched b hne hm' rfl rfl ..
  split
  · refine rollbackSequence_untouched b hne hm' ?_ ?_ .. <;> rfl
  · refine .of_slot hne hm' rfl ?_ ?_ ?_ rfl rfl
    · exact Or.inr ⟨_, rfl⟩
    · exact Or.inl rfl
    · simp [hne]

/-- A start that returns `Ok` makes its request active, with its workspace. -/
theorem startRequestWithReservation_admits {rt rt' : InferenceRuntime σ} {handle : ModelHandle}
    {sequenceId : SequenceId} {configuration : SequenceConfiguration} {w : MemoryFootprint} {capacity : Option ℕ}
    {receipt : RequestStartReceipt}
    (h : rt.startRequestWithReservation b handle r sequenceId configuration w capacity = (.ok receipt, rt')) :
    ∃ slot slot' q, rt.models.get? handle.id = some slot ∧ slot'.requests = slot.requests.insert r q ∧
      rt'.models = rt.models.insert handle.id slot' ∧ q.workspaceFootprint = w ∧
      rt.requestIndex.get? r = none ∧ rt'.shuttingDown = rt.shuttingDown := by
  unfold startRequestWithReservation at h
  split at h
  · cases h
  next reservation hstart =>
  obtain ⟨hr, -, -, -, -, hm, -⟩ := checkStart_ok hstart
  dsimp only at h
  split at h
  · cases h
  split at h
  · cases h
  split at h
  · cases h
  next sequence loader _ =>
  -- A rollback returns an error.
  have hrollback : ∀ {slot : ModelSlot} {plan : SequencePlan} {footprints : StartFootprints} {primary : RuntimeError},
      rollbackSequence b { rt with loader := loader } slot handle.id r sequenceId sequence plan footprints primary ≠
        (.ok receipt, rt') := by
    intro slot plan footprints primary heq
    obtain ⟨e, he⟩ := rollbackSequence_error b { rt with loader := loader } slot handle.id r sequenceId sequence plan
      footprints primary
    rw [heq] at he
    cases he
  split_ifs at h
  · exact absurd h hrollback
  split at h
  · exact absurd h hrollback
  · obtain ⟨-, rfl⟩ := Prod.mk.inj h
    exact ⟨reservation.slot, _, _, hm, rfl, rfl, rfl, hr, rfl⟩

end Start

/-! ### Removal -/

namespace Reached

variable {rt : InferenceRuntime σ} {r : RequestId}

/-- Removal leaves the request inactive, whatever it returns. -/
theorem removeRequest_ends (h : Reached rt) (r : RequestId) (op : RuntimeOperation) (f : FailureClass) :
    (rt.removeRequest b r op f).2.requestIndex.get? r = none := by
  rcases hr : rt.requestIndex.get? r with _ | m
  · rw [InferenceRuntime.removeRequest_inactive b hr op f]
    exact hr
  obtain ⟨slot, q, hm, hq⟩ := h.consistent.slot_of_request hr
  have hremoval := h.removal b hm hq op f
  generalize rt.removeRequest b r op f = answer at hremoval ⊢
  cases hremoval <;> simp [afterQuarantine, afterDestroy, afterRelease, afterReleaseFailure]

end Reached

end LlmApp
