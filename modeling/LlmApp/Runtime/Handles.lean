/-
# Handles are never reused and an accepted unload is final

The generation of a model id is that of its last load, and every load takes
the next one. So a handle that was issued stays issued (`Issued`), and once
its model is gone, or has accepted an unload, no later load makes it resident
and serving again (`Closed`).

Key definitions: `Issued`, `Closed`, `Operation.RequestsUnload`,
`Operation.loads`.
Key theorems: `Transition.closed`, `startRequestWithReservation_closed`,
`unload_irrevocable`.
-/
import LlmApp.Runtime.Outcomes

namespace LlmApp

open InferenceRuntime

variable {σ Source : Type}

/-! ### Generations -/

/-- The handle is of a generation that was loaded, or a load attempt recorded. -/
def Issued (rt : InferenceRuntime σ) (handle : ModelHandle) : Prop :=
  handle.generation ≤ (rt.generations.get? handle.id).getD 0

/-- The handle is not serving, and never will be. -/
structure Closed (rt : InferenceRuntime σ) (handle : ModelHandle) : Prop where
  issued : Issued rt handle
  accepted {slot : ModelSlot} (hm : rt.models.get? handle.id = some slot) (h : slot.handle = handle) :
    slot.lifecycle.state.unloadAccepted = true

section Step

variable {rt rt' : InferenceRuntime σ} {handle : ModelHandle}

theorem Issued.of_generations (h : Issued rt handle) (hg : rt'.generations = rt.generations) :
    Issued rt' handle := by rwa [Issued, hg]

/-- A load records the next generation of its model. -/
theorem Issued.of_next {m : ModelId} {generation : ModelGeneration} (h : Issued rt handle)
    (hg : rt'.generations = rt.generations.insert m generation)
    (hnext : generation = (rt.generations.get? m).getD 0 + 1) : Issued rt' handle := by
  unfold Issued at *
  rw [hg, OrdMap.get?_insert]
  split_ifs with hm
  · rw [hm] at h
    exact h.trans (hnext ▸ Nat.le_succ _)
  · exact h

theorem Transition.issued {effect : WorkspaceEffect} (ht : Transition effect rt rt') (h : Issued rt handle) :
    Issued rt' handle := by
  cases ht with
  | loaded _ _ _ _ _ _ _ _ hnext => exact h.of_next rfl hnext
  | loadQuarantined _ _ _ _ _ _ hnext => exact h.of_next rfl hnext
  | _ => exact h.of_generations rfl

/-- One slot is replaced: by one of the same handle that stays closed, or by
one of another handle. -/
theorem Closed.of_insert {m : ModelId} {slot : ModelSlot} (h : Closed rt handle) (hi : Issued rt' handle)
    (hmodels : rt'.models = rt.models.insert m slot)
    (hslot : handle.id = m → slot.handle = handle → slot.lifecycle.state.unloadAccepted = true) :
    Closed rt' handle where
  issued := hi
  accepted {slot'} hm heq := by
    rw [hmodels, OrdMap.get?_insert] at hm
    split_ifs at hm with hid
    · cases hm
      exact hslot hid heq
    · exact h.accepted hm heq

theorem Closed.of_models (h : Closed rt handle) (hi : Issued rt' handle)
    (hmodels : ∀ {slot}, rt'.models.get? handle.id = some slot → rt.models.get? handle.id = some slot) :
    Closed rt' handle :=
  ⟨hi, fun hm heq => h.accepted (hmodels hm) heq⟩

/-- No change opens a closed handle. -/
theorem Transition.closed {effect : WorkspaceEffect} (ht : Transition effect rt rt') (h : Closed rt handle) :
    Closed rt' handle := by
  have hi := ht.issued h.issued
  have same : ∀ {m : ModelId} {slot slot' : ModelSlot}, rt.models.get? m = some slot →
      slot'.handle = slot.handle →
      (slot.lifecycle.state.unloadAccepted = true → slot'.lifecycle.state.unloadAccepted = true) →
      handle.id = m → slot'.handle = handle → slot'.lifecycle.state.unloadAccepted = true := by
    rintro m slot slot' hm hhandle hstays rfl heq
    exact hstays (h.accepted hm (hhandle.symm.trans heq))
  cases ht with
  | noted | asked | used | loadQuarantined | loadRolledBack | admissionRolledBack | modelRetryFailed
  | pendingModelReleased | workspaceReleased => exact h.of_models hi id
  | modelReleased | modelQuarantined => exact h.of_models hi OrdMap.get?_of_erase
  | @loaded _ m slot _ _ hm _ _ _ _ _ _ _ hnext =>
    refine h.of_insert (m := m) hi rfl fun hid heq => ?_
    have hissued := h.issued
    rw [Issued, hid, ← heq, hnext] at hissued
    exact absurd hissued (Nat.not_succ_le_self _)
  | @admitted _ _ m slot _ _ _ _ _ _ _ _ hm _ _ _ _ _ hserving =>
    refine h.of_insert (m := m) hi rfl fun hid heq => ?_
    subst hid
    have haccepted := h.accepted hm heq
    revert hserving haccepted
    cases slot.lifecycle.state <;>
      simp [ModelLifecycleState.serving, ModelLifecycleState.unloadAccepted]
  | @admissionQuarantined _ m _ _ _ _ _ _ hm | @usageChanged _ m _ _ _ _ hm
  | @sequenceRetryFailed _ m _ _ _ _ hm | @sequenceReleased _ m _ _ _ _ _ _ hm =>
    exact h.of_insert (m := m) hi rfl (same hm rfl id)
  | @lifecycleChanged _ m _ _ _ hm _ hstays => exact h.of_insert (m := m) hi rfl (same hm rfl hstays)
  | @requestDestroyed _ m _ _ _ _ _ _ hm | @requestQuarantined _ m _ _ _ _ _ _ hm =>
    refine h.of_insert (m := m) hi rfl (same hm rfl fun haccepted => ?_)
    rwa [ModelLifecycle.finishState_unloadAccepted]

theorem Closed.steps (h : Closed rt handle) (hs : Steps rt rt') : Closed rt' handle := by
  induction hs with
  | refl => exact h
  | tail _ ht ih => exact ht.closed ih

end Step

/-! ### Starts and unloads of handles that are not current -/

section Refusals

variable (b : Backend σ Source) {rt : InferenceRuntime σ} {handle : ModelHandle}

/-- The checks of a start before the model is looked up. -/
def InferenceRuntime.checkBeforeModel (rt : InferenceRuntime σ) (requestId : RequestId) (sequenceId : SequenceId)
    (workspaceFootprint : MemoryFootprint) (expectedLogitsCapacity : Option ℕ) : Except RuntimeError Unit := do
  rt.checkIdentities requestId sequenceId
  let _ ← Except.okOr (checkedAdd u32Max rt.activeRequests 1) RuntimeError.backendContractViolation
  let _ ←
    (if expectedLogitsCapacity.isSome then
      Except.okOr (checkedAdd u32Max rt.generationWorkspaces 1) RuntimeError.backendContractViolation
    else .ok rt.generationWorkspaces)
  let _ ←
    (if expectedLogitsCapacity.isSome then
      checkedAddFootprint rt.reservedGenerationWorkspace workspaceFootprint
    else .ok rt.reservedGenerationWorkspace)
  return ()

/-- A start whose model lookup fails is refused, by it or by an earlier check. -/
theorem checkStart_error {e : RuntimeError} (h : rt.exactModel handle = .error e) (r : RequestId) (s : SequenceId)
    (workspace : MemoryFootprint) (capacity : Option ℕ) :
    ∃ e', rt.checkStart handle r s workspace capacity = .error e' ∧
      (e' = e ∨ rt.checkBeforeModel r s workspace capacity = .error e') := by
  unfold checkStart InferenceRuntime.checkBeforeModel
  rcases rt.checkIdentities r s with e₁ | _
  · exact ⟨e₁, rfl, .inr rfl⟩
  simp only [Except.ok_bind]
  rcases Except.okOr (checkedAdd u32Max rt.activeRequests 1) RuntimeError.backendContractViolation with e₂ | _
  · exact ⟨e₂, rfl, .inr rfl⟩
  simp only [Except.ok_bind]
  rcases (if capacity.isSome then
      Except.okOr (checkedAdd u32Max rt.generationWorkspaces 1) RuntimeError.backendContractViolation
    else .ok rt.generationWorkspaces) with e₃ | _
  · exact ⟨e₃, rfl, .inr rfl⟩
  simp only [Except.ok_bind]
  rcases (if capacity.isSome then checkedAddFootprint rt.reservedGenerationWorkspace workspace
    else .ok rt.reservedGenerationWorkspace) with e₄ | _
  · exact ⟨e₄, rfl, .inr rfl⟩
  simp only [Except.ok_bind, h]
  exact ⟨e, rfl, .inl rfl⟩

theorem startRequestWithReservation_error {e : RuntimeError} {r : RequestId} {s : SequenceId}
    {workspace : MemoryFootprint} {capacity : Option ℕ}
    (h : rt.checkStart handle r s workspace capacity = .error e) (configuration : SequenceConfiguration) :
    rt.startRequestWithReservation b handle r s configuration workspace capacity = (.error e, rt) := by
  simp only [startRequestWithReservation, h]

/-- No start with a closed handle succeeds. -/
theorem startRequestWithReservation_closed (h : Closed rt handle) (r : RequestId) (s : SequenceId)
    (configuration : SequenceConfiguration) (workspace : MemoryFootprint) (capacity : Option ℕ) :
    ∃ e, rt.startRequestWithReservation b handle r s configuration workspace capacity = (.error e, rt) := by
  rcases hcheck : rt.checkStart handle r s workspace capacity with e | reservation
  · exact ⟨e, startRequestWithReservation_error b hcheck configuration⟩
  obtain ⟨-, -, -, -, -, -, hserving, -⟩ := checkStart_ok hcheck
  simp only [checkStart, Except.bind_eq_ok, Except.pure_eq_ok] at hcheck
  obtain ⟨_, -, _, -, _, -, _, -, slot, hexact, -, -, -, -, -, -, -, -, rfl⟩ := hcheck
  obtain ⟨hm, heq⟩ := exactModel_ok hexact
  have haccepted := h.accepted hm heq
  revert hserving haccepted
  cases slot.lifecycle.state <;> simp [ModelLifecycleState.serving, ModelLifecycleState.unloadAccepted]

/-- The error of a lookup by a handle that is not current. -/
inductive NotCurrent (rt : InferenceRuntime σ) (handle : ModelHandle) : RuntimeError → Prop
  | stale (current : ModelHandle) : NotCurrent rt handle (.staleModelHandle handle current)
  | notLoaded : NotCurrent rt handle (.modelNotLoaded handle.id)

theorem exactModel_notCurrent (hi : Consistent rt)
    (h : rt.generations.get? handle.id ≠ some handle.generation) :
    ∃ e, rt.exactModel handle = .error e ∧ NotCurrent rt handle e := by
  rcases hm : rt.models.get? handle.id with _ | slot
  · exact ⟨_, by simp [exactModel, hm], .notLoaded⟩
  · have hne : slot.handle ≠ handle := by
      intro heq
      rw [(hi.handle hm).2, heq] at h
      exact h rfl
    exact ⟨_, by simp [exactModel, hm, Except.failIf, hne], .stale slot.handle⟩

theorem absentUnloadReceipt_notCurrent (h : rt.generations.get? handle.id ≠ some handle.generation) :
    ∃ e, rt.absentUnloadReceipt handle = .error e ∧ NotCurrent rt handle e := by
  have hne : ∀ {generation}, rt.generations.get? handle.id = some generation →
      (⟨handle.id, generation⟩ : ModelHandle) ≠ handle := by
    rintro generation hg heq
    rw [hg, ← heq] at h
    exact h rfl
  unfold absentUnloadReceipt
  split
  all_goals
    split
    · exact ⟨_, rfl, .notLoaded⟩
    next generation hg =>
    rw [if_pos (hne hg)]
    exact ⟨_, rfl, .stale _⟩

/-- An unload with a handle that is not current is refused. -/
theorem unloadModel_notCurrent (hi : Consistent rt) (h : rt.generations.get? handle.id ≠ some handle.generation)
    (policy : UnloadPolicy) (now : MonotonicMillis) :
    ∃ e, rt.unloadModel b handle policy now = (.error e, rt) ∧ NotCurrent rt handle e := by
  unfold unloadModel
  split_ifs
  · obtain ⟨e, he, hn⟩ := absentUnloadReceipt_notCurrent h
    exact ⟨e, by rw [he], hn⟩
  · obtain ⟨e, he, hn⟩ := exactModel_notCurrent hi h
    exact ⟨e, by rw [he], hn⟩

theorem start_notCurrent (hi : Consistent rt) (h : rt.generations.get? handle.id ≠ some handle.generation)
    (r : RequestId) (s : SequenceId) (configuration : SequenceConfiguration) (workspace : MemoryFootprint)
    (capacity : Option ℕ) :
    ∃ e, rt.startRequestWithReservation b handle r s configuration workspace capacity = (.error e, rt) ∧
      (NotCurrent rt handle e ∨ rt.checkBeforeModel r s workspace capacity = .error e) := by
  obtain ⟨e, he, hn⟩ := exactModel_notCurrent hi h
  obtain ⟨e', hcheck, hcases⟩ := checkStart_error he r s workspace capacity
  refine ⟨e', startRequestWithReservation_error b hcheck configuration, hcases.imp_left ?_⟩
  rintro rfl
  exact hn

end Refusals

/-! ### Accepted unloads -/

section Accepted

variable (b : Backend σ Source) {rt : InferenceRuntime σ} {handle : ModelHandle} {slot : ModelSlot}

/-- The lifecycle of the handle's slot accepts an unload. -/
theorem closed_of_accepted (hi : Consistent rt) (hexact : rt.exactModel handle = .ok slot)
    {lifecycle : ModelLifecycle} (h : lifecycle.state.unloadAccepted = true) :
    Closed { rt with models := rt.models.insert handle.id { slot with lifecycle := lifecycle } } handle where
  issued := by
    obtain ⟨hm, heq⟩ := exactModel_ok hexact
    simp [Issued, (hi.handle hm).2, heq]
  accepted {slot'} hm _ := by
    rw [OrdMap.get?_insert_self] at hm
    cases hm
    exact h

theorem unloadModel_closed (hi : Consistent rt) (hexact : rt.exactModel handle = .ok slot) {policy : UnloadPolicy}
    {now : MonotonicMillis} {action : LifecycleAction} {lifecycle : ModelLifecycle}
    (hok : slot.lifecycle.requestUnload policy now = (.ok action, lifecycle)) :
    Closed (rt.unloadModel b handle policy now).2 handle := by
  obtain ⟨hm, -⟩ := exactModel_ok hexact
  obtain ⟨-, hmatch, haccepted, -⟩ := ModelLifecycle.requestUnload_ok (hi.slot hm).lifecycle hok
  have hclosed := closed_of_accepted hi hexact haccepted
  have ht : Transition .keep rt { rt with
      models := rt.models.insert handle.id { slot with lifecycle := lifecycle } } :=
    .lifecycleChanged slot.cancelledRequestsDuringUnload hm hmatch fun _ => haccepted
  have hi' := ht.consistent hi
  refine hclosed.steps ?_
  rw [unloadModel, if_neg (by simp [hm])]
  simp only [hexact, hok]
  cases action with
  | none | unloadComplete => exact .refl _
  | cancelActive => exact cancelAndRelease_steps b hi' handle.id handle
  | releaseModel =>
    have hrelease := releaseModelWithPrimary_steps b hi' handle.id .modelUnload .completion
    unfold releaseModel
    generalize releaseModelWithPrimary b _ handle.id .modelUnload .completion = answer at hrelease ⊢
    obtain ⟨_ | _, rt'⟩ := answer <;> exact hrelease

theorem shutdownModels_append (ms' : List ModelId) : ∀ (ms : List ModelId) {cancelled cancelled' : ℕ}
    {rt rt' : InferenceRuntime σ}, shutdownModels b ms cancelled rt = (.ok cancelled', rt') →
      shutdownModels b (ms ++ ms') cancelled rt = shutdownModels b ms' cancelled' rt'
  | [], _, _, _, _, h => by
    rw [shutdownModels] at h
    cases h
    rfl
  | m :: ms, cancelled, _, rt, _, h => by
    rw [shutdownModels] at h
    rw [List.cons_append, shutdownModels]
    generalize rt.shutdownModel b m = answer at h ⊢
    obtain ⟨e | more, rt₁⟩ := answer
    · cases h
    · exact shutdownModels_append ms' ms h

theorem shutdownModel_closed (hi : Consistent rt) (hexact : rt.exactModel handle = .ok slot) :
    Closed (rt.shutdownModel b handle.id).2 handle := by
  obtain ⟨hm, -⟩ := exactModel_ok hexact
  obtain ⟨lifecycle, hmatch, haccepted, heq⟩ := shutdownUnload_ok hi hm
  have ht : Transition .keep rt { rt with
      models := rt.models.insert handle.id { slot with lifecycle := lifecycle } } :=
    .lifecycleChanged slot.cancelledRequestsDuringUnload hm hmatch fun _ => haccepted
  exact (closed_of_accepted hi hexact haccepted).steps (shutdownModel_after_steps b hm heq (ht.consistent hi))

theorem shutdown_closed (h : Reached rt) {before after : List ModelId} {cancelled : ℕ} {rt' : InferenceRuntime σ}
    (hkeys : rt.models.keys = before ++ handle.id :: after)
    (hpass : shutdownModels b before 0 { rt with shuttingDown := true } = (.ok cancelled, rt'))
    (hexact : rt'.exactModel handle = .ok slot) : Closed (rt.shutdown b).2 handle := by
  have hnoted : Reached { rt with shuttingDown := true } :=
    h.steps (.noted rt rt.lastCleanup rt.maintenanceError true fun _ => rfl)
  have hreached := hnoted.steps (shutdownModels_steps b before 0 hnoted.consistent)
  rw [hpass] at hreached
  have hall := shutdownModels_append b (handle.id :: after) before hpass
  rw [← hkeys, shutdownModels] at hall
  have hclosed := shutdownModel_closed b hreached.consistent hexact
  have hmodel := hreached.steps (shutdownModel_steps b hreached.consistent handle.id)
  have hrest : Closed (shutdownModels b rt.models.keys 0 { rt with shuttingDown := true }).2 handle := by
    rw [hall]
    dsimp only at hclosed hmodel ⊢
    generalize rt'.shutdownModel b handle.id = answer at hclosed hmodel ⊢
    obtain ⟨e | more, rt₁⟩ := answer
    · exact hclosed
    · exact hclosed.steps (shutdownModels_steps b after _ hmodel.consistent)
  exact hrest.steps (shutdown_after_steps b
    (hnoted.steps (shutdownModels_steps b rt.models.keys 0 hnoted.consistent)).consistent)

end Accepted

/-! ### Runs -/

/-- The lifecycle of the handle's resident model accepts an unload in the
operation: the unload names it, or shutdown comes to it while it serves. -/
def Operation.RequestsUnload (b : Backend σ Source) (rt : InferenceRuntime σ) (handle : ModelHandle) :
    Operation Source → Prop
  | .unloadModel handle' policy now => handle' = handle ∧ ∃ slot, rt.exactModel handle = .ok slot ∧
      (slot.lifecycle.requestUnload policy now).1.isOk = true
  | .shutdown => ∃ before after cancelled rt' slot, rt.models.keys = before ++ handle.id :: after ∧
      shutdownModels b before 0 { rt with shuttingDown := true } = (.ok cancelled, rt') ∧
      rt'.exactModel handle = .ok slot ∧ slot.lifecycle.state.serving = true
  | _ => False

/-- The handle of a successful load. -/
def Operation.loaded (b : Backend σ Source) (rt : InferenceRuntime σ) : Operation Source → Option ModelHandle
  | .loadModel modelId source device deviceKind =>
    match (rt.loadModel b modelId source device deviceKind).1 with
    | .ok receipt => some receipt.handle
    | .error _ => none
  | _ => none

/-- The handles of the successful loads of a run, in their order. -/
def Operation.loads (b : Backend σ Source) : List (Operation Source) → InferenceRuntime σ → List ModelHandle
  | [], _ => []
  | op :: ops, rt => (op.loaded b rt).toList ++ loads b ops (op.apply b rt)

section Runs

variable (b : Backend σ Source) {rt : InferenceRuntime σ} {handle : ModelHandle}

theorem Operation.applyAll_issued (ops : List (Operation Source)) (hi : Consistent rt) (h : Issued rt handle) :
    Issued (Operation.applyAll b ops rt) handle :=
  applyAll_keeps b (P := fun r => Issued r handle) (fun _ ht h => ht.issued h) ops hi h

theorem Operation.applyAll_closed (ops : List (Operation Source)) (hi : Consistent rt) (h : Closed rt handle) :
    Closed (Operation.applyAll b ops rt) handle :=
  applyAll_keeps b (P := fun r => Closed r handle) (fun _ ht h => ht.closed h) ops hi h

theorem Operation.apply_closed (h : Reached rt) {op : Operation Source} (hop : op.RequestsUnload b rt handle) :
    Closed (op.apply b rt) handle := by
  cases op with
  | unloadModel handle' policy now =>
    obtain ⟨rfl, slot, hexact, hok⟩ := hop
    rcases hrequest : slot.lifecycle.requestUnload policy now with ⟨e | action, lifecycle⟩
    · rw [hrequest] at hok
      cases hok
    · exact unloadModel_closed b h.consistent hexact hrequest
  | shutdown =>
    obtain ⟨before, after, cancelled, rt', slot, hkeys, hpass, hexact, -⟩ := hop
    exact shutdown_closed b h hkeys hpass hexact
  | _ => cases hop

/-- The receipt of a load has the next generation, which the load records. -/
theorem loadModel_ok {m : ModelId} {source : Source} {device : DeviceId} {kind : DeviceKind}
    {receipt : LoadReceipt} {rt' : InferenceRuntime σ}
    (h : rt.loadModel b m source device kind = (.ok receipt, rt')) :
    receipt.handle.id = m ∧ receipt.handle.generation = (rt.generations.get? m).getD 0 + 1 ∧
      rt'.generations = rt.generations.insert m receipt.handle.generation := by
  unfold loadModel at h
  split at h
  · cases h
  next handle hcheck =>
  obtain ⟨-, -, hid, hnext⟩ := checkLoad_ok hcheck
  dsimp only at h
  split at h
  · cases h
  split at h
  · cases h
  split at h
  · cases h
  split at h
  · cases h
  split at h
  · split at h <;> cases h
  · cases h
    exact ⟨hid, hnext, rfl⟩

/-- A load takes a handle that was not issued, and issues it. -/
theorem Operation.loaded_next {op : Operation Source} (hop : op.loaded b rt = some handle) :
    ¬Issued rt handle ∧ Issued (op.apply b rt) handle := by
  cases op with
  | loadModel m source device kind =>
    dsimp only [loaded, apply] at hop ⊢
    rcases hload : rt.loadModel b m source device kind with ⟨e | receipt, rt'⟩ <;> rw [hload] at hop <;> cases hop
    obtain ⟨hid, hnext, hg⟩ := loadModel_ok b hload
    constructor
    · rw [Issued, hid, hnext]
      exact Nat.not_succ_le_self _
    · simp [Issued, hid, hg]
  | _ => cases hop

/-- The handles a run loads were not issued before, and are distinct. -/
theorem Operation.loads_fresh : ∀ (ops : List (Operation Source)) {rt : InferenceRuntime σ}, Consistent rt →
    (∀ handle ∈ Operation.loads b ops rt, ¬Issued rt handle) ∧ (Operation.loads b ops rt).Nodup
  | [], _, _ => ⟨fun _ h => absurd h List.not_mem_nil, List.nodup_nil⟩
  | op :: ops, rt, hi => by
    have hi' : Consistent (op.apply b rt) :=
      applyAll_keeps b (P := Consistent) (fun _ ht hi => ht.consistent hi) [op] hi hi
    obtain ⟨hfresh, hnodup⟩ := loads_fresh ops hi'
    have hkeep : ∀ handle ∈ Operation.loads b ops (op.apply b rt), ¬Issued rt handle := fun handle hm hissued =>
      hfresh handle hm (Operation.applyAll_issued b [op] hi hissued)
    rw [Operation.loads]
    rcases hop : op.loaded b rt with _ | handle
    · exact ⟨hkeep, hnodup⟩
    obtain ⟨hnot, hnow⟩ := Operation.loaded_next b hop
    refine ⟨fun handle' hm => ?_, List.nodup_cons.mpr ⟨fun hm => hfresh handle hm hnow, hnodup⟩⟩
    rcases List.mem_cons.mp hm with rfl | hm
    · exact hnot
    · exact hkeep handle' hm

/-- Over every run: the handles loaded are distinct; after an accepted unload
of a handle no start with it succeeds, whatever operations follow; and a start
or an unload with a handle that is not current is refused and changes nothing. -/
theorem unload_irrevocable (loader : σ) (limits : RuntimeLimits) (ops : List (Operation Source)) :
    (Operation.loads b ops (InferenceRuntime.new loader limits)).Nodup ∧
    let rt := Operation.applyAll b ops (InferenceRuntime.new loader limits)
    (∀ (op : Operation Source) (handle : ModelHandle), op.RequestsUnload b rt handle → ∀ ops' r s configuration,
      let rt' := Operation.applyAll b ops' (op.apply b rt)
      (∃ e, rt'.startRequest b handle r s configuration = (.error e, rt')) ∧
      ∀ workspace capacity, ∃ e,
        rt'.startGenerationRequest b handle r s configuration workspace capacity = (.error e, rt')) ∧
    ∀ handle, rt.generations.get? handle.id ≠ some handle.generation →
      (∀ policy now, ∃ e, rt.unloadModel b handle policy now = (.error e, rt) ∧ NotCurrent rt handle e) ∧
      (∀ r s configuration, ∃ e, rt.startRequest b handle r s configuration = (.error e, rt) ∧
        (NotCurrent rt handle e ∨ rt.checkBeforeModel r s 0 none = .error e)) ∧
      ∀ r s configuration workspace capacity, ∃ e,
        rt.startGenerationRequest b handle r s configuration workspace capacity = (.error e, rt) ∧
          (NotCurrent rt handle e ∨ rt.checkBeforeModel r s workspace (some capacity) = .error e) := by
  refine ⟨(Operation.loads_fresh b ops (consistent_new loader limits)).2, ?_⟩
  intro rt
  have h : Reached rt := Operation.applyAll_reached b ops (.new loader limits)
  refine ⟨fun op handle hop ops' r s configuration => ?_, fun handle hne => ⟨?_, ?_, ?_⟩⟩
  · have hclosed := Operation.applyAll_closed b ops' (op.apply_reached b h).consistent (Operation.apply_closed b h hop)
    exact ⟨startRequestWithReservation_closed b hclosed r s configuration 0 none, fun workspace capacity =>
      startRequestWithReservation_closed b hclosed r s configuration workspace (some capacity)⟩
  · exact unloadModel_notCurrent b h.consistent hne
  · exact fun r s configuration => start_notCurrent b h.consistent hne r s configuration 0 none
  · exact fun r s configuration workspace capacity =>
      start_notCurrent b h.consistent hne r s configuration workspace (some capacity)

end Runs

end LlmApp
