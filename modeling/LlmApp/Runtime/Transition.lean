/-
# The elementary changes of the registry

Every operation of the runtime is a sequence of changes from a short list: a
call with no effect on the registry, the admission of a model or a sequence,
its quarantine or its rollback, a removal, a failed or successful retry, a
release. `Transition` is that list, each entry with what holds when the
operation makes it, and each one keeps the registry consistent.

A change to the workspaces of the generations is an index of the relation: it
says which workspace was admitted or released.

Key definitions: `WorkspaceEffect`, `Transition`, `Steps`.
Key theorems: `Transition.consistent`, `Transition.outstanding`.
-/
import LlmApp.Runtime.Invariant
import LlmApp.Runtime.Cleanup

namespace LlmApp

/-- What a change does to the admitted workspaces. -/
inductive WorkspaceEffect where
  | keep
  | reserve (footprint : MemoryFootprint)
  | release (footprint : MemoryFootprint)

/-- A call that leaves the slot's resources as they are: on its model, or on
one of its active sequences. -/
inductive ModelSlot.Uses (slot : ModelSlot) : BackendCall → Prop
  | planSequence : slot.Uses (.planSequence slot.model)
  | createSequence : slot.Uses (.createSequence slot.model none)
  | prefill {r : RequestId} {q : RequestSlot} (h : slot.requests.get? r = some q) :
      slot.Uses (.prefill slot.model q.sequence.ref)
  | decode {r : RequestId} {q : RequestSlot} (h : slot.requests.get? r = some q) :
      slot.Uses (.decode slot.model q.sequence.ref)

/-- A slot as a load commits it. -/
structure ModelSlot.Fresh (slot : ModelSlot) : Prop where
  lifecycle : slot.lifecycle.state = .ready
  reserved : slot.reservedFootprint = slot.modelFootprint
  requests : slot.requests = .empty
  pendingSequences : slot.pendingSequences = .empty
  poisoned : slot.poisoned = false

theorem ModelSlot.Fresh.consistent {slot : ModelSlot} (h : slot.Fresh) (k : ℕ)
    (hfits : slot.reservedFootprint.Fits) : slot.Consistent k where
  reserved := by simp [h.reserved, h.requests, h.pendingSequences]
  fits := hfits
  lifecycle := by
    rw [h.lifecycle, h.requests]
    exact .ready
  poisoned := by rw [h.poisoned, h.pendingSequences]; rfl
  pending hp := by simp [h.pendingSequences] at hp

open InferenceRuntime

variable {σ : Type}

inductive Transition : WorkspaceEffect → InferenceRuntime σ → InferenceRuntime σ → Prop
  | noted {rt : InferenceRuntime σ} (last : Option CleanupRetryState) (error : Option RuntimeError)
      (shuttingDown : Bool) (hstays : rt.shuttingDown = true → shuttingDown = true) :
      Transition .keep rt { rt with
        lastCleanup := last, maintenanceError := error, shuttingDown := shuttingDown }
  | asked {rt : InferenceRuntime σ} {loader : BackendState σ} (hl : rt.loader.Advance 0 0 [] loader) :
      Transition .keep rt { rt with loader := loader }
  | used {rt : InferenceRuntime σ} {m : ModelId} {slot : ModelSlot} {c : BackendCall}
      {loader : BackendState σ} (hm : rt.models.get? m = some slot) (hc : slot.Uses c)
      (hl : rt.loader.Advance 0 0 [c] loader) :
      Transition .keep rt { rt with loader := loader }
  | loaded {rt : InferenceRuntime σ} {m : ModelId} {slot : ModelSlot} {loader : BackendState σ}
      {reserved : MemoryFootprint}
      (hm : rt.models.get? m = none) (hp : rt.pendingModels.get? m = none) (hid : slot.handle.id = m)
      (hfresh : slot.Fresh) (hmodel : slot.model = rt.loader.models)
      (hr : rt.reservedFootprint + slot.modelFootprint = reserved) (hfits : reserved.Fits)
      (hl : rt.loader.Advance 1 0 [.load slot.model] loader)
      (hnext : slot.handle.generation = (rt.generations.get? m).getD 0 + 1) :
      Transition .keep rt { rt with
        loader := loader
        models := rt.models.insert m slot
        generations := rt.generations.insert m slot.handle.generation
        reservedFootprint := reserved }
  | loadQuarantined {rt : InferenceRuntime σ} {m : ModelId} {p : PendingModel}
      {generation : ModelGeneration} {loader : BackendState σ} {reserved : MemoryFootprint}
      (hm : rt.models.get? m = none) (hp : rt.pendingModels.get? m = none)
      (hmodel : p.model = rt.loader.models) (ha : p.attempts = 1)
      (hr : rt.reservedFootprint + p.footprint = reserved)
      (hl : rt.loader.Advance 1 0 [.load p.model, .prepareUnload p.model false] loader)
      (hnext : generation = (rt.generations.get? m).getD 0 + 1) :
      Transition .keep rt { rt with
        loader := loader
        pendingModels := rt.pendingModels.insert m p
        generations := rt.generations.insert m generation
        reservedFootprint := reserved }
  | loadRolledBack {rt : InferenceRuntime σ} {m : ModelId} {model : ModelRef} {loader : BackendState σ}
      (hm : rt.models.get? m = none) (hp : rt.pendingModels.get? m = none)
      (hmodel : model = rt.loader.models)
      (hl : rt.loader.Advance 1 0 [.load model, .prepareUnload model true] loader) :
      Transition .keep rt { rt with loader := loader }
  | admitted {rt : InferenceRuntime σ} {effect : WorkspaceEffect} {m : ModelId} {slot : ModelSlot}
      {r : RequestId} {q : RequestSlot} {lifecycle : ModelLifecycle} {loader : BackendState σ}
      {reserved slotReserved workspace : MemoryFootprint} {workspaces : ℕ}
      (hm : rt.models.get? m = some slot) (hr : rt.requestIndex.get? r = none)
      (hpr : rt.pendingRequestIndex.get? r = none) (hs : rt.sequenceIndex.get? q.sequence.id = none)
      (hps : rt.pendingSequenceIndex.get? q.sequence.id = none)
      (hcap : rt.activeRequests + rt.pendingCleanupSequences < rt.limits.maximumActiveRequests.get)
      (hserving : slot.lifecycle.state.serving = true)
      (hlife : lifecycle.state = .active (slot.requests.size + 1))
      (heffect : (effect = .keep ∧ q.workspaceFootprint = 0 ∧ workspaces = rt.generationWorkspaces ∧
          workspace = rt.reservedGenerationWorkspace) ∨
        (effect = .reserve q.workspaceFootprint ∧ workspaces = rt.generationWorkspaces + 1 ∧
          workspace = rt.reservedGenerationWorkspace + q.workspaceFootprint))
      (hslot : slot.reservedFootprint + (q.backendFootprint + q.workspaceFootprint) = slotReserved)
      (hfits : slotReserved.Fits)
      (hres : rt.reservedFootprint + (q.backendFootprint + q.workspaceFootprint) = reserved)
      (href : q.sequence.ref = rt.loader.sequences)
      (hl : rt.loader.Advance 0 1 [.createSequence slot.model (some q.sequence.ref)] loader) :
      Transition effect rt { rt with
        loader := loader
        models := rt.models.insert m { slot with
          lifecycle := lifecycle
          requests := slot.requests.insert r q
          reservedFootprint := slotReserved }
        requestIndex := rt.requestIndex.insert r m
        sequenceIndex := rt.sequenceIndex.insert q.sequence.id r
        activeRequests := rt.activeRequests + 1
        reservedFootprint := reserved
        generationWorkspaces := workspaces
        reservedGenerationWorkspace := workspace }
  | admissionQuarantined {rt : InferenceRuntime σ} {m : ModelId} {slot : ModelSlot} {r : RequestId}
      {p : PendingSequence} {loader : BackendState σ} {reserved slotReserved : MemoryFootprint}
      (hm : rt.models.get? m = some slot) (hr : rt.requestIndex.get? r = none)
      (hpr : rt.pendingRequestIndex.get? r = none) (hs : rt.sequenceIndex.get? p.sequenceId = none)
      (hps : rt.pendingSequenceIndex.get? p.sequenceId = none)
      (hcap : rt.activeRequests + rt.pendingCleanupSequences < rt.limits.maximumActiveRequests.get)
      (hid : p.requestId = r) (ha : p.attempts = 1)
      (hslot : slot.reservedFootprint + p.footprint = slotReserved) (hfits : slotReserved.Fits)
      (hres : rt.reservedFootprint + p.footprint = reserved)
      (href : p.sequence.ref = rt.loader.sequences)
      (hl : rt.loader.Advance 0 1 [.createSequence slot.model (some p.sequence.ref),
        .destroySequence slot.model p.sequence.ref false] loader) :
      Transition .keep rt { rt with
        loader := loader
        models := rt.models.insert m { slot with
          pendingSequences := slot.pendingSequences.insert r p
          reservedFootprint := slotReserved
          poisoned := true }
        pendingRequestIndex := rt.pendingRequestIndex.insert r m
        pendingSequenceIndex := rt.pendingSequenceIndex.insert p.sequenceId r
        pendingCleanupSequences := rt.pendingCleanupSequences + 1
        reservedFootprint := reserved }
  | admissionRolledBack {rt : InferenceRuntime σ} {m : ModelId} {slot : ModelSlot} {r : RequestId}
      {s : SequenceRef} {loader : BackendState σ} (hm : rt.models.get? m = some slot)
      (hr : rt.requestIndex.get? r = none) (hpr : rt.pendingRequestIndex.get? r = none)
      (hs : s = rt.loader.sequences)
      (hl : rt.loader.Advance 0 1 [.createSequence slot.model (some s),
        .destroySequence slot.model s true] loader) :
      Transition .keep rt { rt with loader := loader }
  | usageChanged {rt : InferenceRuntime σ} {m : ModelId} {slot : ModelSlot} {r : RequestId}
      {q : RequestSlot} (usage : GenerationUsage) (hm : rt.models.get? m = some slot)
      (hr : slot.requests.get? r = some q) :
      Transition .keep rt { rt with models := rt.models.insert m { slot with
        requests := slot.requests.insert r { q with usage := usage } } }
  | lifecycleChanged {rt : InferenceRuntime σ} {m : ModelId} {slot : ModelSlot}
      {lifecycle : ModelLifecycle} (cancelled : ℕ) (hm : rt.models.get? m = some slot)
      (hlife : LifecycleMatches lifecycle.state slot.requests.size)
      (hstays : slot.lifecycle.state.unloadAccepted = true → lifecycle.state.unloadAccepted = true) :
      Transition .keep rt { rt with models := rt.models.insert m { slot with
        lifecycle := lifecycle, cancelledRequestsDuringUnload := cancelled } }
  | requestDestroyed {rt : InferenceRuntime σ} {m : ModelId} {slot : ModelSlot} {r : RequestId}
      {q : RequestSlot} {loader : BackendState σ} {reserved slotReserved : MemoryFootprint}
      (hm : rt.models.get? m = some slot) (hr : slot.requests.get? r = some q)
      (hslot : slotReserved + (q.backendFootprint + q.workspaceFootprint) = slot.reservedFootprint)
      (hres : reserved + q.backendFootprint = rt.reservedFootprint)
      (hl : rt.loader.Advance 0 0 [.destroySequence slot.model q.sequence.ref true] loader) :
      Transition .keep rt { rt with
        loader := loader
        models := rt.models.insert m { slot with
          requests := slot.requests.erase r
          reservedFootprint := slotReserved
          lifecycle := ⟨ModelLifecycle.finishState slot.lifecycle.state slot.requests.size⟩ }
        requestIndex := rt.requestIndex.erase r
        sequenceIndex := rt.sequenceIndex.erase q.sequence.id
        activeRequests := rt.activeRequests - 1
        reservedFootprint := reserved }
  | requestQuarantined {rt : InferenceRuntime σ} {m : ModelId} {slot : ModelSlot} {r : RequestId}
      {q : RequestSlot} {p : PendingSequence} {loader : BackendState σ} {slotReserved : MemoryFootprint}
      (hm : rt.models.get? m = some slot) (hr : slot.requests.get? r = some q)
      (hid : p.requestId = r) (hs : p.sequenceId = q.sequence.id) (hseq : p.sequence = q.sequence)
      (hf : p.footprint = q.backendFootprint) (ha : p.attempts = 1)
      (hslot : slotReserved + q.workspaceFootprint = slot.reservedFootprint)
      (hl : rt.loader.Advance 0 0 [.destroySequence slot.model q.sequence.ref false] loader) :
      Transition .keep rt { rt with
        loader := loader
        models := rt.models.insert m { slot with
          requests := slot.requests.erase r
          reservedFootprint := slotReserved
          pendingSequences := slot.pendingSequences.insert r p
          poisoned := true
          lifecycle := ⟨ModelLifecycle.finishState slot.lifecycle.state slot.requests.size⟩ }
        requestIndex := rt.requestIndex.erase r
        sequenceIndex := rt.sequenceIndex.erase q.sequence.id
        pendingRequestIndex := rt.pendingRequestIndex.insert r m
        pendingSequenceIndex := rt.pendingSequenceIndex.insert q.sequence.id r
        activeRequests := rt.activeRequests - 1
        pendingCleanupSequences := rt.pendingCleanupSequences + 1 }
  | sequenceRetryFailed {rt : InferenceRuntime σ} {m : ModelId} {slot : ModelSlot} {r : RequestId}
      {p : PendingSequence} {loader : BackendState σ}
      (hm : rt.models.get? m = some slot) (hr : slot.pendingSequences.get? r = some p)
      (ha : p.attempts < rt.maximumCleanupAttempts)
      (hl : rt.loader.Advance 0 0 [.destroySequence slot.model p.sequence.ref false] loader) :
      Transition .keep rt { rt with
        loader := loader
        models := rt.models.insert m { slot with
          pendingSequences := slot.pendingSequences.insert r { p with attempts := p.attempts + 1 } } }
  | sequenceReleased {rt : InferenceRuntime σ} {m : ModelId} {slot : ModelSlot} {r : RequestId}
      {p : PendingSequence} {loader : BackendState σ} {reserved slotReserved : MemoryFootprint}
      (hm : rt.models.get? m = some slot) (hr : slot.pendingSequences.get? r = some p)
      (ha : p.attempts < rt.maximumCleanupAttempts)
      (hslot : slotReserved + p.footprint = slot.reservedFootprint)
      (hres : reserved + p.footprint = rt.reservedFootprint)
      (hl : rt.loader.Advance 0 0 [.destroySequence slot.model p.sequence.ref true] loader) :
      Transition .keep rt { rt with
        loader := loader
        models := rt.models.insert m { slot with
          pendingSequences := slot.pendingSequences.erase r
          reservedFootprint := slotReserved
          poisoned := !(slot.pendingSequences.erase r).isEmpty }
        pendingRequestIndex := rt.pendingRequestIndex.erase r
        pendingSequenceIndex := rt.pendingSequenceIndex.erase p.sequenceId
        pendingCleanupSequences := rt.pendingCleanupSequences - 1
        reservedFootprint := reserved }
  | modelReleased {rt : InferenceRuntime σ} {m : ModelId} {slot : ModelSlot} {loader : BackendState σ}
      {reserved : MemoryFootprint} (hm : rt.models.get? m = some slot)
      (hreq : slot.requests.isEmpty = true) (hpend : slot.pendingSequences.isEmpty = true)
      (hlife : slot.lifecycle.state = .unloading)
      (hres : reserved + slot.modelFootprint = rt.reservedFootprint)
      (hl : rt.loader.Advance 0 0 [.prepareUnload slot.model true] loader) :
      Transition .keep rt { rt with
        loader := loader
        models := rt.models.erase m
        reservedFootprint := reserved }
  | modelQuarantined {rt : InferenceRuntime σ} {m : ModelId} {slot : ModelSlot} {p : PendingModel}
      {loader : BackendState σ} (hm : rt.models.get? m = some slot)
      (hreq : slot.requests.isEmpty = true) (hpend : slot.pendingSequences.isEmpty = true)
      (hlife : slot.lifecycle.state = .unloading)
      (hmodel : p.model = slot.model) (hf : p.footprint = slot.modelFootprint) (ha : p.attempts = 1)
      (hl : rt.loader.Advance 0 0 [.prepareUnload slot.model false] loader) :
      Transition .keep rt { rt with
        loader := loader
        models := rt.models.erase m
        pendingModels := rt.pendingModels.insert m p }
  | modelRetryFailed {rt : InferenceRuntime σ} {m : ModelId} {p : PendingModel}
      {loader : BackendState σ} (hp : rt.pendingModels.get? m = some p)
      (ha : p.attempts < rt.maximumCleanupAttempts)
      (hl : rt.loader.Advance 0 0 [.prepareUnload p.model false] loader) :
      Transition .keep rt { rt with
        loader := loader
        pendingModels := rt.pendingModels.insert m { p with attempts := p.attempts + 1 } }
  | pendingModelReleased {rt : InferenceRuntime σ} {m : ModelId} {p : PendingModel}
      {loader : BackendState σ} {reserved : MemoryFootprint} (hp : rt.pendingModels.get? m = some p)
      (ha : p.attempts < rt.maximumCleanupAttempts)
      (hres : reserved + p.footprint = rt.reservedFootprint)
      (hl : rt.loader.Advance 0 0 [.prepareUnload p.model true] loader) :
      Transition .keep rt { rt with
        loader := loader
        pendingModels := rt.pendingModels.erase m
        reservedFootprint := reserved }
  | workspaceReleased {rt : InferenceRuntime σ} {footprint : MemoryFootprint} {workspaces : ℕ}
      {workspace reserved : MemoryFootprint} (hn : workspaces + 1 = rt.generationWorkspaces)
      (hw : workspace + footprint = rt.reservedGenerationWorkspace)
      (hres : reserved + footprint = rt.reservedFootprint) :
      Transition (.release footprint) rt { rt with
        generationWorkspaces := workspaces
        reservedGenerationWorkspace := workspace
        reservedFootprint := reserved }

namespace Transition

variable {effect : WorkspaceEffect} {rt rt' : InferenceRuntime σ}

theorem limits (h : Transition effect rt rt') : rt'.limits = rt.limits := by
  cases h <;> rfl

/-- One slot replaced that keeps its handle. -/
theorem indexed_replace (h : Indexed rt) {m : ModelId} {slot slot' : ModelSlot} (hm : rt.models.get? m = some slot)
    (hmodels : rt'.models = rt.models.insert m slot') (hhandle : slot'.handle = slot.handle)
    (hgenerations : rt'.generations = rt.generations) (hpending : rt'.pendingModels = rt.pendingModels)
    (hrequest : Indexes rt'.requestIndex.get? rt'.active (fun p _ => p.2) Prod.fst)
    (hsequence : Indexes rt'.sequenceIndex.get? rt'.active (fun _ q => q.sequence.id) Prod.snd)
    (hpendingRequest : Indexes rt'.pendingRequestIndex.get? rt'.quarantined (fun p _ => p.2) Prod.fst)
    (hpendingSequence : Indexes rt'.pendingSequenceIndex.get? rt'.quarantined (fun _ p => p.sequenceId) Prod.snd)
    (hrequests : ∀ r, rt'.requestIndex.get? r = none ∨ rt'.pendingRequestIndex.get? r = none)
    (hsequences : ∀ s, rt'.sequenceIndex.get? s = none ∨ rt'.pendingSequenceIndex.get? s = none) : Indexed rt' := by
  have hresident : ∀ {m' s}, rt'.models.get? m' = some s →
      (s.handle.id = m' ∧ rt.generations.get? m' = some s.handle.generation) ∧ rt.pendingModels.get? m' = none := by
    intro m' s hs
    rw [hmodels, OrdMap.get?_insert] at hs
    split_ifs at hs with hk
    · cases hs
      rw [hhandle, hk]
      exact ⟨h.handle hm, h.resident hm⟩
    · exact ⟨h.handle hs, h.resident hs⟩
  refine ⟨fun hs => ?_, fun hs => ?_, hrequest, hsequence, hpendingRequest, hpendingSequence, hrequests, hsequences⟩
  · rw [hgenerations]
    exact (hresident hs).1
  · rw [hpending]
    exact (hresident hs).2

/-- Models kept or removed that have no sequences, and the pending models changed. -/
theorem indexed_remain (h : Indexed rt)
    (hmodels : ∀ {m s}, rt'.models.get? m = some s → rt.models.get? m = some s ∧ rt'.pendingModels.get? m = none)
    (hgenerations : rt'.generations = rt.generations)
    (hrequest : Indexes rt'.requestIndex.get? rt'.active (fun p _ => p.2) Prod.fst)
    (hsequence : Indexes rt'.sequenceIndex.get? rt'.active (fun _ q => q.sequence.id) Prod.snd)
    (hpendingRequest : Indexes rt'.pendingRequestIndex.get? rt'.quarantined (fun p _ => p.2) Prod.fst)
    (hpendingSequence : Indexes rt'.pendingSequenceIndex.get? rt'.quarantined (fun _ p => p.sequenceId) Prod.snd)
    (hrequests : ∀ r, rt'.requestIndex.get? r = none ∨ rt'.pendingRequestIndex.get? r = none)
    (hsequences : ∀ s, rt'.sequenceIndex.get? s = none ∨ rt'.pendingSequenceIndex.get? s = none) : Indexed rt' := by
  refine ⟨fun hs => ?_, fun hs => (hmodels hs).2, hrequest, hsequence, hpendingRequest, hpendingSequence, hrequests,
    hsequences⟩
  rw [hgenerations]
  exact h.handle (hmodels hs).1

/-- A model resident besides an inserted pending one is another. -/
theorem resident_insert (h : Indexed rt) {m m' : ModelId} {p : PendingModel} {slot : ModelSlot} (hne : m' ≠ m)
    (hs : rt.models.get? m' = some slot) : (rt.pendingModels.insert m p).get? m' = none := by
  simpa [hne] using h.resident hs

theorem indexed (h : Transition effect rt rt') (hi : Consistent rt) : Indexed rt' := by
  have h0 := hi.toIndexed
  cases h with
  | noted | asked | used | loadRolledBack | admissionRolledBack | workspaceReleased =>
    exact ⟨h0.handle, h0.resident, h0.request, h0.sequence, h0.pendingRequest, h0.pendingSequence,
      h0.requestsApart, h0.sequencesApart⟩
  | @loaded _ m slot _ _ hm hp hid hfresh =>
    refine ⟨fun {m' s} hs => ?_, fun {m' s} hs => ?_, h0.request.nested_new hm hfresh.requests,
      h0.sequence.nested_new hm hfresh.requests, h0.pendingRequest.nested_new hm hfresh.pendingSequences,
      h0.pendingSequence.nested_new hm hfresh.pendingSequences, h0.requestsApart, h0.sequencesApart⟩
    all_goals
      simp only [OrdMap.get?_insert] at hs ⊢
      split_ifs at hs with hk
      · cases hs; simp [hk, hid, hp]
      · simp [hk, h0.handle hs, h0.resident hs]
  | @loadQuarantined _ m p generation _ _ hm hp =>
    have hne : ∀ {m' s}, rt.models.get? m' = some s → m' ≠ m := by
      rintro m' s hs rfl
      rw [hm] at hs
      cases hs
    refine ⟨fun {m' s} hs => ?_, fun {m' s} hs => resident_insert h0 (hne hs) hs, h0.request, h0.sequence,
      h0.pendingRequest, h0.pendingSequence, h0.requestsApart, h0.sequencesApart⟩
    simpa [hne hs] using h0.handle hs
  | admitted hm hr hpr hs hps =>
    exact indexed_replace h0 hm rfl rfl rfl rfl (h0.request.nested_insert hm rfl (h0.active_none hr) hr rfl rfl)
      (h0.sequence.nested_insert hm rfl (h0.active_none hr) hs rfl rfl) (h0.pendingRequest.nested_keep hm rfl)
      (h0.pendingSequence.nested_keep hm rfl) (OrdMap.apart_insert_left h0.requestsApart hpr _)
      (OrdMap.apart_insert_left h0.sequencesApart hps _)
  | admissionQuarantined hm hr hpr hs hps =>
    exact indexed_replace h0 hm rfl rfl rfl rfl (h0.request.nested_keep hm rfl) (h0.sequence.nested_keep hm rfl)
      (h0.pendingRequest.nested_insert hm rfl (h0.quarantined_none hpr) hpr rfl rfl)
      (h0.pendingSequence.nested_insert hm rfl (h0.quarantined_none hpr) hps rfl rfl)
      (OrdMap.apart_insert_right h0.requestsApart hr _) (OrdMap.apart_insert_right h0.sequencesApart hs _)
  | usageChanged usage hm hr =>
    exact indexed_replace h0 hm rfl rfl rfl rfl (h0.request.nested_change hm hr rfl rfl)
      (h0.sequence.nested_change hm hr rfl rfl) (h0.pendingRequest.nested_keep hm rfl)
      (h0.pendingSequence.nested_keep hm rfl) h0.requestsApart h0.sequencesApart
  | lifecycleChanged cancelled hm hlife =>
    exact indexed_replace h0 hm rfl rfl rfl rfl (h0.request.nested_keep hm rfl) (h0.sequence.nested_keep hm rfl)
      (h0.pendingRequest.nested_keep hm rfl) (h0.pendingSequence.nested_keep hm rfl) h0.requestsApart
      h0.sequencesApart
  | requestDestroyed hm hr =>
    exact indexed_replace h0 hm rfl rfl rfl rfl (h0.request.nested_erase hm hr rfl rfl)
      (h0.sequence.nested_erase hm hr rfl rfl) (h0.pendingRequest.nested_keep hm rfl)
      (h0.pendingSequence.nested_keep hm rfl) (OrdMap.apart_erase_left h0.requestsApart _)
      (OrdMap.apart_erase_left h0.sequencesApart _)
  | @requestQuarantined _ m slot r q p _ _ hm hr hid hs hseq =>
    have hidx := h0.active_index hm hr
    have hpr : rt.pendingRequestIndex.get? r = none :=
      (h0.requestsApart r).resolve_left (by simp [hidx.1])
    have hps : rt.pendingSequenceIndex.get? q.sequence.id = none :=
      (h0.sequencesApart _).resolve_left (by simp [hidx.2])
    exact indexed_replace h0 hm rfl rfl rfl rfl (h0.request.nested_erase hm hr rfl rfl)
      (h0.sequence.nested_erase hm hr rfl rfl)
      (h0.pendingRequest.nested_insert hm rfl (h0.quarantined_none hpr) hpr rfl rfl)
      (h0.pendingSequence.nested_insert hm rfl (h0.quarantined_none hpr) hps hs rfl)
      (OrdMap.apart_move h0.requestsApart r m) (OrdMap.apart_move h0.sequencesApart q.sequence.id r)
  | sequenceRetryFailed hm hr =>
    exact indexed_replace h0 hm rfl rfl rfl rfl (h0.request.nested_keep hm rfl) (h0.sequence.nested_keep hm rfl)
      (h0.pendingRequest.nested_change hm hr rfl rfl) (h0.pendingSequence.nested_change hm hr rfl rfl)
      h0.requestsApart h0.sequencesApart
  | sequenceReleased hm hr =>
    exact indexed_replace h0 hm rfl rfl rfl rfl (h0.request.nested_keep hm rfl) (h0.sequence.nested_keep hm rfl)
      (h0.pendingRequest.nested_erase hm hr rfl rfl) (h0.pendingSequence.nested_erase hm hr rfl rfl)
      (OrdMap.apart_erase_right h0.requestsApart _) (OrdMap.apart_erase_right h0.sequencesApart _)
  | modelReleased hm hreq hpend =>
    refine indexed_remain h0 (fun hs => ?_) rfl (h0.request.nested_remove hm hreq) (h0.sequence.nested_remove hm hreq)
      (h0.pendingRequest.nested_remove hm hpend) (h0.pendingSequence.nested_remove hm hpend) h0.requestsApart
      h0.sequencesApart
    have hs := OrdMap.get?_of_erase hs
    exact ⟨hs, h0.resident hs⟩
  | modelQuarantined hm hreq hpend =>
    refine indexed_remain h0 (fun hs => ?_) rfl (h0.request.nested_remove hm hreq) (h0.sequence.nested_remove hm hreq)
      (h0.pendingRequest.nested_remove hm hpend) (h0.pendingSequence.nested_remove hm hpend) h0.requestsApart
      h0.sequencesApart
    rw [OrdMap.get?_erase] at hs
    split_ifs at hs with hk
    exact ⟨hs, resident_insert h0 hk hs⟩
  | @modelRetryFailed _ m p _ hp =>
    refine indexed_remain h0 (fun {m' s} hs => ⟨hs, resident_insert h0 ?_ hs⟩) rfl h0.request h0.sequence
      h0.pendingRequest h0.pendingSequence h0.requestsApart h0.sequencesApart
    rintro rfl
    rw [h0.resident hs] at hp
    cases hp
  | pendingModelReleased hp =>
    exact indexed_remain h0 (fun hs => ⟨hs, by simp [h0.resident hs]⟩) rfl h0.request h0.sequence h0.pendingRequest
      h0.pendingSequence h0.requestsApart h0.sequencesApart

/-- One slot replaced, with what the replacement changes of each total. -/
theorem balanced_replace (h : Balanced rt) {m : ModelId} {slot slot' : ModelSlot}
    (hm : rt.models.get? m = some slot) (hslot : slot'.Consistent rt.maximumCleanupAttempts)
    (hmodels : rt'.models = rt.models.insert m slot') (hpending : rt'.pendingModels = rt.pendingModels)
    (hlimits : rt'.limits = rt.limits)
    (hres : rt'.reservedFootprint + (slot.backendTotal + rt.reservedGenerationWorkspace) =
      rt.reservedFootprint + (slot'.backendTotal + rt'.reservedGenerationWorkspace))
    (hact : rt'.activeRequests + slot.requests.size = rt.activeRequests + slot'.requests.size)
    (hpend : rt'.pendingCleanupSequences + slot.pendingSequences.size =
      rt.pendingCleanupSequences + slot'.pendingSequences.size)
    (hcap : rt'.activeRequests + rt'.pendingCleanupSequences ≤
      rt.limits.maximumActiveRequests.get) : Balanced rt' := by
  have hk : rt'.maximumCleanupAttempts = rt.maximumCleanupAttempts := by
    rw [maximumCleanupAttempts, hlimits, maximumCleanupAttempts]
  refine ⟨fun {m' s} hs => ?_, fun {m' p} hp => ?_, ?_, ?_, ?_, ?_⟩
  · rw [hmodels, OrdMap.get?_insert] at hs
    rw [hk]
    split_ifs at hs with hkey
    · cases hs; exact hslot
    · exact h.slot hs
  · rw [hpending] at hp
    rw [hk]
    exact h.pendingModel hp
  · have ht := OrdMap.total_replace (fun _ s => s.backendTotal) hm slot'
    have h0 := h.reserved
    simp only [backendTotal, hmodels, hpending] at h0 ⊢
    rw [h0] at hres
    grind
  · have ht := OrdMap.total_replace (fun _ s => s.requests.size) hm slot'
    have h0 := h.activeRequests
    simp only [hmodels] at ht ⊢
    omega
  · have ht := OrdMap.total_replace (fun _ s => s.pendingSequences.size) hm slot'
    have h0 := h.pendingCleanupSequences
    simp only [hmodels] at ht ⊢
    omega
  · rw [hlimits]
    exact hcap

section Replace

variable {m : ModelId} {slot slot' : ModelSlot} {r : RequestId} {q : RequestSlot} {p : PendingSequence}

/-- A request that enters its slot. -/
theorem balanced_enter (h : Balanced rt) (hm : rt.models.get? m = some slot) (hr : slot.requests.get? r = none)
    (hslot : slot'.Consistent rt.maximumCleanupAttempts) (hmodel : slot'.modelFootprint = slot.modelFootprint)
    (hrequests : slot'.requests = slot.requests.insert r q) (hkept : slot'.pendingSequences = slot.pendingSequences)
    (hmodels : rt'.models = rt.models.insert m slot') (hpending : rt'.pendingModels = rt.pendingModels)
    (hlimits : rt'.limits = rt.limits)
    (hres : rt'.reservedFootprint + rt.reservedGenerationWorkspace =
      rt.reservedFootprint + q.backendFootprint + rt'.reservedGenerationWorkspace)
    (hact : rt'.activeRequests = rt.activeRequests + 1)
    (hpend : rt'.pendingCleanupSequences = rt.pendingCleanupSequences)
    (hcap : rt.activeRequests + rt.pendingCleanupSequences < rt.limits.maximumActiveRequests.get) : Balanced rt' := by
  have htotal : slot'.backendTotal = q.backendFootprint + slot.backendTotal := by
    rw [ModelSlot.backendTotal, hmodel, hrequests, hkept, OrdMap.total_insert_of_none _ hr, ModelSlot.backendTotal]
    ac_rfl
  refine balanced_replace h hm hslot hmodels hpending hlimits ?_ ?_ ?_ ?_
  · rw [htotal]
    grind
  · rw [hrequests, OrdMap.size_insert_of_none hr]
    omega
  · rw [hpend, hkept]
  · omega

/-- A sequence that enters the quarantine of its slot. -/
theorem balanced_hold (h : Balanced rt) (hm : rt.models.get? m = some slot)
    (hr : slot.pendingSequences.get? r = none) (hslot : slot'.Consistent rt.maximumCleanupAttempts)
    (hmodel : slot'.modelFootprint = slot.modelFootprint) (hkept : slot'.requests = slot.requests)
    (hpendings : slot'.pendingSequences = slot.pendingSequences.insert r p)
    (hmodels : rt'.models = rt.models.insert m slot') (hpending : rt'.pendingModels = rt.pendingModels)
    (hlimits : rt'.limits = rt.limits) (hres : rt'.reservedFootprint = rt.reservedFootprint + p.footprint)
    (hwork : rt'.reservedGenerationWorkspace = rt.reservedGenerationWorkspace)
    (hact : rt'.activeRequests = rt.activeRequests)
    (hpend : rt'.pendingCleanupSequences = rt.pendingCleanupSequences + 1)
    (hcap : rt.activeRequests + rt.pendingCleanupSequences < rt.limits.maximumActiveRequests.get) : Balanced rt' := by
  have htotal : slot'.backendTotal = p.footprint + slot.backendTotal := by
    rw [ModelSlot.backendTotal, hmodel, hkept, hpendings, OrdMap.total_insert_of_none _ hr, ModelSlot.backendTotal]
    ac_rfl
  refine balanced_replace h hm hslot hmodels hpending hlimits ?_ ?_ ?_ ?_
  · rw [htotal, hres, hwork]
    ac_rfl
  · rw [hact, hkept]
  · rw [hpendings, OrdMap.size_insert_of_none hr]
    omega
  · omega

/-- A request that leaves its slot. -/
theorem balanced_leave (h : Balanced rt) (hm : rt.models.get? m = some slot) (hr : slot.requests.get? r = some q)
    (hslot : slot'.Consistent rt.maximumCleanupAttempts) (hmodel : slot'.modelFootprint = slot.modelFootprint)
    (hrequests : slot'.requests = slot.requests.erase r) (hkept : slot'.pendingSequences = slot.pendingSequences)
    (hmodels : rt'.models = rt.models.insert m slot') (hpending : rt'.pendingModels = rt.pendingModels)
    (hlimits : rt'.limits = rt.limits) (hres : rt'.reservedFootprint + q.backendFootprint = rt.reservedFootprint)
    (hwork : rt'.reservedGenerationWorkspace = rt.reservedGenerationWorkspace)
    (hact : rt'.activeRequests = rt.activeRequests - 1)
    (hpend : rt'.pendingCleanupSequences = rt.pendingCleanupSequences) : Balanced rt' := by
  have hsize := OrdMap.size_erase hr
  have hpos := h.activeRequests_pos hm hr
  have hcap := h.capacity
  have htotal : slot.backendTotal = q.backendFootprint + slot'.backendTotal := by
    rw [ModelSlot.backendTotal, ModelSlot.backendTotal, hmodel, hrequests, hkept, OrdMap.total_erase _ hr]
    ac_rfl
  refine balanced_replace h hm hslot hmodels hpending hlimits ?_ ?_ ?_ ?_
  · rw [htotal, hwork, ← hres]
    ac_rfl
  · rw [hrequests]
    omega
  · rw [hpend, hkept]
  · omega

/-- A request that moves into the quarantine of its slot. -/
theorem balanced_move (h : Balanced rt) (hm : rt.models.get? m = some slot) (hr : slot.requests.get? r = some q)
    (hpr : slot.pendingSequences.get? r = none) (hslot : slot'.Consistent rt.maximumCleanupAttempts)
    (hmodel : slot'.modelFootprint = slot.modelFootprint) (hrequests : slot'.requests = slot.requests.erase r)
    (hpendings : slot'.pendingSequences = slot.pendingSequences.insert r p) (hf : p.footprint = q.backendFootprint)
    (hmodels : rt'.models = rt.models.insert m slot') (hpending : rt'.pendingModels = rt.pendingModels)
    (hlimits : rt'.limits = rt.limits) (hres : rt'.reservedFootprint = rt.reservedFootprint)
    (hwork : rt'.reservedGenerationWorkspace = rt.reservedGenerationWorkspace)
    (hact : rt'.activeRequests = rt.activeRequests - 1)
    (hpend : rt'.pendingCleanupSequences = rt.pendingCleanupSequences + 1) : Balanced rt' := by
  have hsize := OrdMap.size_erase hr
  have hpos := h.activeRequests_pos hm hr
  have hcap := h.capacity
  have htotal : slot'.backendTotal = slot.backendTotal := by
    rw [ModelSlot.backendTotal, ModelSlot.backendTotal, hmodel, hrequests, hpendings,
      OrdMap.total_insert_of_none _ hpr, OrdMap.total_erase _ hr, hf]
    ac_rfl
  refine balanced_replace h hm hslot hmodels hpending hlimits ?_ ?_ ?_ ?_
  · rw [htotal, hres, hwork]
  · rw [hrequests]
    omega
  · rw [hpendings, OrdMap.size_insert_of_none hpr]
    omega
  · omega

/-- A sequence that leaves the quarantine of its slot. -/
theorem balanced_release (h : Balanced rt) (hm : rt.models.get? m = some slot)
    (hr : slot.pendingSequences.get? r = some p) (hslot : slot'.Consistent rt.maximumCleanupAttempts)
    (hmodel : slot'.modelFootprint = slot.modelFootprint) (hkept : slot'.requests = slot.requests)
    (hpendings : slot'.pendingSequences = slot.pendingSequences.erase r)
    (hmodels : rt'.models = rt.models.insert m slot') (hpending : rt'.pendingModels = rt.pendingModels)
    (hlimits : rt'.limits = rt.limits) (hres : rt'.reservedFootprint + p.footprint = rt.reservedFootprint)
    (hwork : rt'.reservedGenerationWorkspace = rt.reservedGenerationWorkspace)
    (hact : rt'.activeRequests = rt.activeRequests)
    (hpend : rt'.pendingCleanupSequences = rt.pendingCleanupSequences - 1) : Balanced rt' := by
  have hsize := OrdMap.size_erase hr
  have hpos := h.pendingCleanupSequences_pos hm hr
  have hcap := h.capacity
  have htotal : slot.backendTotal = p.footprint + slot'.backendTotal := by
    rw [ModelSlot.backendTotal, ModelSlot.backendTotal, hmodel, hkept, hpendings, OrdMap.total_erase _ hr]
    ac_rfl
  refine balanced_replace h hm hslot hmodels hpending hlimits ?_ ?_ ?_ ?_
  · rw [htotal, hwork, ← hres]
    ac_rfl
  · rw [hact, hkept]
  · rw [hpendings]
    omega
  · omega

end Replace

/-- A model added that has no sequences. -/
theorem balanced_insert (h : Balanced rt) {m : ModelId} {slot : ModelSlot} (hm : rt.models.get? m = none)
    (hfresh : slot.Fresh) (hfits : slot.reservedFootprint.Fits) (hmodels : rt'.models = rt.models.insert m slot)
    (hpending : rt'.pendingModels = rt.pendingModels) (hlimits : rt'.limits = rt.limits)
    (hres : rt'.reservedFootprint = rt.reservedFootprint + slot.modelFootprint)
    (hwork : rt'.reservedGenerationWorkspace = rt.reservedGenerationWorkspace)
    (hact : rt'.activeRequests = rt.activeRequests)
    (hpend : rt'.pendingCleanupSequences = rt.pendingCleanupSequences) : Balanced rt' := by
  have hk : rt'.maximumCleanupAttempts = rt.maximumCleanupAttempts := by
    rw [maximumCleanupAttempts, hlimits, maximumCleanupAttempts]
  refine ⟨fun {m' s} hs => ?_, fun {m' p} hp => ?_, ?_, ?_, ?_, ?_⟩
  · rw [hmodels, OrdMap.get?_insert] at hs
    rw [hk]
    split_ifs at hs
    · cases hs
      exact hfresh.consistent _ hfits
    · exact h.slot hs
  · rw [hpending] at hp
    rw [hk]
    exact h.pendingModel hp
  · have hslot : slot.backendTotal = slot.modelFootprint := by
      simp [ModelSlot.backendTotal, hfresh.requests, hfresh.pendingSequences]
    have h0 := h.reserved
    simp only [backendTotal, hmodels, hpending, OrdMap.total_insert_of_none _ hm, hslot] at h0 ⊢
    rw [hres, hwork, h0]
    ac_rfl
  · rw [hact, hmodels, OrdMap.total_insert_of_none _ hm, hfresh.requests, ← h.activeRequests]
    exact (Nat.zero_add _).symm
  · rw [hpend, hmodels, OrdMap.total_insert_of_none _ hm, hfresh.pendingSequences, ← h.pendingCleanupSequences]
    exact (Nat.zero_add _).symm
  · rw [hact, hpend, hlimits]
    exact h.capacity

/-- A model removed that has no sequences, and the pending models changed. -/
theorem balanced_erase (h : Balanced rt) {m : ModelId} {slot : ModelSlot} (hm : rt.models.get? m = some slot)
    (hreq : slot.requests.isEmpty = true) (hempty : slot.pendingSequences.isEmpty = true)
    (hmodels : rt'.models = rt.models.erase m) (hlimits : rt'.limits = rt.limits)
    (hbound : ∀ {m' p}, rt'.pendingModels.get? m' = some p →
      1 ≤ p.attempts ∧ p.attempts ≤ rt.maximumCleanupAttempts)
    (hres : rt'.reservedFootprint + slot.modelFootprint + rt.pendingModels.total (fun _ p => p.footprint) =
      rt.reservedFootprint + rt'.pendingModels.total fun _ p => p.footprint)
    (hwork : rt'.reservedGenerationWorkspace = rt.reservedGenerationWorkspace)
    (hact : rt'.activeRequests = rt.activeRequests)
    (hpend : rt'.pendingCleanupSequences = rt.pendingCleanupSequences) : Balanced rt' := by
  have hk : rt'.maximumCleanupAttempts = rt.maximumCleanupAttempts := by
    rw [maximumCleanupAttempts, hlimits, maximumCleanupAttempts]
  refine ⟨fun {m' s} hs => ?_, fun {m' p} hp => ?_, ?_, ?_, ?_, ?_⟩
  · rw [hmodels] at hs
    rw [hk]
    exact h.slot (OrdMap.get?_of_erase hs)
  · rw [hk]
    exact hbound hp
  · have h0 := h.reserved
    simp only [backendTotal, hmodels] at h0 ⊢
    rw [OrdMap.total_erase _ hm, ModelSlot.backendTotal_of_isEmpty hreq hempty] at h0
    rw [hwork]
    grind
  · have h0 := h.activeRequests
    rw [OrdMap.total_erase _ hm, OrdMap.size_eq_zero.mpr hreq, Nat.zero_add] at h0
    rw [hact, hmodels, h0]
  · have h0 := h.pendingCleanupSequences
    rw [OrdMap.total_erase _ hm, OrdMap.size_eq_zero.mpr hempty, Nat.zero_add] at h0
    rw [hpend, hmodels, h0]
  · rw [hact, hpend, hlimits]
    exact h.capacity

/-- The pending models or the workspaces changed. -/
theorem balanced_pending (h : Balanced rt) (hmodels : rt'.models = rt.models) (hlimits : rt'.limits = rt.limits)
    (hbound : ∀ {m p}, rt'.pendingModels.get? m = some p → 1 ≤ p.attempts ∧ p.attempts ≤ rt.maximumCleanupAttempts)
    (hres : rt'.reservedFootprint +
        (rt.pendingModels.total (fun _ p => p.footprint) + rt.reservedGenerationWorkspace) =
      rt.reservedFootprint +
        (rt'.pendingModels.total (fun _ p => p.footprint) + rt'.reservedGenerationWorkspace))
    (hact : rt'.activeRequests = rt.activeRequests)
    (hpend : rt'.pendingCleanupSequences = rt.pendingCleanupSequences) : Balanced rt' := by
  have hk : rt'.maximumCleanupAttempts = rt.maximumCleanupAttempts := by
    rw [maximumCleanupAttempts, hlimits, maximumCleanupAttempts]
  refine ⟨fun {m s} hs => ?_, fun {m p} hp => ?_, ?_, ?_, ?_, ?_⟩
  · rw [hmodels] at hs
    rw [hk]
    exact h.slot hs
  · rw [hk]
    exact hbound hp
  · have h0 := h.reserved
    simp only [backendTotal, hmodels] at h0 ⊢
    grind
  · rw [hact, hmodels, h.activeRequests]
  · rw [hpend, hmodels, h.pendingCleanupSequences]
  · rw [hact, hpend, hlimits]
    exact h.capacity

/-- The attempts of a pending model stay within their bound. -/
theorem bounded_insert (h : Balanced rt) {m m' : ModelId} {p p' : PendingModel}
    (hp : 1 ≤ p.attempts ∧ p.attempts ≤ rt.maximumCleanupAttempts)
    (hget : (rt.pendingModels.insert m p).get? m' = some p') :
    1 ≤ p'.attempts ∧ p'.attempts ≤ rt.maximumCleanupAttempts := by
  rw [OrdMap.get?_insert] at hget
  split_ifs at hget
  · cases hget
    exact hp
  · exact h.pendingModel hget

theorem balanced (h : Transition effect rt rt') (hi : Consistent rt) : Balanced rt' := by
  have hb := hi.toBalanced
  have hk := rt.maximumCleanupAttempts_pos
  cases h with
  | noted | asked | used | loadRolledBack | admissionRolledBack =>
    exact ⟨hb.slot, hb.pendingModel, hb.reserved, hb.activeRequests, hb.pendingCleanupSequences,
      hb.capacity⟩
  | loaded hm hp hid hfresh hmodel hr hfits =>
    refine balanced_insert hb hm hfresh ?_ rfl rfl rfl hr.symm rfl rfl rfl
    rw [hfresh.reserved]
    rw [← hr, add_comm] at hfits
    exact hfits.of_add
  | loadQuarantined hm hp hmodel ha hr =>
    refine balanced_pending hb rfl rfl (bounded_insert hb ?_) ?_ rfl rfl
    · rw [ha]
      exact ⟨le_rfl, hk⟩
    · rw [OrdMap.total_insert_of_none _ hp, ← hr]
      dsimp only
      ac_rfl
  | @admitted _ _ m slot r q lifecycle _ reserved slotReserved workspace _ hm hr _ _ _ hcap _ hlife heffect
      hslot hfits hres =>
    have hnone : slot.requests.get? r = none := by
      have h0 := hi.active_none (m := m) hr
      rwa [active, OrdMap.nested, hm] at h0
    have hw : workspace = rt.reservedGenerationWorkspace + q.workspaceFootprint := by
      rcases heffect with ⟨-, h0, -, h1⟩ | ⟨-, -, h1⟩
      · rw [h1, h0, add_zero]
      · exact h1
    refine balanced_enter hb hm hnone ((hb.slot hm).startRequest hnone hlife hslot hfits) rfl rfl rfl rfl rfl rfl ?_
      rfl rfl hcap
    simp only [← hres, hw]
    ac_rfl
  | @admissionQuarantined _ m slot r p _ _ _ hm hr hpr _ _ hcap hid ha hslot hfits hres =>
    have hnone : slot.pendingSequences.get? r = none := by
      have h0 := hi.quarantined_none (m := m) hpr
      rwa [quarantined, OrdMap.nested, hm] at h0
    exact balanced_hold hb hm hnone ((hb.slot hm).quarantineNew hk hnone hid ha hslot hfits) rfl rfl rfl rfl rfl rfl
      hres.symm rfl rfl rfl hcap
  | @usageChanged _ m slot r q usage hm hr =>
    refine balanced_replace hb hm ((hb.slot hm).setUsage hr usage) rfl rfl rfl ?_ ?_ rfl hb.capacity
    · simp only [ModelSlot.backendTotal]
      rw [OrdMap.total_insert, OrdMap.total_erase _ hr]
    · simp only [OrdMap.size_insert_of_some hr]
  | @lifecycleChanged _ m slot lifecycle cancelled hm hlife =>
    have h0 := hb.slot hm
    refine balanced_replace hb hm ?_ rfl rfl rfl rfl rfl rfl hb.capacity
    exact ⟨h0.reserved, h0.fits, hlife, h0.poisoned, h0.pending⟩
  | requestDestroyed hm hr hslot hres =>
    exact balanced_leave hb hm hr ((hb.slot hm).destroy hr hslot) rfl rfl rfl rfl rfl rfl hres rfl rfl rfl
  | requestQuarantined hm hr hid hs hseq hf ha hslot =>
    have hpr := hi.not_quarantined hm hr
    exact balanced_move hb hm hr hpr ((hb.slot hm).quarantine hk hr hpr hid ha hf hslot) rfl rfl rfl hf rfl rfl rfl
      rfl rfl rfl rfl
  | @sequenceRetryFailed _ m slot r p _ hm hr ha =>
    refine balanced_replace hb hm ((hb.slot hm).retryFailed hr ha) rfl rfl rfl ?_ rfl ?_ hb.capacity
    · simp only [ModelSlot.backendTotal]
      rw [OrdMap.total_insert, OrdMap.total_erase _ hr]
    · simp only [OrdMap.size_insert_of_some hr]
  | sequenceReleased hm hr ha hslot hres =>
    exact balanced_release hb hm hr ((hb.slot hm).releaseSequence hr hslot) rfl rfl rfl rfl rfl rfl hres rfl rfl rfl
  | modelReleased hm hreq hpend _ hres =>
    refine balanced_erase hb hm hreq hpend rfl rfl hb.pendingModel ?_ rfl rfl rfl
    rw [← hres]
  | modelQuarantined hm hreq hpend _ hmodel hf ha =>
    refine balanced_erase hb hm hreq hpend rfl rfl (bounded_insert hb ?_) ?_ rfl rfl rfl
    · rw [ha]
      exact ⟨le_rfl, hk⟩
    · rw [OrdMap.total_insert_of_none _ (hi.resident hm), hf]
      ac_rfl
  | modelRetryFailed hp ha =>
    refine balanced_pending hb rfl rfl (bounded_insert hb ⟨Nat.succ_pos _, ha⟩) ?_ rfl rfl
    rw [OrdMap.total_insert, OrdMap.total_erase _ hp]
  | pendingModelReleased hp ha hres =>
    refine balanced_pending hb rfl rfl (fun hp' => hb.pendingModel (OrdMap.get?_of_erase hp')) ?_ rfl rfl
    rw [OrdMap.total_erase _ hp, ← hres]
    dsimp only
    ac_rfl
  | workspaceReleased hn hw hres =>
    refine balanced_pending hb rfl rfl hb.pendingModel ?_ rfl rfl
    rw [← hres, ← hw]
    dsimp only
    ac_rfl

/-- Every change keeps the registry consistent. -/
theorem consistent (h : Transition effect rt rt') (hi : Consistent rt) : Consistent rt' :=
  ⟨h.indexed hi, h.balanced hi⟩

/-- A change that keeps the workspaces keeps their account. -/
theorem outstanding (h : Transition .keep rt rt') {ws : Multiset MemoryFootprint}
    (ho : Outstanding rt ws) : Outstanding rt' ws := by
  cases h with
  | admitted _ _ _ _ _ _ _ _ heffect =>
    rcases heffect with ⟨-, -, h1, h2⟩ | ⟨h0, -⟩
    · exact ⟨h1.trans ho.count, h2.trans ho.sum⟩
    · cases h0
  | _ => exact ⟨ho.count, ho.sum⟩

theorem outstanding_reserve {w : MemoryFootprint} (h : Transition (.reserve w) rt rt')
    {ws : Multiset MemoryFootprint} (ho : Outstanding rt ws) : Outstanding rt' (w ::ₘ ws) := by
  cases h with
  | admitted _ _ _ _ _ _ _ _ heffect =>
    rcases heffect with ⟨h0, -⟩ | ⟨h0, h1, h2⟩
    · cases h0
    · cases h0
      exact ⟨by rw [h1, ho.count, Multiset.card_cons], by
        rw [h2, ho.sum, Multiset.sum_cons, add_comm]⟩

theorem outstanding_release {w : MemoryFootprint} (h : Transition (.release w) rt rt')
    {ws : Multiset MemoryFootprint} (ho : Outstanding rt (w ::ₘ ws)) : Outstanding rt' ws := by
  cases h with
  | admitted _ _ _ _ _ _ _ _ heffect => rcases heffect with ⟨h0, -⟩ | ⟨h0, -⟩ <;> cases h0
  | workspaceReleased hn hw hres =>
    have h1 := ho.count
    have h2 := ho.sum
    rw [Multiset.card_cons] at h1
    rw [Multiset.sum_cons, ← hw, add_comm] at h2
    exact ⟨by simp only; omega, add_left_cancel h2⟩

end Transition

end LlmApp
