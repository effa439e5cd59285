/-
# What the registry keeps

The same facts are kept in the slots, the four indices, the counters, the two
footprint totals and the lifecycle states. `Consistent` says that they agree:
each index holds exactly the identities of the sequences in the slots, each
total is the sum over what it counts, and each lifecycle state counts the
requests of its slot. `Outstanding` relates the generation counters to the
workspaces admitted and not yet released.

Key definitions: `ModelSlot.Consistent`, `InferenceRuntime.Indexed`,
`InferenceRuntime.Balanced`, `InferenceRuntime.Consistent`.
Key theorems: `InferenceRuntime.consistent_new`.
-/
import LlmApp.Data.Index
import LlmApp.Runtime.Admission

namespace LlmApp

/-! ### One slot -/

namespace ModelSlot

/-- The footprint of the model and of every sequence the backend made on it. -/
def backendTotal (slot : ModelSlot) : MemoryFootprint :=
  slot.modelFootprint + slot.requests.total (fun _ request => request.backendFootprint) +
    slot.pendingSequences.total fun _ pending => pending.footprint

theorem backendTotal_of_isEmpty {slot : ModelSlot} (hr : slot.requests.isEmpty = true)
    (hp : slot.pendingSequences.isEmpty = true) : slot.backendTotal = slot.modelFootprint := by
  simp [backendTotal, OrdMap.eq_empty_of_isEmpty hr, OrdMap.eq_empty_of_isEmpty hp]

/-- The slot's account, lifecycle state and flags agree with its sequences. -/
structure Consistent (maximumAttempts : ℕ) (slot : ModelSlot) : Prop where
  reserved : slot.reservedFootprint = slot.modelFootprint +
    slot.requests.total (fun _ request => request.backendFootprint + request.workspaceFootprint) +
    slot.pendingSequences.total fun _ pending => pending.footprint
  fits : slot.reservedFootprint.Fits
  lifecycle : LifecycleMatches slot.lifecycle.state slot.requests.size
  poisoned : slot.poisoned = !slot.pendingSequences.isEmpty
  pending {r : RequestId} {p : PendingSequence} (h : slot.pendingSequences.get? r = some p) :
    p.requestId = r ∧ 1 ≤ p.attempts ∧ p.attempts ≤ maximumAttempts

namespace Consistent

variable {k : ℕ} {slot : ModelSlot} {r : RequestId} {q : RequestSlot} {p : PendingSequence}

/-- The footprints of an active request are part of the slot's account. -/
theorem split_request (h : slot.Consistent k) (hr : slot.requests.get? r = some q) :
    slot.reservedFootprint = slot.modelFootprint + (slot.requests.erase r).total
      (fun _ request => request.backendFootprint + request.workspaceFootprint) +
      slot.pendingSequences.total (fun _ pending => pending.footprint) +
      (q.backendFootprint + q.workspaceFootprint) := by
  rw [h.reserved, OrdMap.total_erase _ hr]
  ac_rfl

/-- The footprint of a quarantined sequence is part of the slot's account. -/
theorem split_pending (h : slot.Consistent k) (hr : slot.pendingSequences.get? r = some p) :
    slot.reservedFootprint = slot.modelFootprint + slot.requests.total
      (fun _ request => request.backendFootprint + request.workspaceFootprint) +
      (slot.pendingSequences.erase r).total (fun _ pending => pending.footprint) + p.footprint := by
  rw [h.reserved, OrdMap.total_erase _ hr]
  ac_rfl

theorem startRequest (h : slot.Consistent k) (hr : slot.requests.get? r = none) {lifecycle : ModelLifecycle}
    (hlife : lifecycle.state = .active (slot.requests.size + 1)) {reserved : MemoryFootprint}
    (hres : slot.reservedFootprint + (q.backendFootprint + q.workspaceFootprint) = reserved)
    (hfits : reserved.Fits) :
    Consistent k { slot with
      lifecycle := lifecycle, requests := slot.requests.insert r q, reservedFootprint := reserved } where
  reserved := by
    rw [OrdMap.total_insert_of_none _ hr, ← hres, h.reserved]
    ac_rfl
  fits := hfits
  lifecycle := by
    rw [hlife, OrdMap.size_insert_of_none hr]
    exact .active (Nat.succ_pos _)
  poisoned := h.poisoned
  pending := h.pending

theorem setUsage (h : slot.Consistent k) (hr : slot.requests.get? r = some q)
    (usage : GenerationUsage) :
    Consistent k { slot with requests := slot.requests.insert r { q with usage := usage } } where
  reserved := by rw [OrdMap.total_insert, h.reserved, OrdMap.total_erase _ hr]
  fits := h.fits
  lifecycle := by
    rw [OrdMap.size_insert_of_some hr]
    exact h.lifecycle
  poisoned := h.poisoned
  pending := h.pending

/-- A request leaves the slot: its workspace with it, and its sequence too or
kept in quarantine. -/
theorem finish_lifecycle (h : slot.Consistent k) (hr : slot.requests.get? r = some q) :
    LifecycleMatches (ModelLifecycle.finishState slot.lifecycle.state slot.requests.size)
      (slot.requests.erase r).size := by
  have hsize := OrdMap.size_erase hr
  have := ModelLifecycle.finishState_matches h.lifecycle (OrdMap.size_pos hr)
  rwa [show slot.requests.size - 1 = (slot.requests.erase r).size by omega] at this

theorem destroy (h : slot.Consistent k) (hr : slot.requests.get? r = some q)
    {reserved : MemoryFootprint}
    (hres : reserved + (q.backendFootprint + q.workspaceFootprint) = slot.reservedFootprint) :
    Consistent k { slot with
      requests := slot.requests.erase r
      reservedFootprint := reserved
      lifecycle := ⟨ModelLifecycle.finishState slot.lifecycle.state slot.requests.size⟩ } where
  reserved := add_right_cancel (hres.trans (h.split_request hr))
  fits := by
    have := h.fits
    rw [← hres] at this
    exact this.of_add
  lifecycle := h.finish_lifecycle hr
  poisoned := h.poisoned
  pending := h.pending

/-- A sequence enters the quarantine of a slot. -/
theorem pending_insert (h : slot.Consistent k) (hk : 1 ≤ k) (hid : p.requestId = r)
    (ha : p.attempts = 1) {r' : RequestId} {p' : PendingSequence}
    (hp : (slot.pendingSequences.insert r p).get? r' = some p') :
    p'.requestId = r' ∧ 1 ≤ p'.attempts ∧ p'.attempts ≤ k := by
  rw [OrdMap.get?_insert] at hp
  split_ifs at hp with hr
  · cases hp
    rw [ha, hid, hr]
    exact ⟨rfl, le_rfl, hk⟩
  · exact h.pending hp

theorem poisoned_insert (slot : ModelSlot) (r : RequestId) (p : PendingSequence) :
    true = !(slot.pendingSequences.insert r p).isEmpty := by
  rw [OrdMap.isEmpty_eq_false_iff.mpr ⟨r, p, by simp⟩]
  rfl

theorem quarantineNew (h : slot.Consistent k) (hk : 1 ≤ k)
    (hr : slot.pendingSequences.get? r = none) (hid : p.requestId = r) (ha : p.attempts = 1)
    {reserved : MemoryFootprint} (hres : slot.reservedFootprint + p.footprint = reserved)
    (hfits : reserved.Fits) :
    Consistent k { slot with
      pendingSequences := slot.pendingSequences.insert r p
      reservedFootprint := reserved
      poisoned := true } where
  reserved := by
    rw [OrdMap.total_insert_of_none _ hr, ← hres, h.reserved]
    ac_rfl
  fits := hfits
  lifecycle := h.lifecycle
  poisoned := poisoned_insert slot r p
  pending := h.pending_insert hk hid ha

theorem quarantine (h : slot.Consistent k) (hk : 1 ≤ k) (hr : slot.requests.get? r = some q)
    (hpr : slot.pendingSequences.get? r = none) (hid : p.requestId = r) (ha : p.attempts = 1)
    (hf : p.footprint = q.backendFootprint) {reserved : MemoryFootprint}
    (hres : reserved + q.workspaceFootprint = slot.reservedFootprint) :
    Consistent k { slot with
      requests := slot.requests.erase r
      reservedFootprint := reserved
      pendingSequences := slot.pendingSequences.insert r p
      poisoned := true
      lifecycle := ⟨ModelLifecycle.finishState slot.lifecycle.state slot.requests.size⟩ } where
  reserved := by
    have hsplit := hres.trans (h.split_request hr)
    rw [OrdMap.total_insert_of_none _ hpr, hf]
    refine add_right_cancel (b := q.workspaceFootprint) (hsplit.trans ?_)
    ac_rfl
  fits := by
    have := h.fits
    rw [← hres] at this
    exact this.of_add
  lifecycle := h.finish_lifecycle hr
  poisoned := poisoned_insert slot r p
  pending := h.pending_insert hk hid ha

theorem retryFailed (h : slot.Consistent k) (hr : slot.pendingSequences.get? r = some p)
    (ha : p.attempts < k) :
    Consistent k { slot with
      pendingSequences := slot.pendingSequences.insert r { p with attempts := p.attempts + 1 } } where
  reserved := by rw [OrdMap.total_insert, h.reserved, OrdMap.total_erase _ hr]
  fits := h.fits
  lifecycle := h.lifecycle
  poisoned := by
    rw [h.poisoned, OrdMap.isEmpty_eq_false_iff.mpr ⟨r, _, hr⟩]
    exact poisoned_insert slot r _
  pending {r' p'} hp := by
    rw [OrdMap.get?_insert] at hp
    split_ifs at hp with hk
    · cases hp
      have := h.pending hr
      exact ⟨by rw [hk]; exact this.1, by simp, ha⟩
    · exact h.pending hp

theorem releaseSequence (h : slot.Consistent k) (hr : slot.pendingSequences.get? r = some p)
    {reserved : MemoryFootprint} (hres : reserved + p.footprint = slot.reservedFootprint) :
    Consistent k { slot with
      pendingSequences := slot.pendingSequences.erase r
      reservedFootprint := reserved
      poisoned := !(slot.pendingSequences.erase r).isEmpty } where
  reserved := add_right_cancel (hres.trans (h.split_pending hr))
  fits := by
    have := h.fits
    rw [← hres] at this
    exact this.of_add
  lifecycle := h.lifecycle
  poisoned := rfl
  pending {r' p'} hp := by
    rw [OrdMap.get?_erase] at hp
    split_ifs at hp with hk
    exact h.pending hp

end Consistent

end ModelSlot

namespace InferenceRuntime

variable {σ : Type}

/-! ### The indices -/

section Views

variable (rt : InferenceRuntime σ)

/-- The active sequences, by model and request. -/
def active : ModelId × RequestId → Option RequestSlot := OrdMap.nested ModelSlot.requests rt.models

/-- The quarantined sequences, by model and request. -/
def quarantined : ModelId × RequestId → Option PendingSequence :=
  OrdMap.nested ModelSlot.pendingSequences rt.models

end Views

/-- The indices hold the identities of the active and quarantined sequences,
and a model is resident or pending, not both. -/
structure Indexed (rt : InferenceRuntime σ) : Prop where
  handle {m : ModelId} {slot : ModelSlot} (h : rt.models.get? m = some slot) :
    slot.handle.id = m ∧ rt.generations.get? m = some slot.handle.generation
  resident {m : ModelId} {slot : ModelSlot} (h : rt.models.get? m = some slot) :
    rt.pendingModels.get? m = none
  request : Indexes rt.requestIndex.get? rt.active (fun p _ => p.2) Prod.fst
  sequence : Indexes rt.sequenceIndex.get? rt.active (fun _ q => q.sequence.id) Prod.snd
  pendingRequest : Indexes rt.pendingRequestIndex.get? rt.quarantined (fun p _ => p.2) Prod.fst
  pendingSequence :
    Indexes rt.pendingSequenceIndex.get? rt.quarantined (fun _ p => p.sequenceId) Prod.snd
  requestsApart (r : RequestId) : rt.requestIndex.get? r = none ∨ rt.pendingRequestIndex.get? r = none
  sequencesApart (s : SequenceId) :
    rt.sequenceIndex.get? s = none ∨ rt.pendingSequenceIndex.get? s = none

namespace Indexed

variable {rt : InferenceRuntime σ} {m : ModelId} {slot : ModelSlot} {r : RequestId}

theorem active_index (h : Indexed rt) (hm : rt.models.get? m = some slot) {q : RequestSlot}
    (hr : slot.requests.get? r = some q) :
    rt.requestIndex.get? r = some m ∧ rt.sequenceIndex.get? q.sequence.id = some r :=
  have hp : rt.active (m, r) = some q := OrdMap.nested_of_get? hm hr
  ⟨h.request.of_entry hp, h.sequence.of_entry hp⟩

theorem quarantined_index (h : Indexed rt) (hm : rt.models.get? m = some slot) {p : PendingSequence}
    (hr : slot.pendingSequences.get? r = some p) :
    rt.pendingRequestIndex.get? r = some m ∧ rt.pendingSequenceIndex.get? p.sequenceId = some r :=
  have hp : rt.quarantined (m, r) = some p := OrdMap.nested_of_get? hm hr
  ⟨h.pendingRequest.of_entry hp, h.pendingSequence.of_entry hp⟩

/-- An indexed request is active in the slot of its model. -/
theorem slot_of_request (h : Indexed rt) (hr : rt.requestIndex.get? r = some m) :
    ∃ slot q, rt.models.get? m = some slot ∧ slot.requests.get? r = some q := by
  obtain ⟨⟨m', r'⟩, q, hq, rfl, rfl⟩ := h.request.get.mp hr
  obtain ⟨slot, hm, hr⟩ := OrdMap.nested_eq_some.mp hq
  exact ⟨slot, q, hm, hr⟩

theorem slot_of_pendingRequest (h : Indexed rt) (hr : rt.pendingRequestIndex.get? r = some m) :
    ∃ slot p, rt.models.get? m = some slot ∧ slot.pendingSequences.get? r = some p := by
  obtain ⟨⟨m', r'⟩, p, hp, rfl, rfl⟩ := h.pendingRequest.get.mp hr
  obtain ⟨slot, hm, hr⟩ := OrdMap.nested_eq_some.mp hp
  exact ⟨slot, p, hm, hr⟩

/-- A request is active or quarantined, not both. -/
theorem not_quarantined (h : Indexed rt) {q : RequestSlot} (hm : rt.models.get? m = some slot)
    (hr : slot.requests.get? r = some q) : slot.pendingSequences.get? r = none := by
  by_contra hne
  obtain ⟨p, hp⟩ := Option.ne_none_iff_exists'.mp hne
  have h1 := (h.active_index hm hr).1
  have h2 := (h.quarantined_index hm hp).1
  rcases h.requestsApart r with h' | h' <;> simp [h1, h2] at h'

theorem not_resident (h : Indexed rt) {p : PendingModel} (hp : rt.pendingModels.get? m = some p) :
    rt.models.get? m = none := by
  by_contra hne
  obtain ⟨slot, hm⟩ := Option.ne_none_iff_exists'.mp hne
  rw [h.resident hm] at hp
  cases hp

theorem active_none (h : Indexed rt) (hr : rt.requestIndex.get? r = none) : rt.active (m, r) = none := by
  by_contra hne
  obtain ⟨q, hq⟩ := Option.ne_none_iff_exists'.mp hne
  exact h.request.key_of_none hr hq rfl

theorem quarantined_none (h : Indexed rt) (hr : rt.pendingRequestIndex.get? r = none) :
    rt.quarantined (m, r) = none := by
  by_contra hne
  obtain ⟨q, hq⟩ := Option.ne_none_iff_exists'.mp hne
  exact h.pendingRequest.key_of_none hr hq rfl

end Indexed

/-! ### The totals -/

/-- The footprint of everything the registry holds on the backend's side. -/
def backendTotal (rt : InferenceRuntime σ) : MemoryFootprint :=
  rt.models.total (fun _ slot => slot.backendTotal) + rt.pendingModels.total fun _ p => p.footprint

/-- Each slot, each counter and the reserved total agree with the resources. -/
structure Balanced (rt : InferenceRuntime σ) : Prop where
  slot {m : ModelId} {slot : ModelSlot} (h : rt.models.get? m = some slot) :
    slot.Consistent rt.maximumCleanupAttempts
  pendingModel {m : ModelId} {p : PendingModel} (h : rt.pendingModels.get? m = some p) :
    1 ≤ p.attempts ∧ p.attempts ≤ rt.maximumCleanupAttempts
  reserved : rt.reservedFootprint = rt.backendTotal + rt.reservedGenerationWorkspace
  activeRequests : rt.activeRequests = rt.models.total fun _ slot => slot.requests.size
  pendingCleanupSequences :
    rt.pendingCleanupSequences = rt.models.total fun _ slot => slot.pendingSequences.size
  capacity : rt.activeRequests + rt.pendingCleanupSequences ≤ rt.limits.maximumActiveRequests.get

theorem Balanced.activeRequests_pos {rt : InferenceRuntime σ} (h : Balanced rt) {m : ModelId}
    {slot : ModelSlot} {r : RequestId} {q : RequestSlot} (hm : rt.models.get? m = some slot)
    (hr : slot.requests.get? r = some q) : 0 < rt.activeRequests := by
  have hsize := OrdMap.size_pos hr
  rw [h.activeRequests, OrdMap.total_erase _ hm]
  omega

theorem Balanced.pendingCleanupSequences_pos {rt : InferenceRuntime σ} (h : Balanced rt) {m : ModelId}
    {slot : ModelSlot} {r : RequestId} {p : PendingSequence} (hm : rt.models.get? m = some slot)
    (hr : slot.pendingSequences.get? r = some p) : 0 < rt.pendingCleanupSequences := by
  have hsize := OrdMap.size_pos hr
  rw [h.pendingCleanupSequences, OrdMap.total_erase _ hm]
  omega

structure Consistent (rt : InferenceRuntime σ) : Prop extends Indexed rt, Balanced rt

/-- The workspaces `ws`, and no others, are admitted and not yet released. -/
structure Outstanding (rt : InferenceRuntime σ) (ws : Multiset MemoryFootprint) : Prop where
  count : rt.generationWorkspaces = ws.card
  sum : rt.reservedGenerationWorkspace = ws.sum

theorem maximumCleanupAttempts_pos (rt : InferenceRuntime σ) : 1 ≤ rt.maximumCleanupAttempts :=
  rt.limits.cleanupRetry.maximumAttempts.pos

theorem maximumCleanupAttempts_le (rt : InferenceRuntime σ) : rt.maximumCleanupAttempts ≤ u32Max :=
  rt.limits.cleanupRetry.maximumAttempts.le

theorem consistent_new (loader : σ) (limits : RuntimeLimits) : Consistent (new loader limits) where
  handle h := by simp [new] at h
  resident h := by simp [new] at h
  request := ⟨by simp [new, active, OrdMap.nested], fun h => by simp [new, active, OrdMap.nested] at h⟩
  sequence := ⟨by simp [new, active, OrdMap.nested], fun h => by simp [new, active, OrdMap.nested] at h⟩
  pendingRequest :=
    ⟨by simp [new, quarantined, OrdMap.nested], fun h => by simp [new, quarantined, OrdMap.nested] at h⟩
  pendingSequence :=
    ⟨by simp [new, quarantined, OrdMap.nested], fun h => by simp [new, quarantined, OrdMap.nested] at h⟩
  requestsApart _ := Or.inl rfl
  sequencesApart _ := Or.inl rfl
  slot h := by simp [new] at h
  pendingModel h := by simp [new] at h
  reserved := by simp [new, backendTotal]
  activeRequests := by simp [new]
  pendingCleanupSequences := by simp [new]
  capacity := by simp [new]

theorem outstanding_new (loader : σ) (limits : RuntimeLimits) : Outstanding (new loader limits) 0 :=
  ⟨rfl, rfl⟩

end InferenceRuntime

end LlmApp
