/-
# The registry keeps its resources in custody

Seen from `Custody`, an active sequence and a resident model are held with no
cleanup call made on them, a quarantined one with the attempts its entry
counts. Each elementary change of the registry is a sequence of custody steps,
so what custody keeps holds of every runtime reached.

Key definitions: `InferenceRuntime.heldModel`, `InferenceRuntime.heldSequence`,
`InferenceRuntime.custody`.
Key theorems: `Transition.custody`, `Reached.safe`, `Reached.pending_sequence`,
`Reached.pending_model`.
-/
import LlmApp.Runtime.Accounting
import LlmApp.Runtime.Custody

namespace LlmApp

open InferenceRuntime

variable {σ Source : Type}

namespace InferenceRuntime

/-! ### The registry as custody -/

def heldModel (rt : InferenceRuntime σ) (m : ModelId) : Option Held :=
  match rt.models.get? m with
  | some slot => some ⟨slot.model, 0⟩
  | none => (rt.pendingModels.get? m).map fun p => ⟨p.model, p.attempts⟩

/-- The sequences held, from the active and the quarantined ones. -/
def heldOf (active : ModelId × RequestId → Option RequestSlot)
    (quarantined : ModelId × RequestId → Option PendingSequence) (i : ModelId × RequestId) : Option Held :=
  match active i with
  | some q => some ⟨q.sequence.ref, 0⟩
  | none => (quarantined i).map fun p => ⟨p.sequence.ref, p.attempts⟩

def heldSequence (rt : InferenceRuntime σ) : ModelId × RequestId → Option Held :=
  heldOf rt.active rt.quarantined

def custody (rt : InferenceRuntime σ) : Custody where
  models := rt.heldModel
  sequences := rt.heldSequence
  loaded := rt.loader.models
  created := rt.loader.sequences
  calls := rt.loader.calls

section Held

variable {a : ModelId × RequestId → Option RequestSlot}
  {z : ModelId × RequestId → Option PendingSequence} {i : ModelId × RequestId} {q : RequestSlot}
  {p : PendingSequence}

theorem heldOf_enter : heldOf (Function.update a i (some q)) z =
    Function.update (heldOf a z) i (some ⟨q.sequence.ref, 0⟩) := by
  funext j
  by_cases hj : j = i
  · subst hj; simp [heldOf]
  · simp [heldOf, hj]

theorem heldOf_hold (h : a i = none) : heldOf a (Function.update z i (some p)) =
    Function.update (heldOf a z) i (some ⟨p.sequence.ref, p.attempts⟩) := by
  funext j
  by_cases hj : j = i
  · subst hj; simp [heldOf, h]
  · simp [heldOf, hj]

theorem heldOf_quarantine : heldOf (Function.update a i none) (Function.update z i (some p)) =
    Function.update (heldOf a z) i (some ⟨p.sequence.ref, p.attempts⟩) := by
  funext j
  by_cases hj : j = i
  · subst hj; simp [heldOf]
  · simp [heldOf, hj]

theorem heldOf_destroy (h : z i = none) : heldOf (Function.update a i none) z =
    Function.update (heldOf a z) i none := by
  funext j
  by_cases hj : j = i
  · subst hj; simp [heldOf, h]
  · simp [heldOf, hj]

theorem heldOf_release (h : a i = none) : heldOf a (Function.update z i none) =
    Function.update (heldOf a z) i none := by
  funext j
  by_cases hj : j = i
  · subst hj; simp [heldOf, h]
  · simp [heldOf, hj]

theorem heldOf_active (h : a i = some q) : heldOf a z i = some ⟨q.sequence.ref, 0⟩ := by
  simp [heldOf, h]

theorem heldOf_quarantined (ha : a i = none) (h : z i = some p) :
    heldOf a z i = some ⟨p.sequence.ref, p.attempts⟩ := by
  simp [heldOf, ha, h]

end Held

section Models

variable {rt rt' : InferenceRuntime σ} {m : ModelId} {slot slot' : ModelSlot} {p : PendingModel}

theorem heldModel_resident (hm : rt.models.get? m = some slot) : rt.heldModel m = some ⟨slot.model, 0⟩ := by
  simp [heldModel, hm]

theorem heldModel_pending (hm : rt.models.get? m = none) (hp : rt.pendingModels.get? m = some p) :
    rt.heldModel m = some ⟨p.model, p.attempts⟩ := by
  simp [heldModel, hm, hp]

theorem heldModel_none (hm : rt.models.get? m = none) (hp : rt.pendingModels.get? m = none) :
    rt.heldModel m = none := by
  simp [heldModel, hm, hp]

/-- A slot changed around its model. -/
theorem heldModel_keep (hm : rt.models.get? m = some slot) (hmodels : rt'.models = rt.models.insert m slot')
    (hp : rt'.pendingModels = rt.pendingModels) (h : slot'.model = slot.model) :
    rt'.heldModel = rt.heldModel := by
  funext j
  by_cases hj : j = m
  · subst hj; simp [heldModel, hmodels, hm, h]
  · simp [heldModel, hmodels, hp, hj]

theorem heldModel_load (rt : InferenceRuntime σ) {rt' : InferenceRuntime σ} (hmodels : rt'.models = rt.models.insert m slot')
    (hp : rt'.pendingModels = rt.pendingModels) :
    rt'.heldModel = Function.update rt.heldModel m (some ⟨slot'.model, 0⟩) := by
  funext j
  by_cases hj : j = m
  · subst hj; simp [heldModel, hmodels]
  · simp [heldModel, hmodels, hp, hj]

theorem heldModel_hold (rt : InferenceRuntime σ) {rt' : InferenceRuntime σ} (hmodels : rt'.models = rt.models.erase m)
    (hp : rt'.pendingModels = rt.pendingModels.insert m p) :
    rt'.heldModel = Function.update rt.heldModel m (some ⟨p.model, p.attempts⟩) := by
  funext j
  by_cases hj : j = m
  · subst hj; simp [heldModel, hmodels, hp]
  · simp [heldModel, hmodels, hp, hj]

theorem heldModel_release (rt : InferenceRuntime σ) {rt' : InferenceRuntime σ} (hmodels : rt'.models = rt.models.erase m)
    (hp : rt'.pendingModels = rt.pendingModels.erase m) :
    rt'.heldModel = Function.update rt.heldModel m none := by
  funext j
  by_cases hj : j = m
  · subst hj; simp [heldModel, hmodels, hp]
  · simp [heldModel, hmodels, hp, hj]

end Models

section Sequences

variable {rt rt' : InferenceRuntime σ} {m : ModelId} {slot slot' : ModelSlot} {r : RequestId} {q : RequestSlot}
  {p : PendingSequence}

theorem heldSequence_eq {models : OrdMap ModelId ModelSlot} (hmodels : rt'.models = models) :
    rt'.heldSequence =
      heldOf (OrdMap.nested ModelSlot.requests models) (OrdMap.nested ModelSlot.pendingSequences models) := by
  rw [← hmodels]
  rfl

/-- A slot changed around its sequences. -/
theorem heldSequence_keep (hm : rt.models.get? m = some slot) (hmodels : rt'.models = rt.models.insert m slot')
    (hrequests : slot'.requests = slot.requests) (hpendings : slot'.pendingSequences = slot.pendingSequences) :
    rt'.heldSequence = rt.heldSequence := by
  rw [heldSequence_eq hmodels, OrdMap.nested_keep hm hrequests, OrdMap.nested_keep hm hpendings]
  rfl

/-- A slot removed that has no sequences. -/
theorem heldSequence_remove (hm : rt.models.get? m = some slot) (hmodels : rt'.models = rt.models.erase m)
    (hrequests : slot.requests.isEmpty = true) (hpendings : slot.pendingSequences.isEmpty = true) :
    rt'.heldSequence = rt.heldSequence := by
  rw [heldSequence_eq hmodels, OrdMap.nested_remove hm hrequests, OrdMap.nested_remove hm hpendings]
  rfl

theorem heldSequence_enter (hm : rt.models.get? m = some slot) (hmodels : rt'.models = rt.models.insert m slot')
    (hrequests : slot'.requests = slot.requests.insert r q) (hpendings : slot'.pendingSequences = slot.pendingSequences) :
    rt'.heldSequence = Function.update rt.heldSequence (m, r) (some ⟨q.sequence.ref, 0⟩) := by
  rw [heldSequence_eq hmodels, OrdMap.nested_insert hm hrequests, OrdMap.nested_keep hm hpendings]
  exact heldOf_enter

theorem heldSequence_hold (hm : rt.models.get? m = some slot) (hmodels : rt'.models = rt.models.insert m slot')
    (hrequests : slot'.requests = slot.requests) (hpendings : slot'.pendingSequences = slot.pendingSequences.insert r p)
    (hnot : rt.active (m, r) = none) :
    rt'.heldSequence = Function.update rt.heldSequence (m, r) (some ⟨p.sequence.ref, p.attempts⟩) := by
  rw [heldSequence_eq hmodels, OrdMap.nested_keep hm hrequests, OrdMap.nested_insert hm hpendings]
  exact heldOf_hold hnot

theorem heldSequence_quarantine (hm : rt.models.get? m = some slot) (hmodels : rt'.models = rt.models.insert m slot')
    (hrequests : slot'.requests = slot.requests.erase r)
    (hpendings : slot'.pendingSequences = slot.pendingSequences.insert r p) :
    rt'.heldSequence = Function.update rt.heldSequence (m, r) (some ⟨p.sequence.ref, p.attempts⟩) := by
  rw [heldSequence_eq hmodels, OrdMap.nested_erase hm hrequests, OrdMap.nested_insert hm hpendings]
  exact heldOf_quarantine

theorem heldSequence_destroy (hm : rt.models.get? m = some slot) (hmodels : rt'.models = rt.models.insert m slot')
    (hrequests : slot'.requests = slot.requests.erase r) (hpendings : slot'.pendingSequences = slot.pendingSequences)
    (hnot : rt.quarantined (m, r) = none) : rt'.heldSequence = Function.update rt.heldSequence (m, r) none := by
  rw [heldSequence_eq hmodels, OrdMap.nested_erase hm hrequests, OrdMap.nested_keep hm hpendings]
  exact heldOf_destroy hnot

theorem heldSequence_release (hm : rt.models.get? m = some slot) (hmodels : rt'.models = rt.models.insert m slot')
    (hrequests : slot'.requests = slot.requests) (hpendings : slot'.pendingSequences = slot.pendingSequences.erase r)
    (hnot : rt.active (m, r) = none) : rt'.heldSequence = Function.update rt.heldSequence (m, r) none := by
  rw [heldSequence_eq hmodels, OrdMap.nested_keep hm hrequests, OrdMap.nested_erase hm hpendings]
  exact heldOf_release hnot

end Sequences

end InferenceRuntime

section Absent

variable {rt : InferenceRuntime σ} {m : ModelId} {slot : ModelSlot} {r : RequestId}

theorem no_sequence (hm : rt.models.get? m = none) (r : RequestId) : rt.heldSequence (m, r) = none := by
  simp [heldSequence, heldOf, active, quarantined, OrdMap.nested, hm]

theorem empty_slot (hm : rt.models.get? m = some slot) (hreq : slot.requests.isEmpty = true)
    (hpend : slot.pendingSequences.isEmpty = true) (r : RequestId) : rt.heldSequence (m, r) = none := by
  simp [heldSequence, heldOf, active, quarantined, OrdMap.nested, hm, OrdMap.isEmpty_iff.mp hreq,
    OrdMap.isEmpty_iff.mp hpend]

theorem not_held (hi : Consistent rt) (hr : rt.requestIndex.get? r = none)
    (hpr : rt.pendingRequestIndex.get? r = none) : rt.heldSequence (m, r) = none := by
  rw [heldSequence, heldOf, hi.active_none hr, hi.quarantined_none hpr]
  rfl

theorem not_active (hi : Consistent rt) (hm : rt.models.get? m = some slot) {p : PendingSequence}
    (hr : slot.pendingSequences.get? r = some p) : rt.active (m, r) = none := by
  by_contra hne
  obtain ⟨q, hq⟩ := Option.ne_none_iff_exists'.mp hne
  obtain ⟨slot', hm', hr'⟩ := OrdMap.nested_eq_some.mp hq
  rw [hm, Option.some.injEq] at hm'
  subst hm'
  rw [hi.not_quarantined hm hr'] at hr
  cases hr

end Absent

/-! ### Every change is a custody step -/

namespace Transition

open Custody

variable {effect : WorkspaceEffect} {rt rt' : InferenceRuntime σ}

/-- The runtime after a change is the custody after a step. -/
theorem refines {k models sequences : ℕ} {calls : List BackendCall} {c : Custody}
    (hstep : Relation.ReflTransGen (Step k) rt.custody c)
    (hl : rt.loader.Advance models sequences calls rt'.loader)
    (hm : rt'.heldModel = c.models) (hs : rt'.heldSequence = c.sequences)
    (hloaded : c.loaded = rt.loader.models + models) (hcreated : c.created = rt.loader.sequences + sequences)
    (hcalls : c.calls = rt.loader.calls ++ calls) :
    Relation.ReflTransGen (Step k) rt.custody rt'.custody := by
  have heq : rt'.custody = c := by
    refine Custody.ext hm hs ?_ ?_ ?_
    · rw [hloaded]; exact hl.models
    · rw [hcreated]; exact hl.sequences
    · rw [hcalls]; exact hl.calls
  rwa [heq]

theorem uses {m : ModelId} {slot : ModelSlot} {call : BackendCall} (hm : rt.models.get? m = some slot)
    (hc : slot.Uses call) : rt.custody.Uses m ⟨slot.model, 0⟩ call := by
  cases hc with
  | planSequence => exact ⟨rfl, nofun, fun _ => rfl, fun _ => rfl, nofun⟩
  | createSequence => exact ⟨rfl, nofun, fun _ => rfl, fun _ => rfl, nofun⟩
  | prefill hr | decode hr =>
    refine ⟨rfl, fun s hs => ?_, fun _ => rfl, fun _ => rfl, nofun⟩
    cases hs
    exact ⟨_, _, heldOf_active (OrdMap.nested_of_get? hm hr), rfl⟩

section Made

variable {k : ℕ} {m : ModelId} {r : RequestId} {slot : ModelSlot}

/-- A model made, and cleaned up without success. -/
theorem load_fails (hk : 0 < k) (hm : rt.models.get? m = none) (hp : rt.pendingModels.get? m = none)
    (hl : rt.loader.Advance 1 0 [.load rt.loader.models, .prepareUnload rt.loader.models false] rt'.loader)
    (hmodels : rt'.heldModel = Function.update rt.heldModel m (some ⟨rt.loader.models, 1⟩))
    (hsequences : rt'.heldSequence = rt.heldSequence) : Relation.ReflTransGen (Step k) rt.custody rt'.custody := by
  have hload : Step k rt.custody _ := .loaded (heldModel_none hm hp)
  refine refines (.tail (.single hload) (.unloadFailed (Function.update_self ..) (no_sequence hm) hk)) hl ?_ hsequences
    rfl rfl ?_
  · rw [Function.update_idem, hmodels]
    rfl
  · simp [InferenceRuntime.custody]

/-- A model made and cleaned up. -/
theorem load_undone (hk : 0 < k) (hm : rt.models.get? m = none) (hp : rt.pendingModels.get? m = none)
    (hl : rt.loader.Advance 1 0 [.load rt.loader.models, .prepareUnload rt.loader.models true] rt'.loader)
    (hmodels : rt'.heldModel = rt.heldModel) (hsequences : rt'.heldSequence = rt.heldSequence) :
    Relation.ReflTransGen (Step k) rt.custody rt'.custody := by
  have hnone := heldModel_none hm hp
  have hload : Step k rt.custody _ := .loaded hnone
  refine refines (.tail (.single hload) (.unloaded (Function.update_self ..) (no_sequence hm) hk)) hl ?_ hsequences
    rfl rfl ?_
  · have hself := Function.update_eq_self m rt.heldModel
    rw [hnone] at hself
    rw [Function.update_idem, hmodels]
    exact hself.symm
  · simp [InferenceRuntime.custody]

/-- A sequence made on a resident model, and cleaned up without success. -/
theorem create_fails (hk : 0 < k) (hm : rt.models.get? m = some slot) (hfree : rt.heldSequence (m, r) = none)
    (hl : rt.loader.Advance 0 1 [.createSequence slot.model (some rt.loader.sequences),
      .destroySequence slot.model rt.loader.sequences false] rt'.loader)
    (hmodels : rt'.heldModel = rt.heldModel)
    (hsequences : rt'.heldSequence = Function.update rt.heldSequence (m, r) (some ⟨rt.loader.sequences, 1⟩)) :
    Relation.ReflTransGen (Step k) rt.custody rt'.custody := by
  have hcreate : Step k rt.custody _ := .created (heldModel_resident hm) hfree
  refine refines (.tail (.single hcreate) (.destroyFailed (heldModel_resident hm) (Function.update_self ..) hk)) hl
    hmodels ?_ rfl rfl ?_
  · rw [Function.update_idem, hsequences]
    rfl
  · simp [InferenceRuntime.custody]

/-- A sequence made on a resident model and cleaned up. -/
theorem create_undone (hk : 0 < k) (hm : rt.models.get? m = some slot) (hfree : rt.heldSequence (m, r) = none)
    (hl : rt.loader.Advance 0 1 [.createSequence slot.model (some rt.loader.sequences),
      .destroySequence slot.model rt.loader.sequences true] rt'.loader)
    (hmodels : rt'.heldModel = rt.heldModel) (hsequences : rt'.heldSequence = rt.heldSequence) :
    Relation.ReflTransGen (Step k) rt.custody rt'.custody := by
  have hcreate : Step k rt.custody _ := .created (heldModel_resident hm) hfree
  refine refines (.tail (.single hcreate) (.destroyed (heldModel_resident hm) (Function.update_self ..) hk)) hl
    hmodels ?_ rfl rfl ?_
  · have hself := Function.update_eq_self (m, r) rt.heldSequence
    rw [hfree] at hself
    rw [Function.update_idem, hsequences]
    exact hself.symm
  · simp [InferenceRuntime.custody]

end Made

theorem custody (h : Transition effect rt rt') (hi : Consistent rt) :
    Relation.ReflTransGen (Step rt.maximumCleanupAttempts) rt.custody rt'.custody := by
  have hk := rt.maximumCleanupAttempts_pos
  cases h with
  | noted | workspaceReleased => exact .refl
  | asked hl => exact refines .refl hl rfl rfl rfl rfl (by simp [InferenceRuntime.custody])
  | used hm hc hl => exact refines (.single (.used (heldModel_resident hm) (uses hm hc))) hl rfl rfl rfl rfl rfl
  | @loaded _ m slot _ _ hm hp hid hfresh hmodel hr hfits hl =>
    refine refines (.single (.loaded (heldModel_none hm hp))) hl ?_ ?_ rfl rfl ?_
    · refine Eq.trans (heldModel_load rt rfl rfl) ?_
      rw [hmodel]
      rfl
    · exact congrArg₂ heldOf (OrdMap.nested_new hm hfresh.requests) (OrdMap.nested_new hm hfresh.pendingSequences)
    · rw [hmodel]
      rfl
  | @loadQuarantined _ m p _ _ _ hm hp hmodel ha hr hl =>
    rw [hmodel] at hl
    refine load_fails hk hm hp hl ?_ rfl
    rw [← hmodel, ← ha]
    exact heldModel_hold rt (OrdMap.erase_eq_self hm).symm rfl
  | loadRolledBack hm hp hmodel hl =>
    subst hmodel
    exact load_undone hk hm hp hl rfl rfl
  | @admitted _ _ m slot r q _ _ _ _ _ _ hm hr hpr _ _ _ _ _ _ _ _ _ href hl =>
    have hfree := not_held (m := m) hi hr hpr
    refine refines (.single (.created (heldModel_resident hm) hfree)) hl (heldModel_keep hm rfl rfl rfl) ?_ rfl rfl ?_
    · refine Eq.trans (heldSequence_enter hm rfl rfl rfl) ?_
      rw [href]
      rfl
    · rw [href]
      rfl
  | @admissionQuarantined _ m slot r p _ _ _ hm hr hpr _ _ _ _ ha _ _ _ href hl =>
    rw [href] at hl
    refine create_fails hk hm (not_held hi hr hpr) hl (heldModel_keep hm rfl rfl rfl) ?_
    rw [← href, ← ha]
    exact heldSequence_hold hm rfl rfl rfl (hi.active_none hr)
  | admissionRolledBack hm hr hpr hs hl =>
    subst hs
    exact create_undone hk hm (not_held hi hr hpr) hl rfl rfl
  | @usageChanged _ m slot r q usage hm hr =>
    refine refines .refl (.refl _) (heldModel_keep hm rfl rfl rfl) ?_ rfl rfl (List.append_nil _).symm
    have hheld : rt.heldSequence (m, r) = some ⟨q.sequence.ref, 0⟩ := heldOf_active (OrdMap.nested_of_get? hm hr)
    refine Eq.trans (heldSequence_enter hm rfl rfl rfl) ?_
    rw [← hheld]
    exact Function.update_eq_self (m, r) rt.heldSequence
  | lifecycleChanged cancelled hm =>
    exact refines .refl (.refl _) (heldModel_keep hm rfl rfl rfl) (heldSequence_keep hm rfl rfl rfl) rfl rfl
      (List.append_nil _).symm
  | @requestDestroyed _ m slot r q _ _ _ hm hr _ _ hl =>
    have hnot : rt.quarantined (m, r) = none := by
      rw [quarantined, OrdMap.nested, hm]
      exact hi.not_quarantined hm hr
    exact refines (.single (.destroyed (heldModel_resident hm) (heldOf_active (OrdMap.nested_of_get? hm hr)) hk)) hl
      (heldModel_keep hm rfl rfl rfl) (heldSequence_destroy hm rfl rfl rfl hnot) rfl rfl rfl
  | requestQuarantined hm hr _ _ hseq _ ha _ hl =>
    refine refines (.single (.destroyFailed (heldModel_resident hm) (heldOf_active (OrdMap.nested_of_get? hm hr)) hk)) hl
      (heldModel_keep hm rfl rfl rfl) (Eq.trans (heldSequence_quarantine hm rfl rfl rfl) ?_) rfl rfl rfl
    rw [hseq, ha]
    rfl
  | sequenceRetryFailed hm hr ha hl =>
    have hnot := not_active hi hm hr
    exact refines (.single (.destroyFailed (heldModel_resident hm)
      (heldOf_quarantined hnot (OrdMap.nested_of_get? hm hr)) ha)) hl (heldModel_keep hm rfl rfl rfl)
      (Eq.trans (heldSequence_hold hm rfl rfl rfl hnot) rfl) rfl rfl rfl
  | sequenceReleased hm hr ha _ _ hl =>
    have hnot := not_active hi hm hr
    exact refines (.single (.destroyed (heldModel_resident hm)
      (heldOf_quarantined hnot (OrdMap.nested_of_get? hm hr)) ha)) hl (heldModel_keep hm rfl rfl rfl)
      (heldSequence_release hm rfl rfl rfl hnot) rfl rfl rfl
  | modelReleased hm hreq hpend _ _ hl =>
    exact refines (.single (.unloaded (heldModel_resident hm) (empty_slot hm hreq hpend) hk)) hl
      (heldModel_release rt rfl (OrdMap.erase_eq_self (hi.resident hm)).symm)
      (heldSequence_remove hm rfl hreq hpend) rfl rfl rfl
  | modelQuarantined hm hreq hpend _ hmodel _ ha hl =>
    refine refines (.single (.unloadFailed (heldModel_resident hm) (empty_slot hm hreq hpend) hk)) hl
      (Eq.trans (heldModel_hold rt rfl rfl) ?_) (heldSequence_remove hm rfl hreq hpend) rfl rfl rfl
    rw [hmodel, ha]
    rfl
  | modelRetryFailed hp ha hl =>
    have hm := hi.not_resident hp
    exact refines (.single (.unloadFailed (heldModel_pending hm hp) (no_sequence hm) ha)) hl
      (Eq.trans (heldModel_hold rt (OrdMap.erase_eq_self hm).symm rfl) rfl) rfl rfl rfl rfl
  | pendingModelReleased hp ha _ hl =>
    have hm := hi.not_resident hp
    exact refines (.single (.unloaded (heldModel_pending hm hp) (no_sequence hm) ha)) hl
      (heldModel_release rt (OrdMap.erase_eq_self hm).symm rfl) rfl rfl rfl rfl

end Transition

/-! ### What custody says of a reached runtime -/

namespace Reached

variable {rt : InferenceRuntime σ}

theorem safe (h : Reached rt) : Custody.Safe rt.maximumCleanupAttempts rt.custody := by
  refine (h.invariant (P := fun rt => Consistent rt ∧
    Custody.Safe rt.maximumCleanupAttempts rt.custody) (fun loader limits => ?_) fun hP ht => ?_).2
  · have hnew : (InferenceRuntime.new loader limits).custody = Custody.new :=
      Custody.ext rfl (by funext i; rfl) rfl rfl rfl
    rw [hnew]
    exact ⟨consistent_new loader limits, Custody.safe_new _⟩
  · refine ⟨ht.consistent hP.1, ?_⟩
    rw [maximumCleanupAttempts, ht.limits, ← maximumCleanupAttempts]
    exact hP.2.steps (ht.custody hP.1)

variable {m : ModelId} {r : RequestId} {slot : ModelSlot}

/-- No cleanup call was made on an active sequence. -/
theorem active_sequence (h : Reached rt) (hm : rt.models.get? m = some slot) {q : RequestSlot}
    (hr : slot.requests.get? r = some q) : rt.loader.destroyCalls q.sequence.ref = 0 :=
  h.safe.sequences.attempts (heldOf_active (OrdMap.nested_of_get? hm hr))

/-- The counter of a quarantined sequence is the number of its cleanup calls. -/
theorem pending_sequence (h : Reached rt) (hm : rt.models.get? m = some slot) {p : PendingSequence}
    (hr : slot.pendingSequences.get? r = some p) : rt.loader.destroyCalls p.sequence.ref = p.attempts :=
  h.safe.sequences.attempts (heldOf_quarantined (not_active h.consistent hm hr)
    (OrdMap.nested_of_get? hm hr))

theorem resident_model (h : Reached rt) (hm : rt.models.get? m = some slot) :
    rt.loader.unloadCalls slot.model = 0 :=
  h.safe.models.attempts (heldModel_resident hm)

theorem pending_model (h : Reached rt) {p : PendingModel} (hp : rt.pendingModels.get? m = some p) :
    rt.loader.unloadCalls p.model = p.attempts :=
  h.safe.models.attempts (heldModel_pending (h.consistent.not_resident hp) hp)

end Reached

end LlmApp
