/-
# The scheduler's account with the registry

The registry counts the workspaces it has reserved, and the scheduler holds
the tasks they were reserved for. `Accounted` says that they are the same: an
admission that succeeds adds one workspace to both, one that fails adds none,
a turn or a cancellation changes neither, and the end of a task takes its own
out of both. So a release is always of a workspace that is reserved.

Key definitions: `GenerationScheduler.workspaces`, `Accounted`.
Key theorems: `startGeneration_outstanding`, `Accounted.admitGeneration`,
`Accounted.discardAll`, `Accounted.finishTask`, `Accounted.advance`.
-/
import LlmApp.Generation.Turns

namespace LlmApp

open InferenceRuntime

variable {σ Source τ : Type}

namespace GenerationScheduler

variable (sch : GenerationScheduler τ)

/-- The workspaces of the tasks. -/
def workspaces : Multiset MemoryFootprint := sch.requests.total fun _ task => {task.workspaceFootprint}

theorem workspaces_insert {r : RequestId} {task task' : GenerationTask τ}
    (hr : sch.requests.get? r = some task) (hw : task'.workspaceFootprint = task.workspaceFootprint) :
    (⟨sch.requests.insert r task', sch.cursor⟩ : GenerationScheduler τ).workspaces = sch.workspaces := by
  simp only [workspaces]
  rw [OrdMap.total_insert, OrdMap.total_erase _ hr, hw]

theorem workspaces_requestCancellation (r : RequestId) (reason : CancellationReason) :
    (sch.requestCancellation r reason).2.workspaces = sch.workspaces := by
  unfold requestCancellation
  split
  · rfl
  · next hr => exact workspaces_insert sch hr rfl

theorem workspaces_requestModelCancellation (m : ModelId) (reason : CancellationReason) :
    (sch.requestModelCancellation m reason).workspaces = sch.workspaces := by
  simp only [workspaces, requestModelCancellation, OrdMap.total, OrdMap.mapValues, List.map_map,
    Function.comp_def]
  congr 1
  refine List.map_congr_left fun e _ => ?_
  split_ifs <;> rfl

theorem workspaces_card : sch.workspaces.card = sch.requests.size := by
  simp only [workspaces, OrdMap.total, OrdMap.size]
  induction sch.requests.entries with
  | nil => rfl
  | cons e es ih => simp [ih]

theorem workspaces_sum :
    sch.workspaces.sum = sch.requests.total fun _ task => task.workspaceFootprint := by
  simp only [workspaces, OrdMap.total]
  induction sch.requests.entries with
  | nil => rfl
  | cons e es ih => simp [ih]

end GenerationScheduler

/-- The registry has reserved the workspaces of the tasks, and no others. -/
structure Accounted (rt : InferenceRuntime σ) (sch : GenerationScheduler τ) : Prop where
  reached : Reached rt
  outstanding : Outstanding rt sch.workspaces

section Start

variable (b : Backend σ Source) {rt : InferenceRuntime σ}

/-- The registry's half of an admission reserves its workspace, or nothing. -/
theorem startGeneration_outstanding (h : Reached rt) {ws : Multiset MemoryFootprint}
    (ho : Outstanding rt ws) (allocates : CapacityResource → Bool) (handle : ModelHandle)
    (request : GenerationRequest) (requiredSequence vocabularySize : ℕ) (w : MemoryFootprint) :
    Reached (GenerationScheduler.startGeneration b rt allocates handle request requiredSequence
      vocabularySize w).2 ∧
    match GenerationScheduler.startGeneration b rt allocates handle request requiredSequence
      vocabularySize w with
    | (.ok _, rt') => Outstanding rt' (w ::ₘ ws)
    | (.error _, rt') => Outstanding rt' ws := by
  have hpre := preflightGenerationResources_steps b rt handle request.requestId request.sequenceId
    request.sequence w vocabularySize
  unfold GenerationScheduler.startGeneration
  generalize rt.preflightGenerationResources b handle request.requestId request.sequenceId request.sequence w
    vocabularySize = answer at hpre ⊢
  obtain ⟨_ | _, rt₁⟩ := answer
  · exact ⟨h.steps hpre, hpre.outstanding ho⟩
  have h₁ := h.steps hpre
  have ho₁ : Outstanding rt₁ ws := hpre.outstanding ho
  dsimp only
  split
  · exact ⟨h₁, ho₁⟩
  have hstart := startRequestWithReservation_steps b h₁.consistent handle request.requestId
    request.sequenceId request.sequence w (some vocabularySize) (by simp)
  unfold startGenerationRequest
  generalize rt₁.startRequestWithReservation b handle request.requestId request.sequenceId request.sequence w
    (some vocabularySize) = answer at hstart ⊢
  obtain ⟨e | receipt, rt₂⟩ := answer
  · rcases hstart with ⟨-, hs⟩ | ⟨⟨_, he⟩, -⟩
    · exact ⟨h₁.steps hs, hs.outstanding ho₁⟩
    · cases he
  rcases hstart with ⟨⟨_, he⟩, -⟩ | ⟨-, mid, hs, ht⟩
  · cases he
  have h₂ : Reached rt₂ := (h₁.steps hs).tail ht
  have ho₂ : Outstanding rt₂ (w ::ₘ ws) := ht.outstanding_reserve (hs.outstanding ho₁)
  dsimp only
  split_ifs
  · -- The sequence that was admitted is removed, and then its workspace.
    have hf := removeRequest_steps b h₂.consistent request.requestId .sequenceAdmission
      RuntimeError.backendContractViolation.failureClass
    unfold failRequest
    generalize rt₂.removeRequest b request.requestId .sequenceAdmission
      RuntimeError.backendContractViolation.failureClass = answer at hf ⊢
    obtain ⟨cleanup, rt₃⟩ := answer
    have h₃ : Reached rt₃ := h₂.steps hf
    have ho₃ : Outstanding rt₃ (w ::ₘ ws) := hf.outstanding ho₂
    have hok := releaseGenerationWorkspace_ok h₃.consistent ho₃
    rcases releaseGenerationWorkspace_step rt₃ w with ⟨e, he⟩ | ⟨-, hr⟩
    · rw [he] at hok
      cases hok
    dsimp only at hr ⊢
    generalize rt₃.releaseGenerationWorkspace w = answer at hok hr ⊢
    obtain ⟨_ | _, rt₄⟩ := answer
    · cases hok
    dsimp only
    split <;> exact ⟨h₃.tail hr, hr.outstanding_release ho₃⟩
  · exact ⟨h₂, ho₂⟩

end Start

namespace Accounted

variable {rt rt' : InferenceRuntime σ} {sch : GenerationScheduler τ}

theorem consistent (h : Accounted rt sch) : Consistent rt := h.reached.consistent

theorem steps (h : Accounted rt sch) (hs : Steps rt rt') : Accounted rt' sch :=
  ⟨h.reached.steps hs, hs.outstanding h.outstanding⟩

theorem same {sch' : GenerationScheduler τ} (h : Accounted rt sch)
    (hw : sch'.workspaces = sch.workspaces) : Accounted rt sch' :=
  ⟨h.reached, hw ▸ h.outstanding⟩

/-- The registry's counters are those of the tasks. -/
theorem counters (h : Accounted rt sch) : rt.generationWorkspaces = sch.requests.size ∧
    rt.reservedGenerationWorkspace = sch.requests.total fun _ task => task.workspaceFootprint :=
  ⟨h.outstanding.count.trans sch.workspaces_card, h.outstanding.sum.trans sch.workspaces_sum⟩

variable (b : Backend σ Source) (s : Sampling τ)

theorem admitGeneration (h : Accounted rt sch) (capacities : ℕ × ℕ)
    (allocates : CapacityResource → Bool) (handle : ModelHandle) (request : GenerationRequest) :
    Accounted (sch.admitGeneration b s rt capacities allocates handle request).2.2
      (sch.admitGeneration b s rt capacities allocates handle request).2.1 := by
  unfold GenerationScheduler.admitGeneration
  split_ifs with hr
  · exact h
  split
  · exact h
  next requiredSequence _ =>
  split
  · exact h
  next vocabularySize sampler w _ =>
  have hs := startGeneration_outstanding b h.reached h.outstanding allocates handle request requiredSequence
    vocabularySize w
  generalize GenerationScheduler.startGeneration b rt allocates handle request requiredSequence
    vocabularySize w = answer at hs ⊢
  obtain ⟨_ | receipt, rt'⟩ := answer
  · exact ⟨hs.1, hs.2⟩
  · refine ⟨hs.1, ?_⟩
    have hnone : sch.requests.get? request.requestId = none := by
      simpa [GenerationScheduler.contains] using hr
    have hw : (⟨sch.requests.insert request.requestId
        (GenerationScheduler.newTask handle request vocabularySize sampler w), sch.cursor⟩ :
          GenerationScheduler τ).workspaces = w ::ₘ sch.workspaces := by
      rw [GenerationScheduler.workspaces, OrdMap.total_insert_of_none _ hnone]
      exact Multiset.singleton_add ..
    exact hw ▸ hs.2

/-- A failed admission schedules nothing, so it leaves both accounts. -/
theorem admitGeneration_error {capacities : ℕ × ℕ} {allocates : CapacityResource → Bool}
    {handle : ModelHandle} {request : GenerationRequest} {e : RuntimeError}
    (he : (sch.admitGeneration b s rt capacities allocates handle request).1 = .error e) :
    (sch.admitGeneration b s rt capacities allocates handle request).2.1 = sch := by
  unfold GenerationScheduler.admitGeneration at he ⊢
  split_ifs at he ⊢
  · rfl
  split
  · rfl
  next hc =>
  rw [hc] at he
  dsimp only at he
  split
  · rfl
  next hp =>
  rw [hp] at he
  dsimp only at he
  split
  · rfl
  next hs =>
  rw [hs] at he
  cases he

/-! ### Releases -/

/-- The workspace of a task can be released, and leaves both accounts. -/
theorem release {r : RequestId} {task : GenerationTask τ} (h : Accounted rt sch)
    (hr : sch.requests.get? r = some task) :
    (rt.releaseGenerationWorkspace task.workspaceFootprint).1 = .ok () ∧
      Accounted (rt.releaseGenerationWorkspace task.workspaceFootprint).2
        { sch with requests := sch.requests.erase r } := by
  have hw : sch.workspaces = task.workspaceFootprint ::ₘ
      (⟨sch.requests.erase r, sch.cursor⟩ : GenerationScheduler τ).workspaces := by
    simp only [GenerationScheduler.workspaces]
    rw [OrdMap.total_erase _ hr]
    exact Multiset.singleton_add ..
  have ho := h.outstanding
  rw [hw] at ho
  have hok := releaseGenerationWorkspace_ok h.consistent ho
  rcases releaseGenerationWorkspace_step rt task.workspaceFootprint with ⟨e, he⟩ | ⟨-, ht⟩
  · rw [he] at hok
    cases hok
  · exact ⟨hok, h.reached.tail ht, ht.outstanding_release ho⟩

theorem releaseAll_ok : ∀ (tasks : List (GenerationTask τ)) {rt : InferenceRuntime σ}, Reached rt →
    Outstanding rt (tasks.map fun task => task.workspaceFootprint : List MemoryFootprint) →
    (GenerationScheduler.releaseAll tasks none rt).1 = .ok () ∧
      Reached (GenerationScheduler.releaseAll tasks none rt).2 ∧
      Outstanding (GenerationScheduler.releaseAll tasks none rt).2 0
  | [], rt, h, ho => ⟨rfl, h, ho⟩
  | task :: tasks, rt, h, ho => by
    rw [List.map_cons, ← Multiset.cons_coe] at ho
    have hok := releaseGenerationWorkspace_ok h.consistent ho
    rcases releaseGenerationWorkspace_step rt task.workspaceFootprint with ⟨e, he⟩ | ⟨-, ht⟩
    · rw [he] at hok
      cases hok
    have ih := releaseAll_ok tasks (h.tail ht) (ht.outstanding_release ho)
    unfold GenerationScheduler.releaseAll
    generalize rt.releaseGenerationWorkspace task.workspaceFootprint = answer at hok ih ⊢
    obtain ⟨_ | _, rt'⟩ := answer
    · cases hok
    · exact ih

/-- Every task is dropped and its workspace released. -/
theorem discardAll (h : Accounted rt sch) : (sch.discardAll rt).1 = .ok () ∧
    (sch.discardAll rt).2.1 = .new ∧ Accounted (sch.discardAll rt).2.2 (.new : GenerationScheduler τ) := by
  have hw : sch.workspaces =
      (sch.requests.values.map fun task => task.workspaceFootprint : List MemoryFootprint) := by
    simp only [GenerationScheduler.workspaces, OrdMap.total, OrdMap.values, List.map_map]
    induction sch.requests.entries with
    | nil => rfl
    | cons e es ih =>
      simp only [List.map_cons, List.sum_cons, Function.comp_apply, ← Multiset.cons_coe, ← ih,
        Multiset.singleton_add]
  have ho := h.outstanding
  rw [hw] at ho
  obtain ⟨hok, hr, ho'⟩ := releaseAll_ok sch.requests.values h.reached ho
  exact ⟨hok, rfl, hr, ho'⟩

theorem finishTask {r : RequestId} {task : GenerationTask τ} (h : Accounted rt sch)
    (hr : sch.requests.get? r = some task) :
    Accounted (GenerationScheduler.finishTask rt task) { sch with requests := sch.requests.erase r } := by
  obtain ⟨hok, h'⟩ := h.release hr
  unfold GenerationScheduler.finishTask
  generalize rt.releaseGenerationWorkspace task.workspaceFootprint = answer at hok h' ⊢
  obtain ⟨_ | _, rt'⟩ := answer
  · cases hok
  · exact h'

/-- After a turn the task has the workspace it had. -/
theorem turn {r : RequestId} {task : GenerationTask τ} (h : Accounted rt sch)
    (hr : sch.requests.get? r = some task) (cursor : Option RequestId)
    (output : TokenOutput GenerationOutputState) :
    Accounted (advanceTask b s rt r task output).runtime
      ⟨sch.requests.insert r (advanceTask b s rt r task output).task, cursor⟩ := by
  have hw := advanceTask_worked b s r task h.consistent output
  exact (h.steps hw.steps).same (sch.workspaces_insert hr hw.same.workspaceFootprint)

theorem advance (h : Accounted rt sch) (output : TokenOutput GenerationOutputState) :
    Accounted (sch.advance b s rt output).runtime (sch.advance b s rt output).scheduler := by
  unfold GenerationScheduler.advance
  split
  · exact h
  next r _ =>
  dsimp only
  split
  · exact h.same rfl
  next task hr =>
  have hturn := h.turn b s hr (some r) output
  split_ifs
  · have hdone := hturn.finishTask (OrdMap.get?_insert_self ..)
    rwa [OrdMap.erase_insert] at hdone ⊢
  · exact hturn

end Accounted

end LlmApp
