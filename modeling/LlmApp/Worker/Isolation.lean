/-
# Commands that leave generations alone

Two kinds of command are to leave every scheduled generation as it was: an
unload that the registry rejects, and a request command that names a request
the scheduler owns. Where such a command changes nothing at all it can be left
out of the run (`EngineAction.applyAll_without`).

The dispatcher marks the tasks of a model before it asks the registry for the
unload, and passes a prefill, a decode or a completion on without asking the
scheduler. So both hold under a condition, and exactly then.

Key definitions: `unloadRejected`, `MarksNothing`, `directRequest`, `Refused`.
Key theorems: `unloadModel_rejected`, `rejected_unload`, `direct_command`.
-/
import LlmApp.Generation.Progress
import LlmApp.Worker.Accounts

namespace LlmApp

open InferenceRuntime

variable {σ Source τ : Type} (b : Backend σ Source) (s : Sampling τ)

/-! ### Rejected unloads -/

/-- The registry rejects an unload: no such model is resident, another
generation of it is, or its lifecycle refuses. -/
def unloadRejected (rt : InferenceRuntime σ) (handle : ModelHandle) (policy : UnloadPolicy)
    (now : MonotonicMillis) : Bool :=
  match rt.models.get? handle.id with
  | none => (rt.absentUnloadReceipt handle).isOk = false
  | some slot => slot.handle ≠ handle ∨ (slot.lifecycle.requestUnload policy now).1.isOk = false

/-- A rejected unload is answered with an error and leaves the registry. -/
theorem unloadModel_rejected {rt : InferenceRuntime σ} {handle : ModelHandle} {policy : UnloadPolicy}
    {now : MonotonicMillis} (h : unloadRejected rt handle policy now = true) :
    (∃ e, (rt.unloadModel b handle policy now).1 = .error e) ∧ (rt.unloadModel b handle policy now).2 = rt := by
  unfold unloadRejected at h
  rcases hm : rt.models.get? handle.id with _ | slot <;> rw [hm] at h
  · simp only [decide_eq_true_eq] at h
    rw [unloadModel, if_pos (by simp [hm])]
    refine ⟨?_, rfl⟩
    rcases hr : rt.absentUnloadReceipt handle with e | receipt <;> rw [hr] at h
    · exact ⟨e, rfl⟩
    · cases h
  rw [unloadModel, if_neg (by simp [hm])]
  by_cases hh : slot.handle = handle
  · have hexact : rt.exactModel handle = .ok slot := by
      simp [exactModel, hm, hh, Except.failIf, pure, Except.pure]
    simp only [hexact]
    rcases hr : slot.lifecycle.requestUnload policy now with ⟨e | a, lifecycle⟩
    · have hsame := ModelLifecycle.requestUnload_error hr
      subst hsame
      refine ⟨⟨_, rfl⟩, ?_⟩
      dsimp only
      rw [OrdMap.insert_eq_self hm]
    · simp [hh, hr, Except.isOk, Except.toBool] at h
  · have hexact : rt.exactModel handle = .error (.staleModelHandle handle slot.handle) := by
      simp [exactModel, hm, hh, Except.failIf]
    rw [hexact]
    exact ⟨⟨_, rfl⟩, rfl⟩

/-- A cancelling unload finds every task of its model marked already. -/
def MarksNothing (sch : GenerationScheduler τ) (handle : ModelHandle) (policy : UnloadPolicy) : Prop :=
  policy = .cancelActive → ∀ r task, sch.requests.get? r = some task → task.handle.id = handle.id →
    task.cancellation = some .modelUnload

theorem marksNothing_iff (sch : GenerationScheduler τ) (handle : ModelHandle) (policy : UnloadPolicy) :
    (∀ r, (if policy = .cancelActive then sch.requestModelCancellation handle.id .modelUnload
      else sch).requests.get? r = sch.requests.get? r) ↔ MarksNothing sch handle policy := by
  by_cases hp : policy = .cancelActive
  · subst hp
    unfold MarksNothing
    rw [if_pos rfl, forall_prop_of_true rfl]
    refine forall_congr' fun r => ?_
    rw [GenerationScheduler.requestModelCancellation_get?]
    rcases sch.requests.get? r with _ | task
    · simp
    simp only [Option.map_some, Option.some.injEq, forall_eq']
    split_ifs with hid
    · refine ⟨fun h _ => by rw [← h], fun h => ?_⟩
      have hc := h hid
      cases task
      cases hc
      rfl
    · exact ⟨fun _ h => absurd h hid, fun _ => rfl⟩
  · simp [MarksNothing, hp]

/-- The action is an unload that the registry rejects. -/
def Engine.rejectsUnload (e : Engine σ τ) : EngineAction Source → Bool
  | .command (.unloadModel _ handle policy) _ now => unloadRejected e.runtime handle policy now
  | _ => false

/-- The unload of the action marks no task. -/
def Engine.MarksNothing (e : Engine σ τ) : EngineAction Source → Prop
  | .command (.unloadModel _ handle policy) _ _ => LlmApp.MarksNothing e.scheduler handle policy
  | _ => True

theorem Engine.rejectsUnload_same {e : Engine σ τ} {action : EngineAction Source}
    (hr : e.rejectsUnload action = true) (hm : e.MarksNothing action) : action.apply b s e = e := by
  cases action with
  | command command allocates now =>
    cases command with
    | unloadModel ticket handle policy =>
      have hrt := (unloadModel_rejected b hr).2
      have hsch := (marksNothing_iff e.scheduler handle policy).mpr hm
      have hrequests : (if policy = .cancelActive then
          e.scheduler.requestModelCancellation handle.id .modelUnload else e.scheduler) = e.scheduler := by
        have := OrdMap.ext_get? hsch
        split_ifs at this ⊢
        · exact congrArg (fun requests => (⟨requests, e.scheduler.cursor⟩ : GenerationScheduler τ)) this
        · rfl
      simp only [EngineAction.apply, dispatch, hrt, hrequests]
    | _ => cases hr
  | _ => cases hr

/-- In every state of a run: a rejected unload is answered with its error and
leaves the registry, and it leaves the tasks exactly if it marks none. A run
in which no rejected unload marks a task goes as it would without them. -/
theorem rejected_unload (loader : σ) (limits : RuntimeLimits) (output : TokenOutput GenerationOutputState)
    (eventBacklogCapacity : ℕ) (inputs : List (WorkerInput Source)) :
    let w : Worker σ τ := Worker.run b s inputs (Worker.start loader limits output eventBacklogCapacity)
    (∀ ticket handle policy allocates now, unloadRejected w.runtime handle policy now = true →
      let d := dispatch b s w.runtime w.scheduler w.output.capacities allocates now
        (.unloadModel ticket handle policy)
      (∃ e, d.event = .modelUnload ticket (.error e)) ∧ d.runtime = w.runtime ∧
        ((∀ r, d.scheduler.requests.get? r = w.scheduler.requests.get? r) ↔
          MarksNothing w.scheduler handle policy)) ∧
    ∀ actions : List (EngineAction Source),
      EngineAction.Along b s (fun e action => e.rejectsUnload action = true → e.MarksNothing action) actions
        w.engine →
      EngineAction.applyAll b s (EngineAction.without b s Engine.rejectsUnload actions w.engine) w.engine =
        EngineAction.applyAll b s actions w.engine := by
  intro w
  refine ⟨fun ticket handle policy allocates now h => ?_, fun actions h => ?_⟩
  · obtain ⟨⟨e, he⟩, hrt⟩ := unloadModel_rejected b h
    exact ⟨⟨e, congrArg _ he⟩, hrt, marksNothing_iff w.scheduler handle policy⟩
  · refine EngineAction.applyAll_without b s (EngineAction.Along.mono b s (fun e action hm hr => ?_) h)
    exact e.rejectsUnload_same b s hr (hm hr)

/-- Model 7 is loaded, unloaded and loaded again, and its second generation
runs a request. An unload of the first is rejected and marks that request. -/
theorem rejected_unload_marks :
    let b := Backend.scripted ⟨1, 0, 2, 0, 0⟩ (fun _ _ => true) (fun _ _ => true)
    let s := Sampling.scripted fun _ => .ok 0
    let limits : RuntimeLimits := ⟨⟨1, by decide, by decide⟩, ⟨1, by decide, by decide⟩, ⟨100, 1000⟩,
      ⟨⟨1, by decide, by decide⟩⟩⟩
    let w := Worker.run b s (WorkerInput.commands [.loadModel 1 7 () 0 .cpu,
      .unloadModel 2 ⟨7, 1⟩ .rejectIfBusy, .loadModel 3 7 () 0 .cpu, .generate 4 ⟨7, 2⟩ (.short 1)])
      (Worker.start () limits { tokenCapacity := 8, recordCapacity := 8 } 8)
    let d := dispatch b s w.runtime w.scheduler w.output.capacities (fun _ => true) 0
      (.unloadModel 5 ⟨7, 1⟩ .cancelActive)
    unloadRejected w.runtime ⟨7, 1⟩ .cancelActive 0 = true ∧
      (w.scheduler.requests.get? 1).map (·.cancellation) = some none ∧
      (d.scheduler.requests.get? 1).map (·.cancellation) = some (some .modelUnload) ∧
      ¬∀ r, d.scheduler.requests.get? r = w.scheduler.requests.get? r := by
  intro b s limits w d
  have hbefore : (w.scheduler.requests.get? 1).map (·.cancellation) = some none := by decide +kernel
  have hafter : (d.scheduler.requests.get? 1).map (·.cancellation) = some (some .modelUnload) := by
    decide +kernel
  refine ⟨by decide +kernel, hbefore, hafter, fun h => ?_⟩
  rw [h 1, hbefore] at hafter
  cases hafter

/-! ### Direct commands -/

/-- The request a request command names. -/
def directRequest : RuntimeCommand Source → Option RequestId
  | .startRequest _ _ r _ _ | .prefill _ r _ _ _ | .decode _ r _ _ | .completeRequest _ r _ => some r
  | .generate _ _ request => some request.requestId
  | _ => none

/-- The command asks the scheduler first. -/
def asksScheduler : RuntimeCommand Source → Bool
  | .startRequest .. | .generate .. => true
  | _ => false

/-- The event answers with an error. -/
def RuntimeEvent.failed : RuntimeEvent → Bool
  | .modelLoaded _ result => !result.isOk
  | .requestStarted _ result => !result.isOk
  | .generationAdmitted _ result => !result.isOk
  | .generationCancellationRequested _ _ result => !result.isOk
  | .prefillCompleted _ _ result _ => !result.isOk
  | .decodeCompleted _ _ result _ => !result.isOk
  | .requestFinished _ _ result => !result.isOk
  | .modelUnload _ result => !result.isOk
  | .snapshot .. => false
  | .shutdown _ result => !result.isOk

/-- The registry's entry for an active request. -/
def InferenceRuntime.entry (rt : InferenceRuntime σ) (r : RequestId) : Option (ModelId × RequestSlot) := do
  let m ← rt.requestIndex.get? r
  let slot ← rt.models.get? m
  let q ← slot.requests.get? r
  return (m, q)

/-- The command was refused, and left the request's entry and its task. -/
structure Refused (r : RequestId) (rt : InferenceRuntime σ) (sch : GenerationScheduler τ)
    (d : Dispatched σ τ) : Prop where
  failed : d.event.failed = true
  entry : d.runtime.entry r = rt.entry r
  task : d.scheduler.requests.get? r = sch.requests.get? r

section Direct

variable {rt : InferenceRuntime σ} {sch : GenerationScheduler τ} {r : RequestId}

theorem entry_inactive (h : rt.requestIndex.get? r = none) : rt.entry r = none := by
  simp [InferenceRuntime.entry, h]

theorem entry_active (h : Reached rt) (hr : rt.requestIndex.get? r ≠ none) : rt.entry r ≠ none := by
  obtain ⟨m, hm⟩ := Option.ne_none_iff_exists'.mp hr
  obtain ⟨slot, q, hslot, hq⟩ := h.consistent.slot_of_request hm
  simp [InferenceRuntime.entry, hm, hslot, hq]

/-- A command for a request the scheduler owns changes nothing if it asks the
scheduler, or the request is not active. -/
theorem dispatch_refused (howned : sch.contains r = true) {command : RuntimeCommand Source}
    (hcommand : directRequest command = some r)
    (h : asksScheduler command = true ∨ rt.requestIndex.get? r = none) (capacities : ℕ × ℕ)
    (allocates : CapacityResource → Bool) (now : MonotonicMillis) :
    let d := dispatch b s rt sch capacities allocates now command
    d.event.failed = true ∧ d.runtime = rt ∧ d.scheduler = sch := by
  cases command <;> simp only [directRequest, Option.some.injEq, reduceCtorEq] at hcommand
  all_goals subst hcommand
  · simp [dispatch, howned, RuntimeEvent.failed, Except.isOk, Except.toBool]
  · simp [dispatch, GenerationScheduler.admitGeneration, howned, RuntimeEvent.failed, Except.isOk, Except.toBool]
  all_goals
    have hr := h.resolve_left (by simp [asksScheduler])
  · simp [dispatch, InferenceRuntime.prefill, requestModelId, hr, RuntimeEvent.failed, Except.isOk, Except.toBool]
  · simp [dispatch, InferenceRuntime.decode, requestModelId, hr, RuntimeEvent.failed, Except.isOk, Except.toBool]
  · simp [dispatch, completeRequest, InferenceRuntime.removeRequest_inactive b hr, RuntimeEvent.failed, Except.isOk,
      Except.toBool]

/-- No command for an active request that passes the scheduler by is refused. -/
theorem not_refused (h : Reached rt) {command : RuntimeCommand Source} (hcommand : directRequest command = some r)
    (hasks : asksScheduler command = false) (hr : rt.requestIndex.get? r ≠ none) (capacities : ℕ × ℕ)
    (allocates : CapacityResource → Bool) (now : MonotonicMillis) :
    ¬Refused r rt sch (dispatch b s rt sch capacities allocates now command) := by
  intro hrefused
  have hactive := entry_active h hr
  rw [← hrefused.entry] at hactive
  refine hactive (entry_inactive ?_)
  have hfailed := hrefused.failed
  have error_of : ∀ {α : Type} {result : Except RuntimeError α}, (!result.isOk) = true → ∃ e, result = .error e := by
    rintro α (e | a) h
    · exact ⟨e, rfl⟩
    · cases h
  cases command <;> simp only [directRequest, asksScheduler, Option.some.injEq, reduceCtorEq,
    Bool.true_eq_false] at hcommand hasks
  all_goals subst hcommand
  · next r tokens emitLogits logits =>
    obtain ⟨e, he⟩ := error_of hfailed
    exact Stepped.error_ends b h (prefill_stepped b rt r h.consistent tokens emitLogits logits) he
  · next r token logits =>
    obtain ⟨e, he⟩ := error_of hfailed
    exact Stepped.error_ends b h (decode_stepped b rt r h.consistent token logits) he
  · next r reason =>
    have hends := h.removeRequest_ends b r (finishOperation reason) (finishFailureClass reason)
    simp only [dispatch, completeRequest]
    generalize rt.removeRequest b r (finishOperation reason) (finishFailureClass reason) = answer at hends ⊢
    obtain ⟨_ | _, rt'⟩ := answer <;> exact hends

end Direct

/-- The action is a request command for a request the scheduler owns. -/
def Engine.namesOwned (e : Engine σ τ) : EngineAction Source → Bool
  | .command command _ _ => (directRequest command).any e.scheduler.contains
  | _ => false

/-- The command asks the scheduler, or the request it names is not active. -/
def Engine.PassesNothing (e : Engine σ τ) : EngineAction Source → Prop
  | .command command _ _ => asksScheduler command = true ∨
    ∀ r, directRequest command = some r → e.runtime.requestIndex.get? r = none
  | _ => True

theorem Engine.namesOwned_same {e : Engine σ τ} {action : EngineAction Source}
    (hn : e.namesOwned action = true) (hp : e.PassesNothing action) : action.apply b s e = e := by
  cases action with
  | command command allocates now =>
    obtain ⟨r, hr, howned⟩ := (Option.any_eq_true _ _).mp hn
    obtain ⟨-, hrt, hsch⟩ := dispatch_refused b s howned hr (hp.imp_right fun h => h r hr)
      e.output.capacities allocates now
    simp only [EngineAction.apply, hrt, hsch]
  | _ => cases hn

/-- In every state of a run: a request command for a request the scheduler owns
is refused exactly if it asks the scheduler or the request is not active. A
run in which that is so of each such command goes as it would without them. -/
theorem direct_command (loader : σ) (limits : RuntimeLimits) (output : TokenOutput GenerationOutputState)
    (eventBacklogCapacity : ℕ) (inputs : List (WorkerInput Source)) :
    let w : Worker σ τ := Worker.run b s inputs (Worker.start loader limits output eventBacklogCapacity)
    (∀ command r allocates now, directRequest command = some r → w.scheduler.contains r = true →
      (Refused r w.runtime w.scheduler
          (dispatch b s w.runtime w.scheduler w.output.capacities allocates now command) ↔
        asksScheduler command = true ∨ w.runtime.requestIndex.get? r = none)) ∧
    ∀ actions : List (EngineAction Source),
      EngineAction.Along b s (fun e action => e.namesOwned action = true → e.PassesNothing action) actions
        w.engine →
      EngineAction.applyAll b s (EngineAction.without b s Engine.namesOwned actions w.engine) w.engine =
        EngineAction.applyAll b s actions w.engine := by
  intro w
  have h : Reached w.runtime :=
    (Worker.run_accounted b s inputs (Worker.start_accounted loader limits output eventBacklogCapacity)).reached
  refine ⟨fun command r allocates now hcommand howned => ⟨fun hrefused => ?_, fun hpasses => ?_⟩,
    fun actions ha => ?_⟩
  · by_contra hne
    obtain ⟨hasks, hactive⟩ := not_or.mp hne
    exact not_refused b s h hcommand (by simpa using hasks) hactive _ allocates now hrefused
  · obtain ⟨hfailed, hrt, hsch⟩ := dispatch_refused b s howned hcommand hpasses w.output.capacities allocates now
    exact ⟨hfailed, by rw [hrt], by rw [hsch]⟩
  · refine EngineAction.applyAll_without b s (EngineAction.Along.mono b s (fun e action hp hn => ?_) ha)
    exact e.namesOwned_same b s hn (hp hn)

/-- A request the scheduler owns is completed by a command that names it. -/
theorem direct_command_completes :
    let b := Backend.scripted ⟨1, 0, 2, 0, 0⟩ (fun _ _ => true) (fun _ _ => true)
    let s := Sampling.scripted fun _ => .ok 0
    let limits : RuntimeLimits := ⟨⟨1, by decide, by decide⟩, ⟨1, by decide, by decide⟩, ⟨100, 1000⟩,
      ⟨⟨1, by decide, by decide⟩⟩⟩
    let w := Worker.run b s (WorkerInput.commands [.loadModel 1 7 () 0 .cpu, .generate 2 ⟨7, 1⟩ (.short 1)])
      (Worker.start () limits { tokenCapacity := 8, recordCapacity := 8 } 8)
    let d := dispatch b s w.runtime w.scheduler w.output.capacities (fun _ => true) 0
      (.completeRequest 3 1 .tokenLimit)
    w.scheduler.contains 1 = true ∧ d.event.failed = false ∧ d.runtime.entry 1 = none ∧
      ¬Refused 1 w.runtime w.scheduler d := by
  intro b s limits w d
  have hevent : d.event.failed = false := by decide +kernel
  refine ⟨by decide +kernel, hevent, by decide +kernel, fun h => ?_⟩
  rw [h.failed] at hevent
  cases hevent

end LlmApp
