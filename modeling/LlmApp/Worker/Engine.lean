/-
# The engine under the loop

Between its channels the loop works on three parts: the registry, the
scheduler and the token output. `Engine` is these three, and `EngineAction`
what one step of the loop does to them: a turn of maintenance, a command, a
turn of the scheduler, the shutdown of a disconnected worker, or nothing.

Every run of the worker is a run of the engine (`Worker.run_engine`), so what
any list of actions keeps holds of every worker.

Key definitions: `Engine`, `EngineAction.apply`, `EngineAction.without`,
`Worker.action`.
Key theorems: `EngineAction.applyAll_without`, `Worker.step_engine`,
`Worker.run_engine`.
-/
import LlmApp.Worker.Loop

namespace LlmApp

structure Engine (σ τ : Type) where
  runtime : InferenceRuntime σ
  scheduler : GenerationScheduler τ
  output : TokenOutput GenerationOutputState

/-- `maintain` names the model whose expired drain the scheduler is told of. -/
inductive EngineAction (Source : Type) where
  | cleanup
  | maintain (now : MonotonicMillis) (expired : Option ModelId)
  | command (command : RuntimeCommand Source) (allocates : CapacityResource → Bool) (now : MonotonicMillis)
  | advance
  | disconnect

variable {σ Source τ : Type} (b : Backend σ Source) (s : Sampling τ)

/-- The registry after one turn of cleanup maintenance: a failed turn leaves
its error. -/
def InferenceRuntime.maintainCleanup (rt : InferenceRuntime σ) : InferenceRuntime σ :=
  match rt.pollCleanup b with
  | (.ok _, rt) => rt
  | (.error error, rt) => rt.recordMaintenanceError error

/-- The scheduler that was told of an expired drain. -/
def GenerationScheduler.notify (sch : GenerationScheduler τ) : Option ModelId → GenerationScheduler τ
  | none => sch
  | some modelId => sch.requestModelCancellation modelId .drainTimeout

namespace EngineAction

def apply (e : Engine σ τ) : EngineAction Source → Engine σ τ
  | .cleanup => { e with runtime := e.runtime.maintainCleanup b }
  | .maintain now expired =>
    { e with runtime := (e.runtime.pollUnloadTransition b now).2, scheduler := e.scheduler.notify expired }
  | .command received allocates now =>
    let d := dispatch b s e.runtime e.scheduler e.output.capacities allocates now received
    { e with runtime := d.runtime, scheduler := d.scheduler }
  | .advance =>
    let advanced := e.scheduler.advance b s e.runtime e.output
    ⟨advanced.runtime, advanced.scheduler, advanced.output⟩
  | .disconnect => { e with runtime := (e.runtime.shutdown b).2 }

/-- The actions `actions`, one after another. -/
def applyAll (actions : List (EngineAction Source)) (e : Engine σ τ) : Engine σ τ :=
  actions.foldl (fun e action => action.apply b s e) e

/-- What each action keeps holds after any actions. -/
theorem applyAll_keeps {P : Engine σ τ → Prop}
    (hP : ∀ (action : EngineAction Source) {e}, P e → P (action.apply b s e)) :
    ∀ (actions : List (EngineAction Source)) {e : Engine σ τ}, P e → P (applyAll b s actions e)
  | [], _, h => h
  | action :: actions, _, h => applyAll_keeps hP actions (hP action h)

theorem applyAll_append (actions actions' : List (EngineAction Source)) (e : Engine σ τ) :
    applyAll b s (actions ++ actions') e = applyAll b s actions' (applyAll b s actions e) :=
  List.foldl_append ..

/-- `P` holds at every action of a run. -/
def Along (P : Engine σ τ → EngineAction Source → Prop) : List (EngineAction Source) → Engine σ τ → Prop
  | [], _ => True
  | action :: actions, e => P e action ∧ Along P actions (action.apply b s e)

theorem Along.mono {P Q : Engine σ τ → EngineAction Source → Prop} (h : ∀ e action, P e action → Q e action) :
    ∀ {actions : List (EngineAction Source)} {e : Engine σ τ}, Along b s P actions e → Along b s Q actions e
  | [], _, _ => trivial
  | _ :: _, _, h' => ⟨h _ _ h'.1, Along.mono h h'.2⟩

/-- The actions of a run without those that `p` picks where they are taken. -/
def without (p : Engine σ τ → EngineAction Source → Bool) :
    List (EngineAction Source) → Engine σ τ → List (EngineAction Source)
  | [], _ => []
  | action :: actions, e =>
    if p e action then without p actions (action.apply b s e)
    else action :: without p actions (action.apply b s e)

/-- Actions that change nothing where they are taken can be left out of a run. -/
theorem applyAll_without {p : Engine σ τ → EngineAction Source → Bool} :
    ∀ {actions : List (EngineAction Source)} {e : Engine σ τ},
      Along b s (fun e action => p e action = true → action.apply b s e = e) actions e →
      applyAll b s (without b s p actions e) e = applyAll b s actions e
  | [], _, _ => rfl
  | action :: actions, e, h => by
    have ih := applyAll_without h.2
    rw [without]
    split_ifs with hp
    · have hsame := h.1 hp
      rw [hsame] at ih ⊢
      rw [ih, applyAll, applyAll, List.foldl_cons, hsame]
    · exact ih

end EngineAction

/-! ### The loop is a run of the engine -/

namespace Worker

variable (w : Worker σ τ)

def engine : Engine σ τ := ⟨w.runtime, w.scheduler, w.output⟩

/-- The model whose generations a turn of maintenance cancels. -/
def expired (now : MonotonicMillis) : Option ModelId :=
  match (maintenanceEvent b w.runtime now w.pendingUnloads).1 with
  | some (modelId, event) => if cancelledByMaintenance event then some modelId else none
  | none => none

/-- What the loop does with what it received. -/
def receivedAction (input : WorkerInput Source) : Option (EngineAction Source) :=
  match input.received with
  | .command command allocates => some (.command command allocates input.now)
  | .empty => none
  | .disconnected => some .disconnect

/-- What the next step does to the engine. -/
def action (input : WorkerInput Source) : Option (EngineAction Source) :=
  match w.location with
  | .cleanup => some .cleanup
  | .maintenance => some (.maintain input.now (w.expired b input.now))
  | .publication => if w.pendingEvent.isSome ∧ input.send = .disconnected then some .disconnect else none
  | .receiving left _ =>
    if left = 0 ∨ w.eventBacklogCapacity ≤ w.queuedEvents.length then none else receivedAction input
  | .advancing _ => some .advance
  | .waiting => receivedAction input
  | .collection | .stopped _ => none

@[simp] theorem refill_engine : w.refill.engine = w.engine := by
  unfold refill
  split
  · rfl
  · rfl
  · split <;> rfl

@[simp] theorem post_engine (event : RuntimeEvent) : (w.post event).engine = w.engine := by
  unfold post
  split <;> rfl

@[simp] theorem afterPublication_engine : w.afterPublication.engine = w.engine := by
  unfold afterPublication
  split <;> rfl

theorem cleanup_engine : (w.cleanup b).engine = EngineAction.cleanup.apply b s w.engine := by
  unfold cleanup EngineAction.apply InferenceRuntime.maintainCleanup engine
  rcases w.runtime.pollCleanup b with ⟨_ | _, rt⟩ <;> rfl

theorem maintenanceEvent_runtime (rt : InferenceRuntime σ) (now : MonotonicMillis)
    (pendingUnloads : OrdMap ModelId PendingUnload) :
    (maintenanceEvent b rt now pendingUnloads).2.1 = (rt.pollUnloadTransition b now).2 := by
  unfold maintenanceEvent
  rcases rt.pollUnloadTransition b now with ⟨_ | ⟨handle, result⟩, rt'⟩
  · rfl
  dsimp only
  split
  · rfl
  split
  · rfl
  · split_ifs <;> rfl

theorem maintain_engine (now : MonotonicMillis) :
    (w.maintain b now).engine = (EngineAction.maintain now (w.expired b now)).apply b s w.engine := by
  have hrt := maintenanceEvent_runtime b w.runtime now w.pendingUnloads
  unfold maintain expired
  rcases h : maintenanceEvent b w.runtime now w.pendingUnloads with ⟨_ | ⟨modelId, event⟩, rt, pending⟩
  all_goals
    rw [h] at hrt
    simp only [engine, EngineAction.apply, GenerationScheduler.notify, ← hrt]
  split_ifs <;> rfl

theorem maintain_runtime (now : MonotonicMillis) :
    (w.maintain b now).runtime = (w.runtime.pollUnloadTransition b now).2 := by
  rw [← maintenanceEvent_runtime b w.runtime now w.pendingUnloads]
  unfold maintain
  rcases maintenanceEvent b w.runtime now w.pendingUnloads with ⟨_ | _, rt, pending⟩ <;> rfl

theorem shutdownAfterDisconnect_engine :
    (w.shutdownAfterDisconnect b).engine = EngineAction.disconnect.apply b s w.engine := by
  unfold shutdownAfterDisconnect EngineAction.apply engine
  rcases w.runtime.shutdown b with ⟨result, rt⟩
  rfl

theorem dispatchCommand_engine (command : RuntimeCommand Source) (allocates : CapacityResource → Bool)
    (now : MonotonicMillis) : (w.dispatchCommand b s command allocates now).engine =
      (EngineAction.command command allocates now).apply b s w.engine := by
  unfold dispatchCommand
  dsimp only
  split
  · rfl
  · rw [post_engine]
    rfl

theorem publish_engine (send : SendResult) : (w.publish b send).engine =
    if w.pendingEvent.isSome ∧ send = .disconnected then EngineAction.disconnect.apply b s w.engine
    else w.engine := by
  unfold publish
  rcases hp : w.pendingEvent with _ | event
  · rw [if_neg (by simp)]
    dsimp only
    split
    · split
      · rfl
      · exact afterPublication_engine w
    · exact afterPublication_engine w
  · cases send with
    | sent =>
      rw [if_neg (by simp)]
      dsimp only
      split
      · rfl
      · exact afterPublication_engine _
    | full =>
      rw [if_neg (by simp)]
      exact afterPublication_engine w
    | disconnected =>
      rw [if_pos (by simp)]
      exact shutdownAfterDisconnect_engine b s { w with pendingEvent := none }

/-- Each step does its action. -/
theorem step_engine (input : WorkerInput Source) :
    (w.step b s input).engine =
      (w.action b input).elim w.engine fun action => action.apply b s w.engine := by
  unfold step action
  cases w.location with
  | cleanup => exact cleanup_engine b s w
  | maintenance => exact maintain_engine b s w input.now
  | collection => exact refill_engine _
  | publication =>
    dsimp only
    rw [publish_engine b s]
    split_ifs <;> rfl
  | receiving left handled =>
    rcases left with _ | left
    · rfl
    dsimp only [receive]
    by_cases hfull : w.eventBacklogCapacity ≤ w.queuedEvents.length
    · rw [if_pos hfull, if_pos (Or.inr hfull)]
      rfl
    rw [if_neg hfull, if_neg (by simpa using hfull)]
    unfold receivedAction
    rcases input.received with ⟨command, allocates⟩ | _ | _
    · exact dispatchCommand_engine b s w command allocates input.now
    · rfl
    · exact shutdownAfterDisconnect_engine b s w
  | advancing handled => rfl
  | waiting =>
    dsimp only [wait]
    unfold receivedAction
    rcases input.received with ⟨command, allocates⟩ | _ | _
    · exact dispatchCommand_engine b s w command allocates input.now
    · rfl
    · exact shutdownAfterDisconnect_engine b s w
  | stopped exit => rfl

/-- The actions of a run. -/
def actions : List (WorkerInput Source) → Worker σ τ → List (EngineAction Source)
  | [], _ => []
  | input :: inputs, w => (w.action b input).toList ++ actions inputs (w.step b s input)

/-- A run of the loop is a run of the engine. -/
theorem run_engine : ∀ (inputs : List (WorkerInput Source)) (w : Worker σ τ),
    (run b s inputs w).engine = EngineAction.applyAll b s (w.actions b s inputs) w.engine
  | [], _ => rfl
  | input :: inputs, w => by
    have hstep := step_engine b s w input
    rw [actions, EngineAction.applyAll_append]
    refine (run_engine inputs (w.step b s input)).trans (congrArg _ (hstep.trans ?_))
    cases w.action b input <;> rfl

/-- What a fresh engine has and each action keeps holds after any run. -/
theorem run_keeps {P : Engine σ τ → Prop}
    (hP : ∀ (action : EngineAction Source) {e}, P e → P (action.apply b s e))
    (inputs : List (WorkerInput Source)) {w : Worker σ τ} (h : P w.engine) :
    P (run b s inputs w).engine := by
  rw [run_engine]
  exact EngineAction.applyAll_keeps b s hP _ h

end Worker

end LlmApp
