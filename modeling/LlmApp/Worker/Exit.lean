/-
# Release order and the worker's exit

The record of backend calls is ordered in every state of every run, and a
resource that the registry no longer holds was let go by a successful cleanup
(`Reached.safe`). What is left to say is about the end: the worker drops its
runtime only when that owns no model, resident or pending, and forgets it
otherwise.

Key definitions: `Worker.Exits`.
Key theorems: `shutdown_ok`, `Worker.step_exits`, `release_order`.
-/
import LlmApp.Runtime.Quarantine
import LlmApp.Worker.Accounts

namespace LlmApp

open InferenceRuntime

variable {σ Source τ : Type} (b : Backend σ Source) (s : Sampling τ)

/-! ### A runtime without backend resources -/

namespace InferenceRuntime

variable {rt : InferenceRuntime σ}

theorem owns_nothing : rt.ownsBackendResources = false ↔
    rt.models = .empty ∧ rt.pendingModels = .empty := by
  simp only [ownsBackendResources, Bool.or_eq_false_iff, Bool.not_eq_false']
  constructor
  · rintro ⟨hm, hp⟩
    exact ⟨OrdMap.eq_empty_of_isEmpty hm, OrdMap.eq_empty_of_isEmpty hp⟩
  · rintro ⟨hm, hp⟩
    rw [hm, hp]
    exact ⟨rfl, rfl⟩

/-- Maintenance has nothing to do. -/
theorem maintainCleanup_nothing (h : rt.ownsBackendResources = false) : rt.maintainCleanup b = rt := by
  obtain ⟨hm, hp⟩ := owns_nothing.mp h
  simp [maintainCleanup, pollCleanup, retryableSequence, retryableModel, hm, hp, OrdMap.empty, OrdMap.find?]

theorem pollUnloadTransition_nothing (h : rt.ownsBackendResources = false) (now : MonotonicMillis) :
    rt.pollUnloadTransition b now = (none, rt) := by
  obtain ⟨hm, -⟩ := owns_nothing.mp h
  simp [pollUnloadTransition, pollDrains, firstInState, hm, OrdMap.empty, OrdMap.keys, OrdMap.find?]

/-- Shutdown returns `Ok` only when nothing is left. -/
theorem shutdown_ok {receipt : ShutdownReceipt} (h : (rt.shutdown b).1 = .ok receipt) :
    (rt.shutdown b).2.ownsBackendResources = false := by
  unfold shutdown at h ⊢
  dsimp only at h ⊢
  split
  · next hpass => simp [hpass] at h
  next hpass =>
  rw [hpass] at h
  dsimp only at h ⊢
  split
  · next hexhaust => simp [hexhaust] at h
  next rt' hexhaust =>
  rw [hexhaust] at h
  dsimp only at h ⊢
  split
  · next hstate => simp [hstate] at h
  next hstate =>
  rw [hstate] at h
  dsimp only at h ⊢
  split_ifs at h ⊢ with hleft
  have hpending : rt'.pendingModels.isEmpty = true := by
    simp only [firstPendingCleanupState, Option.or_eq_none_iff, Option.map_eq_none_iff,
      OrdMap.first?_eq_none] at hstate
    exact hstate.2
  have hmodels : rt'.models.isEmpty = true := by
    simpa using (not_or.mp hleft).1
  simp [ownsBackendResources, hmodels, hpending]

theorem exhaustCleanup_nothing (h : rt.ownsBackendResources = false) : ∀ fuel : ℕ,
    exhaustCleanup b fuel rt = (.ok (), rt)
  | 0 => rfl
  | fuel + 1 => by
    obtain ⟨hm, hp⟩ := owns_nothing.mp h
    simp [exhaustCleanup, pollCleanup, retryableSequence, retryableModel, hm, hp, OrdMap.empty, OrdMap.find?]

/-- Shutdown of a runtime that owns nothing leaves it so. -/
theorem shutdown_nothing (h : rt.ownsBackendResources = false) :
    (rt.shutdown b).2.ownsBackendResources = false := by
  have hkeys : rt.models.keys = [] := by
    rw [(owns_nothing.mp h).1]
    rfl
  have hloop := @exhaustCleanup_nothing _ _ b { rt with shuttingDown := true } h
  unfold shutdown
  simp only [hkeys, shutdownModels, hloop]
  split
  · exact h
  · split_ifs <;> exact h

theorem releaseGenerationWorkspace_owns (w : MemoryFootprint) :
    (rt.releaseGenerationWorkspace w).2.ownsBackendResources = rt.ownsBackendResources := by
  unfold releaseGenerationWorkspace
  dsimp only
  split <;> rfl

end InferenceRuntime

theorem GenerationScheduler.releaseAll_owns : ∀ (tasks : List (GenerationTask τ)) (first : Option RuntimeError)
    (rt : InferenceRuntime σ),
    (GenerationScheduler.releaseAll tasks first rt).2.ownsBackendResources = rt.ownsBackendResources
  | [], none, rt => rfl
  | [], some _, rt => rfl
  | task :: tasks, first, rt => by
    have hone := @releaseGenerationWorkspace_owns _ rt task.workspaceFootprint
    unfold GenerationScheduler.releaseAll
    generalize rt.releaseGenerationWorkspace task.workspaceFootprint = answer at hone ⊢
    obtain ⟨_ | _, rt'⟩ := answer
    · exact (releaseAll_owns tasks _ rt').trans hone
    · exact (releaseAll_owns tasks first rt').trans hone

/-- A shutdown that lets the runtime be dropped leaves no backend resource. -/
theorem dispatchShutdown_owns (rt : InferenceRuntime σ) (sch : GenerationScheduler τ) (ticket : CommandTicket)
    (h : (dispatchShutdown b rt sch ticket).stop = some .dropRuntime) :
    (dispatchShutdown b rt sch ticket).runtime.ownsBackendResources = false := by
  have hok := fun receipt => @shutdown_ok _ _ b rt receipt
  unfold dispatchShutdown at h ⊢
  generalize rt.shutdown b = answer at hok h ⊢
  obtain ⟨result, rt'⟩ := answer
  dsimp only at hok h ⊢
  have howns : (sch.discardAll rt').2.2.ownsBackendResources = rt'.ownsBackendResources :=
    GenerationScheduler.releaseAll_owns sch.requests.values none rt'
  generalize sch.discardAll rt' = discarded at howns h ⊢
  obtain ⟨discardResult, sch', rt''⟩ := discarded
  dsimp only at howns h ⊢
  by_contra hne
  rw [Bool.not_eq_false] at hne
  cases discardResult <;> cases result <;> simp_all [Except.isOk, Except.toBool, recordMaintenanceError,
    ownsBackendResources]

/-! ### The end of the loop -/

/-- The sections the loop passes through once it is stopping. -/
def WorkerLocation.stopping : WorkerLocation → Bool
  | .receiving .. | .waiting | .advancing false => false
  | _ => true

/-- Once the worker is stopping it takes no command and runs no generation; a
runtime that is to be dropped, or was, owns no backend resource. -/
structure Worker.Exits (w : Worker σ τ) : Prop where
  stopping (h : w.stopAfterEvent.isSome = true) : w.location.stopping = true ∧ w.scheduler = .new
  drop (h : w.stopAfterEvent = some .dropRuntime) : w.runtime.ownsBackendResources = false
  dropped (h : w.location = .stopped .dropped) : w.runtime.ownsBackendResources = false

namespace Worker

variable {w : Worker σ τ}

theorem Exits.of_running (hs : w.stopAfterEvent = none) (hl : ∀ exit, w.location ≠ .stopped exit) : w.Exits where
  stopping h := by simp [hs] at h
  drop h := by simp [hs] at h
  dropped h := absurd h (hl _)

/-- A step that goes on, stopping or not. -/
theorem Exits.keep {w' : Worker σ τ} (h : w.Exits) (hstop : w'.stopAfterEvent = w.stopAfterEvent)
    (hsch : w.scheduler = .new → w'.scheduler = .new)
    (hl : w.stopAfterEvent.isSome = true → w'.location.stopping = true)
    (hexit : ∀ exit, w'.location ≠ .stopped exit)
    (hrt : w.runtime.ownsBackendResources = false → w'.runtime.ownsBackendResources = false) : w'.Exits where
  stopping h' := ⟨hl (hstop ▸ h'), hsch (h.stopping (hstop ▸ h')).2⟩
  drop h' := hrt (h.drop (hstop ▸ h'))
  dropped h' := absurd h' (hexit _)

/-- A disconnected worker drops its runtime only when nothing is left. -/
theorem shutdownAfterDisconnect_exits (h : w.stopAfterEvent.isSome = true → w.scheduler = .new)
    (hdrop : w.stopAfterEvent = some .dropRuntime → w.runtime.ownsBackendResources = false) :
    (w.shutdownAfterDisconnect b).Exits := by
  have hok := fun receipt => @shutdown_ok _ _ b w.runtime receipt
  have hnothing := @shutdown_nothing _ _ b w.runtime
  unfold shutdownAfterDisconnect
  generalize w.runtime.shutdown b = answer at hok hnothing ⊢
  obtain ⟨result, rt⟩ := answer
  refine ⟨fun hs => ⟨rfl, h hs⟩, fun hs => hnothing (hdrop hs), fun hl => ?_⟩
  dsimp only at hok hl ⊢
  by_contra hne
  rw [Bool.not_eq_false] at hne
  cases result with
  | ok receipt =>
    rw [hok receipt rfl] at hne
    cases hne
  | error e => simp [Except.isOk, Except.toBool, hne] at hl

theorem finishWorker_exits {stop : WorkerStop} (h : w.stopAfterEvent = some stop)
    (hsch : w.scheduler = .new) (hdrop : stop = .dropRuntime → w.runtime.ownsBackendResources = false) :
    (w.finishWorker stop).Exits where
  stopping _ := ⟨rfl, hsch⟩
  drop h' := hdrop (Option.some.inj (h.symm.trans h'))
  dropped h' := by
    cases stop with
    | dropRuntime => exact hdrop rfl
    | preserveRuntime => simp [finishWorker] at h'

theorem dispatch_stop (rt : InferenceRuntime σ) (sch : GenerationScheduler τ) (capacities : ℕ × ℕ)
    (allocates : CapacityResource → Bool) (now : MonotonicMillis) (command : RuntimeCommand Source) :
    (dispatch b s rt sch capacities allocates now command).stop = none ∨
      ∃ ticket, command = .shutdown ticket := by
  cases command with
  | shutdown ticket => exact Or.inr ⟨ticket, rfl⟩
  | cancelRequest =>
    refine Or.inl ?_
    unfold dispatch
    dsimp only
    split_ifs <;> rfl
  | _ => exact Or.inl rfl

/-- A command either leaves the worker running or stops it. -/
theorem dispatchCommand_stop (hstop : w.stopAfterEvent = none) (command : RuntimeCommand Source)
    (allocates : CapacityResource → Bool) (now : MonotonicMillis) :
    (w.dispatchCommand b s command allocates now).stopAfterEvent = none ∨
      ((w.dispatchCommand b s command allocates now).scheduler = .new ∧
        ((w.dispatchCommand b s command allocates now).stopAfterEvent = some .dropRuntime →
          (w.dispatchCommand b s command allocates now).runtime.ownsBackendResources = false)) := by
  rcases dispatch_stop b s w.runtime w.scheduler w.output.capacities allocates now command with h | ⟨ticket, rfl⟩
  · refine Or.inl ?_
    unfold dispatchCommand
    dsimp only
    rw [h]
    unfold post
    dsimp only
    split <;> exact hstop
  · refine Or.inr ⟨rfl, fun h => ?_⟩
    exact dispatchShutdown_owns b w.runtime w.scheduler ticket h

theorem dispatchCommand_exits (hstop : w.stopAfterEvent = none) (command : RuntimeCommand Source)
    (allocates : CapacityResource → Bool) (now : MonotonicMillis) {location : WorkerLocation}
    (hl : ∀ exit, location ≠ .stopped exit)
    (hs : (w.dispatchCommand b s command allocates now).stopAfterEvent.isSome = true →
      location.stopping = true) :
    Exits { w.dispatchCommand b s command allocates now with location := location } := by
  rcases dispatchCommand_stop b s hstop command allocates now with h | ⟨hsch, hdrop⟩
  · exact .of_running h hl
  · exact ⟨fun h => ⟨hs h, hsch⟩, hdrop, fun h => absurd h (hl _)⟩

theorem cleanup_exits (h : w.Exits) : (w.cleanup b).Exits := by
  have hrt : (w.cleanup b).runtime = w.runtime.maintainCleanup b := by
    unfold cleanup maintainCleanup
    rcases w.runtime.pollCleanup b with ⟨_ | _, rt⟩ <;> rfl
  have hkeep : (w.cleanup b).stopAfterEvent = w.stopAfterEvent ∧ (w.cleanup b).scheduler = w.scheduler ∧
      (w.cleanup b).location = .maintenance := by
    unfold cleanup
    rcases w.runtime.pollCleanup b with ⟨_ | _, rt⟩ <;> exact ⟨rfl, rfl, rfl⟩
  obtain ⟨hstop, hsch, hl⟩ := hkeep
  refine h.keep hstop (fun h => hsch.trans h) (fun _ => by rw [hl]; rfl) (fun _ => by simp [hl]) fun howns => ?_
  rw [hrt, maintainCleanup_nothing b howns]
  exact howns

theorem maintain_exits (h : w.Exits) (now : MonotonicMillis) : (w.maintain b now).Exits := by
  have hkeep : (w.maintain b now).stopAfterEvent = w.stopAfterEvent ∧
      (w.maintain b now).location = .collection ∧
      (w.scheduler = .new → (w.maintain b now).scheduler = .new) := by
    unfold maintain
    rcases maintenanceEvent b w.runtime now w.pendingUnloads with ⟨_ | ⟨m, event⟩, rt, pending⟩
    · exact ⟨rfl, rfl, id⟩
    · refine ⟨rfl, rfl, fun hnew => ?_⟩
      dsimp only
      rw [hnew]
      split_ifs <;> rfl
  obtain ⟨hstop, hl, hsch⟩ := hkeep
  refine h.keep hstop hsch (fun _ => by rw [hl]; rfl) (fun _ => by simp [hl]) fun howns => ?_
  rw [maintain_runtime, pollUnloadTransition_nothing b howns]
  exact howns

theorem collect_exits (h : w.Exits) : w.collect.Exits := by
  unfold collect refill
  dsimp only
  split
  · exact h.keep rfl id (fun _ => rfl) (fun _ => by simp) id
  · exact h.keep rfl id (fun _ => rfl) (fun _ => by simp) id
  · split <;> exact h.keep rfl id (fun _ => rfl) (fun _ => by simp) id

theorem afterPublication_exits (h : w.Exits) : w.afterPublication.Exits := by
  unfold afterPublication
  split_ifs with hs
  · exact h.keep rfl id (fun _ => rfl) (fun _ => by simp) id
  · exact h.keep rfl id (fun h' => absurd h' hs) (fun _ => by simp) id

theorem publish_exits (h : w.Exits) (send : SendResult) : (w.publish b send).Exits := by
  have hfinish : ∀ {w' : Worker σ τ} {stop : WorkerStop}, w'.stopAfterEvent = w.stopAfterEvent →
      w'.scheduler = w.scheduler → w'.runtime = w.runtime → w'.stopAfterEvent = some stop →
        (w'.finishWorker stop).Exits := by
    intro w' stop hstop hsch hrt hs
    rw [hstop] at hs
    refine finishWorker_exits (hstop.trans hs) (hsch.trans (h.stopping (by rw [hs]; rfl)).2) ?_
    rintro rfl
    exact hrt ▸ h.drop hs
  unfold publish
  split
  · split
    · next hs =>
      split
      · exact hfinish rfl rfl rfl hs
      · exact afterPublication_exits h
    · exact afterPublication_exits h
  · cases send with
    | sent =>
      dsimp only
      split
      · next hs => exact hfinish rfl rfl rfl hs
      · exact afterPublication_exits (w := { w with pendingEvent := none, sent := _ })
          ⟨h.stopping, h.drop, h.dropped⟩
    | full => exact afterPublication_exits h
    | disconnected =>
      exact shutdownAfterDisconnect_exits b (fun hs => (h.stopping hs).2) h.drop

theorem advance_exits (h : w.Exits) {handled : Bool} (hl : w.location = .advancing handled) :
    (w.advance b s handled).Exits := by
  cases hstop : w.stopAfterEvent with
  | none =>
    refine .of_running hstop fun exit => ?_
    unfold advance
    dsimp only
    split_ifs <;> simp
  | some stop =>
    obtain ⟨hstopping, hsch⟩ := h.stopping (by rw [hstop]; rfl)
    have hhandled : handled = true := by
      rw [hl] at hstopping
      cases handled <;> simp_all [WorkerLocation.stopping]
    have hidle : w.scheduler.advance b s w.runtime w.output = ⟨idle, .new, w.runtime, w.output⟩ := by
      rw [hsch]
      rfl
    unfold advance
    rw [hidle, hhandled]
    exact h.keep rfl (fun _ => rfl) (fun _ => rfl) (by simp) id

/-- Each step keeps it. -/
theorem step_exits (input : WorkerInput Source) (h : w.Exits) : (w.step b s input).Exits := by
  unfold step
  -- A section that takes commands is not reached once the worker is stopping.
  have hrunning : w.location.stopping = false → w.stopAfterEvent = none := fun hl => by
    by_contra hne
    have := (h.stopping (Option.isSome_iff_ne_none.mpr hne)).1
    rw [hl] at this
    cases this
  rcases hl : w.location with _ | _ | _ | _ | ⟨left, handled⟩ | handled | _ | exit
  · exact cleanup_exits b h
  · exact maintain_exits b h input.now
  · exact collect_exits h
  · exact publish_exits b h input.send
  · have hstop := hrunning (by rw [hl]; rfl)
    have hgo : Exits { w with location := .advancing handled } := .of_running hstop (by simp)
    rcases left with _ | left
    · exact hgo
    dsimp only [receive]
    split_ifs with hfull
    · exact hgo
    split
    · refine dispatchCommand_exits b s hstop _ _ _ (fun _ => by split_ifs <;> simp) fun hs => ?_
      rw [if_pos hs]
      rfl
    · exact hgo
    · exact shutdownAfterDisconnect_exits b (by simp [hstop]) (by simp [hstop])
  · exact advance_exits b s h hl
  · have hstop := hrunning (by rw [hl]; rfl)
    dsimp only [wait]
    split
    · exact dispatchCommand_exits b s hstop _ _ _ (by simp) fun _ => rfl
    · exact .of_running hstop (by simp)
    · exact shutdownAfterDisconnect_exits b (by simp [hstop]) (by simp [hstop])
  · exact h

end Worker

/-! ### Release order -/

namespace Reached

variable {rt : InferenceRuntime σ}

/-- A model the backend made is resident, pending, or was unloaded. -/
theorem model_kept (h : Reached rt) {n : ModelRef} (hn : n < rt.loader.models) :
    (∃ m slot, rt.models.get? m = some slot ∧ slot.model = n) ∨
      (∃ m p, rt.pendingModels.get? m = some p ∧ p.model = n) ∨ Unloaded rt.loader.calls n := by
  by_cases hd : Unloaded rt.loader.calls n
  · exact Or.inr (Or.inr hd)
  obtain ⟨m, held, hm, rfl⟩ := h.safe.models.kept n hn hd
  have hheld : rt.heldModel m = some held := hm
  unfold heldModel at hheld
  rcases hslot : rt.models.get? m with _ | slot <;> rw [hslot] at hheld
  · obtain ⟨p, hp, rfl⟩ := Option.map_eq_some_iff.mp hheld
    exact Or.inr (Or.inl ⟨m, p, hp, rfl⟩)
  · cases hheld
    exact Or.inl ⟨m, slot, hslot, rfl⟩

/-- A sequence the backend made is active, quarantined, or was destroyed. -/
theorem sequence_kept (h : Reached rt) {n : SequenceRef} (hn : n < rt.loader.sequences) :
    (∃ i q, rt.active i = some q ∧ q.sequence.ref = n) ∨
      (∃ i p, rt.quarantined i = some p ∧ p.sequence.ref = n) ∨ Destroyed rt.loader.calls n := by
  by_cases hd : Destroyed rt.loader.calls n
  · exact Or.inr (Or.inr hd)
  obtain ⟨i, held, hi, rfl⟩ := h.safe.sequences.kept n hn hd
  have hheld : heldOf rt.active rt.quarantined i = some held := hi
  unfold heldOf at hheld
  rcases hq : rt.active i with _ | q <;> rw [hq] at hheld
  · obtain ⟨p, hp, rfl⟩ := Option.map_eq_some_iff.mp hheld
    exact Or.inr (Or.inl ⟨i, p, hp, rfl⟩)
  · cases hheld
    exact Or.inl ⟨i, q, hq, rfl⟩

end Reached

theorem Worker.run_exits : ∀ (inputs : List (WorkerInput Source)) {w : Worker σ τ}, w.Exits →
    (Worker.run b s inputs w).Exits
  | [], _, h => h
  | input :: inputs, _, h => run_exits inputs (Worker.step_exits b s input h)

/-- In every state of a run each backend call was permitted when it was made,
and every model and sequence the backend made is in the registry or was
released. A runtime that the worker dropped had released them all. -/
theorem release_order (loader : σ) (limits : RuntimeLimits) (output : TokenOutput GenerationOutputState)
    (eventBacklogCapacity : ℕ) (inputs : List (WorkerInput Source)) :
    let w : Worker σ τ := Worker.run b s inputs (Worker.start loader limits output eventBacklogCapacity)
    let calls := w.runtime.loader.calls
    Ordered calls ∧
    (∀ n < w.runtime.loader.models, (∃ m slot, w.runtime.models.get? m = some slot ∧ slot.model = n) ∨
      (∃ m p, w.runtime.pendingModels.get? m = some p ∧ p.model = n) ∨ Unloaded calls n) ∧
    (∀ n < w.runtime.loader.sequences, (∃ i q, w.runtime.active i = some q ∧ q.sequence.ref = n) ∨
      (∃ i p, w.runtime.quarantined i = some p ∧ p.sequence.ref = n) ∨ Destroyed calls n) ∧
    (w.location = .stopped .dropped → w.runtime.models = .empty ∧ w.runtime.pendingModels = .empty ∧
      (∀ n < w.runtime.loader.models, Unloaded calls n) ∧
      ∀ n < w.runtime.loader.sequences, Destroyed calls n) := by
  intro w calls
  have h : Reached w.runtime :=
    (Worker.run_accounted b s inputs (Worker.start_accounted loader limits output eventBacklogCapacity)).reached
  have hexits : w.Exits := Worker.run_exits b s inputs (.of_running rfl (by simp [Worker.start]))
  refine ⟨h.safe.ordered, fun n hn => h.model_kept hn, fun n hn => h.sequence_kept hn, fun hl => ?_⟩
  obtain ⟨hm, hp⟩ := owns_nothing.mp (hexits.dropped hl)
  refine ⟨hm, hp, fun n hn => ?_, fun n hn => ?_⟩
  · rcases h.model_kept hn with ⟨m, slot, hslot, -⟩ | ⟨m, p, hpend, -⟩ | hd
    · simp [hm] at hslot
    · simp [hp] at hpend
    · exact hd
  · rcases h.sequence_kept hn with ⟨i, q, hq, -⟩ | ⟨i, p, hpend, -⟩ | hd
    · simp [InferenceRuntime.active, OrdMap.nested, hm] at hq
    · simp [quarantined, OrdMap.nested, hm] at hpend
    · exact hd

end LlmApp
