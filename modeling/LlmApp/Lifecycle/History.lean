/-
# The history of a lifecycle

A run of lifecycle operations, recorded as events: the operation, the state
before it, its result and the state after it. `fail` is left out; the owner calls
it for a backend that cannot continue.

A load cycle is what was recorded since the last load began
(`LifecycleEvent.cycle`). `Recorded` ties the state to the cycle: how many
requests it counts, what was released and cancelled in it, which unload was
accepted. Every transition keeps it (`recorded_effect`), and what is promised of
each event follows (`lifecycle_protocol`).

Key definitions: `LifecycleEvent`, `Moves`, `Recorded`, `Protocol`.
Key theorems: `apply_cases`, `recorded_trace`, `lifecycle_protocol`.
-/
import LlmApp.Lifecycle

namespace LlmApp

/-! ### Operations and events -/

inductive LifecycleOperation where
  | beginLoad
  | completeLoad
  | clearFailure
  | startRequest
  | finishRequest
  | requestUnload (policy : UnloadPolicy) (now : MonotonicMillis)
  | poll (now : MonotonicMillis)
  | completeUnload
deriving DecidableEq, Repr

def LifecycleOperation.apply (l : ModelLifecycle) : LifecycleOperation → ModelLifecycle.Result
  | .beginLoad => l.beginLoad
  | .completeLoad => l.completeLoad
  | .clearFailure => l.clearFailure
  | .startRequest => l.startRequest
  | .finishRequest => l.finishRequest
  | .requestUnload policy now => l.requestUnload policy now
  | .poll now => l.poll now
  | .completeUnload => l.completeUnload

structure LifecycleEvent where
  operation : LifecycleOperation
  before : ModelLifecycleState
  result : Except LifecycleError LifecycleAction
  after : ModelLifecycleState

namespace LifecycleEvent

/-- The event of an operation. -/
def of (l : ModelLifecycle) (operation : LifecycleOperation) : LifecycleEvent :=
  ⟨operation, l.state, (operation.apply l).1, (operation.apply l).2.state⟩

/-- A successful `begin_load`. -/
def begins : LifecycleEvent → Bool
  | ⟨.beginLoad, _, .ok _, _⟩ => true
  | _ => false

/-- A successful `complete_load`. -/
def loads : LifecycleEvent → Bool
  | ⟨.completeLoad, _, .ok _, _⟩ => true
  | _ => false

/-- A successful `start_request`. -/
def starts : LifecycleEvent → Bool
  | ⟨.startRequest, _, .ok _, _⟩ => true
  | _ => false

/-- A successful `finish_request`. -/
def finishes : LifecycleEvent → Bool
  | ⟨.finishRequest, _, .ok _, _⟩ => true
  | _ => false

/-- An accepted unload. -/
def accepts : LifecycleEvent → Bool
  | ⟨.requestUnload .., _, .ok _, _⟩ => true
  | _ => false

def releases : LifecycleEvent → Bool
  | ⟨_, _, .ok .releaseModel, _⟩ => true
  | _ => false

def cancels : LifecycleEvent → Bool
  | ⟨_, _, .ok (.cancelActive _), _⟩ => true
  | _ => false

/-- An accepted unload that drains from `startedAt` on. -/
def Drains (window : DrainWindow) (e : LifecycleEvent) : Prop :=
  e.operation = .requestUnload (.drain window.timeout) window.startedAt ∧ e.accepts = true

/-- What was recorded since the last load began. -/
def cycle (trace : List LifecycleEvent) : List LifecycleEvent := trace.rtakeWhile fun e => !e.begins

/-- What was recorded since the last load was complete. -/
def sinceLoad (trace : List LifecycleEvent) : List LifecycleEvent := trace.rtakeWhile fun e => !e.loads

theorem cycle_concat (trace : List LifecycleEvent) (e : LifecycleEvent) :
    cycle (trace ++ [e]) = if e.begins = true then [] else cycle trace ++ [e] := by
  unfold cycle
  rw [List.rtakeWhile_concat]
  cases e.begins <;> rfl

theorem sinceLoad_concat (trace : List LifecycleEvent) (e : LifecycleEvent) :
    sinceLoad (trace ++ [e]) = if e.loads = true then [] else sinceLoad trace ++ [e] := by
  unfold sinceLoad
  rw [List.rtakeWhile_concat]
  cases e.loads <;> rfl

end LifecycleEvent

open LifecycleEvent

/-- The lifecycle after these operations. -/
def ModelLifecycle.after (operations : List LifecycleOperation) : ModelLifecycle :=
  operations.foldl (fun l operation => (operation.apply l).2) .new

/-- The events of these operations from `l` on. -/
def traceFrom : ModelLifecycle → List LifecycleOperation → List LifecycleEvent
  | _, [] => []
  | l, operation :: operations => .of l operation :: traceFrom (operation.apply l).2 operations

/-- The events of these operations. -/
def trace (operations : List LifecycleOperation) : List LifecycleEvent := traceFrom .new operations

theorem trace_concat (operations : List LifecycleOperation) (operation : LifecycleOperation) :
    trace (operations ++ [operation]) = trace operations ++ [.of (.after operations) operation] := by
  have hfrom : ∀ l : ModelLifecycle, traceFrom l (operations ++ [operation]) =
      traceFrom l operations ++ [.of (operations.foldl (fun l operation => (operation.apply l).2) l) operation] := by
    induction operations with
    | nil => exact fun l => rfl
    | cons first operations ih => exact fun l => congrArg _ (ih _)
  exact hfrom .new

theorem after_concat (operations : List LifecycleOperation) (operation : LifecycleOperation) :
    ModelLifecycle.after (operations ++ [operation]) = (operation.apply (.after operations)).2 := by
  rw [ModelLifecycle.after, List.foldl_concat]
  rfl

/-! ### Transitions -/

/-- The number of requests that a state counts. -/
def ModelLifecycleState.activeRequests : ModelLifecycleState → ℕ
  | .active n | .draining n _ | .cancelling n _ => n
  | _ => 0

/-- The states of a lifecycle that never failed. -/
def ModelLifecycleState.Proper (s : ModelLifecycleState) : Prop :=
  s = .absent ∨ s = .loading ∨ LifecycleMatches s s.activeRequests

/-- The operations that change the state, and the actions they ask for. -/
inductive Moves : ModelLifecycleState → LifecycleOperation → LifecycleAction → ModelLifecycleState → Prop
  | beginLoad : Moves .absent .beginLoad .none .loading
  | completeLoad : Moves .loading .completeLoad .none .ready
  | startFirst : Moves .ready .startRequest .none (.active 1)
  | startNext {n : ℕ} (h : 0 < n) : Moves (.active n) .startRequest .none (.active (n + 1))
  | finishLast : Moves (.active 1) .finishRequest .none .ready
  | finish {n : ℕ} (h : 0 < n) : Moves (.active (n + 1)) .finishRequest .none (.active n)
  | finishDraining {n : ℕ} {w : DrainWindow} (h : 0 < n) :
    Moves (.draining (n + 1) w) .finishRequest .none (.draining n w)
  | finishCancelling {n : ℕ} {r : CancellationReason} (h : 0 < n) :
    Moves (.cancelling (n + 1) r) .finishRequest .none (.cancelling n r)
  | drained {w : DrainWindow} : Moves (.draining 1 w) .finishRequest .releaseModel .unloading
  | cancelled {r : CancellationReason} : Moves (.cancelling 1 r) .finishRequest .releaseModel .unloading
  | release {policy : UnloadPolicy} {now : MonotonicMillis} :
    Moves .ready (.requestUnload policy now) .releaseModel .unloading
  | cancel {n : ℕ} {now : MonotonicMillis} (h : 0 < n) :
    Moves (.active n) (.requestUnload .cancelActive now) (.cancelActive .modelUnload) (.cancelling n .modelUnload)
  | drain {n : ℕ} {timeout : DrainTimeout} {now : MonotonicMillis} (h : 0 < n) :
    Moves (.active n) (.requestUnload (.drain timeout) now) .none (.draining n ⟨now, timeout⟩)
  | expire {n : ℕ} {w : DrainWindow} {now : MonotonicMillis} (h : 0 < n) (hexpired : w.hasExpired now = true) :
    Moves (.draining n w) (.poll now) (.cancelActive .drainTimeout) (.cancelling n .drainTimeout)
  | completeUnload : Moves .unloading .completeUnload .unloadComplete .absent

/-- The operations that succeed and change nothing: a poll, except of an expired
drain, and an unload of an absent model. -/
inductive Rests : ModelLifecycleState → LifecycleOperation → LifecycleAction → Prop
  | poll {s : ModelLifecycleState} {now : MonotonicMillis}
    (h : ∀ n w, s = .draining n w → w.hasExpired now = false) : Rests s (.poll now) .none
  | absent {policy : UnloadPolicy} {now : MonotonicMillis} : Rests .absent (.requestUnload policy now) .unloadComplete

/-- What an operation can do. -/
theorem apply_cases {l : ModelLifecycle} (h : l.state.Proper) (operation : LifecycleOperation) :
    (∃ e, (operation.apply l).1 = .error e ∧ (operation.apply l).2 = l) ∨
    (∃ a, (operation.apply l).1 = .ok a ∧ (operation.apply l).2 = l ∧ Rests l.state operation a) ∨
    ∃ a, (operation.apply l).1 = .ok a ∧ Moves l.state operation a (operation.apply l).2.state := by
  have hsplit : ∀ n : ℕ, 0 < n → n = 1 ∨ ∃ m, 0 < m ∧ n = m + 1 := by
    intro n hn
    by_cases h1 : n = 1
    · exact .inl h1
    · exact .inr ⟨n - 1, by omega, by omega⟩
  obtain ⟨s⟩ := l
  change s = .absent ∨ s = .loading ∨ LifecycleMatches s s.activeRequests at h
  obtain rfl | rfl | h := h
  · cases operation with
    | beginLoad => exact .inr (.inr ⟨_, rfl, .beginLoad⟩)
    | requestUnload policy now => exact .inr (.inl ⟨_, rfl, rfl, .absent⟩)
    | poll now => exact .inr (.inl ⟨_, rfl, rfl, .poll fun _ _ he => by cases he⟩)
    | _ => exact .inl ⟨_, rfl, rfl⟩
  · cases operation with
    | completeLoad => exact .inr (.inr ⟨_, rfl, .completeLoad⟩)
    | poll now => exact .inr (.inl ⟨_, rfl, rfl, .poll fun _ _ he => by cases he⟩)
    | _ => exact .inl ⟨_, rfl, rfl⟩
  · generalize s.activeRequests = n at h
    cases h with
    | ready =>
      cases operation with
      | startRequest => exact .inr (.inr ⟨_, rfl, .startFirst⟩)
      | requestUnload policy now => exact .inr (.inr ⟨_, rfl, .release⟩)
      | poll now => exact .inr (.inl ⟨_, rfl, rfl, .poll fun _ _ he => by cases he⟩)
      | _ => exact .inl ⟨_, rfl, rfl⟩
    | active hn =>
      cases operation with
      | startRequest =>
        by_cases hfits : n + 1 ≤ u32Max
        · refine .inr (.inr ⟨.none, ?_, ?_⟩)
          · simp [LifecycleOperation.apply, ModelLifecycle.startRequest, checkedAdd, hfits]
          · simp only [LifecycleOperation.apply, ModelLifecycle.startRequest, checkedAdd, if_pos hfits]
            exact .startNext hn
        · refine .inl ⟨.capacityExhausted ⟨.activeRequests, u32Max + 1, n⟩, ?_⟩
          simp [LifecycleOperation.apply, ModelLifecycle.startRequest, checkedAdd, hfits]
      | finishRequest =>
        obtain rfl | ⟨m, hm, rfl⟩ := hsplit n hn
        · exact .inr (.inr ⟨_, rfl, .finishLast⟩)
        · have hne : m + 1 ≠ 1 := by omega
          refine .inr (.inr ⟨.none, ?_, ?_⟩)
          · simp [LifecycleOperation.apply, ModelLifecycle.finishRequest, hm.ne']
          · simp only [LifecycleOperation.apply, ModelLifecycle.finishRequest, if_neg hne]
            exact .finish hm
      | requestUnload policy now =>
        cases policy with
        | rejectIfBusy => exact .inl ⟨_, rfl, rfl⟩
        | cancelActive => exact .inr (.inr ⟨_, rfl, .cancel hn⟩)
        | drain timeout => exact .inr (.inr ⟨_, rfl, .drain hn⟩)
      | poll now => exact .inr (.inl ⟨_, rfl, rfl, .poll fun _ _ he => by cases he⟩)
      | _ => exact .inl ⟨_, rfl, rfl⟩
    | @draining _ w hn =>
      cases operation with
      | finishRequest =>
        obtain rfl | ⟨m, hm, rfl⟩ := hsplit n hn
        · exact .inr (.inr ⟨_, rfl, .drained⟩)
        · have hne : m + 1 ≠ 1 := by omega
          refine .inr (.inr ⟨.none, ?_, ?_⟩)
          · simp [LifecycleOperation.apply, ModelLifecycle.finishRequest, hm.ne']
          · simp only [LifecycleOperation.apply, ModelLifecycle.finishRequest, if_neg hne]
            exact .finishDraining hm
      | poll now =>
        cases hexpired : w.hasExpired now with
        | true =>
          refine .inr (.inr ⟨.cancelActive .drainTimeout, ?_, ?_⟩)
          · simp [LifecycleOperation.apply, ModelLifecycle.poll, hexpired]
          · simp only [LifecycleOperation.apply, ModelLifecycle.poll, hexpired, if_true]
            exact .expire hn hexpired
        | false =>
          refine .inr (.inl ⟨.none, ?_, ?_, .poll ?_⟩)
          · simp [LifecycleOperation.apply, ModelLifecycle.poll, hexpired]
          · simp [LifecycleOperation.apply, ModelLifecycle.poll, hexpired]
          · rintro _ _ ⟨⟩
            exact hexpired
      | _ => exact .inl ⟨_, rfl, rfl⟩
    | cancelling hn =>
      cases operation with
      | finishRequest =>
        obtain rfl | ⟨m, hm, rfl⟩ := hsplit n hn
        · exact .inr (.inr ⟨_, rfl, .cancelled⟩)
        · have hne : m + 1 ≠ 1 := by omega
          refine .inr (.inr ⟨.none, ?_, ?_⟩)
          · simp [LifecycleOperation.apply, ModelLifecycle.finishRequest, hm.ne']
          · simp only [LifecycleOperation.apply, ModelLifecycle.finishRequest, if_neg hne]
            exact .finishCancelling hm
      | poll now => exact .inr (.inl ⟨_, rfl, rfl, .poll fun _ _ he => by cases he⟩)
      | _ => exact .inl ⟨_, rfl, rfl⟩
    | unloading =>
      cases operation with
      | completeUnload => exact .inr (.inr ⟨_, rfl, .completeUnload⟩)
      | _ => exact .inl ⟨_, rfl, rfl⟩

/-! ### What an event does -/

namespace ModelLifecycleState

/-- How many releases a load cycle can have seen. -/
def releasesSeen : ModelLifecycleState → ℕ
  | .unloading | .absent => 1
  | _ => 0

/-- How many cancellations a load cycle can have seen. -/
def cancelsSeen : ModelLifecycleState → ℕ
  | .cancelling .. | .unloading | .absent => 1
  | _ => 0

/-- No unload was accepted since the load began. -/
def admits : ModelLifecycleState → Bool
  | .loading | .ready | .active _ => true
  | _ => false

/-- A state after an accepted drain of this window, before any cancellation. -/
def Drained (w : DrainWindow) (s : ModelLifecycleState) : Prop :=
  (∃ n, s = .draining n w) ∨ s = .unloading ∨ s = .absent

end ModelLifecycleState

/-- What one event does, from the state before it to the state after it. -/
structure Effect (e : LifecycleEvent) : Prop where
  proper : e.after.Proper
  error : ∀ failure, e.result = .error failure → e.after = e.before
  finish : e.finishes = true → e.before.activeRequests = e.after.activeRequests + 1
  start : e.starts = true → e.before.serving = true
  release : e.releases = true ↔ e.before ≠ .unloading ∧ e.after = .unloading
  cancel : e.cancels = true → 0 < e.before.activeRequests ∧
    ((∃ now, e.operation = .requestUnload .cancelActive now ∧ e.result = .ok (.cancelActive .modelUnload)) ∨
      ∃ now n w, e.operation = .poll now ∧ e.before = .draining n w ∧ w.hasExpired now = true ∧
        e.result = .ok (.cancelActive .drainTimeout))
  begins : e.begins = true → e.after = .loading
  count : e.after.activeRequests + e.finishes.toNat = e.before.activeRequests + e.starts.toNat
  released : e.begins = false → e.before.releasesSeen + e.releases.toNat ≤ e.after.releasesSeen
  cancelled : e.begins = false → e.before.cancelsSeen + e.cancels.toNat ≤ e.after.cancelsSeen
  accepted : e.after.unloadAccepted = true → e.accepts = true ∨ e.before.unloadAccepted = true
  draining : ∀ n w, e.after = .draining n w → e.Drains w ∨ ∃ n', e.before = .draining n' w
  drains : ∀ w, e.Drains w → e.after.Drained w
  drained : ∀ w, e.before.Drained w → e.begins = true ∨ e.cancels = true ∨ e.after.Drained w
  admits : e.after.admits = true → e.begins = true ∨ (e.before.admits = true ∧ e.accepts = false)
  serving : e.after.serving = true → e.loads = true ∨ (e.before.serving = true ∧ e.accepts = false)

/-- An event that changes nothing. -/
theorem effect_unchanged {s : ModelLifecycleState} (h : s.Proper) {operation : LifecycleOperation}
    {result : Except LifecycleError LifecycleAction}
    (hresult : (∃ e, result = .error e) ∨ ∃ a, result = .ok a ∧ Rests s operation a) :
    Effect ⟨operation, s, result, s⟩ := by
  obtain ⟨hquiet, haccepts⟩ : (LifecycleEvent.begins ⟨operation, s, result, s⟩ = false ∧
      LifecycleEvent.starts ⟨operation, s, result, s⟩ = false ∧ LifecycleEvent.finishes ⟨operation, s, result, s⟩ = false ∧
      LifecycleEvent.releases ⟨operation, s, result, s⟩ = false ∧
      LifecycleEvent.cancels ⟨operation, s, result, s⟩ = false) ∧
      (LifecycleEvent.accepts ⟨operation, s, result, s⟩ = true → s = .absent) := by
    obtain ⟨e, rfl⟩ | ⟨a, rfl, hrests⟩ := hresult
    · cases operation <;> exact ⟨⟨rfl, rfl, rfl, rfl, rfl⟩, nofun⟩
    · cases hrests with
      | poll => exact ⟨⟨rfl, rfl, rfl, rfl, rfl⟩, nofun⟩
      | absent => exact ⟨⟨rfl, rfl, rfl, rfl, rfl⟩, fun _ => rfl⟩
  obtain ⟨hbegins, hstarts, hfinishes, hreleases, hcancels⟩ := hquiet
  have hdeclines : s ≠ .absent → LifecycleEvent.accepts ⟨operation, s, result, s⟩ = false := by
    intro hs
    rw [Bool.eq_false_iff]
    exact fun hacc => hs (haccepts hacc)
  constructor
  · exact h
  · exact fun _ _ => rfl
  · rw [hfinishes]
    nofun
  · rw [hstarts]
    nofun
  · rw [hreleases]
    exact iff_of_false nofun fun hs => hs.1 hs.2
  · rw [hcancels]
    nofun
  · rw [hbegins]
    nofun
  · rw [hstarts, hfinishes]
  · rw [hreleases]
    exact fun _ => le_rfl
  · rw [hcancels]
    exact fun _ => le_rfl
  · exact .inr
  · exact fun n w hs => .inr ⟨n, hs⟩
  · exact fun w hdrains => .inr (.inr (haccepts hdrains.2))
  · exact fun w hdrained => .inr (.inr hdrained)
  · refine fun hadmits => .inr ⟨hadmits, hdeclines ?_⟩
    rintro rfl
    cases hadmits
  · refine fun hserving => .inr ⟨hserving, hdeclines ?_⟩
    rintro rfl
    cases hserving

theorem Moves.proper {s s' : ModelLifecycleState} {operation : LifecycleOperation} {a : LifecycleAction}
    (h : Moves s operation a s') : s'.Proper := by
  cases h with
  | beginLoad => exact .inr (.inl rfl)
  | completeLoad => exact .inr (.inr .ready)
  | startFirst => exact .inr (.inr (.active Nat.one_pos))
  | startNext hn => exact .inr (.inr (.active (Nat.succ_pos _)))
  | finishLast => exact .inr (.inr .ready)
  | finish hn => exact .inr (.inr (.active hn))
  | finishDraining hn => exact .inr (.inr (.draining hn))
  | finishCancelling hn => exact .inr (.inr (.cancelling hn))
  | drained => exact .inr (.inr .unloading)
  | cancelled => exact .inr (.inr .unloading)
  | release => exact .inr (.inr .unloading)
  | cancel hn => exact .inr (.inr (.cancelling hn))
  | drain hn => exact .inr (.inr (.draining hn))
  | expire hn => exact .inr (.inr (.cancelling hn))
  | completeUnload => exact .inl rfl

/-- What each transition does. -/
theorem effect_moves {s s' : ModelLifecycleState} {operation : LifecycleOperation} {a : LifecycleAction}
    (h : Moves s operation a s') : Effect ⟨operation, s, .ok a, s'⟩ := by
  constructor
  · exact h.proper
  · nofun
  · cases h <;> simp [finishes, ModelLifecycleState.activeRequests]
  · cases h <;> simp [starts, ModelLifecycleState.serving]
  · cases h <;> simp [releases]
  · intro hcancels
    cases h with
    | cancel hn => exact ⟨hn, .inl ⟨_, rfl, rfl⟩⟩
    | expire hn hexpired => exact ⟨hn, .inr ⟨_, _, _, rfl, rfl, hexpired, rfl⟩⟩
    | _ => cases hcancels
  · cases h <;> simp [begins]
  · cases h <;> simp [ModelLifecycleState.activeRequests, finishes, starts]
  · cases h <;> simp [begins, ModelLifecycleState.releasesSeen, releases]
  · cases h <;> simp [begins, ModelLifecycleState.cancelsSeen, cancels]
  · cases h <;> simp [ModelLifecycleState.unloadAccepted, accepts]
  · cases h <;> simp [Drains, accepts]
  · intro w hdrains
    cases h with
    | release => exact .inr (.inl rfl)
    | drain hn =>
      obtain ⟨hw, -⟩ := hdrains
      cases hw
      exact .inl ⟨_, rfl⟩
    | _ => cases hdrains.1
  · cases h <;> simp [begins, cancels, ModelLifecycleState.Drained]
  · cases h <;> simp [ModelLifecycleState.admits, begins, accepts]
  · cases h <;> simp [ModelLifecycleState.serving, loads, accepts]

theorem effect_of {l : ModelLifecycle} (h : l.state.Proper) (operation : LifecycleOperation) : Effect (.of l operation) := by
  unfold LifecycleEvent.of
  obtain ⟨e, he, hl⟩ | ⟨a, ha, hl, hrests⟩ | ⟨a, ha, hmoves⟩ := apply_cases h operation
  · rw [he, hl]
    exact effect_unchanged h (.inl ⟨e, rfl⟩)
  · rw [ha, hl]
    exact effect_unchanged h (.inr ⟨a, rfl, hrests⟩)
  · rw [ha]
    exact effect_moves hmoves

/-! ### The state and the cycle -/

/-- What a state says of the events so far. -/
structure Recorded (trace : List LifecycleEvent) (s : ModelLifecycleState) : Prop where
  proper : s.Proper
  count : s.activeRequests + (cycle trace).countP finishes = (cycle trace).countP starts
  released : (cycle trace).countP releases ≤ s.releasesSeen
  cancelled : (cycle trace).countP cancels ≤ s.cancelsSeen
  accepted : s.unloadAccepted = true → ∃ e ∈ cycle trace, e.accepts = true
  draining : ∀ n w, s = .draining n w → ∃ e ∈ cycle trace, e.Drains w
  drains : ∀ e ∈ cycle trace, ∀ w, e.Drains w → 0 < (cycle trace).countP cancels ∨ s.Drained w
  admits : s.admits = true → ∀ e ∈ cycle trace, e.accepts = false
  serving : s.serving = true → ∀ e ∈ sinceLoad trace, e.accepts = false

theorem cycle_nil : cycle [] = [] := rfl

theorem recorded_new : Recorded [] ModelLifecycle.new.state where
  proper := .inl rfl
  count := by
    rw [cycle_nil, List.countP_nil, List.countP_nil]
    rfl
  released := by
    rw [cycle_nil, List.countP_nil]
    exact Nat.zero_le _
  cancelled := by
    rw [cycle_nil, List.countP_nil]
    exact Nat.zero_le _
  accepted h := nomatch h
  draining _ _ h := nomatch h
  drains e h := absurd h List.not_mem_nil
  admits h := nomatch h
  serving h := nomatch h

theorem countP_concat (p : LifecycleEvent → Bool) (l : List LifecycleEvent) (e : LifecycleEvent) :
    (l ++ [e]).countP p = l.countP p + (p e).toNat := by
  rw [List.countP_append, List.countP_singleton]
  cases p e <;> rfl

theorem recorded_effect {trace : List LifecycleEvent} {e : LifecycleEvent} (h : Recorded trace e.before) (he : Effect e) :
    Recorded (trace ++ [e]) e.after := by
  have hserving : e.after.serving = true → ∀ e' ∈ sinceLoad (trace ++ [e]), e'.accepts = false := by
    intro hs e' hmem
    rw [sinceLoad_concat] at hmem
    obtain hloads | ⟨hbefore, haccepts⟩ := he.serving hs
    · rw [if_pos hloads] at hmem
      exact absurd hmem List.not_mem_nil
    · split_ifs at hmem
      · exact absurd hmem List.not_mem_nil
      · obtain hmem | rfl := List.mem_append.mp hmem |>.imp_right List.mem_singleton.mp
        · exact h.serving hbefore e' hmem
        · exact haccepts
  cases hbegins : e.begins with
  | true =>
    have hnil : cycle (trace ++ [e]) = [] := by rw [cycle_concat, if_pos hbegins]
    have hafter := he.begins hbegins
    constructor
    · exact he.proper
    · rw [hnil, hafter, List.countP_nil, List.countP_nil]
      rfl
    · rw [hnil, List.countP_nil]
      exact Nat.zero_le _
    · rw [hnil, List.countP_nil]
      exact Nat.zero_le _
    · rw [hafter]
      exact fun h => nomatch h
    · rw [hafter]
      exact fun _ _ h => nomatch h
    · rw [hnil]
      exact fun _ h => absurd h List.not_mem_nil
    · rw [hnil]
      exact fun _ _ h => absurd h List.not_mem_nil
    · exact hserving
  | false =>
    have hcycle : cycle (trace ++ [e]) = cycle trace ++ [e] := by
      rw [cycle_concat, if_neg (by rw [hbegins]; exact Bool.false_ne_true)]
    have hin : ∀ {e' : LifecycleEvent}, e' ∈ cycle trace → e' ∈ cycle (trace ++ [e]) := by
      intro e' hmem
      rw [hcycle]
      exact List.mem_append_left _ hmem
    have hlast : e ∈ cycle (trace ++ [e]) := by
      rw [hcycle]
      exact List.mem_append_right _ (List.mem_singleton_self e)
    constructor
    · exact he.proper
    · have hcount := h.count
      have heffect := he.count
      rw [hcycle, countP_concat, countP_concat]
      omega
    · have hreleased := h.released
      have heffect := he.released hbegins
      rw [hcycle, countP_concat]
      omega
    · have hcancelled := h.cancelled
      have heffect := he.cancelled hbegins
      rw [hcycle, countP_concat]
      omega
    · intro haccepted
      obtain haccepts | hbefore := he.accepted haccepted
      · exact ⟨e, hlast, haccepts⟩
      · obtain ⟨e', hmem, haccepts⟩ := h.accepted hbefore
        exact ⟨e', hin hmem, haccepts⟩
    · intro n w hafter
      obtain hdrains | ⟨n', hbefore⟩ := he.draining n w hafter
      · exact ⟨e, hlast, hdrains⟩
      · obtain ⟨e', hmem, hdrains⟩ := h.draining n' w hbefore
        exact ⟨e', hin hmem, hdrains⟩
    · intro e' hmem w hdrains
      rw [hcycle, countP_concat]
      rw [hcycle] at hmem
      obtain hmem | rfl := List.mem_append.mp hmem |>.imp_right List.mem_singleton.mp
      · obtain hpos | hbefore := h.drains e' hmem w hdrains
        · exact .inl (Nat.add_pos_left hpos _)
        · obtain hb | hcancels | hafter := he.drained w hbefore
          · rw [hbegins] at hb
            cases hb
          · rw [hcancels]
            exact .inl (Nat.succ_pos _)
          · exact .inr hafter
      · exact .inr (he.drains w hdrains)
    · intro hadmits e' hmem
      obtain hb | ⟨hbefore, haccepts⟩ := he.admits hadmits
      · rw [hbegins] at hb
        cases hb
      · rw [hcycle] at hmem
        obtain hmem | rfl := List.mem_append.mp hmem |>.imp_right List.mem_singleton.mp
        · exact h.admits hbefore e' hmem
        · exact haccepts
    · exact hserving

/-- Every run keeps the record. -/
theorem recorded_trace (operations : List LifecycleOperation) :
    Recorded (trace operations) (ModelLifecycle.after operations).state := by
  induction operations using List.reverseRecOn with
  | nil => exact recorded_new
  | append_singleton operations operation ih =>
    rw [trace_concat, after_concat]
    exact recorded_effect ih (effect_of ih.proper operation)

/-! ### The protocol -/

theorem hasExpired_iff {w : DrainWindow} {now : MonotonicMillis} :
    w.hasExpired now = true ↔ w.startedAt + w.timeout.asMillis ≤ now := by
  have hpos := w.timeout.pos
  have hexpired : w.hasExpired now = true ↔ w.timeout.asMillis ≤ now - w.startedAt := decide_eq_true_iff
  constructor
  · intro h
    have hle := hexpired.mp h
    have hlt := Nat.lt_of_sub_pos (hpos.trans_le hle)
    exact Nat.add_le_of_le_sub' hlt.le hle
  · exact fun h => hexpired.mpr (Nat.le_sub_of_add_le' h)

/-- What is promised of an event, given those before it. -/
structure Protocol (past : List LifecycleEvent) (e : LifecycleEvent) : Prop where
  error_unchanged : ∀ failure, e.result = .error failure → e.after = e.before
  count : e.after.activeRequests + (cycle (past ++ [e])).countP finishes = (cycle (past ++ [e])).countP starts
  no_underflow : e.finishes = true → e.before.activeRequests = e.after.activeRequests + 1
  release_iff : e.releases = true ↔ e.before ≠ .unloading ∧ e.after = .unloading
  release_once : (cycle (past ++ [e])).countP releases ≤ 1
  release_idle : e.releases = true → e.after.activeRequests = 0 ∧ ∃ e' ∈ cycle (past ++ [e]), e'.accepts = true
  cancel_once : (cycle (past ++ [e])).countP cancels ≤ 1
  cancel_by : e.cancels = true → 0 < e.before.activeRequests ∧
    ((∃ now, e.operation = .requestUnload .cancelActive now ∧ e.result = .ok (.cancelActive .modelUnload)) ∨
      ∃ now w, e.operation = .poll now ∧ (∃ e' ∈ cycle past, e'.Drains w) ∧ w.startedAt + w.timeout.asMillis ≤ now ∧
        e.result = .ok (.cancelActive .drainTimeout))
  expired : ∀ now w, e.operation = .poll now → (∃ e' ∈ cycle past, e'.Drains w) → (cycle past).countP cancels = 0 →
    0 < e.before.activeRequests → w.startedAt + w.timeout.asMillis ≤ now → e.result = .ok (.cancelActive .drainTimeout)
  no_admission : e.starts = true → ∀ e' ∈ sinceLoad past, e'.accepts = false

/-- A lifecycle follows its protocol: after any operations, at any times and
under any policies, the next one does what is promised. -/
theorem lifecycle_protocol (operations : List LifecycleOperation) (operation : LifecycleOperation) :
    Protocol (trace operations) (.of (.after operations) operation) := by
  have hbefore := recorded_trace operations
  generalize ModelLifecycle.after operations = l at hbefore ⊢
  have heffect := effect_of hbefore.proper operation
  have hafter : Recorded (trace operations ++ [.of l operation]) (LifecycleEvent.of l operation).after :=
    recorded_effect hbefore heffect
  have hseen : ∀ s : ModelLifecycleState, s.releasesSeen ≤ 1 ∧ s.cancelsSeen ≤ 1 := by
    intro s
    cases s <;> exact ⟨Nat.le_of_ble_eq_true rfl, Nat.le_of_ble_eq_true rfl⟩
  constructor
  · exact heffect.error
  · exact hafter.count
  · exact heffect.finish
  · exact heffect.release
  · exact hafter.released.trans (hseen _).1
  · intro hreleases
    have hunloading := (heffect.release.mp hreleases).2
    refine ⟨by rw [hunloading]; rfl, hafter.accepted (by rw [hunloading]; rfl)⟩
  · exact hafter.cancelled.trans (hseen _).2
  · intro hcancels
    obtain ⟨hactive, hunload | ⟨now, n, w, hpoll, hdraining, hexpired, hresult⟩⟩ := heffect.cancel hcancels
    · exact ⟨hactive, .inl hunload⟩
    · exact ⟨hactive, .inr ⟨now, w, hpoll, hbefore.draining n w hdraining, hasExpired_iff.mp hexpired, hresult⟩⟩
  · intro now w hpoll ⟨e, hmem, hdrains⟩ hcancels hactive hexpired
    obtain hpos | ⟨n, hdraining⟩ | hdone := hbefore.drains e hmem w hdrains
    · omega
    · obtain rfl : operation = .poll now := hpoll
      show (l.poll now).1 = _
      rw [ModelLifecycle.poll_draining hdraining, if_pos (hasExpired_iff.mpr hexpired)]
    · have hzero : l.state.activeRequests = 0 := by
        obtain hs | hs := hdone <;> rw [hs] <;> rfl
      exact absurd hzero hactive.ne'
  · exact fun hstarts => hbefore.serving (heffect.start hstarts)

end LlmApp
