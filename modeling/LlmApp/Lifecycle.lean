/-
# The lifecycle of a loaded model

`ModelLifecycle`, the state machine a registry slot carries beside its model.
An operation returns its result and the lifecycle after it; an error leaves
the state alone.

`serving` and `unloading` split the states a resident model can be in: a
serving model admits requests, an unloading one has accepted an unload.
`LifecycleMatches n` says that the state counts `n` active requests.

Key definitions: `ModelLifecycle.startRequest`, `ModelLifecycle.finishRequest`,
`ModelLifecycle.requestUnload`, `ModelLifecycle.poll`, `LifecycleMatches`.
Key theorems: `startRequest_ok`, `finishRequest_ok`, `requestUnload_ok`,
`requestUnload_error`, `poll_draining`.
-/
import LlmApp.Contracts

namespace LlmApp

/-- A non-zero hard timeout on a drain. -/
@[ext] structure DrainTimeout where
  asMillis : ℕ
  pos : 0 < asMillis
deriving Repr

instance : DecidableEq DrainTimeout := fun _ _ => decidable_of_iff _ DrainTimeout.ext_iff.symm

structure DrainWindow where
  startedAt : MonotonicMillis
  timeout : DrainTimeout
deriving DecidableEq, Repr

/-- Whether the hard timeout has elapsed (`elapsed_since` saturates at 0). -/
def DrainWindow.hasExpired (w : DrainWindow) (now : MonotonicMillis) : Bool :=
  w.timeout.asMillis ≤ now - w.startedAt

inductive UnloadPolicy where
  | rejectIfBusy
  | cancelActive
  | drain (timeout : DrainTimeout)
deriving DecidableEq, Repr

inductive LifecycleFailurePhase where
  | loading | active | unloading
deriving DecidableEq, Repr

inductive ModelLifecycleState where
  | absent
  | loading
  | ready
  | active (activeRequests : ℕ)
  | draining (activeRequests : ℕ) (window : DrainWindow)
  | cancelling (activeRequests : ℕ) (reason : CancellationReason)
  | unloading
  | failed (phase : LifecycleFailurePhase) (failure : BackendFailure)
deriving DecidableEq, Repr

/-- What the runtime must do after a transition. -/
inductive LifecycleAction where
  | none
  | cancelActive (reason : CancellationReason)
  | releaseModel
  | unloadComplete
deriving DecidableEq, Repr

inductive LifecycleError where
  | invalidTransition
  | busy (activeRequests : ℕ)
  | zeroDrainTimeout
  | capacityExhausted (capacity : CapacityExhausted)
deriving DecidableEq, Repr

structure ModelLifecycle where
  state : ModelLifecycleState
deriving DecidableEq, Repr

namespace ModelLifecycle

/-- The result of a lifecycle operation, and the lifecycle after it. -/
abbrev Result := Except LifecycleError LifecycleAction × ModelLifecycle

def new : ModelLifecycle := ⟨.absent⟩

def beginLoad (l : ModelLifecycle) : Result :=
  if l.state ≠ .absent then (.error .invalidTransition, l) else (.ok .none, ⟨.loading⟩)

def completeLoad (l : ModelLifecycle) : Result :=
  if l.state ≠ .loading then (.error .invalidTransition, l) else (.ok .none, ⟨.ready⟩)

def fail (_ : ModelLifecycle) (phase : LifecycleFailurePhase) (failure : BackendFailure) :
    LifecycleAction × ModelLifecycle :=
  (.none, ⟨.failed phase failure⟩)

def clearFailure (l : ModelLifecycle) : Result :=
  match l.state with
  | .failed .. => (.ok .unloadComplete, ⟨.absent⟩)
  | _ => (.error .invalidTransition, l)

/-- Register one active request. -/
def startRequest (l : ModelLifecycle) : Result :=
  match l.state with
  | .ready => (.ok .none, ⟨.active 1⟩)
  | .active n =>
    match checkedAdd u32Max n 1 with
    | none => (.error (.capacityExhausted ⟨.activeRequests, u32Max + 1, n⟩), l)
    | some next => (.ok .none, ⟨.active next⟩)
  | _ => (.error .invalidTransition, l)

/-- Register the end of one active request. -/
def finishRequest (l : ModelLifecycle) : Result :=
  match l.state with
  | .active n => if n = 1 then (.ok .none, ⟨.ready⟩) else (.ok .none, ⟨.active (n - 1)⟩)
  | .draining n window =>
    if n = 1 then (.ok .releaseModel, ⟨.unloading⟩) else (.ok .none, ⟨.draining (n - 1) window⟩)
  | .cancelling n reason =>
    if n = 1 then (.ok .releaseModel, ⟨.unloading⟩) else (.ok .none, ⟨.cancelling (n - 1) reason⟩)
  | _ => (.error .invalidTransition, l)

def requestUnload (l : ModelLifecycle) (policy : UnloadPolicy) (now : MonotonicMillis) : Result :=
  match l.state with
  | .absent => (.ok .unloadComplete, l)
  | .ready => (.ok .releaseModel, ⟨.unloading⟩)
  | .active n =>
    match policy with
    | .rejectIfBusy => (.error (.busy n), l)
    | .cancelActive => (.ok (.cancelActive .modelUnload), ⟨.cancelling n .modelUnload⟩)
    | .drain timeout => (.ok .none, ⟨.draining n ⟨now, timeout⟩⟩)
  | .loading | .draining .. | .cancelling .. | .unloading | .failed .. =>
    (.error .invalidTransition, l)

/-- A drain whose window has expired turns into forced cancellation. -/
def poll (l : ModelLifecycle) (now : MonotonicMillis) : Result :=
  match l.state with
  | .draining n window =>
    if window.hasExpired now then (.ok (.cancelActive .drainTimeout), ⟨.cancelling n .drainTimeout⟩)
    else (.ok .none, l)
  | .ready | .active .. | .cancelling .. | .loading | .absent => (.ok .none, l)
  | .unloading | .failed .. => (.error .invalidTransition, l)

def completeUnload (l : ModelLifecycle) : Result :=
  if l.state ≠ .unloading then (.error .invalidTransition, l)
  else (.ok .unloadComplete, ⟨.absent⟩)

end ModelLifecycle

/-! ### What a resident model's state says -/

/-- The model admits requests. -/
def ModelLifecycleState.serving : ModelLifecycleState → Bool
  | .ready | .active _ => true
  | _ => false

/-- An unload of the model was accepted and its requests may still be active. -/
def ModelLifecycleState.leaving : ModelLifecycleState → Bool
  | .draining .. | .cancelling .. => true
  | _ => false

/-- An unload of the model was accepted. -/
def ModelLifecycleState.unloadAccepted : ModelLifecycleState → Bool
  | .draining .. | .cancelling .. | .unloading => true
  | _ => false

/-- The state counts `n` active requests. -/
inductive LifecycleMatches : ModelLifecycleState → ℕ → Prop
  | ready : LifecycleMatches .ready 0
  | active {n : ℕ} (h : 0 < n) : LifecycleMatches (.active n) n
  | draining {n : ℕ} {w : DrainWindow} (h : 0 < n) : LifecycleMatches (.draining n w) n
  | cancelling {n : ℕ} {r : CancellationReason} (h : 0 < n) : LifecycleMatches (.cancelling n r) n
  | unloading : LifecycleMatches .unloading 0

namespace LifecycleMatches

variable {s : ModelLifecycleState} {n : ℕ}

theorem of_pos (h : LifecycleMatches s n) (hn : 0 < n) :
    s = .active n ∨ (∃ w, s = .draining n w) ∨ ∃ r, s = .cancelling n r := by
  cases h with
  | ready => omega
  | active => exact Or.inl rfl
  | draining => exact Or.inr (Or.inl ⟨_, rfl⟩)
  | cancelling => exact Or.inr (Or.inr ⟨_, rfl⟩)
  | unloading => omega

theorem of_zero (h : LifecycleMatches s 0) : s = .ready ∨ s = .unloading := by
  cases h with
  | ready => exact Or.inl rfl
  | unloading => exact Or.inr rfl
  | active h => omega
  | draining h => omega
  | cancelling h => omega

end LifecycleMatches

/-! ### One lemma for each operation -/

namespace ModelLifecycle

variable {l : ModelLifecycle} {n : ℕ}

/-- A serving model below the counter's limit takes one more request. -/
theorem startRequest_ok (h : LifecycleMatches l.state n) (hs : l.state.serving = true)
    (hn : n < u32Max) : ∃ l', l.startRequest = (.ok .none, l') ∧ l'.state = .active (n + 1) := by
  obtain ⟨s⟩ := l
  simp only at h hs
  cases h with
  | ready => exact ⟨_, rfl, rfl⟩
  | active h =>
    have : n + 1 ≤ u32Max := hn
    exact ⟨_, by simp [startRequest, checkedAdd, this], rfl⟩
  | draining h => simp [ModelLifecycleState.serving] at hs
  | cancelling h => simp [ModelLifecycleState.serving] at hs
  | unloading => simp [ModelLifecycleState.serving] at hs

/-- The action `finishRequest` returns: the last request of a leaving model
asks for its release. -/
def finishAction (s : ModelLifecycleState) (n : ℕ) : LifecycleAction :=
  if s.leaving = true ∧ n = 1 then .releaseModel else .none

/-- The state after one of `n` requests ends. -/
def finishState (s : ModelLifecycleState) (n : ℕ) : ModelLifecycleState :=
  match s with
  | .active _ => if n = 1 then .ready else .active (n - 1)
  | .draining _ w => if n = 1 then .unloading else .draining (n - 1) w
  | .cancelling _ r => if n = 1 then .unloading else .cancelling (n - 1) r
  | s => s

theorem finishRequest_ok (h : LifecycleMatches l.state n) (hn : 0 < n) :
    l.finishRequest = (.ok (finishAction l.state n), ⟨finishState l.state n⟩) := by
  obtain ⟨s⟩ := l
  rcases h.of_pos hn with h | ⟨w, h⟩ | ⟨r, h⟩ <;> simp only at h <;> subst h <;>
    by_cases h1 : n = 1 <;>
    simp [finishRequest, finishAction, finishState, ModelLifecycleState.leaving, h1]

theorem finishState_matches {s : ModelLifecycleState} (h : LifecycleMatches s n) (hn : 0 < n) :
    LifecycleMatches (finishState s n) (n - 1) := by
  have hpos : n ≠ 1 → 0 < n - 1 := fun h1 => by omega
  rcases h.of_pos hn with rfl | ⟨w, rfl⟩ | ⟨r, rfl⟩ <;> by_cases h1 : n = 1
  · subst h1; exact .ready
  · simpa [finishState, h1] using LifecycleMatches.active (hpos h1)
  · subst h1; exact .unloading
  · simpa [finishState, h1] using LifecycleMatches.draining (hpos h1)
  · subst h1; exact .unloading
  · simpa [finishState, h1] using LifecycleMatches.cancelling (hpos h1)

@[simp] theorem finishState_unloadAccepted {s : ModelLifecycleState} :
    (finishState s n).unloadAccepted = s.unloadAccepted := by
  cases s <;> by_cases h : n = 1 <;> simp [finishState, h, ModelLifecycleState.unloadAccepted]

/-- A release is asked for exactly when the state becomes `unloading`. -/
theorem finishAction_release {s : ModelLifecycleState} (h : LifecycleMatches s n) (hn : 0 < n) :
    finishAction s n = .releaseModel ↔ finishState s n = .unloading := by
  rcases h.of_pos hn with rfl | ⟨w, rfl⟩ | ⟨r, rfl⟩ <;> by_cases h1 : n = 1 <;>
    simp [finishAction, finishState, ModelLifecycleState.leaving, h1]

/-- An accepted unload of a resident model: it becomes unloading, cancelling
or draining, by the policy. -/
theorem requestUnload_ok (h : LifecycleMatches l.state n) {policy : UnloadPolicy}
    {now : MonotonicMillis} {a : LifecycleAction} {l' : ModelLifecycle}
    (hr : l.requestUnload policy now = (.ok a, l')) :
    l.state.serving = true ∧ LifecycleMatches l'.state n ∧ l'.state.unloadAccepted = true ∧
      ((a = .releaseModel ∧ n = 0 ∧ l'.state = .unloading) ∨
       (a = .cancelActive .modelUnload ∧ policy = .cancelActive ∧
         l'.state = .cancelling n .modelUnload) ∨
       (a = .none ∧ ∃ t, policy = .drain t ∧ l'.state = .draining n ⟨now, t⟩)) := by
  obtain ⟨s⟩ := l
  simp only at h
  cases h with
  | ready =>
    simp only [requestUnload, Prod.mk.injEq, Except.ok.injEq] at hr
    obtain ⟨rfl, rfl⟩ := hr
    exact ⟨rfl, .unloading, rfl, Or.inl ⟨rfl, rfl, rfl⟩⟩
  | active h =>
    cases policy with
    | rejectIfBusy => simp [requestUnload] at hr
    | cancelActive =>
      simp only [requestUnload, Prod.mk.injEq, Except.ok.injEq] at hr
      obtain ⟨rfl, rfl⟩ := hr
      exact ⟨rfl, .cancelling h, rfl, Or.inr (Or.inl ⟨rfl, rfl, rfl⟩)⟩
    | drain t =>
      simp only [requestUnload, Prod.mk.injEq, Except.ok.injEq] at hr
      obtain ⟨rfl, rfl⟩ := hr
      exact ⟨rfl, .draining h, rfl, Or.inr (Or.inr ⟨rfl, t, rfl, rfl⟩)⟩
  | draining h => simp [requestUnload] at hr
  | cancelling h => simp [requestUnload] at hr
  | unloading => simp [requestUnload] at hr

/-- A rejected unload leaves the lifecycle alone. -/
theorem requestUnload_error {policy : UnloadPolicy} {now : MonotonicMillis} {e : LifecycleError}
    {l' : ModelLifecycle} (hr : l.requestUnload policy now = (.error e, l')) : l' = l := by
  obtain ⟨s⟩ := l
  cases s <;> cases policy <;> simp_all [requestUnload]

/-- Only the expiry of a drain changes the lifecycle of a polled model. -/
theorem poll_draining {m : ℕ} {w : DrainWindow} (h : l.state = .draining m w) (now : MonotonicMillis) :
    l.poll now = if w.hasExpired now then
      (.ok (.cancelActive .drainTimeout), ⟨.cancelling m .drainTimeout⟩) else (.ok .none, l) := by
  obtain ⟨s⟩ := l
  simp only at h
  subst h
  rfl

theorem completeUnload_ok (h : l.state = .unloading) :
    l.completeUnload = (.ok .unloadComplete, ⟨.absent⟩) := by
  simp [completeUnload, h]

end ModelLifecycle

end LlmApp
