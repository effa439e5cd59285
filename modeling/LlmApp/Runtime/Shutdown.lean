/-
# What shutdown leaves behind

Shutdown makes a pass over the resident models, cancelling every request, and
then retries what is quarantined until no attempt is left. Both halves share
`release_model_with_primary` with the ordinary unload, and it answers a
release tried while a sibling sequence is still quarantined with
`InvalidTransition`, which ends shutdown at once.

`ModelSlot.Releasable` says, on the state before the call and the backend's
answers, that no such release is tried. `shutdown_complete` proves that
shutdown does what it promises exactly then.

Key definitions: `ModelSlot.heldBack`, `ModelSlot.Releasable`,
`ShutdownComplete`.
Key theorems: `cancelAllForShutdownLoop_outcome`, `shutdownModels_outcome`,
`exhaustCleanup_outcome`, `shutdown_complete`.
-/
import LlmApp.Runtime.Outcomes

namespace LlmApp

open InferenceRuntime

variable {σ Source : Type} (b : Backend σ Source)

/-! ### What a pass holds back -/

namespace ModelSlot

section HeldBack

variable (slot : ModelSlot)

/-- The sequence that quarantine holds for a request after the pass: one it
holds already, or an active one that the pass fails to destroy. -/
def heldBack (r : RequestId) : Option Held :=
  match slot.pendingSequences.get? r with
  | some p => some ⟨p.sequence.ref, p.attempts⟩
  | none =>
    match slot.requests.get? r with
    | none => none
    | some q =>
      match b.destroySequence q.sequence.ref 0 with
      | .ok () => none
      | .error _ => some ⟨q.sequence.ref, 1⟩

/-- If the pass destroys the last active sequence, it holds nothing back. -/
def LastAlone : Prop :=
  ∀ r q, slot.requests.get? r = some q → (∀ r' q', slot.requests.get? r' = some q' → r' ≤ r) →
    b.destroySequence q.sequence.ref 0 = .ok () → ∀ r', slot.heldBack b r' = none

/-- Of several sequences held back, none is destroyed by the retries left. -/
def RetriesAlone (maximumAttempts : ℕ) : Prop :=
  ∀ r r' h, r ≠ r' → slot.heldBack b r = some h → (slot.heldBack b r').isSome = true →
    ∀ n, h.attempts ≤ n → n < maximumAttempts → b.destroySequence h.ref n ≠ .ok ()

/-- No release of the model is tried while a sequence is held back. -/
structure Releasable (maximumAttempts : ℕ) : Prop where
  last : slot.LastAlone b
  retries : slot.RetriesAlone b maximumAttempts

end HeldBack

variable {b} {slot slot' : ModelSlot} {r : RequestId} {q : RequestSlot} {p : PendingSequence}

theorem heldBack_pending (hp : slot.pendingSequences.get? r = some p) :
    slot.heldBack b r = some ⟨p.sequence.ref, p.attempts⟩ := by simp [heldBack, hp]

theorem heldBack_none (hp : slot.pendingSequences.get? r = none) (hr : slot.requests.get? r = none) :
    slot.heldBack b r = none := by simp [heldBack, hp, hr]

theorem heldBack_congr (hr : slot'.requests = slot.requests)
    (hp : slot'.pendingSequences = slot.pendingSequences) (r : RequestId) :
    slot'.heldBack b r = slot.heldBack b r := by simp [heldBack, hr, hp]

/-- Destroying an active sequence changes nothing of what is held back. -/
theorem heldBack_destroy (hr : slot.requests.get? r = some q) (hpr : slot.pendingSequences.get? r = none)
    (hd : b.destroySequence q.sequence.ref 0 = .ok ()) (hreq : slot'.requests = slot.requests.erase r)
    (hpend : slot'.pendingSequences = slot.pendingSequences) (r' : RequestId) :
    slot'.heldBack b r' = slot.heldBack b r' := by
  by_cases he : r' = r
  · subst he
    rw [heldBack_none (by rw [hpend, hpr]) (by simp [hreq])]
    simp [heldBack, hpr, hr, hd]
  · simp [heldBack, hreq, hpend, he]

/-- Nor does moving one to quarantine that could not be destroyed. -/
theorem heldBack_quarantine (hr : slot.requests.get? r = some q)
    (hpr : slot.pendingSequences.get? r = none) {e : SequenceError}
    (hd : b.destroySequence q.sequence.ref 0 = .error e) (hs : p.sequence = q.sequence)
    (ha : p.attempts = 1) (hreq : slot'.requests = slot.requests.erase r)
    (hpend : slot'.pendingSequences = slot.pendingSequences.insert r p) (r' : RequestId) :
    slot'.heldBack b r' = slot.heldBack b r' := by
  by_cases he : r' = r
  · subst he
    rw [heldBack_pending (p := p) (by simp [hpend]), hs, ha]
    simp [heldBack, hpr, hr, hd]
  · simp [heldBack, hreq, hpend, he]

theorem lastAlone_of_isEmpty (h : slot.requests.isEmpty = true) : slot.LastAlone b := by
  intro r q hr
  rw [OrdMap.isEmpty_iff.mp h] at hr
  cases hr

/-- Taking out the first of several requests, or one that fails, keeps the
condition on the last one. -/
theorem lastAlone_erase (hr : slot.requests.get? r = some q)
    (hleast : ∀ r' q', slot.requests.get? r' = some q' → r ≤ r')
    (hreq : slot'.requests = slot.requests.erase r)
    (hheld : ∀ r', slot'.heldBack b r' = slot.heldBack b r')
    (hstays : slot'.requests.isEmpty = false ∨ b.destroySequence q.sequence.ref 0 ≠ .ok ()) :
    slot'.LastAlone b ↔ slot.LastAlone b := by
  constructor
  · intro h r₁ q₁ hr₁ hlast hd r'
    have hne : r₁ ≠ r := by
      rintro rfl
      rw [hr] at hr₁
      cases hr₁
      rcases hstays with hstays | hstays
      · obtain ⟨r₂, q₂, hr₂⟩ := OrdMap.isEmpty_eq_false_iff.mp hstays
        rw [hreq, OrdMap.get?_erase] at hr₂
        split_ifs at hr₂ with hne
        exact hne (le_antisymm (hlast r₂ q₂ hr₂) (hleast r₂ q₂ hr₂))
      · exact hstays hd
    rw [← hheld r']
    refine h r₁ q₁ (by simpa [hreq, hne] using hr₁) (fun r₂ q₂ hr₂ => ?_) hd r'
    rw [hreq] at hr₂
    exact hlast r₂ q₂ (OrdMap.get?_of_erase hr₂)
  · intro h r₁ q₁ hr₁ hlast hd r'
    rw [hreq] at hr₁
    have hr₁' := OrdMap.get?_of_erase hr₁
    rw [hheld r']
    refine h r₁ q₁ hr₁' (fun r₂ q₂ hr₂ => ?_) hd r'
    by_cases hne : r₂ = r
    · rw [hne]
      exact hleast r₁ q₁ hr₁'
    · exact hlast r₂ q₂ (by simpa [hreq, hne] using hr₂)

/-- A failed retry keeps the condition on the retries. -/
theorem retriesAlone_retry {k : ℕ} (hr : slot.pendingSequences.get? r = some p) {e : SequenceError}
    (hd : b.destroySequence p.sequence.ref p.attempts = .error e) (hreq : slot'.requests = slot.requests)
    (hpend : slot'.pendingSequences = slot.pendingSequences.insert r { p with attempts := p.attempts + 1 }) :
    slot'.RetriesAlone b k ↔ slot.RetriesAlone b k := by
  have hself : slot'.heldBack b r = some ⟨p.sequence.ref, p.attempts + 1⟩ :=
    heldBack_pending (p := { p with attempts := p.attempts + 1 }) (by simp [hpend])
  have hother : ∀ r', r' ≠ r → slot'.heldBack b r' = slot.heldBack b r' := by
    intro r' hne
    simp [heldBack, hreq, hpend, hne]
  have hold := heldBack_pending (b := b) hr
  have hsome : ∀ r', (slot'.heldBack b r').isSome = (slot.heldBack b r').isSome := by
    intro r'
    by_cases hne : r' = r
    · rw [hne, hself, hold]
      rfl
    · rw [hother r' hne]
  constructor
  · intro h r₁ r₂ held hne hheld hsome' n hn hk
    rw [← hsome r₂] at hsome'
    by_cases he : r₁ = r
    · subst he
      rw [hold] at hheld
      cases hheld
      rcases Nat.lt_or_ge p.attempts n with hlt | hge
      · exact h r₁ r₂ _ hne hself hsome' n hlt hk
      · rw [le_antisymm hge hn, hd]
        simp
    · exact h r₁ r₂ held hne (by rw [hother r₁ he, hheld]) hsome' n hn hk
  · intro h r₁ r₂ held hne hheld hsome' n hn hk
    rw [hsome r₂] at hsome'
    by_cases he : r₁ = r
    · subst he
      rw [hself] at hheld
      cases hheld
      exact h r₁ r₂ _ hne hold hsome' n (Nat.le_of_succ_le hn) hk
    · exact h r₁ r₂ held hne (by rw [← hother r₁ he, hheld]) hsome' n hn hk

end ModelSlot

/-! ### The pass over one model -/

/-- What is left of a slot by the pass: nothing, or what it holds back. -/
inductive Passed (b : Backend σ Source) (slot : ModelSlot) : Option ModelSlot → Prop
  | gone (h : ∀ r, slot.heldBack b r = none) : Passed b slot none
  | kept {slot' : ModelSlot} (hreq : slot'.requests.isEmpty = true)
      (hstate : slot'.lifecycle.state = .unloading)
      (hheld : ∀ r, slot'.heldBack b r = slot.heldBack b r) : Passed b slot (some slot')

theorem Passed.congr {slot slot' : ModelSlot} (h : ∀ r, slot'.heldBack b r = slot.heldBack b r)
    {left : Option ModelSlot} (hp : Passed b slot' left) : Passed b slot left := by
  cases hp with
  | gone hn => exact .gone fun r => (h r).symm.trans (hn r)
  | kept hreq hstate hheld => exact .kept hreq hstate fun r => (hheld r).trans (h r)

/-- Every model but `m` is as before. -/
def SameModels (m : ModelId) (rt rt' : InferenceRuntime σ) : Prop :=
  ∀ m', m' ≠ m → rt'.models.get? m' = rt.models.get? m'

theorem SameModels.trans {m : ModelId} {rt rt' rt'' : InferenceRuntime σ} (h : SameModels m rt rt')
    (h' : SameModels m rt' rt'') : SameModels m rt rt'' :=
  fun m' hne => (h' m' hne).trans (h m' hne)

/-- What removing the first request of a leaving model does to its slot: it
stays, holding back what it did; or it is gone; or the pass fails, because the
last request went while a sequence is held back. -/
inductive FirstRemoved (b : Backend σ Source) (m : ModelId) (slot : ModelSlot) (r : RequestId)
    (q : RequestSlot) : Answer σ Unit → Prop
  | stays {result : Except RuntimeError Unit} {rt' : InferenceRuntime σ} {slot' : ModelSlot}
      (hresult : ∀ e, result = .error e → e.isCleanup = true) (hm : rt'.models.get? m = some slot')
      (hreq : slot'.requests = slot.requests.erase r)
      (hunload : slot'.lifecycle.state.unloadAccepted = true)
      (hheld : ∀ r', slot'.heldBack b r' = slot.heldBack b r')
      (hstays : slot'.requests.isEmpty = false ∨ b.destroySequence q.sequence.ref 0 ≠ .ok ()) :
      FirstRemoved b m slot r q (result, rt')
  | gone {result : Except RuntimeError Unit} {rt' : InferenceRuntime σ}
      (hresult : ∀ e, result = .error e → e.isCleanup = true) (hm : rt'.models.get? m = none)
      (hreq : (slot.requests.erase r).isEmpty = true) (hheld : ∀ r', slot.heldBack b r' = none) :
      FirstRemoved b m slot r q (result, rt')
  | stranded {rt' : InferenceRuntime σ} (hd : b.destroySequence q.sequence.ref 0 = .ok ())
      (hreq : (slot.requests.erase r).isEmpty = true)
      (hheld : ∃ r', (slot.heldBack b r').isSome = true) :
      FirstRemoved b m slot r q (.error (.lifecycle .invalidTransition), rt')

section Pass

variable {rt : InferenceRuntime σ} {m : ModelId} {slot : ModelSlot} {r : RequestId} {q : RequestSlot}

theorem removeRequest_sameModels (h : Reached rt) (hm : rt.models.get? m = some slot)
    (hr : slot.requests.get? r = some q) (op : RuntimeOperation) (f : FailureClass) :
    SameModels m rt (rt.removeRequest b r op f).2 := by
  intro m' hne
  have hremoval := h.removal b hm hr op f
  generalize rt.removeRequest b r op f = answer at hremoval
  cases hremoval <;> simp [afterQuarantine, afterDestroy, afterRelease, afterReleaseFailure, hne]

theorem removeFirst (h : Reached rt) (hm : rt.models.get? m = some slot)
    (hr : slot.requests.get? r = some q) (hunload : slot.lifecycle.state.unloadAccepted = true)
    (op : RuntimeOperation) (f : FailureClass) :
    FirstRemoved b m slot r q (rt.removeRequest b r op f) := by
  have hi := h.consistent
  have hlife := (hi.slot hm).lifecycle
  have hpr := hi.not_quarantined hm hr
  have hfinish : (ModelLifecycle.finishState slot.lifecycle.state slot.requests.size).unloadAccepted =
      true := by rw [ModelLifecycle.finishState_unloadAccepted, hunload]
  have hremoval := h.removal b hm hr op f
  generalize rt.removeRequest b r op f = answer at hremoval
  -- Only the last request is destroyed with nothing left to remove.
  have hempty := Reached.ready_of_last hr hlife
  have hheld_of_empty : b.destroySequence q.sequence.ref 0 = .ok () →
      (slot.requests.erase r).isEmpty = true → ∀ r',
      slot.heldBack b r' = (slot.pendingSequences.get? r').map fun p => ⟨p.sequence.ref, p.attempts⟩ := by
    intro hd he r'
    have hnone := OrdMap.isEmpty_iff.mp he r'
    rcases hp : slot.pendingSequences.get? r' with _ | p
    · by_cases hne : r' = r
      · subst hne
        simp [ModelSlot.heldBack, hpr, hr, hd]
      · rw [OrdMap.get?_erase, if_neg hne] at hnone
        rw [ModelSlot.heldBack_none hp hnone]
        rfl
    · rw [ModelSlot.heldBack_pending hp]
      rfl
  cases hremoval with
  | quarantined hd =>
    refine .stays (fun e he => ?_) (OrdMap.get?_insert_self ..) rfl hfinish
      (ModelSlot.heldBack_quarantine hr hpr hd rfl rfl rfl rfl) (Or.inr (by simp [hd]))
    cases he
    exact cleanupRetentionError_isCleanup _
  | destroyed hd hstay =>
    refine .stays (fun e he => by cases he) (OrdMap.get?_insert_self ..) rfl hfinish
      (ModelSlot.heldBack_destroy hr hpr hd rfl rfl) (Or.inl ?_)
    by_contra hne
    rw [Bool.not_eq_false] at hne
    have hmatches := ModelLifecycle.finishState_matches hlife (OrdMap.size_pos hr)
    have hsize := OrdMap.size_erase hr
    have hzero : (slot.requests.erase r).size = 0 := OrdMap.size_eq_zero.mpr hne
    rw [show slot.requests.size - 1 = 0 by omega] at hmatches
    rcases hmatches.of_zero with hs | hs
    · rw [hs] at hfinish
      cases hfinish
    · exact hstay hs
  | stranded hd hlast hpend =>
    obtain ⟨r', p, hp⟩ := OrdMap.isEmpty_eq_false_iff.mp hpend
    exact .stranded hd (hempty hlast) ⟨r', by rw [ModelSlot.heldBack_pending hp]; rfl⟩
  | released hd hlast hpend hu =>
    refine .gone (fun e he => by cases he) (by simp [afterRelease]) (hempty hlast) fun r' => ?_
    rw [hheld_of_empty hd (hempty hlast), OrdMap.isEmpty_iff.mp hpend]
    rfl
  | retained hd hlast hpend hu =>
    refine .gone (fun e he => ?_) (by simp [afterReleaseFailure]) (hempty hlast) fun r' => ?_
    · cases he
      exact cleanupRetentionError_isCleanup _
    · rw [hheld_of_empty hd (hempty hlast), OrdMap.isEmpty_iff.mp hpend]
      rfl

/-- The requests of a leaving model are all removed, and the slot holds back
what it did, exactly if nothing is held back when its last one is destroyed. -/
theorem cancelAllForShutdownLoop_outcome (m : ModelId) : ∀ (fuel cancelled : ℕ)
    {rt : InferenceRuntime σ} {slot : ModelSlot}, Reached rt → rt.models.get? m = some slot →
      slot.lifecycle.state.unloadAccepted = true → slot.requests.size ≤ fuel →
      let answer := cancelAllForShutdownLoop b m fuel cancelled rt
      SameModels m rt answer.2 ∧
      (slot.LastAlone b → (∃ n, answer.1 = .ok n) ∧ Passed b slot (answer.2.models.get? m)) ∧
      (¬ slot.LastAlone b → answer.1 = .error (.lifecycle .invalidTransition)) := by
  have hdone : ∀ {rt : InferenceRuntime σ} {slot : ModelSlot}, Reached rt →
      rt.models.get? m = some slot → slot.lifecycle.state.unloadAccepted = true →
      slot.requests.isEmpty = true → slot.LastAlone b ∧ Passed b slot (rt.models.get? m) := by
    intro rt slot h hm hunload he
    have hlife := (h.consistent.slot hm).lifecycle
    rw [OrdMap.size_eq_zero.mpr he] at hlife
    have hstate : slot.lifecycle.state = .unloading := by
      rcases hlife.of_zero with hs | hs
      · rw [hs] at hunload
        cases hunload
      · exact hs
    exact ⟨ModelSlot.lastAlone_of_isEmpty he, hm ▸ .kept he hstate fun _ => rfl⟩
  intro fuel
  induction fuel with
  | zero =>
    intro cancelled rt slot h hm hunload hfuel answer
    obtain ⟨hlast, hpassed⟩ := hdone h hm hunload (OrdMap.size_eq_zero.mp (Nat.le_zero.mp hfuel))
    exact ⟨fun _ _ => rfl, fun _ => ⟨⟨_, rfl⟩, hpassed⟩, fun hn => absurd hlast hn⟩
  | succ fuel ih =>
    intro cancelled rt slot h hm hunload hfuel
    rw [cancelAllForShutdownLoop]
    rcases hfirst : slot.requests.first? with _ | ⟨r, q⟩
    · have he := OrdMap.first?_eq_none.mp hfirst
      obtain ⟨hlast, hpassed⟩ := hdone h hm hunload he
      have hnone : rt.firstRequest m = none := by simp [firstRequest, hm, hfirst]
      simp only [hnone]
      exact ⟨fun _ _ => rfl, fun _ => ⟨⟨_, rfl⟩, hpassed⟩, fun hn => absurd hlast hn⟩
    have hr := OrdMap.get?_of_first? hfirst
    have hsome : rt.firstRequest m = some r := by simp [firstRequest, hm, hfirst]
    have hsame := removeRequest_sameModels b h hm hr .shutdown .shutdown
    have hsteps := removeRequest_steps b h.consistent r .shutdown .shutdown
    have hremoved := removeFirst b h hm hr hunload .shutdown .shutdown
    have hsize := OrdMap.size_erase hr
    simp only [hsome]
    rcases hanswer : rt.removeRequest b r .shutdown .shutdown with ⟨result, rt'⟩
    rw [hanswer] at hsame hsteps hremoved
    have h' := h.steps hsteps
    cases hremoved with
    | stays hresult hm' hreq hunload' hheld hstays =>
      have hlast := ModelSlot.lastAlone_erase hr (fun _ _ => OrdMap.first?_le hfirst) hreq hheld hstays
      obtain ⟨hs, hok, herr⟩ := ih (saturatingAdd u32Max cancelled 1) h' hm' hunload'
        (by rw [hreq]; omega)
      rw [hlast] at hok herr
      cases result with
      | ok u => exact ⟨hsame.trans hs, fun hl => ⟨(hok hl).1, (hok hl).2.congr b hheld⟩, herr⟩
      | error e =>
        simp only [hresult e rfl, if_true]
        exact ⟨hsame.trans hs, fun hl => ⟨(hok hl).1, (hok hl).2.congr b hheld⟩, herr⟩
    | gone hresult hm' hreq hheld =>
      have hlast : slot.LastAlone b := fun _ _ _ _ _ => hheld
      have hnone : ∀ n, cancelAllForShutdownLoop b m fuel n rt' = (.ok n, rt') := by
        intro n
        cases fuel with
        | zero => rfl
        | succ fuel => simp [cancelAllForShutdownLoop, firstRequest, hm']
      have hpassed : Passed b slot (rt'.models.get? m) := hm' ▸ .gone hheld
      cases result with
      | ok u =>
        simp only [hnone]
        exact ⟨hsame, fun _ => ⟨⟨_, rfl⟩, hpassed⟩, fun hn => absurd hlast hn⟩
      | error e =>
        simp only [hresult e rfl, if_true, hnone]
        exact ⟨hsame, fun _ => ⟨⟨_, rfl⟩, hpassed⟩, fun hn => absurd hlast hn⟩
    | stranded hd hreq hheld =>
      have hlast : ¬ slot.LastAlone b := by
        intro hl
        obtain ⟨r', hr'⟩ := hheld
        have honly : ∀ r₁ q₁, slot.requests.get? r₁ = some q₁ → r₁ ≤ r := by
          intro r₁ q₁ hr₁
          have hnone := OrdMap.isEmpty_iff.mp hreq r₁
          rw [OrdMap.get?_erase] at hnone
          split_ifs at hnone with hne
          · exact hne.le
          · rw [hr₁] at hnone
            cases hnone
        rw [hl r q hr honly hd r'] at hr'
        cases hr'
      exact ⟨hsame, fun hl => absurd hl hlast, fun _ => rfl⟩

/-- The pass over one model: it succeeds exactly if nothing is held back when
the last request is destroyed, and then leaves only what it holds back. -/
theorem shutdownModel_outcome (h : Reached rt) (hm : rt.models.get? m = some slot) :
    let answer := rt.shutdownModel b m
    SameModels m rt answer.2 ∧
    (slot.LastAlone b → (∃ n, answer.1 = .ok n) ∧ Passed b slot (answer.2.models.get? m) ∧
      ∀ slot', answer.2.models.get? m = some slot' → slot'.pendingSequences.isEmpty = false) ∧
    (¬ slot.LastAlone b → answer.1 = .error (.lifecycle .invalidTransition)) := by
  intro answer
  have hi := h.consistent
  obtain ⟨lifecycle, hmatches, hunload, heq⟩ := shutdownUnload_ok hi hm
  have hstep : Transition .keep rt
      { rt with models := rt.models.insert m { slot with lifecycle := lifecycle } } :=
    .lifecycleChanged _ hm hmatches fun _ => hunload
  have h₁ := h.tail hstep
  have hheld : ∀ r, ModelSlot.heldBack b { slot with lifecycle := lifecycle } r = slot.heldBack b r :=
    ModelSlot.heldBack_congr rfl rfl
  have hlast : ModelSlot.LastAlone b { slot with lifecycle := lifecycle } ↔ slot.LastAlone b := by
    simp only [ModelSlot.LastAlone, hheld]
  obtain ⟨hsame, hok, herr⟩ := cancelAllForShutdownLoop_outcome b m (InferenceRuntime.requestCount
      { rt with models := rt.models.insert m { slot with lifecycle := lifecycle } } m) 0 h₁
    (OrdMap.get?_insert_self ..) hunload (by simp [requestCount])
  have hcancel := cancelAllRequestsForShutdown_steps b h₁.consistent m
  rw [hlast] at hok herr
  rw [cancelAllRequestsForShutdown] at hcancel
  have hsame₁ : SameModels m rt
      { rt with models := rt.models.insert m { slot with lifecycle := lifecycle } } := by
    intro m' hne
    simp [hne]
  simp only [answer, shutdownModel, hm, heq, cancelAllRequestsForShutdown]
  rcases hloop : cancelAllForShutdownLoop b m (InferenceRuntime.requestCount
      { rt with models := rt.models.insert m { slot with lifecycle := lifecycle } } m) 0
      { rt with models := rt.models.insert m { slot with lifecycle := lifecycle } } with ⟨result, rt'⟩
  rw [hloop] at hsame hok herr hcancel
  have hsame' := hsame₁.trans hsame
  cases result with
  | error e =>
    refine ⟨hsame', fun hl => ?_, herr⟩
    obtain ⟨⟨n, hn⟩, -⟩ := hok hl
    cases hn
  | ok n =>
    by_cases hl : slot.LastAlone b
    swap
    · have := herr hl
      cases this
    have hpassed := (hok hl).2.congr b hheld
    have h' := h₁.steps hcancel
    generalize hleft : rt'.models.get? m = left at hpassed
    cases hpassed with
    | gone hnone =>
      have hready : rt'.readyToRelease m = false := by simp [readyToRelease, hleft]
      simp only [hready, Bool.false_eq_true, if_false]
      exact ⟨hsame', fun _ => ⟨⟨_, rfl⟩, hleft ▸ .gone hnone, fun slot' hs => by rw [hleft] at hs; cases hs⟩,
        fun hn => absurd hl hn⟩
    | kept hreq hstate hkeep =>
      next slot' =>
      cases hpend : slot'.pendingSequences.isEmpty with
      | false =>
        have hready : rt'.readyToRelease m = false := by simp [readyToRelease, hleft, hpend]
        simp only [hready, Bool.false_eq_true, if_false]
        refine ⟨hsame', fun _ => ⟨⟨_, rfl⟩, hleft ▸ .kept hreq hstate hkeep, fun s hs => ?_⟩,
          fun hn => absurd hl hn⟩
        rw [hleft] at hs
        cases hs
        exact hpend
      | true =>
        have hready : rt'.readyToRelease m = true := by simp [readyToRelease, hleft, hpend, hreq, hstate]
        have hnone : ∀ r, slot.heldBack b r = none := by
          intro r
          rw [← hkeep r]
          exact ModelSlot.heldBack_none (OrdMap.isEmpty_iff.mp hpend r) (OrdMap.isEmpty_iff.mp hreq r)
        have hR : slot'.Ready := ⟨hreq, hpend, hstate⟩
        have hgone : ∀ {rt'' : InferenceRuntime σ}, rt''.models = rt'.models.erase m →
            SameModels m rt rt'' ∧ Passed b slot (rt''.models.get? m) ∧
              ∀ s, rt''.models.get? m = some s → s.pendingSequences.isEmpty = false := by
          intro rt'' hmodels
          have hn : rt''.models.get? m = none := by simp [hmodels]
          refine ⟨hsame'.trans fun m' hne => by simp [hmodels, hne], hn ▸ .gone hnone, fun s hs => ?_⟩
          rw [hn] at hs
          cases hs
        simp only [hready, if_true]
        rcases hu : (rt'.loader.prepareUnload b slot'.model).1 with e | ⟨⟩
        · rw [releaseModelWithPrimary_failed b h'.consistent hleft hR hu]
          obtain ⟨hs, hp⟩ := @hgone (rt'.afterReleaseFailure m slot'
            ⟨.shutdown, .shutdown, .modelUnload, .synchronization⟩
            (rt'.loader.prepareUnload b slot'.model).2) rfl
          simp only [cleanupRetentionError_isCleanup, if_true]
          exact ⟨hs, fun _ => ⟨⟨_, rfl⟩, hp⟩, fun hn => absurd hl hn⟩
        · obtain ⟨reserved, -, heq'⟩ :=
            releaseModelWithPrimary_ok b h'.consistent hleft hR hu .shutdown .shutdown
          obtain ⟨hs, hp⟩ := @hgone (rt'.afterRelease m
            (rt'.loader.prepareUnload b slot'.model).2 reserved) rfl
          rw [heq']
          exact ⟨hs, fun _ => ⟨⟨_, rfl⟩, hp⟩, fun hn => absurd hl hn⟩

end Pass

/-! ### The pass over all models -/

/-- The model waits for a sequence to be released. -/
structure ModelSlot.Waiting (slot : ModelSlot) : Prop where
  requests : slot.requests.isEmpty = true
  unloading : slot.lifecycle.state = .unloading
  pending : slot.pendingSequences.isEmpty = false

/-- The pass over one model left `left` of `before`. -/
structure PassedModel (before left : Option ModelSlot) : Prop where
  passed {slot : ModelSlot} (h : before = some slot) : Passed b slot left
  absent (h : before = none) : left = none
  pending {slot : ModelSlot} (h : left = some slot) : slot.pendingSequences.isEmpty = false

theorem PassedModel.waiting {before : Option ModelSlot} {slot' : ModelSlot}
    (h : PassedModel b before (some slot')) :
    slot'.Waiting ∧ ∃ slot, before = some slot ∧ ∀ r, slot'.heldBack b r = slot.heldBack b r := by
  rcases before with _ | slot
  · have := h.absent rfl
    cases this
  · have hp := h.passed rfl
    cases hp with
    | kept hreq hstate hheld => exact ⟨⟨hreq, hstate, h.pending rfl⟩, slot, rfl, hheld⟩

theorem shutdownModels_outcome : ∀ (ms : List ModelId) (cancelled : ℕ) {rt : InferenceRuntime σ},
    ms.Nodup → Reached rt →
    let answer := shutdownModels b ms cancelled rt
    ((∀ m ∈ ms, ∀ slot, rt.models.get? m = some slot → slot.LastAlone b) →
      (∃ n, answer.1 = .ok n) ∧
      (∀ m ∈ ms, PassedModel b (rt.models.get? m) (answer.2.models.get? m)) ∧
      ∀ m, m ∉ ms → answer.2.models.get? m = rt.models.get? m) ∧
    ((∃ m ∈ ms, ∃ slot, rt.models.get? m = some slot ∧ ¬ slot.LastAlone b) →
      answer.1 = .error (.lifecycle .invalidTransition))
  | [], cancelled, rt, _, _ => by
    refine ⟨fun _ => ⟨⟨cancelled, rfl⟩, fun _ hm => absurd hm List.not_mem_nil, fun _ _ => rfl⟩, ?_⟩
    rintro ⟨m, hm, -⟩
    cases hm
  | m :: ms, cancelled, rt, hnd, h => by
    intro answer
    obtain ⟨hmem, hnd⟩ := List.nodup_cons.mp hnd
    have hsteps := shutdownModel_steps b h.consistent m
    -- The pass over `m`, whether it is resident or not.
    have hone : SameModels m rt (rt.shutdownModel b m).2 ∧
        ((∀ slot, rt.models.get? m = some slot → slot.LastAlone b) →
          (∃ n, (rt.shutdownModel b m).1 = .ok n) ∧
          PassedModel b (rt.models.get? m) ((rt.shutdownModel b m).2.models.get? m)) ∧
        ((∃ slot, rt.models.get? m = some slot ∧ ¬ slot.LastAlone b) →
          (rt.shutdownModel b m).1 = .error (.lifecycle .invalidTransition)) := by
      rcases hm : rt.models.get? m with _ | slot
      · have heq : rt.shutdownModel b m = (.ok 0, rt) := by simp [shutdownModel, hm]
        rw [heq]
        refine ⟨fun _ _ => rfl, fun _ => ⟨⟨0, rfl⟩, fun hs => ?_, fun _ => hm, fun hs => ?_⟩, ?_⟩
        · cases hs
        · rw [hm] at hs
          cases hs
        · rintro ⟨slot, hs, -⟩
          cases hs
      · obtain ⟨hsame, hok, herr⟩ := shutdownModel_outcome b h hm
        refine ⟨hsame, fun hl => ?_, ?_⟩
        · obtain ⟨hn, hpassed, hpend⟩ := hok (hl slot rfl)
          refine ⟨hn, fun hs => ?_, fun hs => ?_, fun hs => hpend _ hs⟩
          · cases hs
            exact hpassed
          · cases hs
        · rintro ⟨slot', hs, hl⟩
          cases hs
          exact herr hl
    obtain ⟨hsame, hok, herr⟩ := hone
    simp only [answer, shutdownModels]
    rcases hanswer : rt.shutdownModel b m with ⟨result, rt'⟩
    rw [hanswer] at hsame hok herr hsteps
    cases result with
    | error e =>
      refine ⟨fun hl => ?_, fun hl => ?_⟩
      · obtain ⟨⟨n, hn⟩, -⟩ := hok (hl m List.mem_cons_self)
        cases hn
      · -- The pass over `m` fails only where its own condition does.
        by_contra hne
        have hall : ∀ slot, rt.models.get? m = some slot → slot.LastAlone b := by
          intro slot hm
          by_contra hn
          exact hne (herr ⟨slot, hm, hn⟩)
        obtain ⟨⟨n, hn⟩, -⟩ := hok hall
        cases hn
    | ok n =>
      have hm : ∀ slot, rt.models.get? m = some slot → slot.LastAlone b := by
        intro slot hm
        by_contra hn
        have := herr ⟨slot, hm, hn⟩
        cases this
      have hpassed := (hok hm).2
      have hrest : ∀ m' ∈ ms, rt'.models.get? m' = rt.models.get? m' := by
        intro m' hm'
        exact hsame m' fun he => hmem (he ▸ hm')
      obtain ⟨hoks, herrs⟩ := shutdownModels_outcome ms (saturatingAdd u32Max cancelled n) hnd (h.steps hsteps)
      refine ⟨fun hl => ?_, ?_⟩
      · obtain ⟨hn, hpasseds, hothers⟩ := hoks fun m' hm' slot hs =>
          hl m' (List.mem_cons_of_mem _ hm') slot (hrest m' hm' ▸ hs)
        refine ⟨hn, fun m' hm' => ?_, fun m' hm' => ?_⟩
        · rcases List.mem_cons.mp hm' with rfl | hm'
          · rw [hothers m' hmem]
            exact hpassed
          · rw [← hrest m' hm']
            exact hpasseds m' hm'
        · obtain ⟨hne, hm'⟩ := not_or.mp (mt List.mem_cons.mpr hm')
          rw [hothers m' hm', hsame m' hne]
      · rintro ⟨m', hm', slot, hs, hl⟩
        rcases List.mem_cons.mp hm' with rfl | hm'
        · exact absurd (hm slot hs) hl
        · exact herrs ⟨m', hm', slot, (hrest m' hm').trans hs, hl⟩

/-! ### The retries -/

/-- In no model two sequences are held back of which a retry destroys one. -/
def AllRetriesAlone (rt : InferenceRuntime σ) : Prop :=
  ∀ m slot, rt.models.get? m = some slot → slot.RetriesAlone b rt.maximumCleanupAttempts

/-- No quarantined resource has an attempt left. -/
structure Spent (rt : InferenceRuntime σ) : Prop where
  sequence {m : ModelId} {r : RequestId} {p : PendingSequence} (h : rt.quarantined (m, r) = some p) :
    p.attempts = rt.maximumCleanupAttempts
  model {m : ModelId} {p : PendingModel} (h : rt.pendingModels.get? m = some p) :
    p.attempts = rt.maximumCleanupAttempts

section Retries

variable {rt rt' : InferenceRuntime σ} {m : ModelId} {slot slot' : ModelSlot} {r : RequestId}
  {p : PendingSequence}

theorem allRetriesAlone_insert (hm : rt.models.get? m = some slot)
    (hmodels : rt'.models = rt.models.insert m slot') (hlimits : rt'.limits = rt.limits)
    (hs : slot'.RetriesAlone b rt.maximumCleanupAttempts ↔ slot.RetriesAlone b rt.maximumCleanupAttempts) :
    AllRetriesAlone b rt' ↔ AllRetriesAlone b rt := by
  have hk : rt'.maximumCleanupAttempts = rt.maximumCleanupAttempts := by
    rw [maximumCleanupAttempts, hlimits, maximumCleanupAttempts]
  constructor
  · intro h m' s hm'
    by_cases hne : m' = m
    · subst hne
      rw [hm] at hm'
      cases hm'
      exact hs.mp (hk ▸ h m' slot' (by simp [hmodels]))
    · exact hk ▸ h m' s (by simpa [hmodels, hne] using hm')
  · intro h m' s hm'
    rw [hmodels, OrdMap.get?_insert] at hm'
    rw [hk]
    split_ifs at hm' with hne
    · cases hm'
      exact hs.mpr (h m slot hm)
    · exact h m' s hm'

theorem allRetriesAlone_erase (hm : rt.models.get? m = some slot)
    (hmodels : rt'.models = rt.models.erase m) (hlimits : rt'.limits = rt.limits)
    (hs : slot.RetriesAlone b rt.maximumCleanupAttempts) :
    AllRetriesAlone b rt' ↔ AllRetriesAlone b rt := by
  have hk : rt'.maximumCleanupAttempts = rt.maximumCleanupAttempts := by
    rw [maximumCleanupAttempts, hlimits, maximumCleanupAttempts]
  constructor
  · intro h m' s hm'
    by_cases hne : m' = m
    · subst hne
      rw [hm] at hm'
      cases hm'
      exact hs
    · exact hk ▸ h m' s (by simpa [hmodels, hne] using hm')
  · intro h m' s hm'
    rw [hmodels] at hm'
    exact hk ▸ h m' s (OrdMap.get?_of_erase hm')

/-- A waiting model holds back what it has in quarantine. -/
theorem ModelSlot.Waiting.heldBack (h : slot.Waiting) (r : RequestId) :
    slot.heldBack b r = (slot.pendingSequences.get? r).map fun p => ⟨p.sequence.ref, p.attempts⟩ := by
  rcases hp : slot.pendingSequences.get? r with _ | p
  · exact ModelSlot.heldBack_none hp (OrdMap.isEmpty_iff.mp h.requests r)
  · exact ModelSlot.heldBack_pending hp

/-- One sequence is held back alone. -/
theorem ModelSlot.Waiting.retriesAlone (h : slot.Waiting)
    (hone : (slot.pendingSequences.erase r).isEmpty = true) (k : ℕ) : slot.RetriesAlone b k := by
  have honly : ∀ r', (slot.heldBack b r').isSome = true → r' = r := by
    intro r' hs
    by_contra hne
    have hnone := OrdMap.isEmpty_iff.mp hone r'
    rw [OrdMap.get?_erase, if_neg hne] at hnone
    rw [h.heldBack, hnone] at hs
    cases hs
  intro r₁ r₂ held hne h₁ h₂
  exact absurd ((honly r₁ (by rw [h₁]; rfl)).trans (honly r₂ h₂).symm) hne

/-- Each turn that retries something leaves fewer attempts. -/
theorem cleanupBudget_retry (hm : rt.models.get? m = some slot)
    (hr : slot.pendingSequences.get? r = some p) (ha : p.attempts < rt.maximumCleanupAttempts)
    (loader : BackendState σ) :
    (rt.afterRetryFailure m slot r p loader).cleanupBudget < rt.cleanupBudget := by
  have h₁ := OrdMap.total_replace (fun (_ : ModelId) (slot : ModelSlot) => rt.maximumCleanupAttempts +
    slot.pendingSequences.total fun _ pending => rt.maximumCleanupAttempts - pending.attempts) hm
    { slot with pendingSequences := slot.pendingSequences.insert r { p with attempts := p.attempts + 1 } }
  have h₂ := OrdMap.total_replace (fun (_ : RequestId) (pending : PendingSequence) =>
    rt.maximumCleanupAttempts - pending.attempts) hr { p with attempts := p.attempts + 1 }
  have hk : (rt.afterRetryFailure m slot r p loader).maximumCleanupAttempts = rt.maximumCleanupAttempts := rfl
  simp only [cleanupBudget, hk]
  simp only [afterRetryFailure] at h₁ h₂ ⊢
  omega

/-- A released model frees all of its attempts but the one it may have used. -/
theorem cleanupBudget_release (hm : rt.models.get? m = some slot)
    (hmodels : rt'.models = rt.models.erase m) (hlimits : rt'.limits = rt.limits)
    (hpending : rt'.pendingModels = rt.pendingModels ∨ ∃ p : PendingModel, p.attempts = 1 ∧
      rt.pendingModels.get? m = none ∧ rt'.pendingModels = rt.pendingModels.insert m p) :
    rt'.cleanupBudget < rt.cleanupBudget := by
  have hk : rt'.maximumCleanupAttempts = rt.maximumCleanupAttempts := by
    rw [maximumCleanupAttempts, hlimits, maximumCleanupAttempts]
  have hpos := rt.maximumCleanupAttempts_pos
  have h₁ := OrdMap.total_erase (fun (_ : ModelId) (slot : ModelSlot) => rt.maximumCleanupAttempts +
    slot.pendingSequences.total fun _ pending => rt.maximumCleanupAttempts - pending.attempts) hm
  rcases hpending with hp | ⟨p, ha, hnone, hp⟩
  · simp only [cleanupBudget, hk, hmodels, hp]
    omega
  · have h₂ := OrdMap.total_insert_of_none (fun (_ : ModelId) (pending : PendingModel) =>
      rt.maximumCleanupAttempts - pending.attempts) hnone p
    simp only [cleanupBudget, hk, hmodels, hp, h₂, ha]
    omega

theorem spent_of_idle (h : Reached rt) (hs : rt.retryableSequence = none) (hm : rt.retryableModel = none) :
    Spent rt where
  sequence hp := by
    obtain ⟨slot, hm, hr⟩ := OrdMap.nested_eq_some.mp hp
    exact le_antisymm ((h.consistent.slot hm).pending hr).2.2 (retryableSequence_none hs hm hr)
  model hp := le_antisymm (h.consistent.pendingModel hp).2 (retryableModel_none hm hp)

theorem spent_of_budget (h : Reached rt) (hb : rt.cleanupBudget = 0) : Spent rt where
  sequence hp := by
    obtain ⟨slot, hm, -⟩ := OrdMap.nested_eq_some.mp hp
    have hpos := rt.maximumCleanupAttempts_pos
    rw [cleanupBudget, OrdMap.total_erase _ hm] at hb
    omega
  model {m p} hp := by
    have hle := (h.consistent.pendingModel hp).2
    rw [cleanupBudget, OrdMap.total_erase (fun (_ : ModelId) (pending : PendingModel) =>
      rt.maximumCleanupAttempts - pending.attempts) hp] at hb
    omega

/-- Sequences that are spent are not retried. -/
theorem Spent.allRetriesAlone (h : Spent rt)
    (hwait : ∀ m slot, rt.models.get? m = some slot → slot.Waiting) : AllRetriesAlone b rt := by
  intro m slot hm r₁ r₂ held _ hheld _ n hn hk
  rw [(hwait m slot hm).heldBack, Option.map_eq_some_iff] at hheld
  obtain ⟨p, hp, rfl⟩ := hheld
  have := h.sequence (OrdMap.nested_of_get? hm hp)
  simp only at hn
  omega

theorem exhaustCleanup_continue {poll : CleanupPoll} (h : rt.pollCleanup b = (.ok poll, rt'))
    (hne : poll ≠ .idle) (fuel : ℕ) : exhaustCleanup b (fuel + 1) rt = exhaustCleanup b fuel rt' := by
  rw [exhaustCleanup, h]
  cases poll with
  | idle => exact absurd rfl hne
  | released | retryFailed | exhausted => rfl

theorem failedRetry_ne_idle (state : CleanupRetryState) : failedRetry state ≠ .idle := by
  unfold failedRetry
  split_ifs <;> simp

/-- The retries end with nothing left to retry, exactly if none destroys one
of several sequences a model waits for. -/
theorem exhaustCleanup_outcome : ∀ (fuel : ℕ) {rt : InferenceRuntime σ}, Reached rt →
    (∀ m slot, rt.models.get? m = some slot → slot.Waiting) → rt.cleanupBudget ≤ fuel →
    let answer := exhaustCleanup b fuel rt
    (AllRetriesAlone b rt → answer.1 = .ok () ∧
      (∀ m slot, answer.2.models.get? m = some slot → slot.Waiting) ∧ Spent answer.2) ∧
    (¬ AllRetriesAlone b rt → answer.1 = .error (.lifecycle .invalidTransition)) := by
  intro fuel
  induction fuel with
  | zero =>
    intro rt h hwait hfuel answer
    have hspent := spent_of_budget h (Nat.le_zero.mp hfuel)
    exact ⟨fun _ => ⟨rfl, hwait, hspent⟩, fun hn => absurd (hspent.allRetriesAlone b hwait) hn⟩
  | succ fuel ih =>
    intro rt h hwait hfuel
    have hsteps := pollCleanup_steps b h.consistent
    have hretry := h.retry b
    rcases hanswer : rt.pollCleanup b with ⟨result, rt'⟩
    rw [hanswer] at hretry hsteps
    have h' : Reached rt' := h.steps hsteps
    -- A turn that goes on has less to do, and asks for the same condition.
    have next : ∀ {poll : CleanupPoll}, result = .ok poll → poll ≠ .idle →
        (∀ m slot, rt'.models.get? m = some slot → slot.Waiting) →
        rt'.cleanupBudget < rt.cleanupBudget → (AllRetriesAlone b rt' ↔ AllRetriesAlone b rt) →
        let answer := exhaustCleanup b (fuel + 1) rt
        (AllRetriesAlone b rt → answer.1 = .ok () ∧
          (∀ m slot, answer.2.models.get? m = some slot → slot.Waiting) ∧ Spent answer.2) ∧
        (¬ AllRetriesAlone b rt → answer.1 = .error (.lifecycle .invalidTransition)) := by
      rintro poll rfl hne hwait' hbudget halone
      have hrest := ih h' hwait' (by omega)
      rw [halone] at hrest
      rw [exhaustCleanup_continue b hanswer hne]
      exact hrest
    have hinsert : ∀ {m : ModelId} {slot' : ModelSlot}, slot'.Waiting →
        ∀ m' s, (rt.models.insert m slot').get? m' = some s → s.Waiting := by
      intro m slot' hs m' s hm'
      rw [OrdMap.get?_insert] at hm'
      split_ifs at hm'
      · cases hm'
        exact hs
      · exact hwait m' s hm'
    have herase : ∀ {m : ModelId} {slot' : ModelSlot}, ∀ m' s,
        ((rt.models.insert m slot').erase m).get? m' = some s → s.Waiting := by
      intro m slot' m' s hm'
      rw [OrdMap.erase_insert] at hm'
      exact hwait m' s (OrdMap.get?_of_erase hm')
    cases hretry with
    | idle hs hm =>
      have hspent := spent_of_idle h hs hm
      rw [exhaustCleanup, hanswer]
      exact ⟨fun _ => ⟨rfl, hwait, hspent⟩, fun hn => absurd (hspent.allRetriesAlone b hwait) hn⟩
    | @sequenceFailed m slot r p e loader hm hr ha hd =>
      have hs := hwait m slot hm
      refine next rfl (failedRetry_ne_idle _) (hinsert ⟨hs.requests, hs.unloading, ?_⟩)
        (cleanupBudget_retry hm hr ha loader)
        (allRetriesAlone_insert b hm rfl rfl (ModelSlot.retriesAlone_retry hr hd rfl rfl))
      exact OrdMap.isEmpty_eq_false_iff.mpr ⟨r, _, OrdMap.get?_insert_self ..⟩
    | sequenceReleased hm hr ha hd hstate => exact absurd (hwait _ _ hm).unloading hstate
    | @stranded m slot r p loader slotReserved reserved hm hr ha hd hstate hpend =>
      have hn : ¬ AllRetriesAlone b rt := by
        intro hall
        obtain ⟨r', p', hr'⟩ := OrdMap.isEmpty_eq_false_iff.mp hpend
        rw [OrdMap.get?_erase] at hr'
        split_ifs at hr' with hne
        exact hall m slot hm r r' _ (Ne.symm hne) (ModelSlot.heldBack_pending hr)
          (by rw [ModelSlot.heldBack_pending hr']; rfl) p.attempts le_rfl ha hd
      rw [exhaustCleanup, hanswer]
      exact ⟨fun hall => absurd hall hn, fun _ => rfl⟩
    | @released m slot r p loader loader' slotReserved reserved reserved' hm hr ha hd hstate hpend hu =>
      have hmodels : ((rt.afterSequenceRelease m slot r p loader slotReserved reserved).afterRelease m
          loader' reserved').models = rt.models.erase m := OrdMap.erase_insert ..
      exact next rfl (by simp) herase (cleanupBudget_release hm hmodels rfl (Or.inl rfl))
        (allRetriesAlone_erase b hm hmodels rfl ((hwait m slot hm).retriesAlone b hpend _))
    | @retained m slot slot' r p e loader loader' slotReserved reserved report hm hr ha hd hstate hpend hu =>
      have hmodels : ((rt.afterSequenceRelease m slot r p loader slotReserved reserved).afterReleaseFailure m
          slot' report loader').models = rt.models.erase m := OrdMap.erase_insert ..
      exact next rfl (by simp) herase (cleanupBudget_release hm hmodels rfl
          (Or.inr ⟨_, rfl, h.consistent.resident hm, rfl⟩))
        (allRetriesAlone_erase b hm hmodels rfl ((hwait m slot hm).retriesAlone b hpend _))
    | @modelFailed m p e loader hp ha hu =>
      refine next rfl (failedRetry_ne_idle _) hwait ?_ Iff.rfl
      have h₁ := OrdMap.total_replace (fun (_ : ModelId) (pending : PendingModel) =>
        rt.maximumCleanupAttempts - pending.attempts) hp { p with attempts := p.attempts + 1 }
      have hk : InferenceRuntime.maximumCleanupAttempts { rt with
          loader := loader
          pendingModels := rt.pendingModels.insert m { p with attempts := p.attempts + 1 }
          lastCleanup := some (rt.modelRetried m p) } = rt.maximumCleanupAttempts := rfl
      simp only [cleanupBudget, hk] at h₁ ⊢
      omega
    | @modelReleased m p loader reserved hp ha hu =>
      refine next rfl (by simp) hwait ?_ Iff.rfl
      have h₁ := OrdMap.total_erase (fun (_ : ModelId) (pending : PendingModel) =>
        rt.maximumCleanupAttempts - pending.attempts) hp
      have hk : InferenceRuntime.maximumCleanupAttempts { rt with
          loader := loader
          pendingModels := rt.pendingModels.erase m
          lastCleanup := some (rt.modelRetried m p)
          reservedFootprint := reserved } = rt.maximumCleanupAttempts := rfl
      simp only [cleanupBudget, hk] at h₁ ⊢
      omega

end Retries

/-! ### Shutdown -/

/-- Shutdown did what it promises: it succeeded exactly if nothing is left in
the registry, failed otherwise with the cleanup that is left, cancelled every
request and used every attempt. -/
structure ShutdownComplete (answer : Answer σ ShutdownReceipt) : Prop where
  ok : (∃ receipt, answer.1 = .ok receipt) ↔
    (∀ m, answer.2.models.get? m = none) ∧ (∀ m r, answer.2.active (m, r) = none) ∧
      (∀ m r, answer.2.quarantined (m, r) = none) ∧ ∀ m, answer.2.pendingModels.get? m = none
  error : ∀ e, answer.1 = .error e → ∃ state, e = .cleanupRetryExhausted state
  active : ∀ m r, answer.2.active (m, r) = none
  spent : Spent answer.2

theorem firstPendingCleanupState_none {rt : InferenceRuntime σ} : rt.firstPendingCleanupState = none ↔
    (∀ m r, rt.quarantined (m, r) = none) ∧ ∀ m, rt.pendingModels.get? m = none := by
  simp only [firstPendingCleanupState, Option.or_eq_none_iff, List.findSome?_eq_none_iff,
    Option.map_eq_none_iff, OrdMap.first?_eq_none, OrdMap.isEmpty_iff]
  refine and_congr_left fun _ => ⟨fun h m r => ?_, fun h e he r => ?_⟩
  · rcases hm : rt.models.get? m with _ | slot
    · simp [quarantined, OrdMap.nested, hm]
    · simpa [quarantined, OrdMap.nested, hm] using h (m, slot) (OrdMap.get?_eq_some.mp hm) r
  · have := h e.1 r
    rwa [quarantined, OrdMap.nested, OrdMap.get?_eq_some.mpr he] at this

/-- The end of shutdown, when no attempt is left. -/
theorem shutdown_end {rt : InferenceRuntime σ} (h : Reached rt)
    (hwait : ∀ m slot, rt.models.get? m = some slot → slot.Waiting) (hspent : Spent rt)
    (receipt : ShutdownReceipt) :
    ShutdownComplete (match rt.firstPendingCleanupState with
      | some state => (.error (.cleanupRetryExhausted state), rt)
      | none =>
        if rt.models.isEmpty = false ∨ rt.activeRequests ≠ 0 then (.error .backendContractViolation, rt)
        else (.ok receipt, rt)) := by
  have hactive : ∀ m r, rt.active (m, r) = none := by
    intro m r
    rcases hm : rt.models.get? m with _ | slot
    · simp [InferenceRuntime.active, OrdMap.nested, hm]
    · simp [InferenceRuntime.active, OrdMap.nested, hm, OrdMap.isEmpty_iff.mp (hwait m slot hm).requests r]
  rcases hstate : rt.firstPendingCleanupState with _ | state
  · obtain ⟨hquarantined, hpending⟩ := firstPendingCleanupState_none.mp hstate
    have hmodels : ∀ m, rt.models.get? m = none := by
      intro m
      by_contra hne
      obtain ⟨slot, hm⟩ := Option.ne_none_iff_exists'.mp hne
      obtain ⟨r, p, hr⟩ := OrdMap.isEmpty_eq_false_iff.mp (hwait m slot hm).pending
      have hheld : rt.quarantined (m, r) = some p := OrdMap.nested_of_get? hm hr
      rw [hquarantined m r] at hheld
      cases hheld
    have hempty := OrdMap.isEmpty_iff.mpr hmodels
    have hcount : rt.activeRequests = 0 := by
      rw [h.consistent.activeRequests, OrdMap.eq_empty_of_isEmpty hempty]
      rfl
    simp only [hempty, hcount]
    refine ⟨⟨fun _ => ⟨hmodels, hactive, hquarantined, hpending⟩, fun _ => ⟨receipt, rfl⟩⟩, fun e he => ?_,
      hactive, hspent⟩
    cases he
  · refine ⟨⟨?_, fun hleft => ?_⟩, fun e he => ?_, hactive, hspent⟩
    · rintro ⟨receipt', heq⟩
      cases heq
    · rw [firstPendingCleanupState_none.mpr ⟨hleft.2.2.1, hleft.2.2.2⟩] at hstate
      cases hstate
    · cases he
      exact ⟨state, rfl⟩

/-- A shutdown that ends early breaks its promise. -/
theorem not_shutdownComplete {rt : InferenceRuntime σ} :
    ¬ ShutdownComplete (.error (.lifecycle .invalidTransition), rt) := by
  intro h
  obtain ⟨state, hs⟩ := h.error _ rfl
  cases hs

theorem Reached.shutdown_isOk {rt : InferenceRuntime σ} (h : Reached rt) :
    ShutdownComplete (rt.shutdown b) ↔
      ∀ m slot, rt.models.get? m = some slot → slot.Releasable b rt.maximumCleanupAttempts := by
  have hnoted : Steps rt { rt with shuttingDown := true } :=
    .noted rt rt.lastCleanup rt.maintenanceError true fun _ => rfl
  have h₀ := h.steps hnoted
  obtain ⟨hok, herr⟩ := shutdownModels_outcome b rt.models.keys 0 rt.models.nodup_keys h₀
  have hpass := shutdownModels_steps b rt.models.keys 0 h₀.consistent
  simp only [InferenceRuntime.shutdown]
  rcases hanswer : shutdownModels b rt.models.keys 0 { rt with shuttingDown := true } with ⟨result, rt₁⟩
  rw [hanswer] at hok herr hpass
  have h₁ : Reached rt₁ := h₀.steps hpass
  have hlimits : rt₁.maximumCleanupAttempts = rt.maximumCleanupAttempts := by
    rw [maximumCleanupAttempts, hpass.limits, maximumCleanupAttempts]
  by_cases hlast : ∀ m ∈ rt.models.keys, ∀ slot, rt.models.get? m = some slot → slot.LastAlone b
  swap
  · have hn : ∃ m ∈ rt.models.keys, ∃ slot, rt.models.get? m = some slot ∧ ¬ slot.LastAlone b := by
      simpa only [not_forall, exists_prop] using hlast
    have he : result = .error (.lifecycle .invalidTransition) := herr hn
    subst he
    refine ⟨fun hc => absurd hc not_shutdownComplete, fun hall => ?_⟩
    obtain ⟨m, -, slot, hm, hl⟩ := hn
    exact absurd (hall m slot hm).last hl
  obtain ⟨⟨n, hn⟩, hpassed, hothers⟩ := hok hlast
  have hn : result = .ok n := hn
  subst hn
  -- Every model is gone or waits for what it holds back.
  have hmodel : ∀ m, PassedModel b (rt.models.get? m) (rt₁.models.get? m) := by
    intro m
    by_cases hmem : m ∈ rt.models.keys
    · exact hpassed m hmem
    · have hnone : rt.models.get? m = none := by
        by_contra hne
        exact hmem (OrdMap.mem_keys.mpr (Option.ne_none_iff_exists'.mp hne))
      have hnone' : rt₁.models.get? m = none := (hothers m hmem).trans hnone
      refine ⟨fun hs => ?_, fun _ => hnone', fun hs => ?_⟩
      · rw [hnone] at hs
        cases hs
      · rw [hnone'] at hs
        cases hs
  have hwait : ∀ m slot, rt₁.models.get? m = some slot → slot.Waiting := fun m slot hm =>
    (PassedModel.waiting b (hm ▸ hmodel m)).1
  have hretries : AllRetriesAlone b rt₁ ↔
      ∀ m slot, rt.models.get? m = some slot → slot.RetriesAlone b rt.maximumCleanupAttempts := by
    constructor
    · intro hall m slot hm
      have hp := (hmodel m).passed hm
      generalize hleft : rt₁.models.get? m = left at hp
      cases hp with
      | gone hnone =>
        intro r r' held _ hheld
        rw [hnone r] at hheld
        cases hheld
      | kept _ _ hheld =>
        have := hall m _ hleft
        simpa only [ModelSlot.RetriesAlone, hheld, hlimits] using this
    · intro hall m slot' hm
      obtain ⟨-, slot, hs, hheld⟩ := PassedModel.waiting b (hm ▸ hmodel m)
      have := hall m slot hs
      simpa only [ModelSlot.RetriesAlone, hheld, hlimits] using this
  obtain ⟨hloop, hstop⟩ := exhaustCleanup_outcome b rt₁.cleanupBudget h₁ hwait le_rfl
  have hsteps := exhaustCleanup_steps b rt₁.cleanupBudget h₁.consistent
  dsimp only
  rcases hanswer' : exhaustCleanup b rt₁.cleanupBudget rt₁ with ⟨result', rt₂⟩
  rw [hanswer'] at hloop hstop hsteps
  by_cases halone : AllRetriesAlone b rt₁
  · obtain ⟨hres, hwait', hspent⟩ := hloop halone
    have hres : result' = .ok () := hres
    subst hres
    refine ⟨fun _ m slot hm => ⟨?_, hretries.mp halone m slot hm⟩, fun _ => ?_⟩
    · exact hlast m (OrdMap.mem_keys.mpr ⟨slot, hm⟩) slot hm
    · exact shutdown_end (h₁.steps hsteps) hwait' hspent _
  · have he : result' = .error (.lifecycle .invalidTransition) := hstop halone
    subst he
    exact ⟨fun hc => absurd hc not_shutdownComplete, fun hall =>
      absurd (hretries.mpr fun m slot hm => (hall m slot hm).retries) halone⟩

/-- In every state of a run: shutdown does what it promises exactly if no model
is released while a sibling of its last sequence is still quarantined. -/
theorem shutdown_complete (loader : σ) (limits : RuntimeLimits) (ops : List (Operation Source)) :
    let rt := Operation.applyAll b ops (InferenceRuntime.new loader limits)
    ShutdownComplete (rt.shutdown b) ↔
      ∀ m slot, rt.models.get? m = some slot →
        slot.Releasable b limits.cleanupRetry.maximumAttempts.get := by
  intro rt
  have h : Reached rt := Operation.applyAll_reached b ops (.new loader limits)
  have hk : rt.maximumCleanupAttempts = limits.cleanupRetry.maximumAttempts.get := by
    rw [maximumCleanupAttempts, applyAll_limits b ops (consistent_new loader limits)]
    rfl
  rw [h.shutdown_isOk b, hk]

/-- Two requests of one model, of which the first is not destroyed at its
first attempt: the second is, and ends shutdown with the model and the first
sequence still there and an attempt left. -/
theorem shutdown_stranded :
    let b := Backend.scripted ⟨1, 0, 2, 0, 0⟩ (fun s n => s = 1 || n = 1) (fun _ _ => true)
    let limits : RuntimeLimits := ⟨⟨1, by decide, by decide⟩, ⟨2, by decide, by decide⟩, ⟨100, 100⟩,
      ⟨⟨2, by decide, by decide⟩⟩⟩
    let configuration : SequenceConfiguration := ⟨⟨8, by decide, by decide⟩, ⟨8, by decide, by decide⟩⟩
    let rt := Operation.applyAll b [.loadModel 7 () 0 .cpu, .startRequest ⟨7, 1⟩ 1 1 configuration,
      .startRequest ⟨7, 1⟩ 2 2 configuration] (InferenceRuntime.new () limits)
    (rt.shutdown b).1 = .error (.lifecycle .invalidTransition) ∧
      ((rt.shutdown b).2.models.get? 7).map (fun slot => slot.pendingSequences.keys) = some [1] ∧
      ¬ ShutdownComplete (rt.shutdown b) := by
  intro b limits configuration rt
  have herr : (rt.shutdown b).1 = .error (.lifecycle .invalidTransition) := by decide +kernel
  refine ⟨herr, by decide +kernel, fun hc => ?_⟩
  obtain ⟨state, hs⟩ := hc.error _ herr
  cases hs

end LlmApp
