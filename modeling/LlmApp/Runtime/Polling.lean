/-
# Turns of cleanup maintenance

A turn of `poll_cleanup` retries one quarantined resource, and behind a
successful retry prepares the unload of a model that waited for its last
sequence (`SequencePoll`). A turn that destroys a sequence of a leaving model
while a sibling of it is still quarantined asks for the release all the same,
and returns the refusal as its own error; every other turn returns `Ok`.

Key definitions: `SequencePoll`, `PollsWell`, `PollStrands`.
Key theorems: `Reached.retrySequence_poll`, `cleanup_polling`.
-/
import LlmApp.Runtime.Outcomes

namespace LlmApp

open InferenceRuntime

variable {σ Source : Type} (b : Backend σ Source)

/-! ### The calls of a turn -/

theorem BackendState.prepareUnload_calls (l : BackendState σ) (m : ModelRef) :
    (l.prepareUnload b m).2.calls = l.calls ++ [.prepareUnload m (l.prepareUnload b m).1.isOk] := rfl

/-- The call is a cleanup of a resource that is quarantined in `rt`. -/
def InferenceRuntime.Retries (rt : InferenceRuntime σ) (call : BackendCall) : Prop :=
  (∃ i p, rt.quarantined i = some p ∧ call.destroys p.sequence.ref = true) ∨
    ∃ m p, rt.pendingModels.get? m = some p ∧ call.unloads p.model = true

section Calls

variable {b} {rt rt' : InferenceRuntime σ} {m : ModelId} {slot : ModelSlot} {r : RequestId} {p : PendingSequence}

/-- The ways of the retry of a quarantined sequence, with what it returns, the
calls it makes and whether the model is resident after it. -/
inductive SequencePoll (b : Backend σ Source) (rt : InferenceRuntime σ) (m : ModelId) (slot : ModelSlot)
    (r : RequestId) (p : PendingSequence) (answer : Answer σ CleanupPoll) : Prop
  | failed {e : SequenceError} (hd : b.destroySequence p.sequence.ref p.attempts = .error e)
      (hok : ∃ poll, answer.1 = .ok poll)
      (hcalls : answer.2.loader.calls = rt.loader.calls ++ [.destroySequence slot.model p.sequence.ref false])
  | kept (hstate : slot.lifecycle.state ≠ .unloading) (hok : ∃ poll, answer.1 = .ok poll)
      (hcalls : answer.2.loader.calls = rt.loader.calls ++ [.destroySequence slot.model p.sequence.ref true])
  | stranded (hd : b.destroySequence p.sequence.ref p.attempts = .ok ())
      (hstate : slot.lifecycle.state = .unloading) (hlast : (slot.pendingSequences.erase r).isEmpty = false)
      (he : answer.1 = .error (.lifecycle .invalidTransition))
      (hcalls : answer.2.loader.calls = rt.loader.calls ++ [.destroySequence slot.model p.sequence.ref true])
      (hstays : answer.2.models.get? m ≠ none)
  | released {ok : Bool} (hstate : slot.lifecycle.state = .unloading)
      (hlast : (slot.pendingSequences.erase r).isEmpty = true) (hok : ∃ poll, answer.1 = .ok poll)
      (hcalls : answer.2.loader.calls = rt.loader.calls ++
        [.destroySequence slot.model p.sequence.ref true, .prepareUnload slot.model ok])
      (hgone : answer.2.models.get? m = none)

/-- The release of a model that is ready is one call, and the model is gone. -/
theorem releaseModelWithPrimary_ready (b : Backend σ Source) (hi : Consistent rt)
    (hm : rt.models.get? m = some slot) (hready : slot.Ready) (op : RuntimeOperation) (f : FailureClass) :
    let answer := rt.releaseModelWithPrimary b m op f
    (∀ e, answer.1 = .error e → e.isCleanup = true) ∧ answer.2.models.get? m = none ∧
      ∃ ok, answer.2.loader.calls = rt.loader.calls ++ [.prepareUnload slot.model ok] := by
  dsimp only
  have hl := BackendState.prepareUnload_calls b rt.loader slot.model
  rcases hu : (rt.loader.prepareUnload b slot.model).1 with e | ⟨⟩
  · rw [releaseModelWithPrimary_failed b hi hm hready hu]
    refine ⟨fun e he => ?_, by simp [afterReleaseFailure], _, hl⟩
    cases he
    exact cleanupRetentionError_isCleanup _
  · obtain ⟨reserved, -, heq⟩ := releaseModelWithPrimary_ok b hi hm hready hu op f
    rw [heq]
    refine ⟨fun e he => ?_, by simp [afterRelease], _, hl⟩
    cases he

theorem Reached.retrySequence_poll (b : Backend σ Source) (h : Reached rt) (hm : rt.models.get? m = some slot)
    (hr : slot.pendingSequences.get? r = some p) (ha : p.attempts < rt.maximumCleanupAttempts) :
    SequencePoll b rt m slot r p (rt.retrySequence b m r) := by
  have hi := h.consistent
  have hanswer := h.destroy_pending b hm hr
  rcases hd : (rt.loader.destroySequence b slot.model p.sequence.ref).1 with e | ⟨⟩
  · rw [retrySequence_failed b hm hr ha hd]
    exact .failed (hanswer ▸ hd) ⟨_, rfl⟩ (BackendState.destroySequence_advance b rt.loader (Prod.ext hd rfl)).calls
  have hl := (BackendState.destroySequence_advance b rt.loader (Prod.ext hd rfl)).calls
  obtain ⟨slotReserved, reserved, hslot, hres, heq⟩ := retrySequence_released b hi hm hr ha hd
  have hsteps := afterSequenceRelease_steps b hm hr ha hd hslot hres
  rw [heq]
  dsimp only
  by_cases hstate : slot.lifecycle.state = .unloading
  swap
  · rw [if_neg hstate]
    exact .kept hstate ⟨_, rfl⟩ hl
  rw [if_pos hstate]
  have hm' : (rt.afterSequenceRelease m slot r p (rt.loader.destroySequence b slot.model p.sequence.ref).2
      slotReserved reserved).models.get? m = some _ := OrdMap.get?_insert_self ..
  cases hlast : (slot.pendingSequences.erase r).isEmpty with
  | false =>
    rw [releaseModelWithPrimary_notReady b hm' fun hready =>
      Bool.false_ne_true (hlast.symm.trans hready.pendingSequences)]
    refine .stranded (hanswer ▸ hd) hstate hlast rfl hl fun hnone => ?_
    cases hm'.symm.trans hnone
  | true =>
    have hready := ModelSlot.ready_of_unloading (hi.slot hm) hstate hlast slotReserved
    obtain ⟨hcleanup, hgone, ok, hcalls⟩ := releaseModelWithPrimary_ready b (hsteps.consistent hi) hm' hready
      p.failure.primaryOperation p.failure.primaryFailure
    have hboth : _ = rt.loader.calls ++ [.destroySequence slot.model p.sequence.ref true, .prepareUnload slot.model ok] :=
      hcalls.trans ((congrArg (· ++ [BackendCall.prepareUnload slot.model ok]) hl).trans (List.append_assoc ..))
    generalize (rt.afterSequenceRelease m slot r p _ slotReserved reserved).releaseModelWithPrimary b m _ _ = answer
      at hcleanup hgone hboth ⊢
    obtain ⟨e | ⟨⟩, rt'⟩ := answer
    · dsimp only
      rw [if_pos (hcleanup e rfl)]
      exact .released hstate hlast ⟨_, rfl⟩ hboth hgone
    · exact .released hstate hlast ⟨_, rfl⟩ hboth hgone

/-- A resident model is not a quarantined resource. -/
theorem Reached.not_retries (h : Reached rt) (hm : rt.models.get? m = some slot) (ok : Bool) :
    ¬rt.Retries (.prepareUnload slot.model ok) := by
  rintro (⟨i, p, -, hp⟩ | ⟨m', p, hp, hmodel⟩)
  · cases hp
  have href : slot.model = p.model := by simpa [BackendCall.unloads] using hmodel
  have hresident := h.consistent.not_resident hp
  have hsame := h.safe.models.once (heldModel_resident hm) (heldModel_pending hresident hp) href
  rw [hsame, hresident] at hm
  cases hm

/-- Two quarantined sequences with one reference are one. -/
theorem Reached.quarantined_once (h : Reached rt) {m' : ModelId} {slot' : ModelSlot} {r' : RequestId}
    {p' : PendingSequence} (hm : rt.models.get? m = some slot) (hr : slot.pendingSequences.get? r = some p)
    (hm' : rt.models.get? m' = some slot') (hr' : slot'.pendingSequences.get? r' = some p')
    (href : p.sequence.ref = p'.sequence.ref) : m = m' ∧ r = r' := by
  have held : ∀ {m : ModelId} {slot : ModelSlot} {r : RequestId} {p : PendingSequence},
      rt.models.get? m = some slot → slot.pendingSequences.get? r = some p →
        rt.heldSequence (m, r) = some ⟨p.sequence.ref, p.attempts⟩ := fun hm hr =>
    heldOf_quarantined (not_active h.consistent hm hr) (OrdMap.nested_of_get? hm hr)
  simpa using h.safe.sequences.once (held hm hr) (held hm' hr') href

end Calls

/-! ### What a turn promises -/

/-- A turn of cleanup maintenance returns `Ok`; among its calls only the first
retries a quarantined resource; and where it destroys a quarantined sequence
of an unloading model, it releases the model, so that it is not resident any
more, exactly if no other sequence of it is quarantined. -/
structure PollsWell (rt : InferenceRuntime σ) (answer : Answer σ CleanupPoll) : Prop where
  ok : ∃ poll, answer.1 = .ok poll
  calls : ∃ new, answer.2.loader.calls = rt.loader.calls ++ new ∧ (∀ call ∈ new.tail, ¬rt.Retries call) ∧
    ∀ m slot r p, rt.models.get? m = some slot → slot.pendingSequences.get? r = some p →
      slot.lifecycle.state = .unloading → .destroySequence slot.model p.sequence.ref true ∈ new →
        ((∃ ok, .prepareUnload slot.model ok ∈ new) ↔ (slot.pendingSequences.erase r).isEmpty = true) ∧
        (answer.2.models.get? m = none ↔ (slot.pendingSequences.erase r).isEmpty = true)

/-- The turn destroys a quarantined sequence of an unloading model that holds
another one. -/
def PollStrands (rt : InferenceRuntime σ) : Prop :=
  ∃ m r slot p, rt.retryableSequence = some (m, r) ∧ rt.models.get? m = some slot ∧
    slot.pendingSequences.get? r = some p ∧ slot.lifecycle.state = .unloading ∧
    (slot.pendingSequences.erase r).isEmpty = false ∧ b.destroySequence p.sequence.ref p.attempts = .ok ()

variable {rt : InferenceRuntime σ}

theorem SequencePoll.pollsWell {m : ModelId} {slot : ModelSlot} {r : RequestId} {p : PendingSequence}
    {answer : Answer σ CleanupPoll} (h : Reached rt) (hm : rt.models.get? m = some slot)
    (hr : slot.pendingSequences.get? r = some p) (hpoll : SequencePoll b rt m slot r p answer)
    (hok : ∃ poll, answer.1 = .ok poll) : PollsWell rt answer := by
  -- The sequence that was destroyed is the one the turn picked.
  have hsame : ∀ m' slot' r' p', rt.models.get? m' = some slot' → slot'.pendingSequences.get? r' = some p' →
      p'.sequence.ref = p.sequence.ref → m' = m ∧ slot' = slot ∧ r' = r := by
    intro m' slot' r' p' hm' hr' href
    obtain ⟨rfl, rfl⟩ := h.quarantined_once hm' hr' hm hr href
    rw [hm] at hm'
    cases hm'
    exact ⟨rfl, rfl, rfl⟩
  refine ⟨hok, ?_⟩
  cases hpoll with
  | failed _ _ hcalls =>
    refine ⟨_, hcalls, by simp, fun m' slot' r' p' hm' hr' _ hmem => ?_⟩
    simp at hmem
  | kept hstate _ hcalls =>
    refine ⟨_, hcalls, by simp, fun m' slot' r' p' hm' hr' hstate' hmem => ?_⟩
    have href : p'.sequence.ref = p.sequence.ref := by
      simp only [List.mem_singleton, BackendCall.destroySequence.injEq] at hmem
      exact hmem.2.1
    obtain ⟨-, rfl, -⟩ := hsame m' slot' r' p' hm' hr' href
    exact absurd hstate' hstate
  | stranded _ _ _ he =>
    obtain ⟨poll, hpoll⟩ := hok
    cases he.symm.trans hpoll
  | released _ hlast _ hcalls hgone =>
    refine ⟨_, hcalls, ?_, fun m' slot' r' p' hm' hr' _ hmem => ?_⟩
    · simp only [List.tail_cons, List.mem_singleton, forall_eq]
      exact h.not_retries hm _
    have href : p'.sequence.ref = p.sequence.ref := by
      simp only [List.mem_cons, BackendCall.destroySequence.injEq, reduceCtorEq, List.not_mem_nil, or_false] at hmem
      exact hmem.2.1
    obtain ⟨rfl, rfl, rfl⟩ := hsame m' slot' r' p' hm' hr' href
    exact ⟨iff_of_true ⟨_, List.mem_cons_of_mem _ (List.mem_singleton_self _)⟩ hlast, iff_of_true hgone hlast⟩

theorem pollsWell_of_unload {answer : Answer σ CleanupPoll} {n : ModelRef} {ok : Bool}
    (hok : ∃ poll, answer.1 = .ok poll)
    (hcalls : answer.2.loader.calls = rt.loader.calls ++ [.prepareUnload n ok]) : PollsWell rt answer := by
  refine ⟨hok, _, hcalls, nofun, fun _ _ _ _ _ _ _ hmem => ?_⟩
  cases List.mem_singleton.mp hmem

theorem Reached.retryModel_pollsWell (h : Reached rt) {m : ModelId} {p : PendingModel}
    (hp : rt.pendingModels.get? m = some p) (ha : p.attempts < rt.maximumCleanupAttempts) :
    PollsWell rt (rt.retryModel b m) := by
  have hl := BackendState.prepareUnload_calls b rt.loader p.model
  rcases hu : (rt.loader.prepareUnload b p.model).1 with e | ⟨⟩
  · rw [retryModel_failed b hp ha hu]
    exact pollsWell_of_unload ⟨_, rfl⟩ hl
  · obtain ⟨reserved, -, heq⟩ := retryModel_released b h.consistent hp ha hu
    rw [heq]
    exact pollsWell_of_unload ⟨_, rfl⟩ hl

/-- In every reached state a turn does what it promises, except where it
strands a sibling of the sequence it destroyed. -/
theorem Reached.pollsWell_iff (h : Reached rt) : PollsWell rt (rt.pollCleanup b) ↔ ¬PollStrands b rt := by
  unfold pollCleanup
  rcases hs : rt.retryableSequence with _ | ⟨m, r⟩
  · have hnot : ¬PollStrands b rt := by
      rintro ⟨m, r, slot, p, hpick, -⟩
      cases hs.symm.trans hpick
    refine iff_of_true ?_ hnot
    dsimp only
    rcases hmodel : rt.retryableModel with _ | m
    · refine ⟨⟨_, rfl⟩, [], (List.append_nil _).symm, fun _ hmem => ?_, fun _ _ _ _ _ _ _ hmem => ?_⟩ <;>
        cases hmem
    · obtain ⟨p, hp, ha⟩ := retryableModel_some hmodel
      exact h.retryModel_pollsWell b hp ha
  obtain ⟨slot, p, hm, hr, ha⟩ := retryableSequence_some hs
  have hpoll := h.retrySequence_poll b hm hr ha
  dsimp only
  constructor
  · rintro ⟨⟨poll, hok⟩, -⟩ ⟨m', r', slot', p', hpick, hm', hr', hstate, hlast, hd⟩
    cases hs.symm.trans hpick
    rw [hm] at hm'
    cases hm'
    rw [hr] at hr'
    cases hr'
    cases hpoll with
    | failed hd' => cases hd.symm.trans hd'
    | kept hstate' => exact hstate' hstate
    | stranded _ _ _ he => cases he.symm.trans hok
    | released _ hlast' => exact Bool.false_ne_true (hlast.symm.trans hlast')
  · intro hnot
    have hok : ∃ poll, (rt.retrySequence b m r).1 = .ok poll := by
      cases hpoll with
      | failed _ hok => exact hok
      | kept _ hok => exact hok
      | stranded hd hstate hlast => exact absurd ⟨m, r, slot, p, hs, hm, hr, hstate, hlast, hd⟩ hnot
      | released _ _ hok => exact hok
    exact hpoll.pollsWell b h hm hr hok

/-- In every state of a run: a turn of cleanup maintenance returns `Ok`, retries
one quarantined resource at most and releases a model exactly when it is due,
unless it destroys a quarantined sequence of an unloading model that holds
another one, and exactly then not. -/
theorem cleanup_polling (loader : σ) (limits : RuntimeLimits) (ops : List (Operation Source)) :
    let rt := Operation.applyAll b ops (InferenceRuntime.new loader limits)
    PollsWell rt (rt.pollCleanup b) ↔ ¬PollStrands b rt := by
  intro rt
  have h : Reached rt := Operation.applyAll_reached b ops (.new loader limits)
  exact h.pollsWell_iff b

/-- Two sequences of one model fail their first destruction and are
quarantined; the unload waits for them. The turn that destroys the first
returns an error, and so does not promise well. -/
theorem cleanup_polling_strands :
    let b := Backend.scripted ⟨1, 0, 2, 0, 0⟩ (fun _ n => n = 1) (fun _ _ => true)
    let limits : RuntimeLimits := ⟨⟨1, by decide, by decide⟩, ⟨2, by decide, by decide⟩, ⟨100, 100⟩,
      ⟨⟨3, by decide, by decide⟩⟩⟩
    let configuration : SequenceConfiguration := ⟨⟨8, by decide, by decide⟩, ⟨8, by decide, by decide⟩⟩
    let rt := Operation.applyAll b [.loadModel 7 () 0 .cpu, .startRequest ⟨7, 1⟩ 1 1 configuration,
      .startRequest ⟨7, 1⟩ 2 2 configuration, .cancelRequest 1 .userRequested, .cancelRequest 2 .userRequested,
      .unloadModel ⟨7, 1⟩ .cancelActive 0] (InferenceRuntime.new () limits)
    (rt.pollCleanup b).1 = .error (.lifecycle .invalidTransition) ∧ ¬PollsWell rt (rt.pollCleanup b) := by
  intro b limits configuration rt
  have herr : (rt.pollCleanup b).1 = .error (.lifecycle .invalidTransition) := by decide +kernel
  refine ⟨herr, fun hwell => ?_⟩
  obtain ⟨poll, hok⟩ := hwell.ok
  cases herr.symm.trans hok

end LlmApp
