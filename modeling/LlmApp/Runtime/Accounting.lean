/-
# Registry accounting over runs

A run starts from a fresh runtime and applies operations in any order, with
any arguments and any answers of the backend. It keeps, beside the runtime,
the workspaces of generations that were admitted and not yet released: a
release names one of them. In every state of a run the registry is consistent
and its workspace counters are those of the workspaces left.

`Reached` is the weaker notion the other results need: the states that
elementary changes lead to from a fresh runtime.

Key definitions: `Operation.effect`, `Run`, `Reached`.
Key theorems: `Operation.apply_effect`, `registry_accounting`.
-/
import LlmApp.Runtime.Steps

namespace LlmApp

open InferenceRuntime

variable {σ Source : Type}

/-! ### Reached states -/

/-- The runtime is the outcome of elementary changes to a fresh one. -/
def Reached (rt : InferenceRuntime σ) : Prop :=
  ∃ loader limits, Relation.ReflTransGen (fun r r' => ∃ effect, Transition effect r r')
    (InferenceRuntime.new loader limits) rt

namespace Reached

variable {rt rt' : InferenceRuntime σ}

theorem new (loader : σ) (limits : RuntimeLimits) : Reached (InferenceRuntime.new loader limits) :=
  ⟨loader, limits, .refl⟩

theorem tail {effect : WorkspaceEffect} (h : Reached rt) (ht : Transition effect rt rt') : Reached rt' := by
  obtain ⟨loader, limits, h⟩ := h
  exact ⟨loader, limits, h.tail ⟨effect, ht⟩⟩

theorem steps (h : Reached rt) (hs : Steps rt rt') : Reached rt' := by
  induction hs with
  | refl => exact h
  | tail _ ht ih => exact ih.tail ht

/-- What holds of a fresh runtime and is kept by each change holds of every
state reached. -/
theorem invariant {P : InferenceRuntime σ → Prop} (h : Reached rt)
    (hnew : ∀ loader limits, P (InferenceRuntime.new loader limits))
    (hstep : ∀ {r r' effect}, P r → Transition effect r r' → P r') : P rt := by
  obtain ⟨loader, limits, h⟩ := h
  induction h with
  | refl => exact hnew loader limits
  | tail _ ht ih =>
    obtain ⟨effect, ht⟩ := ht
    exact hstep ih ht

theorem consistent (h : Reached rt) : Consistent rt :=
  h.invariant consistent_new fun hi ht => ht.consistent hi

end Reached

/-! ### Runs of operations -/

/-- What an operation does to the workspaces: a successful start of a
generation admits one, a successful release releases one. -/
def Operation.effect (b : Backend σ Source) (rt : InferenceRuntime σ) :
    Operation Source → WorkspaceEffect
  | .startGenerationRequest handle requestId sequenceId configuration workspace capacity =>
    match (rt.startGenerationRequest b handle requestId sequenceId configuration workspace capacity).1 with
    | .ok _ => .reserve workspace
    | .error _ => .keep
  | .releaseGenerationWorkspace footprint =>
    match (rt.releaseGenerationWorkspace footprint).1 with
    | .ok _ => .release footprint
    | .error _ => .keep
  | _ => .keep

/-- Every operation is a sequence of changes, the last of which may be to the
workspaces. -/
theorem Operation.apply_effect (b : Backend σ Source) {rt : InferenceRuntime σ} (hi : Consistent rt)
    (op : Operation Source) :
    (op.effect b rt = .keep ∧ Steps rt (op.apply b rt)) ∨
      ∃ mid, Steps rt mid ∧ Transition (op.effect b rt) mid (op.apply b rt) := by
  cases op with
  | loadModel => exact Or.inl ⟨rfl, loadModel_steps b rt ..⟩
  | startRequest handle r s configuration =>
    rcases startRequestWithReservation_steps b hi handle r s configuration 0 none (fun _ => rfl) with
      ⟨-, h⟩ | ⟨-, mid, h, h'⟩
    · exact Or.inl ⟨rfl, h⟩
    · exact Or.inr ⟨mid, h, h'⟩
  | startGenerationRequest handle r s configuration workspace capacity =>
    rcases startRequestWithReservation_steps b hi handle r s configuration workspace (some capacity)
      (by simp) with ⟨⟨e, he⟩, h⟩ | ⟨⟨receipt, he⟩, mid, h, h'⟩
    · exact Or.inl ⟨by simp [effect, InferenceRuntime.startGenerationRequest, he], h⟩
    · refine Or.inr ⟨mid, h, ?_⟩
      simpa [effect, InferenceRuntime.startGenerationRequest, he, startEffect, apply] using h'
  | preflightGenerationResources => exact Or.inl ⟨rfl, preflightGenerationResources_steps b rt ..⟩
  | prefill => exact Or.inl ⟨rfl, prefill_steps b hi ..⟩
  | decode => exact Or.inl ⟨rfl, decode_steps b hi ..⟩
  | completeRequest => exact Or.inl ⟨rfl, completeRequest_steps b hi ..⟩
  | cancelRequest => exact Or.inl ⟨rfl, cancelRequest_steps b hi ..⟩
  | failRequest => exact Or.inl ⟨rfl, removeRequest_steps b hi ..⟩
  | unloadModel => exact Or.inl ⟨rfl, unloadModel_steps b hi ..⟩
  | poll => exact Or.inl ⟨rfl, poll_steps b hi ..⟩
  | pollCleanup => exact Or.inl ⟨rfl, pollCleanup_steps b hi⟩
  | shutdown => exact Or.inl ⟨rfl, shutdown_steps b hi⟩
  | releaseGenerationWorkspace footprint =>
    rcases releaseGenerationWorkspace_step rt footprint with ⟨e, he⟩ | ⟨hok, h⟩
    · refine Or.inl ⟨by simp [effect, he], ?_⟩
      simpa [apply, he] using Steps.refl rt
    · refine Or.inr ⟨rt, .refl rt, ?_⟩
      simpa [effect, hok, apply] using h

theorem Operation.apply_reached (b : Backend σ Source) {rt : InferenceRuntime σ} (h : Reached rt)
    (op : Operation Source) : Reached (op.apply b rt) := by
  rcases op.apply_effect b h.consistent with ⟨-, h'⟩ | ⟨mid, h', h''⟩
  · exact h.steps h'
  · exact (h.steps h').tail h''

/-- The operations `ops`, one after another. -/
def Operation.applyAll (b : Backend σ Source) (ops : List (Operation Source)) (rt : InferenceRuntime σ) :
    InferenceRuntime σ :=
  ops.foldl (fun rt op => op.apply b rt) rt

theorem Operation.applyAll_reached (b : Backend σ Source) : ∀ (ops : List (Operation Source))
    {rt : InferenceRuntime σ}, Reached rt → Reached (applyAll b ops rt)
  | [], _, h => h
  | op :: ops, _, h => applyAll_reached b ops (op.apply_reached b h)

/-- What each change keeps holds after any operations. -/
theorem applyAll_keeps (b : Backend σ Source) {P : InferenceRuntime σ → Prop}
    (hP : ∀ {r r' : InferenceRuntime σ} {effect}, Consistent r → Transition effect r r' → P r → P r') :
    ∀ (ops : List (Operation Source)) {rt : InferenceRuntime σ}, Consistent rt → P rt →
      P (Operation.applyAll b ops rt)
  | [], _, _, h => h
  | op :: ops, rt, hi, h => by
    rcases op.apply_effect b hi with ⟨-, hs⟩ | ⟨mid, hs, ht⟩
    · exact applyAll_keeps b hP ops (hs.consistent hi) (hs.keeps (fun hi ht => hP hi ht) hi h)
    · have hmid := hs.consistent hi
      exact applyAll_keeps b hP ops (ht.consistent hmid)
        (hP hmid ht (hs.keeps (fun hi ht => hP hi ht) hi h))

theorem applyAll_limits (b : Backend σ Source) (ops : List (Operation Source)) {rt : InferenceRuntime σ}
    (hi : Consistent rt) : (Operation.applyAll b ops rt).limits = rt.limits :=
  applyAll_keeps b (P := fun r => r.limits = rt.limits) (fun _ ht h => ht.limits.trans h) ops hi rfl

/-- The workspaces left after an operation. -/
def WorkspaceEffect.on (ws : Multiset MemoryFootprint) : WorkspaceEffect → Multiset MemoryFootprint
  | .keep => ws
  | .reserve footprint => footprint ::ₘ ws
  | .release footprint => ws.erase footprint

/-- A release is called with the footprint of an admitted and not yet released
workspace. -/
def Operation.Allowed (ws : Multiset MemoryFootprint) : Operation Source → Prop
  | .releaseGenerationWorkspace footprint => footprint ∈ ws
  | _ => True

instance (ws : Multiset MemoryFootprint) (op : Operation Source) : Decidable (op.Allowed ws) := by
  cases op <;> unfold Operation.Allowed <;> infer_instance

/-- `Run b rt ws`: a run has led to `rt`, with the workspaces `ws` not yet
released. -/
inductive Run (b : Backend σ Source) : InferenceRuntime σ → Multiset MemoryFootprint → Prop
  | new (loader : σ) (limits : RuntimeLimits) : Run b (InferenceRuntime.new loader limits) 0
  | step {rt : InferenceRuntime σ} {ws : Multiset MemoryFootprint} (h : Run b rt ws)
      (op : Operation Source) (hop : op.Allowed ws) :
      Run b (op.apply b rt) ((op.effect b rt).on ws)

theorem Run.reached {b : Backend σ Source} {rt : InferenceRuntime σ} {ws : Multiset MemoryFootprint}
    (h : Run b rt ws) : Reached rt := by
  induction h with
  | new loader limits => exact .new loader limits
  | step _ op _ ih => exact op.apply_reached b ih

/-- What one operation does to the workspace account. -/
theorem Operation.apply_outstanding (b : Backend σ Source) {rt : InferenceRuntime σ}
    {ws : Multiset MemoryFootprint} (hi : Consistent rt) (ho : Outstanding rt ws)
    (op : Operation Source) (hop : op.Allowed ws) :
    Outstanding (op.apply b rt) ((op.effect b rt).on ws) := by
  rcases op.apply_effect b hi with ⟨hk, h⟩ | ⟨mid, h, h'⟩
  · rw [hk]
    exact h.outstanding ho
  have hmid := h.outstanding ho
  rcases heffect : op.effect b rt with _ | w | w <;> rw [heffect] at h'
  · exact h'.outstanding hmid
  · exact h'.outstanding_reserve hmid
  · have hw : w ∈ ws := by
      cases op with
      | releaseGenerationWorkspace footprint =>
        simp only [effect] at heffect
        split at heffect
        · cases heffect; exact hop
        · cases heffect
      | startGenerationRequest =>
        simp only [effect] at heffect
        split at heffect <;> cases heffect
      | _ => cases heffect
    rw [← Multiset.cons_erase hw] at hmid
    exact h'.outstanding_release hmid

theorem Run.outstanding {b : Backend σ Source} {rt : InferenceRuntime σ} {ws : Multiset MemoryFootprint}
    (h : Run b rt ws) : Outstanding rt ws := by
  induction h with
  | new loader limits => exact outstanding_new loader limits
  | step h op hop ih => exact op.apply_outstanding b h.reached.consistent ih hop

/-! ### The account -/

/-- In every state of a run the reserved footprint is the sum over what the
registry holds, each slot's account is the sum over its sequences, and the
indices, counters, flags and lifecycle states agree with the slots. -/
theorem registry_accounting {b : Backend σ Source} {rt : InferenceRuntime σ}
    {ws : Multiset MemoryFootprint} (h : Run b rt ws) :
    rt.reservedFootprint =
      rt.models.total (fun _ slot => slot.modelFootprint) +
      rt.models.total (fun _ slot => slot.requests.total fun _ q => q.backendFootprint) +
      rt.models.total (fun _ slot => slot.pendingSequences.total fun _ p => p.footprint) +
      rt.pendingModels.total (fun _ p => p.footprint) + rt.reservedGenerationWorkspace ∧
    (∀ m slot, rt.models.get? m = some slot → slot.reservedFootprint = slot.modelFootprint +
      slot.requests.total (fun _ q => q.backendFootprint + q.workspaceFootprint) +
      slot.pendingSequences.total fun _ p => p.footprint) ∧
    rt.Consistent ∧ rt.Outstanding ws := by
  have hi := h.reached.consistent
  refine ⟨?_, fun m slot hm => (hi.slot hm).reserved, hi, h.outstanding⟩
  rw [hi.reserved, backendTotal]
  simp only [ModelSlot.backendTotal, OrdMap.total_add]

/-- A run that loads a model and starts a generation on it. -/
theorem registry_accounting_started :
    let b := Backend.scripted ⟨1, 0, 2, 0, 0⟩ (fun _ _ => true) (fun _ _ => true)
    let limits : RuntimeLimits := ⟨⟨1, by decide, by decide⟩, ⟨1, by decide, by decide⟩, ⟨100, 100⟩,
      ⟨⟨1, by decide, by decide⟩⟩⟩
    let rt := (Operation.startGenerationRequest ⟨7, 1⟩ 1 1
      ⟨⟨8, by decide, by decide⟩, ⟨8, by decide, by decide⟩⟩ ⟨0, 0, 5, 0, 0⟩ 2).apply b
      ((Operation.loadModel 7 () 0 .cpu).apply b (InferenceRuntime.new () limits))
    rt.reservedFootprint = ⟨2, 0, 9, 0, 0⟩ ∧ rt.Outstanding {⟨0, 0, 5, 0, 0⟩} := by
  intro b limits rt
  have h := registry_accounting (b := b) ((Run.step (.step (.new () limits)
    (.loadModel 7 () 0 .cpu) trivial) (.startGenerationRequest ⟨7, 1⟩ 1 1
      ⟨⟨8, by decide, by decide⟩, ⟨8, by decide, by decide⟩⟩ ⟨0, 0, 5, 0, 0⟩ 2) trivial))
  exact ⟨by decide +kernel, h.2.2.2⟩

end LlmApp
