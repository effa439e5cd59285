/-
# The steps of one sequence

What is seen of the sequences of a backend is the steps each took that left
logits, and whether it still is as it should be (`SequenceView`). A backend
keeps such a view (`Backend.Logs`) if a new sequence has taken no step, a step
that leaves logits is added to its own sequence, and nothing else changes what
is seen of another. Every backend keeps a view of its steps if they are kept
beside it (`Backend.recorded`).

Whatever the registry does for others leaves the sequence of an active request
alone (`Unstepped`): another request has another sequence, and an admission
makes a new one.

Key definitions: `TokenCall`, `SequenceView`, `Backend.Logs`,
`Backend.Determined`, `Backend.recorded`, `Unstepped`.
Key theorems: `Backend.recorded_logs`, `prefill_unstepped`,
`startRequestWithReservation_unstepped`,
`startRequestWithReservation_begins`.
-/
import LlmApp.Runtime.Frame

namespace LlmApp

open InferenceRuntime

variable {σ Source : Type}

/-! ### Views -/

/-- What a backend step is given. -/
inductive TokenCall where
  | prefill (input : PrefillInput)
  | decode (token : TokenId)
deriving DecidableEq, Repr

/-- `log world s` lists the steps of the sequence `s` that left logits; `good`
is what its next step relies on. -/
structure SequenceView (σ : Type) where
  log : σ → SequenceRef → List TokenCall
  good : σ → SequenceRef → Prop

/-- The sequence is seen as before. -/
structure SequenceView.Alike (v : SequenceView σ) (world world' : σ) (s : SequenceRef) : Prop where
  log : v.log world' s = v.log world s
  good (h : v.good world s) : v.good world' s

namespace SequenceView.Alike

variable {v : SequenceView σ} {world world' world'' : σ} {s : SequenceRef}

theorem refl (v : SequenceView σ) (world : σ) (s : SequenceRef) : v.Alike world world s := ⟨rfl, id⟩

theorem trans (h : v.Alike world world' s) (h' : v.Alike world' world'' s) : v.Alike world world'' s :=
  ⟨h'.log.trans h.log, fun hg => h'.good (h.good hg)⟩

theorem of_eq (h : world' = world) : v.Alike world world' s := by
  rw [h]
  exact refl v world s

end SequenceView.Alike

structure Backend.Logs (b : Backend σ Source) (v : SequenceView σ) : Prop where
  planLoad (world : σ) (source : Source) (configuration : LoadConfiguration) (s : SequenceRef) :
    v.Alike world (b.planLoad world source configuration).2 s
  load (world : σ) (m : ModelRef) (source : Source) (configuration : LoadConfiguration) (s : SequenceRef) :
    v.Alike world (b.load world m source configuration).2 s
  planSequence (world : σ) (m : ModelRef) (configuration : SequenceConfiguration) (s : SequenceRef) :
    v.Alike world (b.planSequence world m configuration).2 s
  createOther (world : σ) (m : ModelRef) (s s' : SequenceRef) (sequenceId : SequenceId)
    (configuration : SequenceConfiguration) (hne : s' ≠ s) :
    v.Alike world (b.createSequence world m s sequenceId configuration).2 s'
  created (world : σ) (m : ModelRef) (s : SequenceRef) (sequenceId id : SequenceId)
    (configuration : SequenceConfiguration)
    (h : (b.createSequence world m s sequenceId configuration).1 = .ok id) :
    v.log (b.createSequence world m s sequenceId configuration).2 s = [] ∧
      v.good (b.createSequence world m s sequenceId configuration).2 s
  prefillOther (world : σ) (m : ModelRef) (s s' : SequenceRef) (input : PrefillInput) (logits : List F32)
    (hne : s' ≠ s) : v.Alike world (b.prefillPrepared world m s input logits).2.2 s'
  /-- Under the checks of the caller. -/
  prefilled (world : σ) (m : ModelRef) (s : SequenceRef) (input : PrefillInput) (logits : List F32)
    (consumed position written : ℕ) (hg : v.good world s)
    (hroom : input.tokens.length ≤ b.tokenCapacity world s - b.position world s)
    (h : (b.prefillPrepared world m s input logits).1 = .ok (.ready consumed position written)) :
    v.log (b.prefillPrepared world m s input logits).2.2 s = v.log world s ++ [.prefill input] ∧
      v.good (b.prefillPrepared world m s input logits).2.2 s
  decodeOther (world : σ) (m : ModelRef) (s s' : SequenceRef) (token : TokenId) (logits : List F32)
    (hne : s' ≠ s) : v.Alike world (b.decodePrepared world m s token logits).2.2 s'
  decoded (world : σ) (m : ModelRef) (s : SequenceRef) (token : TokenId) (logits : List F32)
    (position written : ℕ) (hg : v.good world s) (hroom : 0 < b.tokenCapacity world s - b.position world s)
    (h : (b.decodePrepared world m s token logits).1 = .ok (.ready position written)) :
    v.log (b.decodePrepared world m s token logits).2.2 s = v.log world s ++ [.decode token] ∧
      v.good (b.decodePrepared world m s token logits).2.2 s

/-- `b` with the steps of its sequences kept beside it. It answers as `b`. -/
def Backend.recorded (b : Backend σ Source) : Backend (σ × (SequenceRef → List TokenCall)) Source where
  planLoad world source configuration :=
    let (result, next) := b.planLoad world.1 source configuration
    (result, next, world.2)
  load world m source configuration :=
    let (result, next) := b.load world.1 m source configuration
    (result, next, world.2)
  planSequence world m configuration :=
    let (result, next) := b.planSequence world.1 m configuration
    (result, next, world.2)
  createSequence world m s sequenceId configuration :=
    let (result, next) := b.createSequence world.1 m s sequenceId configuration
    (result, next, Function.update world.2 s [])
  sequenceState world := b.sequenceState world.1
  position world := b.position world.1
  tokenCapacity world := b.tokenCapacity world.1
  prefillBufferRequirements world := b.prefillBufferRequirements world.1
  decodeBufferRequirements world := b.decodeBufferRequirements world.1
  prefillPrepared world m s input logits :=
    let (result, written, next) := b.prefillPrepared world.1 m s input logits
    (result, written, next, Function.update world.2 s (world.2 s ++ [.prefill input]))
  decodePrepared world m s token logits :=
    let (result, written, next) := b.decodePrepared world.1 m s token logits
    (result, written, next, Function.update world.2 s (world.2 s ++ [.decode token]))
  destroySequence := b.destroySequence
  prepareUnload := b.prepareUnload

/-- The steps kept beside the world. -/
def SequenceView.steps (σ : Type) : SequenceView (σ × (SequenceRef → List TokenCall)) := ⟨(·.2), fun _ _ => True⟩

theorem SequenceView.steps_alike {world world' : σ × (SequenceRef → List TokenCall)} {s : SequenceRef}
    (h : world'.2 s = world.2 s) : (SequenceView.steps σ).Alike world world' s := ⟨h, fun _ => trivial⟩

theorem Backend.recorded_logs (b : Backend σ Source) : b.recorded.Logs (.steps σ) where
  planLoad _ _ _ _ := SequenceView.steps_alike rfl
  load _ _ _ _ _ := SequenceView.steps_alike rfl
  planSequence _ _ _ _ := SequenceView.steps_alike rfl
  createOther _ _ _ _ _ _ hne := SequenceView.steps_alike (Function.update_of_ne hne ..)
  created _ _ _ _ _ _ _ := ⟨Function.update_self .., trivial⟩
  prefillOther _ _ _ _ _ _ hne := SequenceView.steps_alike (Function.update_of_ne hne ..)
  prefilled _ _ _ _ _ _ _ _ _ _ _ := ⟨Function.update_self .., trivial⟩
  decodeOther _ _ _ _ _ _ hne := SequenceView.steps_alike (Function.update_of_ne hne ..)
  decoded _ _ _ _ _ _ _ _ _ _ := ⟨Function.update_self .., trivial⟩

/-- The logits of a step of a good sequence are a function of the sequence and
of the steps it has taken, and are as many as the step says. -/
structure Backend.Determined (b : Backend σ Source) (v : SequenceView σ)
    (logitsOf : SequenceRef → List TokenCall → List F32) : Prop where
  prefill (world : σ) (m : ModelRef) (s : SequenceRef) (input : PrefillInput) (logits : List F32)
    (consumed position written : ℕ) (hg : v.good world s) (hemit : input.emitLogits = true)
    (h : (b.prefillPrepared world m s input logits).1 = .ok (.ready consumed position written)) :
    (b.prefillPrepared world m s input logits).2.1.take written =
        logitsOf s (v.log world s ++ [.prefill input]) ∧
      written ≤ (b.prefillPrepared world m s input logits).2.1.length
  decode (world : σ) (m : ModelRef) (s : SequenceRef) (token : TokenId) (logits : List F32)
    (position written : ℕ) (hg : v.good world s)
    (h : (b.decodePrepared world m s token logits).1 = .ok (.ready position written)) :
    (b.decodePrepared world m s token logits).2.1.take written = logitsOf s (v.log world s ++ [.decode token]) ∧
      written ≤ (b.decodePrepared world m s token logits).2.1.length

/-- A backend whose logits are those of the steps, and nothing else: its world
is the log, and it otherwise does as `Backend.scripted`. -/
def Backend.replaying (footprint : MemoryFootprint) (logitsOf : SequenceRef → List TokenCall → List F32) :
    Backend (SequenceRef → List TokenCall) Unit where
  planLoad world _ _ := (.ok ⟨⟨0, ⟨.llama, .f32, .none, 2, 8⟩, ⟨0, 8, 8, 8⟩, footprint⟩, footprint⟩, world)
  load world _ _ configuration := (.ok ⟨configuration.handle, ⟨.llama, .f32, .none, 2, 8⟩⟩, world)
  planSequence world _ configuration := (.ok ⟨configuration, footprint, 2⟩, world)
  createSequence world _ s sequenceId _ := (.ok sequenceId, Function.update world s [])
  sequenceState _ _ := .ready
  position _ _ := 0
  tokenCapacity _ _ := 8
  prefillBufferRequirements _ _ _ _ := 2
  decodeBufferRequirements _ _ _ _ := 2
  prefillPrepared world _ s input _ :=
    let calls := world s ++ [.prefill input]
    (.ok (.ready input.tokens.length input.tokens.length (logitsOf s calls).length), logitsOf s calls,
      Function.update world s calls)
  decodePrepared world _ s token _ :=
    let calls := world s ++ [.decode token]
    (.ok (.ready 1 (logitsOf s calls).length), logitsOf s calls, Function.update world s calls)
  destroySequence _ _ := .ok ()
  prepareUnload _ _ := .ok ()

/-- What the world of `Backend.replaying` is. -/
def SequenceView.whole : SequenceView (SequenceRef → List TokenCall) := ⟨fun world => world, fun _ _ => True⟩

theorem SequenceView.whole_alike {world world' : SequenceRef → List TokenCall} {s : SequenceRef}
    (h : world' s = world s) : SequenceView.whole.Alike world world' s := ⟨h, fun _ => trivial⟩

theorem Backend.replaying_logs (footprint : MemoryFootprint)
    (logitsOf : SequenceRef → List TokenCall → List F32) :
    (Backend.replaying footprint logitsOf).Logs .whole where
  planLoad _ _ _ _ := SequenceView.whole_alike rfl
  load _ _ _ _ _ := SequenceView.whole_alike rfl
  planSequence _ _ _ _ := SequenceView.whole_alike rfl
  createOther _ _ _ _ _ _ hne := SequenceView.whole_alike (Function.update_of_ne hne ..)
  created _ _ _ _ _ _ _ := ⟨Function.update_self .., trivial⟩
  prefillOther _ _ _ _ _ _ hne := SequenceView.whole_alike (Function.update_of_ne hne ..)
  prefilled _ _ _ _ _ _ _ _ _ _ _ := ⟨Function.update_self .., trivial⟩
  decodeOther _ _ _ _ _ _ hne := SequenceView.whole_alike (Function.update_of_ne hne ..)
  decoded _ _ _ _ _ _ _ _ _ _ := ⟨Function.update_self .., trivial⟩

theorem Backend.replaying_determined (footprint : MemoryFootprint)
    (logitsOf : SequenceRef → List TokenCall → List F32) :
    (Backend.replaying footprint logitsOf).Determined .whole logitsOf where
  prefill world m s input logits consumed position written _ _ h := by
    cases h
    exact ⟨List.take_length, le_rfl⟩
  decode world m s token logits position written _ h := by
    cases h
    exact ⟨List.take_length, le_rfl⟩

/-! ### Checked steps -/

/-- What a step wrote into the buffer is what the first elements hold. -/
theorem take_overwrite {α : Type} {slice written : List α} {n : ℕ} (hslice : n ≤ slice.length)
    (hwritten : n ≤ written.length) : (BackendState.overwrite slice written).take n = written.take n := by
  apply List.ext_getElem
  · simp [hslice, hwritten]
  · intro i h1 h2
    simp only [List.length_take] at h1 h2
    simp only [BackendState.overwrite, List.getElem_take, List.getElem_mapIdx]
    rw [List.getD_eq_getElem _ _ (by omega)]

namespace BackendState

variable (b : Backend σ Source) {v : SequenceView σ} (l : BackendState σ)

/-- A checked step leaves what the backend leaves. -/
theorem CheckedStep.run_alike {α : Type} (step : CheckedStep σ α) (logits : List F32) {s' : SequenceRef}
    (h : v.Alike l.world step.prepared.2.2 s') : v.Alike l.world (step.run l logits .running).2.2.world s' := by
  rcases step.run_world l logits .running with hworld | hworld
  · exact .of_eq hworld
  · rwa [hworld]

theorem planLoad_alike (hb : b.Logs v) (source : Source) (configuration : LoadConfiguration) (s : SequenceRef) :
    v.Alike l.world (l.planLoad b source configuration).2.world s := hb.planLoad ..

theorem load_alike (hb : b.Logs v) (source : Source) (configuration : LoadConfiguration) (s : SequenceRef) :
    v.Alike l.world (l.load b source configuration).2.world s := by
  have halike := hb.load l.world l.models source configuration s
  unfold load
  split <;> next h => rwa [h] at halike

theorem planSequence_alike (hb : b.Logs v) (m : ModelRef) (configuration : SequenceConfiguration)
    (s : SequenceRef) : v.Alike l.world (l.planSequence b m configuration).2.world s := hb.planSequence ..

theorem createSequence_other (hb : b.Logs v) (m : ModelRef) (sequenceId : SequenceId)
    (configuration : SequenceConfiguration) {s' : SequenceRef} (hne : s' ≠ l.sequences) :
    v.Alike l.world (l.createSequence b m sequenceId configuration).2.world s' := by
  have halike := hb.createOther l.world m l.sequences s' sequenceId configuration hne
  unfold createSequence
  split <;> next h => rwa [h] at halike

variable {b} {l}

theorem createSequence_begins (hb : b.Logs v) {m : ModelRef} {sequenceId : SequenceId}
    {configuration : SequenceConfiguration} {sequence : BackendSequence} {l' : BackendState σ}
    (h : l.createSequence b m sequenceId configuration = (.ok sequence, l')) :
    v.log l'.world sequence.ref = [] ∧ v.good l'.world sequence.ref := by
  have hcreated := fun id => hb.created l.world m l.sequences sequenceId id configuration
  unfold createSequence at h
  split at h
  · cases h
  · next id world hcreate =>
    cases h
    rw [hcreate] at hcreated
    exact hcreated id rfl

/-- A checked step that goes on leaves the world the backend left, and the
logits the backend wrote. -/
theorem CheckedStep.run_ready {α : Type} {step : CheckedStep σ α} {call : TokenCall} {s : SequenceRef}
    {logits logits' : List F32} {outcome : α} {l' : BackendState σ}
    (h : step.run l logits .running = (.ok outcome, logits', l')) (hgoes : ∀ reason, outcome ≠ step.finished reason)
    (hlogs : step.tokens ≤ step.available → step.prepared.1 = .ok outcome →
      v.log step.prepared.2.2 s = v.log l.world s ++ [call] ∧ v.good step.prepared.2.2 s) :
    step.prepared.1 = .ok outcome ∧ v.log l'.world s = v.log l.world s ++ [call] ∧ v.good l'.world s ∧
      ∀ written, written ≤ step.prepared.2.1.length → written ≤ logits'.length →
        logits'.take written = step.prepared.2.1.take written := by
  obtain ⟨hroom, hprepared, rfl, hworld⟩ := step.run_ok l h hgoes
  obtain ⟨hlog, hgood⟩ := hlogs hroom hprepared
  rw [hworld]
  refine ⟨hprepared, hlog, hgood, fun written hwritten hlen => ?_⟩
  rw [length_overwrite] at hlen
  exact take_overwrite hlen hwritten

/-- A checked prefill of a good sequence that leaves logits is added to it, and
its logits are those of the sequence's steps. -/
theorem prefillChecked_ready (hb : b.Logs v) {m : ModelRef} {s : SequenceRef} {input : PrefillInput}
    {logits logits' : List F32} {consumed position written : ℕ} {l' : BackendState σ} (hg : v.good l.world s)
    (h : l.prefillChecked b m s input logits .running = (.ok (.ready consumed position written), logits', l')) :
    v.log l'.world s = v.log l.world s ++ [.prefill input] ∧ v.good l'.world s ∧
      ∀ logitsOf, b.Determined v logitsOf → input.emitLogits = true → written ≤ logits'.length →
        logits'.take written = logitsOf s (v.log l'.world s) := by
  rw [prefillChecked_eq] at h
  obtain ⟨hprepared, hlog, hgood, hlogits⟩ := CheckedStep.run_ready h (fun _ => nofun)
    (hb.prefilled l.world m s input logits consumed position written hg)
  refine ⟨hlog, hgood, fun logitsOf hd hemit hlen => ?_⟩
  obtain ⟨htake, hwritten⟩ := hd.prefill l.world m s input logits consumed position written hg hemit hprepared
  rw [hlogits written hwritten hlen, hlog]
  exact htake

theorem decodeChecked_ready (hb : b.Logs v) {m : ModelRef} {s : SequenceRef} {token : TokenId}
    {logits logits' : List F32} {position written : ℕ} {l' : BackendState σ} (hg : v.good l.world s)
    (h : l.decodeChecked b m s token logits .running = (.ok (.ready position written), logits', l')) :
    v.log l'.world s = v.log l.world s ++ [.decode token] ∧ v.good l'.world s ∧
      ∀ logitsOf, b.Determined v logitsOf → written ≤ logits'.length →
        logits'.take written = logitsOf s (v.log l'.world s) := by
  rw [decodeChecked_eq] at h
  obtain ⟨hprepared, hlog, hgood, hlogits⟩ := CheckedStep.run_ready h (fun _ => nofun)
    (hb.decoded l.world m s token logits position written hg)
  refine ⟨hlog, hgood, fun logitsOf hd hlen => ?_⟩
  obtain ⟨htake, hwritten⟩ := hd.decode l.world m s token logits position written hg hprepared
  rw [hlogits written hwritten hlen, hlog]
  exact htake

end BackendState

/-! ### What leaves a sequence alone -/

/-- The sequence of the request, where it is active after, was active before
and is seen as it was. -/
structure Unstepped (v : SequenceView σ) (r : RequestId) (rt rt' : InferenceRuntime σ) : Prop where
  untouched : Untouched r rt rt'
  alike {m : ModelId} {q' : RequestSlot} (h : rt'.active (m, r) = some q') :
    v.Alike rt.loader.world rt'.loader.world q'.sequence.ref

namespace Unstepped

variable {v : SequenceView σ} {r : RequestId} {rt rt' rt'' : InferenceRuntime σ}

theorem refl (r : RequestId) (rt : InferenceRuntime σ) : Unstepped v r rt rt := ⟨.refl r rt, fun _ => .refl ..⟩

theorem trans (h : Unstepped v r rt rt') (h' : Unstepped v r rt' rt'') : Unstepped v r rt rt'' where
  untouched := h.untouched.trans h'.untouched
  alike ha := by
    obtain ⟨q, hq, hs⟩ := h'.untouched.active ha
    have hmid := h.alike hq
    rw [hs] at hmid
    exact hmid.trans (h'.alike ha)

/-- A change that leaves every sequence. -/
theorem of_alike (hu : Untouched r rt rt') (h : ∀ s, v.Alike rt.loader.world rt'.loader.world s) :
    Unstepped v r rt rt' :=
  ⟨hu, fun _ => h _⟩

theorem of_world (hu : Untouched r rt rt') (h : rt'.loader.world = rt.loader.world) : Unstepped v r rt rt' :=
  .of_alike hu fun _ => .of_eq h

theorem of_kept (hu : Untouched r rt rt') (h : rt'.kept = rt.kept) : Unstepped v r rt rt' :=
  .of_world hu (kept_world h)

end Unstepped

namespace Reached

variable {rt : InferenceRuntime σ} {m m' : ModelId} {r r' : RequestId} {q q' : RequestSlot}

/-- Two active requests have two sequences. -/
theorem sequences_apart (h : Reached rt) (hq : rt.active (m, r) = some q) (hq' : rt.active (m', r') = some q')
    (hne : r ≠ r') : q.sequence.ref ≠ q'.sequence.ref := by
  intro href
  have heq := h.safe.sequences.once (heldOf_active hq) (heldOf_active hq') href
  exact hne (Prod.mk.inj heq).2

theorem sequence_made (h : Reached rt) (hq : rt.active (m, r) = some q) : q.sequence.ref < rt.loader.sequences :=
  h.safe.sequences.fresh (heldOf_active hq)

end Reached

namespace InferenceRuntime

variable (b : Backend σ Source) {v : SequenceView σ} {rt : InferenceRuntime σ} {r r' : RequestId}

/-- A backend step of another request leaves a sequence as its checked step does. -/
theorem Taken.alike {α ρ : Type} {k : RequestStep σ α ρ} {logits : List F32}
    {answer : Except RuntimeError ρ × List F32 × InferenceRuntime σ} (h : Taken b k rt r' logits answer)
    {s' : SequenceRef} (hne : ∀ m q, rt.active (m, r') = some q → s' ≠ q.sequence.ref)
    (hstep : ∀ m s, s' ≠ s → v.Alike rt.loader.world (k.step rt.loader m s logits).prepared.2.2 s') :
    v.Alike rt.loader.world answer.2.2.loader.world s' := by
  rcases h.kept with h | ⟨m, slot, q, hm, hr, h⟩
  · exact .of_eq (kept_world h)
  · have hworld := congrArg Prod.snd h
    dsimp only at hworld
    rw [hworld]
    exact BackendState.CheckedStep.run_alike _ _ _ (hstep _ _ (hne m q (OrdMap.nested_of_get? hm hr)))

theorem prefill_other (hb : b.Logs v) (rt : InferenceRuntime σ) (r' : RequestId) (tokens : List TokenId)
    (emitLogits : Bool) (logits : List F32) {s' : SequenceRef}
    (hne : ∀ m q, rt.active (m, r') = some q → s' ≠ q.sequence.ref) :
    v.Alike rt.loader.world (rt.prefill b r' tokens emitLogits logits).2.2.loader.world s' := by
  rw [prefill_eq]
  exact (stepRequest_taken b _ rt r' logits).alike b hne fun _ _ => hb.prefillOther _ _ _ _ _ _

theorem decode_other (hb : b.Logs v) (rt : InferenceRuntime σ) (r' : RequestId) (token : TokenId)
    (logits : List F32) {s' : SequenceRef} (hne : ∀ m q, rt.active (m, r') = some q → s' ≠ q.sequence.ref) :
    v.Alike rt.loader.world (rt.decode b r' token logits).2.2.loader.world s' := by
  rw [decode_eq]
  exact (stepRequest_taken b _ rt r' logits).alike b hne fun _ _ => hb.decodeOther _ _ _ _ _ _

/-- A step of another request. -/
theorem unstepped_of_other {rt' : InferenceRuntime σ} (h : Reached rt) (hu : Untouched r rt rt') (hne : r ≠ r')
    (hother : ∀ s', (∀ m q, rt.active (m, r') = some q → s' ≠ q.sequence.ref) →
      v.Alike rt.loader.world rt'.loader.world s') : Unstepped v r rt rt' where
  untouched := hu
  alike ha := by
    obtain ⟨q, hq, hs⟩ := hu.active ha
    rw [← hs]
    exact hother _ fun m q' hq' => h.sequences_apart hq hq' hne

theorem prefill_unstepped (hb : b.Logs v) (h : Reached rt) (hne : r ≠ r') (tokens : List TokenId)
    (emitLogits : Bool) (logits : List F32) :
    Unstepped v r rt (rt.prefill b r' tokens emitLogits logits).2.2 :=
  unstepped_of_other h ((prefill_steps b h.consistent r' tokens emitLogits logits).untouched
    (prefill_made b rt r' tokens emitLogits logits) r h.consistent) hne fun _ hs =>
      prefill_other b hb rt r' tokens emitLogits logits hs

theorem decode_unstepped (hb : b.Logs v) (h : Reached rt) (hne : r ≠ r') (token : TokenId)
    (logits : List F32) : Unstepped v r rt (rt.decode b r' token logits).2.2 :=
  unstepped_of_other h ((decode_steps b h.consistent r' token logits).untouched
    (decode_made b rt r' token logits) r h.consistent) hne fun _ hs => decode_other b hb rt r' token logits hs

theorem loadModel_alike (hb : b.Logs v) (rt : InferenceRuntime σ) (m : ModelId) (source : Source)
    (device : DeviceId) (kind : DeviceKind) (s : SequenceRef) :
    v.Alike rt.loader.world (rt.loadModel b m source device kind).2.loader.world s := by
  unfold loadModel
  split
  · exact .refl ..
  next handle _ =>
  dsimp only
  split
  · exact .refl ..
  have hp := rt.loader.planLoad_alike b hb source
    ⟨handle, device, kind, remainingBudget rt.limits.memoryBudget rt.reservedFootprint⟩ s
  split
  · next h =>
    rwa [h] at hp
  next loader h =>
  rw [h] at hp
  split
  · exact hp
  have hl := hp.trans (loader.load_alike b hb source
    ⟨handle, device, kind, remainingBudget rt.limits.memoryBudget rt.reservedFootprint⟩ s)
  split
  · next h' =>
    rwa [h'] at hl
  next model loaded loader' h' =>
  rw [h'] at hl
  split
  · have hu : v.Alike rt.loader.world (loader'.prepareUnload b model).2.world s := hl
    split <;> next h'' => rwa [h''] at hu
  · exact hl

theorem preflightGenerationResources_alike (hb : b.Logs v) (rt : InferenceRuntime σ) (handle : ModelHandle)
    (r : RequestId) (sequenceId : SequenceId) (configuration : SequenceConfiguration) (w : MemoryFootprint)
    (capacity : ℕ) (s : SequenceRef) :
    v.Alike rt.loader.world
      (rt.preflightGenerationResources b handle r sequenceId configuration w capacity).2.loader.world s := by
  unfold preflightGenerationResources
  dsimp only
  split
  · exact .refl ..
  next slot _ =>
  have hl := rt.loader.planSequence_alike b hb slot.model configuration s
  split <;> next h => rwa [h] at hl

theorem rollbackSequence_world (rt : InferenceRuntime σ) (slot : ModelSlot) (m : ModelId) (r : RequestId)
    (sequenceId : SequenceId) (sequence : BackendSequence) (plan : SequencePlan) (footprints : StartFootprints)
    (primary : RuntimeError) :
    (rollbackSequence b rt slot m r sequenceId sequence plan footprints primary).2.loader.world =
      rt.loader.world := by
  unfold rollbackSequence
  split
  · next h => exact congrArg (fun answer => answer.2.world) h.symm
  · next h =>
    have hworld := congrArg (fun answer => answer.2.world) h.symm
    dsimp only
    split <;> exact hworld

/-- A start makes a sequence of its own and leaves the others. -/
theorem startRequestWithReservation_other (hb : b.Logs v) (rt : InferenceRuntime σ) (handle : ModelHandle)
    (r' : RequestId) (sequenceId : SequenceId) (configuration : SequenceConfiguration) (w : MemoryFootprint)
    (capacity : Option ℕ) {s' : SequenceRef} (hne : s' ≠ rt.loader.sequences) :
    v.Alike rt.loader.world
      (rt.startRequestWithReservation b handle r' sequenceId configuration w capacity).2.loader.world s' := by
  unfold startRequestWithReservation
  split
  · exact .refl ..
  next reservation _ =>
  dsimp only
  have hp := rt.loader.planSequence_alike b hb reservation.slot.model configuration s'
  have hn := rt.loader.planSequence_sequences b reservation.slot.model configuration
  split
  · next h =>
    rwa [h] at hp
  next plan loader h =>
  rw [h] at hp hn
  split
  · exact hp
  have hc := hp.trans (loader.createSequence_other b hb reservation.slot.model sequenceId configuration
    (by rwa [hn]))
  split
  · next h' =>
    rwa [h'] at hc
  next sequence loader' h' =>
  rw [h'] at hc
  split_ifs
  · rwa [rollbackSequence_world]
  split
  · rwa [rollbackSequence_world]
  · exact hc

theorem startRequestWithReservation_unstepped (hb : b.Logs v) (h : Reached rt) (handle : ModelHandle)
    (hne : r ≠ r') (sequenceId : SequenceId) (configuration : SequenceConfiguration) (w : MemoryFootprint)
    (capacity : Option ℕ) :
    Unstepped v r rt (rt.startRequestWithReservation b handle r' sequenceId configuration w capacity).2 where
  untouched := startRequestWithReservation_untouched b rt handle hne sequenceId configuration w capacity
  alike ha := by
    obtain ⟨q, hq, hs⟩ :=
      (startRequestWithReservation_untouched b rt handle hne sequenceId configuration w capacity).active ha
    have hmade := h.sequence_made hq
    rw [← hs]
    exact startRequestWithReservation_other b hb rt handle r' sequenceId configuration w capacity hmade.ne

/-- A start that returns `Ok` has made a good sequence that has taken no step. -/
theorem startRequestWithReservation_begins (hb : b.Logs v) {rt' : InferenceRuntime σ} {handle : ModelHandle}
    {sequenceId : SequenceId} {configuration : SequenceConfiguration} {w : MemoryFootprint} {capacity : Option ℕ}
    {receipt : RequestStartReceipt}
    (h : rt.startRequestWithReservation b handle r sequenceId configuration w capacity = (.ok receipt, rt')) :
    ∃ q, rt'.active (handle.id, r) = some q ∧ v.log rt'.loader.world q.sequence.ref = [] ∧
      v.good rt'.loader.world q.sequence.ref := by
  unfold startRequestWithReservation at h
  split at h
  · cases h
  next reservation hstart =>
  dsimp only at h
  split at h
  · cases h
  split at h
  · cases h
  split at h
  · cases h
  next sequence loader hcreate =>
  have hbegins := BackendState.createSequence_begins hb hcreate
  -- A rollback returns an error.
  have hrollback : ∀ {slot : ModelSlot} {plan : SequencePlan} {footprints : StartFootprints} {primary : RuntimeError},
      rollbackSequence b { rt with loader := loader } slot handle.id r sequenceId sequence plan footprints primary ≠
        (.ok receipt, rt') := by
    intro slot plan footprints primary heq
    obtain ⟨e, he⟩ := rollbackSequence_error b { rt with loader := loader } slot handle.id r sequenceId sequence plan
      footprints primary
    rw [heq] at he
    cases he
  split_ifs at h
  · exact absurd h hrollback
  split at h
  · exact absurd h hrollback
  · obtain ⟨-, rfl⟩ := Prod.mk.inj h
    refine ⟨_, OrdMap.nested_of_get? (OrdMap.get?_insert_self ..) (OrdMap.get?_insert_self ..), hbegins⟩

end InferenceRuntime

end LlmApp
