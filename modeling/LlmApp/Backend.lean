/-
# The backend behind the registry

The runtime is generic over a `ModelLoader`, its `LoadedModel` and its
`BackendSequence`. Their values are opaque to it, so a value is named here by
a reference (`ModelRef`, `SequenceRef`: the how-many-eth model loaded or
sequence created), and everything the values hold is in a world `σ` that the
trait methods read and change. A `Backend` is any choice of these methods.
A method that takes `&self` may change the world too. `BackendSequence::id`
is a field of the value: it never changes.

The cleanup methods `destroySequence` and `prepareUnload` answer from the
reference and the number of cleanup calls made on it before. A run makes at
most one call for each such pair, so a table of answers is a pattern of
successes and failures, and every pattern is one.

`BackendState` carries the world and a record of the calls made through it,
which no function of the runtime reads.

Key definitions: `Backend`, `BackendCall`, `BackendState`, `prefillChecked`,
`decodeChecked`, `CheckedStep`.
-/
import LlmApp.Contracts

namespace LlmApp

/-- A loaded model, by the order of its loading. -/
abbrev ModelRef := ℕ

/-- A created sequence, by the order of its creation. -/
abbrev SequenceRef := ℕ

/-- A `BackendSequence` value: its reference, and what its `id` method
returns. -/
structure BackendSequence where
  ref : SequenceRef
  id : SequenceId
deriving DecidableEq, Repr

/-- What the methods `handle` and `metadata` of a new model return. -/
structure LoadedModel where
  handle : ModelHandle
  metadata : ModelMetadata
deriving DecidableEq, Repr

inductive SequenceState where
  | empty | ready | finished | transitioning
deriving DecidableEq, Repr

structure PrefillInput where
  tokens : List TokenId
  emitLogits : Bool
deriving DecidableEq, Repr

/-- The methods of `ModelLoader`, `LoadedModel` and `BackendSequence` that the
runtime calls. A method that fills a logits slice returns the values it wrote. -/
structure Backend (σ Source : Type) where
  planLoad : σ → Source → LoadConfiguration → Except LoadError LoadPlan × σ
  load : σ → ModelRef → Source → LoadConfiguration → Except LoadError LoadedModel × σ
  planSequence : σ → ModelRef → SequenceConfiguration → Except ModelError SequencePlan × σ
  createSequence : σ → ModelRef → SequenceRef → SequenceId → SequenceConfiguration →
    Except ModelError SequenceId × σ
  sequenceState : σ → SequenceRef → SequenceState
  position : σ → SequenceRef → ℕ
  tokenCapacity : σ → SequenceRef → ℕ
  prefillBufferRequirements : σ → ModelRef → SequenceRef → PrefillInput → ℕ
  decodeBufferRequirements : σ → ModelRef → SequenceRef → TokenId → ℕ
  prefillPrepared : σ → ModelRef → SequenceRef → PrefillInput → List F32 →
    Except SequenceError PrefillOutcome × List F32 × σ
  decodePrepared : σ → ModelRef → SequenceRef → TokenId → List F32 →
    Except SequenceError DecodeOutcome × List F32 × σ
  destroySequence : SequenceRef → ℕ → Except SequenceError Unit
  prepareUnload : ModelRef → ℕ → Except SynchronizationError Unit

/-- A call on a model or a sequence: the creations with the new reference, the
cleanup calls with their success. -/
inductive BackendCall where
  | load (m : ModelRef)
  | planSequence (m : ModelRef)
  | createSequence (m : ModelRef) (s : Option SequenceRef)
  | prefill (m : ModelRef) (s : SequenceRef)
  | decode (m : ModelRef) (s : SequenceRef)
  | destroySequence (m : ModelRef) (s : SequenceRef) (ok : Bool)
  | prepareUnload (m : ModelRef) (ok : Bool)
deriving DecidableEq, Repr

namespace BackendCall

/-- The model the call is made on; a load makes the model. -/
def onModel : BackendCall → Option ModelRef
  | .load _ => none
  | .planSequence m | .createSequence m _ | .prefill m _ | .decode m _ | .destroySequence m _ _
  | .prepareUnload m _ => some m

/-- The sequence the call is made on; a creation makes the sequence. -/
def onSequence : BackendCall → Option SequenceRef
  | .prefill _ s | .decode _ s | .destroySequence _ s _ => some s
  | .load _ | .planSequence _ | .createSequence .. | .prepareUnload .. => none

def destroys (s : SequenceRef) : BackendCall → Bool
  | .destroySequence _ s' _ => s' = s
  | _ => false

def unloads (m : ModelRef) : BackendCall → Bool
  | .prepareUnload m' _ => m' = m
  | _ => false

end BackendCall

/-- The backend as the runtime owns it: its world, the next references and the
calls made so far. -/
structure BackendState (σ : Type) where
  world : σ
  models : ModelRef := 0
  sequences : SequenceRef := 0
  calls : List BackendCall := []
deriving Repr

namespace BackendState

variable {σ Source : Type} (b : Backend σ Source) (l : BackendState σ)

/-- The cleanup calls made on a sequence. -/
def destroyCalls (s : SequenceRef) : ℕ := l.calls.countP (BackendCall.destroys s)

/-- The cleanup calls made on a model. -/
def unloadCalls (m : ModelRef) : ℕ := l.calls.countP (BackendCall.unloads m)

def record (c : BackendCall) : BackendState σ := { l with calls := l.calls ++ [c] }

def planLoad (source : Source) (configuration : LoadConfiguration) :
    Except LoadError LoadPlan × BackendState σ :=
  let (result, world) := b.planLoad l.world source configuration
  (result, { l with world := world })

/-- A successful load makes the next model reference. -/
def load (source : Source) (configuration : LoadConfiguration) :
    Except LoadError (ModelRef × LoadedModel) × BackendState σ :=
  match b.load l.world l.models source configuration with
  | (.error e, world) => (.error e, { l with world := world })
  | (.ok model, world) =>
    (.ok (l.models, model),
      { l with world := world, models := l.models + 1, calls := l.calls ++ [.load l.models] })

def planSequence (m : ModelRef) (configuration : SequenceConfiguration) :
    Except ModelError SequencePlan × BackendState σ :=
  let (result, world) := b.planSequence l.world m configuration
  (result, { l with world := world, calls := l.calls ++ [.planSequence m] })

/-- A successful creation makes the next sequence reference. -/
def createSequence (m : ModelRef) (sequenceId : SequenceId) (configuration : SequenceConfiguration) :
    Except ModelError BackendSequence × BackendState σ :=
  match b.createSequence l.world m l.sequences sequenceId configuration with
  | (.error e, world) =>
    (.error e, { l with world := world, calls := l.calls ++ [.createSequence m none] })
  | (.ok id, world) =>
    (.ok ⟨l.sequences, id⟩,
      { l with
        world := world
        sequences := l.sequences + 1
        calls := l.calls ++ [.createSequence m (some l.sequences)] })

def destroySequence (m : ModelRef) (s : SequenceRef) :
    Except SequenceError Unit × BackendState σ :=
  let result := b.destroySequence s (l.destroyCalls s)
  (result, l.record (.destroySequence m s result.isOk))

def prepareUnload (m : ModelRef) : Except SynchronizationError Unit × BackendState σ :=
  let result := b.prepareUnload m (l.unloadCalls m)
  (result, l.record (.prepareUnload m result.isOk))

/-- A slice after a callee wrote `written` into it: its length stays. -/
def overwrite {α : Type} (slice written : List α) : List α := slice.mapIdx fun i x => written.getD i x

@[simp] theorem length_overwrite {α : Type} (slice written : List α) :
    (overwrite slice written).length = slice.length := by
  simp [overwrite]

/-- One checked prefill: the outcome, the logits slice and the backend after it. -/
def prefillChecked (m : ModelRef) (s : SequenceRef) (input : PrefillInput) (logits : List F32)
    (cancellation : CancellationStatus) :
    Except SequenceError PrefillOutcome × List F32 × BackendState σ :=
  match cancellation.reason with
  | some reason => (.ok (.finished (.cancelled reason)), logits, l)
  | none =>
  if b.sequenceState l.world s = .finished then (.error .invalidState, logits, l)
  else
  let availableTokens := b.tokenCapacity l.world s - b.position l.world s
  if availableTokens < input.tokens.length then
    (.ok (.finished (.bufferExhausted ⟨.tokens, input.tokens.length, availableTokens⟩)), logits, l)
  else
  let required := b.prefillBufferRequirements l.world m s input
  let l := l.record (.prefill m s)
  if logits.length < required then
    (.ok (.finished (.bufferExhausted ⟨.logits, required, logits.length⟩)), logits, l)
  else
  match b.prefillPrepared l.world m s input logits with
  | (result, written, world) =>
    let outcome := match result with
      | .ok outcome => .ok outcome
      | .error (.capacityExhausted capacity) => .ok (.finished (.bufferExhausted capacity))
      | .error (.cancelled reason) => .ok (.finished (.cancelled reason))
      | .error error => .error error
    (outcome, overwrite logits written, { l with world := world })

/-- One checked decode step. -/
def decodeChecked (m : ModelRef) (s : SequenceRef) (token : TokenId) (logits : List F32)
    (cancellation : CancellationStatus) :
    Except SequenceError DecodeOutcome × List F32 × BackendState σ :=
  match cancellation.reason with
  | some reason => (.ok (.finished (.cancelled reason)), logits, l)
  | none =>
  if b.sequenceState l.world s ≠ .ready then (.error .invalidState, logits, l)
  else
  let availableTokens := b.tokenCapacity l.world s - b.position l.world s
  if availableTokens = 0 then
    (.ok (.finished (.bufferExhausted ⟨.tokens, 1, 0⟩)), logits, l)
  else
  let required := b.decodeBufferRequirements l.world m s token
  let l := l.record (.decode m s)
  if logits.length < required then
    (.ok (.finished (.bufferExhausted ⟨.logits, required, logits.length⟩)), logits, l)
  else
  match b.decodePrepared l.world m s token logits with
  | (result, written, world) =>
    let outcome := match result with
      | .ok outcome => .ok outcome
      | .error (.capacityExhausted capacity) => .ok (.finished (.bufferExhausted capacity))
      | .error (.cancelled reason) => .ok (.finished (.cancelled reason))
      | .error error => .error error
    (outcome, overwrite logits written, { l with world := world })

/-! ### What a call adds to the record -/

/-- From `l` to `l'` the backend made `models` models and `sequences`
sequences and took `calls`. -/
structure Advance (l : BackendState σ) (models sequences : ℕ) (calls : List BackendCall)
    (l' : BackendState σ) : Prop where
  models : l'.models = l.models + models
  sequences : l'.sequences = l.sequences + sequences
  calls : l'.calls = l.calls ++ calls

theorem Advance.refl : Advance l 0 0 [] l := ⟨rfl, rfl, by simp⟩

theorem Advance.trans {l l' l'' : BackendState σ} {m n m' n' : ℕ} {cs cs' : List BackendCall}
    (h : Advance l m n cs l') (h' : Advance l' m' n' cs' l'') :
    Advance l (m + m') (n + n') (cs ++ cs') l'' :=
  ⟨by rw [h'.models, h.models, Nat.add_assoc], by rw [h'.sequences, h.sequences, Nat.add_assoc],
    by rw [h'.calls, h.calls, List.append_assoc]⟩

theorem record_advance (c : BackendCall) : Advance l 0 0 [c] (l.record c) := ⟨rfl, rfl, rfl⟩

theorem planLoad_advance (source : Source) (configuration : LoadConfiguration) :
    Advance l 0 0 [] (l.planLoad b source configuration).2 := ⟨rfl, rfl, by simp [planLoad]⟩

theorem load_error_advance {source : Source} {configuration : LoadConfiguration} {e : LoadError}
    {l' : BackendState σ} (h : l.load b source configuration = (.error e, l')) :
    Advance l 0 0 [] l' := by
  unfold load at h
  split at h
  · cases h; exact ⟨rfl, rfl, by simp⟩
  · cases h

theorem load_ok_advance {source : Source} {configuration : LoadConfiguration} {m : ModelRef}
    {model : LoadedModel} {l' : BackendState σ}
    (h : l.load b source configuration = (.ok (m, model), l')) :
    m = l.models ∧ Advance l 1 0 [.load m] l' := by
  unfold load at h
  split at h
  · cases h
  · cases h; exact ⟨rfl, rfl, rfl, rfl⟩

theorem planSequence_advance (m : ModelRef) (configuration : SequenceConfiguration) :
    Advance l 0 0 [.planSequence m] (l.planSequence b m configuration).2 := ⟨rfl, rfl, rfl⟩

theorem createSequence_error_advance {m : ModelRef} {sequenceId : SequenceId}
    {configuration : SequenceConfiguration} {e : ModelError} {l' : BackendState σ}
    (h : l.createSequence b m sequenceId configuration = (.error e, l')) :
    Advance l 0 0 [.createSequence m none] l' := by
  unfold createSequence at h
  split at h
  · cases h; exact ⟨rfl, rfl, rfl⟩
  · cases h

theorem createSequence_ok_advance {m : ModelRef} {sequenceId : SequenceId}
    {configuration : SequenceConfiguration} {s : BackendSequence} {l' : BackendState σ}
    (h : l.createSequence b m sequenceId configuration = (.ok s, l')) :
    s.ref = l.sequences ∧ Advance l 0 1 [.createSequence m (some s.ref)] l' := by
  unfold createSequence at h
  split at h
  · cases h
  · cases h; exact ⟨rfl, rfl, rfl, rfl⟩

theorem destroySequence_advance {m : ModelRef} {s : SequenceRef} {r : Except SequenceError Unit}
    {l' : BackendState σ} (h : l.destroySequence b m s = (r, l')) :
    Advance l 0 0 [.destroySequence m s r.isOk] l' := by
  cases h; exact record_advance _ _

theorem prepareUnload_advance {m : ModelRef} {r : Except SynchronizationError Unit}
    {l' : BackendState σ} (h : l.prepareUnload b m = (r, l')) :
    Advance l 0 0 [.prepareUnload m r.isOk] l' := by
  cases h; exact record_advance _ _

/-! ### Checked steps

`prefillChecked` and `decodeChecked` make the same checks of other values. -/

/-- What a checked step takes: its call, whether the state of its sequence
refuses it, the tokens it needs and those there are, the logits it needs, how
it reports an end, and what the backend answers. -/
structure CheckedStep (σ α : Type) where
  call : BackendCall
  refused : Prop
  decidable : Decidable refused
  tokens : ℕ
  available : ℕ
  required : ℕ
  finished : FinishReason → α
  prepared : Except SequenceError α × List F32 × σ

attribute [instance] CheckedStep.decidable

namespace CheckedStep

variable {α : Type} (step : CheckedStep σ α)

def run (logits : List F32) (cancellation : CancellationStatus) : Except SequenceError α × List F32 × BackendState σ :=
  match cancellation.reason with
  | some reason => (.ok (step.finished (.cancelled reason)), logits, l)
  | none =>
  if step.refused then (.error .invalidState, logits, l)
  else if step.available < step.tokens then
    (.ok (step.finished (.bufferExhausted ⟨.tokens, step.tokens, step.available⟩)), logits, l)
  else if logits.length < step.required then
    (.ok (step.finished (.bufferExhausted ⟨.logits, step.required, logits.length⟩)), logits, l.record step.call)
  else
    let outcome := match step.prepared.1 with
      | .ok outcome => .ok outcome
      | .error (.capacityExhausted capacity) => .ok (step.finished (.bufferExhausted capacity))
      | .error (.cancelled reason) => .ok (step.finished (.cancelled reason))
      | .error error => .error error
    (outcome, overwrite logits step.prepared.2.1, { l.record step.call with world := step.prepared.2.2 })

/-- A checked step takes its one call or none. -/
theorem run_advance (logits : List F32) (cancellation : CancellationStatus) :
    Advance l 0 0 [] (step.run l logits cancellation).2.2 ∨
      Advance l 0 0 [step.call] (step.run l logits cancellation).2.2 := by
  unfold run
  split
  · exact .inl (.refl l)
  split_ifs
  · exact .inl (.refl l)
  · exact .inl (.refl l)
  · exact .inr (record_advance l step.call)
  · exact .inr ⟨rfl, rfl, rfl⟩

/-- A checked step changes the world as the backend does, or not at all. -/
theorem run_world (logits : List F32) (cancellation : CancellationStatus) :
    (step.run l logits cancellation).2.2.world = l.world ∨
      (step.run l logits cancellation).2.2.world = step.prepared.2.2 := by
  unfold run
  split
  · exact .inl rfl
  split_ifs
  · exact .inl rfl
  · exact .inl rfl
  · exact .inl rfl
  · exact .inr rfl

/-- A checked step that goes on passed its checks, and is what the backend answered. -/
theorem run_ok {logits logits' : List F32} {outcome : α} {l' : BackendState σ}
    (h : step.run l logits .running = (.ok outcome, logits', l')) (hgoes : ∀ reason, outcome ≠ step.finished reason) :
    step.tokens ≤ step.available ∧ step.prepared.1 = .ok outcome ∧ logits' = overwrite logits step.prepared.2.1 ∧
      l'.world = step.prepared.2.2 := by
  have hended : ∀ reason, Except.ok (step.finished reason) ≠ (.ok outcome : Except SequenceError α) :=
    fun reason heq => hgoes reason (Except.ok.inj heq).symm
  unfold run at h
  dsimp only [CancellationStatus.reason] at h
  split_ifs at h with _ htokens
  · cases h
  · exact absurd (Prod.mk.inj h).1 (hended _)
  · exact absurd (Prod.mk.inj h).1 (hended _)
  obtain ⟨hresult, h⟩ := Prod.mk.inj h
  obtain ⟨rfl, rfl⟩ := Prod.mk.inj h
  refine ⟨Nat.le_of_not_lt htokens, ?_, rfl, rfl⟩
  split at hresult
  · next hprepared => rw [hprepared, hresult]
  · exact absurd hresult (hended _)
  · exact absurd hresult (hended _)
  · cases hresult

end CheckedStep

/-- `prefillChecked` as a checked step. -/
def prefillStep (m : ModelRef) (s : SequenceRef) (input : PrefillInput) (logits : List F32) :
    CheckedStep σ PrefillOutcome where
  call := .prefill m s
  refused := b.sequenceState l.world s = .finished
  decidable := inferInstance
  tokens := input.tokens.length
  available := b.tokenCapacity l.world s - b.position l.world s
  required := b.prefillBufferRequirements l.world m s input
  finished := .finished
  prepared := b.prefillPrepared l.world m s input logits

theorem prefillChecked_eq (m : ModelRef) (s : SequenceRef) (input : PrefillInput) (logits : List F32)
    (cancellation : CancellationStatus) : l.prefillChecked b m s input logits cancellation =
      (l.prefillStep b m s input logits).run l logits cancellation := by
  rcases hprepared : b.prefillPrepared l.world m s input logits with ⟨e | outcome, written, world⟩ <;>
    simp only [prefillChecked, CheckedStep.run, prefillStep, record, hprepared]
  cases e <;> rfl

/-- `decodeChecked` as a checked step. -/
def decodeStep (m : ModelRef) (s : SequenceRef) (token : TokenId) (logits : List F32) :
    CheckedStep σ DecodeOutcome where
  call := .decode m s
  refused := b.sequenceState l.world s ≠ .ready
  decidable := inferInstance
  tokens := 1
  available := b.tokenCapacity l.world s - b.position l.world s
  required := b.decodeBufferRequirements l.world m s token
  finished := .finished
  prepared := b.decodePrepared l.world m s token logits

theorem decodeChecked_eq (m : ModelRef) (s : SequenceRef) (token : TokenId) (logits : List F32)
    (cancellation : CancellationStatus) : l.decodeChecked b m s token logits cancellation =
      (l.decodeStep b m s token logits).run l logits cancellation := by
  rcases havailable : b.tokenCapacity l.world s - b.position l.world s with _ | available
  · simp only [decodeChecked, CheckedStep.run, decodeStep, havailable, Nat.lt_one_iff, if_true]
  rcases hprepared : b.decodePrepared l.world m s token logits with ⟨e | outcome, written, world⟩ <;>
    simp only [decodeChecked, CheckedStep.run, decodeStep, record, havailable, hprepared, Nat.lt_one_iff,
      Nat.add_one_ne_zero, if_false]
  cases e <;> rfl

end BackendState

/-! ### A backend by its answers -/

/-- A backend that makes whatever it is asked for and steps without failing:
every model and sequence costs `footprint`, a sequence holds 8 tokens and the
vocabulary has 2. The cleanup calls succeed where the tables say so. -/
def Backend.scripted (footprint : MemoryFootprint) (destroys : SequenceRef → ℕ → Bool)
    (unloads : ModelRef → ℕ → Bool) : Backend Unit Unit where
  planLoad world _ _ := (.ok ⟨⟨0, ⟨.llama, .f32, .none, 2, 8⟩, ⟨0, 8, 8, 8⟩, footprint⟩, footprint⟩, world)
  load world _ _ configuration := (.ok ⟨configuration.handle, ⟨.llama, .f32, .none, 2, 8⟩⟩, world)
  planSequence world _ configuration := (.ok ⟨configuration, footprint, 2⟩, world)
  createSequence world _ _ sequenceId _ := (.ok sequenceId, world)
  sequenceState _ _ := .ready
  position _ _ := 0
  tokenCapacity _ _ := 8
  prefillBufferRequirements _ _ _ _ := 2
  decodeBufferRequirements _ _ _ _ := 2
  prefillPrepared world _ _ input logits :=
    (.ok (.ready input.tokens.length input.tokens.length 2), logits, world)
  decodePrepared world _ _ _ logits := (.ok (.ready 1 2), logits, world)
  destroySequence s n := if destroys s n then .ok () else .error .invalidState
  prepareUnload m n := if unloads m n then .ok () else .error .invalidState

end LlmApp
