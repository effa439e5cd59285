/-
# The contracts shared by the engines

The identifiers, capacities, footprints, outcomes and failures of
`domain-contracts`, under the source's names. An identifier is its number. A
machine integer is a natural number, and an operation the source checks for
overflow is checked here against the width of its type (`checkedAdd u32Max`,
`checkedAdd u64Max`); `usize` is 64 bits wide. A 32-bit float is its bits:
nothing modelled here looks inside one.

A footprint is added field by field and forms a commutative monoid, so the
registry's totals are sums; `checkedAddFootprint` and `checkedSubFootprint`
(in `LlmApp.Runtime.State`) are that sum and its inverse where they succeed.
-/
import Mathlib

namespace LlmApp

/-! ### Identifiers and integers -/

abbrev ModelId := ℕ
abbrev ModelGeneration := ℕ
abbrev SequenceId := ℕ
abbrev RequestId := ℕ
abbrev BackendId := ℕ
abbrev DeviceId := ℕ
abbrev TokenId := ℕ
abbrev TaskId := ℕ
abbrev ArtifactId := ℕ
abbrev MonotonicMillis := ℕ

/-- The bits of an `f32`. -/
abbrev F32 := BitVec 32

def u16Max : ℕ := 65535
def u32Max : ℕ := 4294967295
def u64Max : ℕ := 18446744073709551615
def isizeMax : ℕ := 9223372036854775807

/-- `a.checked_add(b)` in a type whose largest value is `max`. -/
def checkedAdd (max a b : ℕ) : Option ℕ := if a + b ≤ max then some (a + b) else none

/-- `a.checked_sub(b)`. -/
def checkedSub (a b : ℕ) : Option ℕ := if b ≤ a then some (a - b) else none

/-- `a.checked_mul(b)` in a type whose largest value is `max`. -/
def checkedMul (max a b : ℕ) : Option ℕ := if a * b ≤ max then some (a * b) else none

/-- `a.saturating_add(b)` in a type whose largest value is `max`. -/
def saturatingAdd (max a b : ℕ) : ℕ := min max (a + b)

theorem checkedAdd_eq_some {max a b c : ℕ} :
    checkedAdd max a b = some c ↔ a + b = c ∧ c ≤ max := by
  unfold checkedAdd
  split_ifs with h
  · simp only [Option.some.injEq]; omega
  · simp only [false_iff]; omega

theorem checkedSub_eq_some {a b c : ℕ} : checkedSub a b = some c ↔ c + b = a := by
  unfold checkedSub
  split_ifs with h
  · simp only [Option.some.injEq]; omega
  · simp only [false_iff]; omega

/-- A `NonZeroU32`. -/
structure NonZeroU32 where
  get : ℕ
  pos : 0 < get
  le : get ≤ u32Max
deriving DecidableEq, Repr

/-- A `NonZeroU16`. -/
@[ext] structure NonZeroU16 where
  get : ℕ
  pos : 0 < get
  le : get ≤ u16Max
deriving Repr

instance : DecidableEq NonZeroU16 := fun _ _ => decidable_of_iff _ NonZeroU16.ext_iff.symm

/-- Numerals; one past the range saturates. -/
instance (n : ℕ) : OfNat NonZeroU32 (n + 1) :=
  ⟨⟨min (n + 1) u32Max, lt_min n.succ_pos (by decide), min_le_right _ _⟩⟩

instance (n : ℕ) : OfNat NonZeroU16 (n + 1) :=
  ⟨⟨min (n + 1) u16Max, lt_min n.succ_pos (by decide), min_le_right _ _⟩⟩

/-- A runtime handle for one loaded generation of a model. -/
structure ModelHandle where
  id : ModelId
  generation : ModelGeneration
deriving DecidableEq, Repr

/-! ### Capacities -/

inductive CapacityResource where
  | tokens | logits | candidateIndices | repetitionHistory | decodeBytes | outputBytes
  | outputRecords | backendScratch | activeRequests | activeSequences | prefillBatch
  | contextEntries | samplingIndices | samplingMask | taskNodes | taskEdges
deriving DecidableEq, Repr

structure CapacityExhausted where
  resource : CapacityResource
  required : ℕ
  available : ℕ
deriving DecidableEq, Repr

/-! ### Backend failures -/

inductive BackendFailureKind where
  | invalidModel | unsupported | hostMemory | deviceMemory | deviceExecution | synchronization
  | foreignFunction | invalidState | internal
deriving DecidableEq, Repr

structure BackendFailure where
  backend : BackendId
  kind : BackendFailureKind
  code : ℕ
deriving DecidableEq, Repr

inductive CancellationReason where
  | userRequested | modelUnload | drainTimeout | runtimeShutdown | parentTask
deriving DecidableEq, Repr

inductive LoadError where
  | invalidSource | unsupportedArchitecture | unsupportedFormat | invalidConfiguration
  | capacityExhausted (capacity : CapacityExhausted)
  | insufficientMemory (requiredBytes availableBytes : ℕ)
  | cancelled (reason : CancellationReason)
  | backend (failure : BackendFailure)
deriving DecidableEq, Repr

inductive ModelError where
  | invalidState | unsupported
  | capacityExhausted (capacity : CapacityExhausted)
  | backend (failure : BackendFailure)
deriving DecidableEq, Repr

inductive SequenceError where
  | invalidState
  | capacityExhausted (capacity : CapacityExhausted)
  | unsupported
  | cancelled (reason : CancellationReason)
  | backend (failure : BackendFailure)
deriving DecidableEq, Repr

inductive SynchronizationError where
  | invalidState
  | cancelled (reason : CancellationReason)
  | backend (failure : BackendFailure)
deriving DecidableEq, Repr

/-! ### Generation -/

/-- Cancellation read before one backend step. -/
inductive CancellationStatus where
  | running
  | requested (reason : CancellationReason)
deriving DecidableEq, Repr

def CancellationStatus.reason : CancellationStatus → Option CancellationReason
  | .running => none
  | .requested reason => some reason

inductive FinishReason where
  | endOfSequence (token : TokenId)
  | tokenLimit
  | stopCondition
  | bufferExhausted (capacity : CapacityExhausted)
  | cancelled (reason : CancellationReason)
deriving DecidableEq, Repr

inductive YieldReason where
  | outputBackpressure (capacity : CapacityExhausted)
  | scheduler
  | backendPending
deriving DecidableEq, Repr

structure GenerationUsage where
  promptTokens : ℕ := 0
  generatedTokens : ℕ := 0
deriving DecidableEq, Repr

inductive PrefillOutcome where
  | ready (consumedTokens position logitsWritten : ℕ)
  | finished (reason : FinishReason)
deriving DecidableEq, Repr

inductive DecodeOutcome where
  | ready (position logitsWritten : ℕ)
  | finished (reason : FinishReason)
deriving DecidableEq, Repr

/-! ### Models -/

inductive ModelArchitecture where
  | llama | mistral | gemma | qwen
  | other (code : ℕ)
deriving DecidableEq, Repr

inductive ScalarType where
  | f32 | f16 | bf16 | i8 | u8
  | other (code : ℕ)
deriving DecidableEq, Repr

inductive QuantizationFormat where
  | none | int8 | int4
  | gguf (code : ℕ)
  | other (code : ℕ)
deriving DecidableEq, Repr

inductive DeviceKind where
  | cpu | cuda | metal
  | accelerator (code : ℕ)
deriving DecidableEq, Repr

structure ModelCapabilities where
  operations : ℕ
  maximumContextTokens : ℕ
  maximumSequences : ℕ
  maximumPrefillBatch : ℕ
deriving DecidableEq, Repr

/-- Estimated or observed memory, in bytes. -/
@[ext] structure MemoryFootprint where
  hostWeightBytes : ℕ := 0
  deviceWeightBytes : ℕ := 0
  hostWorkingBytes : ℕ := 0
  deviceWorkingBytes : ℕ := 0
  cacheBytesPerToken : ℕ := 0
deriving DecidableEq, Repr

structure MemoryBudget where
  hostBytes : ℕ
  deviceBytes : ℕ
deriving DecidableEq, Repr

structure ModelMetadata where
  architecture : ModelArchitecture
  scalarType : ScalarType
  quantization : QuantizationFormat
  vocabularySize : ℕ
  contextLength : ℕ
deriving DecidableEq, Repr

structure ModelDescriptor where
  backend : BackendId
  metadata : ModelMetadata
  capabilities : ModelCapabilities
  estimatedFootprint : MemoryFootprint
deriving DecidableEq, Repr

structure LoadConfiguration where
  handle : ModelHandle
  device : DeviceId
  deviceKind : DeviceKind
  memoryBudget : MemoryBudget
deriving DecidableEq, Repr

structure LoadPlan where
  descriptor : ModelDescriptor
  expectedFootprint : MemoryFootprint
deriving DecidableEq, Repr

structure SequenceConfiguration where
  maximumTokens : NonZeroU32
  maximumPrefillBatch : NonZeroU32
deriving DecidableEq, Repr

structure SequencePlan where
  configuration : SequenceConfiguration
  expectedFootprint : MemoryFootprint
  logitsCapacity : ℕ
deriving DecidableEq, Repr

/-! ### Footprints add field by field -/

namespace MemoryFootprint

/-- Host bytes outside the caches. -/
def hostBytes (f : MemoryFootprint) : ℕ := saturatingAdd u64Max f.hostWeightBytes f.hostWorkingBytes

/-- Device bytes outside the caches. -/
def deviceBytes (f : MemoryFootprint) : ℕ :=
  saturatingAdd u64Max f.deviceWeightBytes f.deviceWorkingBytes

instance : Zero MemoryFootprint := ⟨{}⟩

instance : Add MemoryFootprint := ⟨fun a b =>
  { hostWeightBytes := a.hostWeightBytes + b.hostWeightBytes
    deviceWeightBytes := a.deviceWeightBytes + b.deviceWeightBytes
    hostWorkingBytes := a.hostWorkingBytes + b.hostWorkingBytes
    deviceWorkingBytes := a.deviceWorkingBytes + b.deviceWorkingBytes
    cacheBytesPerToken := a.cacheBytesPerToken + b.cacheBytesPerToken }⟩

theorem zero_def : (0 : MemoryFootprint) = {} := rfl

@[simp] theorem add_hostWeightBytes (a b : MemoryFootprint) :
    (a + b).hostWeightBytes = a.hostWeightBytes + b.hostWeightBytes := rfl
@[simp] theorem add_deviceWeightBytes (a b : MemoryFootprint) :
    (a + b).deviceWeightBytes = a.deviceWeightBytes + b.deviceWeightBytes := rfl
@[simp] theorem add_hostWorkingBytes (a b : MemoryFootprint) :
    (a + b).hostWorkingBytes = a.hostWorkingBytes + b.hostWorkingBytes := rfl
@[simp] theorem add_deviceWorkingBytes (a b : MemoryFootprint) :
    (a + b).deviceWorkingBytes = a.deviceWorkingBytes + b.deviceWorkingBytes := rfl
@[simp] theorem add_cacheBytesPerToken (a b : MemoryFootprint) :
    (a + b).cacheBytesPerToken = a.cacheBytesPerToken + b.cacheBytesPerToken := rfl

instance : AddCancelCommMonoid MemoryFootprint where
  add_assoc a b c := by ext <;> simp [Nat.add_assoc]
  zero_add a := by ext <;> simp [zero_def]
  add_zero a := by ext <;> simp [zero_def]
  add_comm a b := by ext <;> simp [Nat.add_comm]
  add_left_cancel a b c h := by
    obtain ⟨h1, h2, h3, h4, h5⟩ := MemoryFootprint.ext_iff.mp h
    ext
    · exact Nat.add_left_cancel h1
    · exact Nat.add_left_cancel h2
    · exact Nat.add_left_cancel h3
    · exact Nat.add_left_cancel h4
    · exact Nat.add_left_cancel h5
  nsmul := nsmulRec

/-- Every field fits a `u64`. -/
def Fits (f : MemoryFootprint) : Prop :=
  f.hostWeightBytes ≤ u64Max ∧ f.deviceWeightBytes ≤ u64Max ∧ f.hostWorkingBytes ≤ u64Max ∧
    f.deviceWorkingBytes ≤ u64Max ∧ f.cacheBytesPerToken ≤ u64Max

instance (f : MemoryFootprint) : Decidable f.Fits := inferInstanceAs (Decidable (_ ∧ _))

theorem Fits.of_add {a b : MemoryFootprint} (h : (a + b).Fits) : a.Fits := by
  simp only [Fits, add_hostWeightBytes, add_deviceWeightBytes, add_hostWorkingBytes,
    add_deviceWorkingBytes, add_cacheBytesPerToken] at *
  omega

end MemoryFootprint

end LlmApp
