/-
# The text output accumulator

The accumulator between the decoded text of a generation and a frame-clocked
consumer: a bounded vector of UTF-8 bytes and a bounded vector of records,
behind a mutex. A push finds the mutex free, held or poisoned; only then does
it look at the accumulator. A pull takes everything and moves the cursor.

The vectors are reserved when the accumulator is made: `Vec::try_reserve_exact`
refuses more than `isize::MAX` bytes, and what the allocator refuses.

Key definitions: `TextOutput`, `TextOutput.tryPushText`,
`TextOutput.tryPushRecord`, `TextOutput.pull`, `outputAccumulator`.
-/
import LlmApp.Data.Utf8
import LlmApp.Output

namespace LlmApp

/-- Whether a vector of `capacity` elements of `size` bytes each is reserved. -/
def tryReserveExact (allocate : ℕ → Bool) (capacity size : ℕ) : Bool :=
  capacity * size ≤ isizeMax && allocate (capacity * size)

theorem tryReserveExact_le {allocate : ℕ → Bool} {capacity size : ℕ} (h : tryReserveExact allocate capacity size = true)
    (hsize : 0 < size) : capacity ≤ isizeMax := by
  have hle : capacity * size ≤ isizeMax := by
    simp only [tryReserveExact, Bool.and_eq_true, decide_eq_true_eq] at h
    exact h.1
  exact (Nat.le_mul_of_pos_right capacity hsize).trans hle

/-- How a push finds the mutex. -/
inductive MutexState where
  | free | held | poisoned
deriving DecidableEq, Repr

def MutexState.tryLock : MutexState → Except OutputPushError Unit
  | .free => .ok ()
  | .held => .error .consumerBusy
  | .poisoned => .error .poisoned

/-! ### Records -/

/-- `length` bytes from `start` within the bytes of a batch. -/
structure ByteRange where
  start : ℕ
  length : ℕ
deriving DecidableEq, Repr

inductive OutputRecordKind where
  | text (range : ByteRange)
  | yielded (reason : YieldReason)
  | finished (reason : FinishReason)
deriving DecidableEq, Repr

def OutputRecordKind.isText : OutputRecordKind → Bool
  | .text _ => true
  | _ => false

structure OutputRecord where
  requestId : RequestId
  kind : OutputRecordKind
deriving DecidableEq, Repr

/-- A pulled batch; `finish` is the source's `end`. -/
structure OutputBatch where
  start : ℕ
  finish : ℕ
  bytes : List UInt8
  records : List OutputRecord
deriving DecidableEq

/-! ### The accumulator -/

structure TextOutput where
  start : ℕ
  bytes : List UInt8
  records : List OutputRecord
  byteCapacity : ℕ
  recordCapacity : ℕ
deriving DecidableEq

inductive OutputInitializationError where
  | byteStorage | recordStorage
deriving DecidableEq, Repr

/-- A record takes `recordSize` bytes, and a byte one. -/
def outputAccumulator (allocate : ℕ → Bool) (recordSize byteCapacity recordCapacity : ℕ) :
    Except OutputInitializationError TextOutput := do
  Except.failIf (tryReserveExact allocate byteCapacity 1 = false) .byteStorage
  Except.failIf (tryReserveExact allocate recordCapacity recordSize = false) .recordStorage
  return ⟨0, [], [], byteCapacity, recordCapacity⟩

namespace TextOutput

variable (o : TextOutput)

def ensureRecordCapacity : Except OutputPushError Unit :=
  let required := saturatingAdd u64Max o.records.length 1
  Except.failIf (o.recordCapacity < required) (.capacityExhausted ⟨.outputRecords, required, o.recordCapacity⟩)

/-- The checks of a push of text. -/
def checkText (mutex : MutexState) (text : String) : Except OutputPushError Unit := do
  mutex.tryLock
  let requiredBytes := saturatingAdd u64Max o.bytes.length (utf8 text).length
  Except.failIf (o.byteCapacity < requiredBytes) (.capacityExhausted ⟨.outputBytes, requiredBytes, o.byteCapacity⟩)
  o.ensureRecordCapacity

def tryPushText (mutex : MutexState) (requestId : RequestId) (text : String) :
    Except OutputPushError Unit × TextOutput :=
  match o.checkText mutex text with
  | .error e => (.error e, o)
  | .ok () =>
    (.ok (), { o with
      bytes := o.bytes ++ utf8 text
      records := o.records ++ [⟨requestId, .text ⟨o.bytes.length, (utf8 text).length⟩⟩] })

/-- The checks of a push of another record. -/
def checkRecord (mutex : MutexState) (kind : OutputRecordKind) : Except OutputPushError Unit := do
  Except.failIf (kind.isText = true) .invalidRecordKind
  mutex.tryLock
  o.ensureRecordCapacity

def tryPushRecord (mutex : MutexState) (requestId : RequestId) (kind : OutputRecordKind) :
    Except OutputPushError Unit × TextOutput :=
  match o.checkRecord mutex kind with
  | .error e => (.error e, o)
  | .ok () => (.ok (), { o with records := o.records ++ [⟨requestId, kind⟩] })

/-- What a pull hands to its callback. -/
def batch : OutputBatch := ⟨o.start, saturatingAdd u64Max o.start o.bytes.length, o.bytes, o.records⟩

def pull : OutputBatch × TextOutput := (o.batch, { o with start := o.batch.finish, bytes := [], records := [] })

end TextOutput

end LlmApp
