/-
# Incremental UTF-8

The decoder of a byte stream that comes in pieces. It keeps the bytes of at most
one character, by the first of which it knows how many to wait for; it hands the
character on when it is complete and `str::from_utf8` accepts it. The sink of the
text is a parameter with its contract: a fragment that fits is appended and
takes no more than its own room (`TextSink.push_fits`). `TextBuffer` is a sink
over a slice of fixed size.

The state of a run records how many bytes were taken, which no function reads.

Key definitions: `TextSink`, `TextBuffer`, `IncrementalUtf8Decoder`, `pushBytes`,
`finish`, `decodeStream`.
-/
import LlmApp.Contracts
import LlmApp.Data.Buffer
import LlmApp.Data.Except
import LlmApp.Data.Fallible
import LlmApp.Data.Utf8Stream

namespace LlmApp

inductive TokenizationError where
  | capacityExhausted (error : CapacityExhausted)
  | unknownToken (token : TokenId)
  | invalidUtf8 (byte : UInt8)
  | incompleteUtf8 (bufferedBytes : ℕ)
  | implementation (code : ℕ)
deriving DecidableEq, Repr

/-! ### Sinks -/

/-- `TextSink`, with the bytes that a sink holds. -/
structure TextSink (S : Type) where
  remainingCapacity : S → ℕ
  pushStr : S → String → Except TokenizationError Unit × S
  written : S → List UInt8
  push_fits : ∀ {s text}, (utf8 text).length ≤ remainingCapacity s → (pushStr s text).1 = .ok () ∧
    written (pushStr s text).2 = written s ++ utf8 text ∧
      remainingCapacity s ≤ remainingCapacity (pushStr s text).2 + (utf8 text).length

/-- A slice of bytes, of which the first ones are in use. -/
def TextBuffer : Type := { b : Buffer UInt8 // b.used ≤ b.cells.length ∧ b.cells.length ≤ isizeMax }

namespace TextBuffer

def remainingCapacity (buffer : TextBuffer) : ℕ := buffer.1.cells.length - buffer.1.used

/-- The committed bytes. -/
def written (buffer : TextBuffer) : List UInt8 := buffer.1.cells.take buffer.1.used

theorem holds (buffer : TextBuffer) : buffer.1.Holds buffer.1.cells.length buffer.written := by
  refine ⟨rfl, ?_, rfl⟩
  rw [written, List.length_take, min_eq_left buffer.2.1]

theorem write_fits {buffer : TextBuffer} {bytes : List UInt8} {b : Buffer UInt8} (h : buffer.1.write bytes = some b) :
    b.used ≤ b.cells.length ∧ b.cells.length ≤ isizeMax := by
  have hwritten := buffer.holds.write h
  have hle := hwritten.le
  rw [← hwritten.used] at hle
  rw [hwritten.length]
  exact ⟨hle, buffer.2.2⟩

def pushStr (buffer : TextBuffer) (text : String) : Except TokenizationError Unit × TextBuffer :=
  let bytes := utf8 text
  let available := buffer.remainingCapacity
  if available < bytes.length then (.error (.capacityExhausted ⟨.decodeBytes, bytes.length, available⟩), buffer)
  else
    match h : buffer.1.write bytes with
    | none => (.error (.capacityExhausted ⟨.decodeBytes, bytes.length, available⟩), buffer)
    | some b => (.ok (), ⟨b, write_fits h⟩)

theorem pushStr_fits {buffer : TextBuffer} {text : String} (h : (utf8 text).length ≤ buffer.remainingCapacity) :
    (buffer.pushStr text).1 = .ok () ∧ (buffer.pushStr text).2.written = buffer.written ++ utf8 text ∧
      buffer.remainingCapacity ≤ (buffer.pushStr text).2.remainingCapacity + (utf8 text).length := by
  have hused := buffer.2.1
  rw [pushStr, if_neg h.not_gt]
  unfold remainingCapacity at h
  split
  · next hnone =>
    have hlt := Buffer.write_eq_none_iff.mp hnone
    omega
  · next b hsome =>
    have hwritten := buffer.holds.write hsome
    refine ⟨rfl, hwritten.contents, ?_⟩
    have hlength := hwritten.used
    rw [List.length_append, ← buffer.holds.used] at hlength
    simp only [remainingCapacity, hwritten.length, hlength]
    omega

end TextBuffer

def textBuffer : TextSink TextBuffer where
  remainingCapacity := TextBuffer.remainingCapacity
  pushStr := TextBuffer.pushStr
  written := TextBuffer.written
  push_fits := TextBuffer.pushStr_fits

/-! ### The decoder -/

structure IncrementalUtf8Decoder where
  pending : Vector UInt8 4
  pendingLength : UInt8
  expectedLength : UInt8
deriving DecidableEq, Repr

/-- `IncrementalUtf8Decoder::new`, and the decoder after `reset`. -/
def IncrementalUtf8Decoder.new : IncrementalUtf8Decoder := ⟨.replicate 4 0, 0, 0⟩

def IncrementalUtf8Decoder.finish (decoder : IncrementalUtf8Decoder) : Except TokenizationError Unit :=
  Except.failIf (decoder.pendingLength ≠ 0) (.incompleteUtf8 decoder.pendingLength.toNat)

/-- A decoder with its sink, and how many bytes it took. -/
structure Decoding (S : Type) where
  decoder : IncrementalUtf8Decoder
  output : S
  taken : ℕ

/-- A byte that is not ASCII starts a character of two to four bytes, or none. -/
theorem leadLength_multibyte {byte : UInt8} (h : ¬byte < 0x80) :
    match multibyteLength byte with
    | none => leadLength byte = none
    | some n => leadLength byte = some n ∧ 2 ≤ n ∧ n ≤ 4 := by
  have hlead : leadLength byte = multibyteLength byte := if_neg h
  split
  · next hnone => rw [hlead, hnone]
  · next n hsome => exact ⟨hlead.trans hsome, multibyteLength_bounds hsome⟩

def u8SaturatingSucc (n : UInt8) : UInt8 := if n = 255 then 255 else n + 1

section Decoder

variable {S : Type} (sink : TextSink S)

def flushComplete : Fallible (Decoding S) TokenizationError Unit := fun s =>
  if s.decoder.pendingLength = 0 ∨ s.decoder.pendingLength ≠ s.decoder.expectedLength then (.ok (), s)
  else
    let length := s.decoder.expectedLength.toNat
    if 4 < length then (.error (.invalidUtf8 0), { s with decoder := .new })
    else
      let fragment := s.decoder.pending.toList.take length
      match fromUtf8 fragment with
      | none => (.error (.invalidUtf8 (fragment.getLastD 0)), { s with decoder := .new })
      | some text =>
        match sink.pushStr s.output text with
        | (.error e, output) => (.error e, { s with output })
        | (.ok (), output) => (.ok (), { s with decoder := .new, output })

def pushByte (byte : UInt8) : Fallible (Decoding S) TokenizationError Unit := fun s =>
  if s.decoder.pendingLength = 0 then
    if byte < 0x80 then
      flushComplete sink { s with decoder := ⟨s.decoder.pending.set 0 byte, 1, 1⟩ }
    else
      match multibyteLength byte with
      | none => (.error (.invalidUtf8 byte), s)
      | some length => (.ok (), { s with decoder := ⟨s.decoder.pending.set 0 byte, 1, .ofNat length⟩ })
  else if ¬IsContinuation byte then (.error (.invalidUtf8 byte), { s with decoder := .new })
  else if 4 ≤ s.decoder.pendingLength.toNat then (.error (.invalidUtf8 byte), { s with decoder := .new })
  else
    let decoder := { s.decoder with
      pending := s.decoder.pending.setIfInBounds s.decoder.pendingLength.toNat byte
      pendingLength := u8SaturatingSucc s.decoder.pendingLength }
    if decoder.pendingLength ≠ decoder.expectedLength then (.ok (), { s with decoder })
    else flushComplete sink { s with decoder }

/-- The loop over the bytes of a push. -/
def pushEach : List UInt8 → Fallible (Decoding S) TokenizationError Unit
  | [] => pure ()
  | byte :: bytes => do
    pushByte sink byte
    Fallible.update fun s => { s with taken := s.taken + 1 }
    pushEach bytes

def checkRoom (bytes : List UInt8) (s : Decoding S) : Except TokenizationError Unit :=
  let required := saturatingAdd u64Max s.decoder.pendingLength.toNat bytes.length
  Except.failIf (sink.remainingCapacity s.output < required)
    (.capacityExhausted ⟨.decodeBytes, required, sink.remainingCapacity s.output⟩)

def pushBytes (bytes : List UInt8) : Fallible (Decoding S) TokenizationError Unit := do
  Fallible.check (checkRoom sink bytes)
  flushComplete sink
  pushEach sink bytes

/-- The pushes of a stream that comes in chunks. -/
def pushAll : List (List UInt8) → Fallible (Decoding S) TokenizationError Unit
  | [] => pure ()
  | chunk :: chunks => do
    pushBytes sink chunk
    pushAll chunks

/-- A whole stream, and its end. -/
def decodeStream (chunks : List (List UInt8)) : Fallible (Decoding S) TokenizationError Unit := do
  pushAll sink chunks
  Fallible.check fun s => s.decoder.finish

end Decoder

end LlmApp
