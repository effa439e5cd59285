/-
# Inspection of a GGUF header

The inspection reads the header of a GGUF file from its start, as a stream: the
magic, the version, the number of metadata entries, then the entries. An entry
is a key, a value type and a value. The values of known keys are collected, all
others are skipped, and at the end the collected values are checked.

The reader hands out a bounded number of bytes. Each read of the file may return
fewer bytes than it was asked for (`FileReader.sizes`), and `readExact` repeats
it. A failed step leaves the reader where it failed. The state also records how
large the buffers are that strings are read into, which no function reads; memory
is short only for what exceeds `isize::MAX`. An `io::Error` is not modelled
beyond its kind.

Key definitions: `FileReader`, `BoundedReader`, `GgufMetadata`,
`readMetadataValue`, `CollectedMetadata.finish`, `inspectReader`.
-/
import LlmApp.Contracts
import LlmApp.Data.Bytes
import LlmApp.Data.Except
import LlmApp.Data.Text
import LlmApp.Data.Utf8

namespace LlmApp

structure GgufInspectionLimits where
  maximumHeaderBytes : UInt64
  maximumMetadataEntries : UInt64
  maximumStringBytes : UInt64
  maximumArrayElements : UInt64
deriving DecidableEq, Repr

structure GgufMetadata where
  architectureName : String
  architecture : ModelArchitecture
  scalarType : ScalarType
  quantization : QuantizationFormat
  vocabularySize : ℕ
  contextLength : ℕ
  blockCount : ℕ
  embeddingLength : ℕ
  attentionHeadCount : ℕ
  attentionHeadCountKv : ℕ
  fileType : ℕ
deriving DecidableEq, Repr

/-- The failures of `inspect_reader`. -/
inductive MetadataError where
  | read
  | invalidFormat
  | limitExceeded
  | invalidValue
  | numericOverflow
  | invalidUtf8
deriving DecidableEq, Repr

/-! ### Reading bytes -/

/-- An open file. A read returns all bytes it is asked for, or, while there are
`sizes`, at most one more than the next of these. -/
structure FileReader where
  bytes : List UInt8
  sizes : List ℕ
  bounded : bytes.length ≤ isizeMax

/-- A read of at most `length` bytes. -/
def FileReader.read (file : FileReader) (length : ℕ) : List UInt8 × FileReader :=
  let count := match file.sizes with
    | [] => length
    | size :: _ => min length (size + 1)
  (file.bytes.take count, ⟨file.bytes.drop count, file.sizes.tail, by
    rw [List.length_drop]
    exact (Nat.sub_le _ _).trans file.bounded⟩)

structure BoundedReader where
  inner : FileReader
  remaining : ℕ

/-- `read` with a buffer of `length` bytes; its only error is `HeaderLimitReached`. -/
def BoundedReader.read (reader : BoundedReader) (length : ℕ) : Option (List UInt8) × BoundedReader :=
  if length = 0 then (some [], reader)
  else if reader.remaining = 0 then (none, reader)
  else
    let (output, inner) := reader.inner.read (min reader.remaining length)
    match checkedSub reader.remaining output.length with
    | none => (none, ⟨inner, reader.remaining⟩)
    | some remaining => (some output, ⟨inner, remaining⟩)

/-- The reader, and the sizes of the string buffers so far. -/
structure InspectionState where
  reader : BoundedReader
  reserved : List ℕ := []

/-- A step of the inspection. -/
abbrev Inspect := EStateM MetadataError InspectionState

/-- A check that reads nothing. -/
def Inspect.lift {α : Type} (x : Except MetadataError α) : Inspect α := fun s =>
  match x with
  | .ok a => .ok a s
  | .error e => .error e s

instance : MonadLift (Except MetadataError) Inspect := ⟨Inspect.lift⟩

/-- `read_exact`: reads until `length` more bytes have come. -/
def readExactLoop (reader : BoundedReader) (length : ℕ) (output : List UInt8) :
    Except MetadataError (List UInt8) × BoundedReader :=
  if length = 0 then (.ok output, reader)
  else
    match reader.read length with
    | (none, reader) => (.error .limitExceeded, reader)
    | (some bytes, reader) =>
      if bytes = [] then (.error .read, reader)
      else readExactLoop reader (length - bytes.length) (output ++ bytes)
termination_by length
decreasing_by
  rename_i hlength hbytes
  have hpos := List.length_pos_iff.mpr hbytes
  omega

def readExact (length : ℕ) : Inspect (List UInt8) := fun s =>
  match readExactLoop s.reader length [] with
  | (.ok bytes, reader) => .ok bytes { s with reader := reader }
  | (.error e, reader) => .error e { s with reader := reader }

/-- `bytes.try_reserve_exact(length)`. -/
def tryReserveString (length : ℕ) : Inspect Unit := fun s =>
  let s := { s with reserved := s.reserved ++ [length] }
  if isizeMax < length then .error .limitExceeded s else .ok () s

/-- The `uN` of the next `width` bytes. -/
def readUnsigned (width : ℕ) : Inspect ℕ := do
  let bytes ← readExact width
  return ofLe bytes

/-- The `iN` of the next `width` bytes. -/
def readSigned (width : ℕ) : Inspect ℤ := do
  let bytes ← readExact width
  return (BitVec.ofNat (8 * width) (ofLe bytes)).toInt

def readU8 : Inspect ℕ := readUnsigned 1
def readU16 : Inspect ℕ := readUnsigned 2
def readU32 : Inspect ℕ := readUnsigned 4
def readU64 : Inspect ℕ := readUnsigned 8
def readI8 : Inspect ℤ := readSigned 1
def readI16 : Inspect ℤ := readSigned 2
def readI32 : Inspect ℤ := readSigned 4
def readI64 : Inspect ℤ := readSigned 8

def skipBufferBytes : ℕ := 8 * 1024

def skipBytes (remaining : ℕ) : Inspect Unit :=
  if remaining = 0 then return ()
  else do
    let chunk := min remaining skipBufferBytes
    let _ ← readExact chunk
    skipBytes (remaining - chunk)
termination_by remaining
decreasing_by
  unfold skipBufferBytes
  omega

def readString (maximum : ℕ) : Inspect String := do
  let length ← readU64
  Except.failIf (maximum < length) MetadataError.limitExceeded
  tryReserveString length
  let bytes ← readExact length
  match fromUtf8 bytes with
  | some value => return value
  | none => throw .invalidUtf8

def skipString (maximum : ℕ) : Inspect Unit := do
  let length ← readU64
  Except.failIf (maximum < length) MetadataError.limitExceeded
  skipBytes length

/-- The loop over the strings of an array. -/
def skipStrings (maximum : ℕ) : ℕ → Inspect Unit
  | 0 => return ()
  | count + 1 => do
    skipString maximum
    skipStrings maximum count

/-! ### Value types -/

@[match_pattern] def typeUint8 : ℕ := 0
@[match_pattern] def typeInt8 : ℕ := 1
@[match_pattern] def typeUint16 : ℕ := 2
@[match_pattern] def typeInt16 : ℕ := 3
@[match_pattern] def typeUint32 : ℕ := 4
@[match_pattern] def typeInt32 : ℕ := 5
@[match_pattern] def typeFloat32 : ℕ := 6
@[match_pattern] def typeBool : ℕ := 7
@[match_pattern] def typeString : ℕ := 8
@[match_pattern] def typeArray : ℕ := 9
@[match_pattern] def typeUint64 : ℕ := 10
@[match_pattern] def typeInt64 : ℕ := 11
@[match_pattern] def typeFloat64 : ℕ := 12

def fixedWidth : ℕ → Option ℕ
  | typeUint8 | typeInt8 | typeBool => some 1
  | typeUint16 | typeInt16 => some 2
  | typeUint32 | typeInt32 | typeFloat32 => some 4
  | typeUint64 | typeInt64 | typeFloat64 => some 8
  | _ => none

def signedToU64 (value : ℤ) : Except MetadataError ℕ :=
  if 0 ≤ value then .ok value.toNat else .error .invalidValue

def readInteger : ℕ → Inspect ℕ
  | typeUint8 => readU8
  | typeUint16 => readU16
  | typeUint32 => readU32
  | typeUint64 => readU64
  | typeInt8 => do signedToU64 (← readI8)
  | typeInt16 => do signedToU64 (← readI16)
  | typeInt32 => do signedToU64 (← readI32)
  | typeInt64 => do signedToU64 (← readI64)
  | _ => throw .invalidFormat

def validateArrayCount (count : ℕ) (limits : GgufInspectionLimits) : Except MetadataError Unit :=
  Except.failIf (limits.maximumArrayElements.toNat < count) .limitExceeded

/-- The branch of `skip_value` for arrays. -/
def skipArray (limits : GgufInspectionLimits) : Inspect Unit := do
  let elementType ← readU32
  Except.failIf (elementType = typeArray) MetadataError.invalidFormat
  let count ← readU64
  validateArrayCount count limits
  match fixedWidth elementType with
  | some width =>
    let bytes ← Except.okOr (checkedMul u64Max count width) MetadataError.numericOverflow
    skipBytes bytes
  | none =>
    if elementType = typeString then skipStrings limits.maximumStringBytes.toNat count
    else throw .invalidFormat

def skipValue (valueType : ℕ) (limits : GgufInspectionLimits) : Inspect Unit :=
  match fixedWidth valueType with
  | some width => skipBytes width
  | none =>
    if valueType = typeString then skipString limits.maximumStringBytes.toNat
    else if valueType = typeArray then skipArray limits
    else throw .invalidFormat

/-! ### Collected values -/

structure ArchitectureValue where
  architecture : String
  value : ℕ
deriving DecidableEq, Repr

structure CollectedMetadata where
  architecture : Option String := none
  contextLength : Option ArchitectureValue := none
  blockCount : Option ArchitectureValue := none
  embeddingLength : Option ArchitectureValue := none
  attentionHeadCount : Option ArchitectureValue := none
  attentionHeadCountKv : Option ArchitectureValue := none
  vocabularySize : Option ℕ := none
  fileType : Option ℕ := none
deriving DecidableEq, Repr

/-- A field of the collected metadata that an architecture's key names. -/
inductive Dimension where
  | contextLength | blockCount | embeddingLength | attentionHeadCountKv | attentionHeadCount
deriving DecidableEq, Repr

namespace CollectedMetadata

def dimension (collected : CollectedMetadata) : Dimension → Option ArchitectureValue
  | .contextLength => collected.contextLength
  | .blockCount => collected.blockCount
  | .embeddingLength => collected.embeddingLength
  | .attentionHeadCountKv => collected.attentionHeadCountKv
  | .attentionHeadCount => collected.attentionHeadCount

def setDimension (collected : CollectedMetadata) (value : ArchitectureValue) : Dimension → CollectedMetadata
  | .contextLength => { collected with contextLength := some value }
  | .blockCount => { collected with blockCount := some value }
  | .embeddingLength => { collected with embeddingLength := some value }
  | .attentionHeadCountKv => { collected with attentionHeadCountKv := some value }
  | .attentionHeadCount => { collected with attentionHeadCount := some value }

end CollectedMetadata

def architecturePrefix (key suffix : String) : Option String :=
  (stripSuffix key suffix).filter fun architecture => architecture ≠ "" ∧ '.' ∉ architecture.toList

/-- The field that a key names, and for which architecture. -/
def numericTarget (key : String) : Option (String × Dimension) :=
  if let some architecture := architecturePrefix key ".context_length" then some (architecture, .contextLength)
  else if let some architecture := architecturePrefix key ".block_count" then some (architecture, .blockCount)
  else if let some architecture := architecturePrefix key ".embedding_length" then
    some (architecture, .embeddingLength)
  else if let some architecture := architecturePrefix key ".attention.head_count_kv" then
    some (architecture, .attentionHeadCountKv)
  else if let some architecture := architecturePrefix key ".attention.head_count" then
    some (architecture, .attentionHeadCount)
  else none

def storeArchitectureValue (collected : CollectedMetadata) (target : Dimension) (architecture : String) (value : ℕ) :
    Except MetadataError CollectedMetadata := do
  Except.failIf ((collected.dimension target).isSome = true) .invalidFormat
  Except.failIf (u32Max < value) .numericOverflow
  return collected.setDimension ⟨architecture, value⟩ target

def readTokenArray (valueType : ℕ) (limits : GgufInspectionLimits) (collected : CollectedMetadata) :
    Inspect CollectedMetadata := do
  Except.failIf (valueType ≠ typeArray) MetadataError.invalidFormat
  let elementType ← readU32
  let count ← readU64
  validateArrayCount count limits
  Except.failIf (elementType ≠ typeString) MetadataError.invalidFormat
  Except.failIf (collected.vocabularySize.isSome = true) MetadataError.invalidFormat
  Except.failIf (u32Max < count) MetadataError.numericOverflow
  let collected := { collected with vocabularySize := some count }
  skipStrings limits.maximumStringBytes.toNat count
  return collected

def readMetadataValue (key : String) (valueType : ℕ) (limits : GgufInspectionLimits) (collected : CollectedMetadata) :
    Inspect CollectedMetadata :=
  if key = "general.architecture" then do
    Except.failIf (valueType ≠ typeString ∨ collected.architecture.isSome = true) MetadataError.invalidFormat
    let architecture ← readString limits.maximumStringBytes.toNat
    return { collected with architecture := some architecture }
  else if key = "general.file_type" then do
    Except.failIf (collected.fileType.isSome = true) MetadataError.invalidFormat
    let value ← readInteger valueType
    Except.failIf (u16Max < value) MetadataError.numericOverflow
    return { collected with fileType := some value }
  else if key = "tokenizer.ggml.tokens" then
    readTokenArray valueType limits collected
  else
    match numericTarget key with
    | some (architecture, target) => do
      let value ← readInteger valueType
      storeArchitectureValue collected target architecture value
    | none => do
      skipValue valueType limits
      return collected

/-! ### The end of the inspection -/

def requiredArchitectureValue (value : Option ArchitectureValue) (architecture : String) : Except MetadataError ℕ := do
  let value ← Except.okOr value .invalidFormat
  Except.failIf (value.architecture ≠ architecture ∨ value.value = 0) .invalidValue
  return value.value

/-- The value, or the default where there is none. -/
def architectureValueOr (value : Option ArchitectureValue) (architecture : String) (default : ℕ) : Except MetadataError ℕ :=
  match value with
  | some value => requiredArchitectureValue (some value) architecture
  | none => .ok default

def requiredNonZero : Option ℕ → Except MetadataError ℕ
  | some value => if value ≠ 0 then .ok value else .error .invalidValue
  | none => .error .invalidValue

def fnv1a32 (bytes : List UInt8) : ℕ :=
  (bytes.foldl (fun hash byte => (hash ^^^ byte.toUInt32) * 16777619) (2166136261 : UInt32)).toNat

def classifyArchitecture (name : String) : ModelArchitecture :=
  if name = "llama" then .llama
  else if name = "mistral" ∨ name = "mixtral" then .mistral
  else if name = "gemma" ∨ name = "gemma2" ∨ name = "gemma3" then .gemma
  else if name = "qwen" ∨ name = "qwen2" ∨ name = "qwen3" then .qwen
  else .other (fnv1a32 (utf8 name))

def scalarAndQuantization : ℕ → ScalarType × QuantizationFormat
  | 0 => (.f32, .none)
  | 1 => (.f16, .none)
  | other => (.other other, .gguf other)

def CollectedMetadata.finish (collected : CollectedMetadata) : Except MetadataError GgufMetadata := do
  let architectureName ← Except.okOr collected.architecture .invalidFormat
  let contextLength ← requiredArchitectureValue collected.contextLength architectureName
  let blockCount ← requiredArchitectureValue collected.blockCount architectureName
  let embeddingLength ← requiredArchitectureValue collected.embeddingLength architectureName
  let attentionHeadCount ← requiredArchitectureValue collected.attentionHeadCount architectureName
  let attentionHeadCountKv ← architectureValueOr collected.attentionHeadCountKv architectureName attentionHeadCount
  Except.failIf (attentionHeadCount < attentionHeadCountKv ∨ ¬attentionHeadCountKv ∣ attentionHeadCount) .invalidValue
  let vocabularySize ← requiredNonZero collected.vocabularySize
  let fileType ← Except.okOr collected.fileType .invalidFormat
  return {
    architectureName
    architecture := classifyArchitecture architectureName
    scalarType := (scalarAndQuantization fileType).1
    quantization := (scalarAndQuantization fileType).2
    vocabularySize, contextLength, blockCount, embeddingLength, attentionHeadCount, attentionHeadCountKv, fileType }

/-! ### The inspection -/

def ggufMagic : List UInt8 := utf8 "GGUF"
def ggufVersion2 : ℕ := 2
def ggufVersion3 : ℕ := 3

/-- The loop over the metadata entries. -/
def readEntries (limits : GgufInspectionLimits) : ℕ → CollectedMetadata → Inspect CollectedMetadata
  | 0, collected => return collected
  | count + 1, collected => do
    let key ← readString limits.maximumStringBytes.toNat
    let valueType ← readU32
    let collected ← readMetadataValue key valueType limits collected
    readEntries limits count collected

/-- All that `inspect_reader` reads. -/
def readHeader (limits : GgufInspectionLimits) : Inspect CollectedMetadata := do
  let magic ← readExact 4
  Except.failIf (magic ≠ ggufMagic) MetadataError.invalidFormat
  let version ← readU32
  Except.failIf (version ≠ ggufVersion2 ∧ version ≠ ggufVersion3) MetadataError.invalidFormat
  let _tensorCount ← readU64
  let metadataCount ← readU64
  Except.failIf (limits.maximumMetadataEntries.toNat < metadataCount) MetadataError.limitExceeded
  readEntries limits metadataCount {}

/-- The result of the inspection, and the state it leaves. -/
def inspectReader (file : FileReader) (limits : GgufInspectionLimits) :
    EStateM.Result MetadataError InspectionState GgufMetadata :=
  (do (← readHeader limits).finish : Inspect GgufMetadata).run ⟨⟨file, limits.maximumHeaderBytes.toNat⟩, []⟩

end LlmApp
