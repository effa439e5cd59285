/-
# GGUF headers and what they specify

A header as a value: its entries, each a key with a scalar of one of eleven
types, a string, or an array of scalars or of strings. `GgufHeader.encode` is how
it is written in a file, and `GgufHeader.Within` that it keeps to the limits of
an inspection.

`Specified` says which metadata the entries of a header give, if any. It reads
them as a multiset: which entries there are for each field, not in which order.
A string is its bytes; the name of the architecture is valid UTF-8.

Key definitions: `GgufValue`, `GgufEntry`, `GgufHeader`, `GgufHeader.Within`,
`OccursOnce`, `Specified`.
-/
import LlmApp.Gguf.Metadata

namespace LlmApp

/-! ### Values -/

/-- The value types of a fixed width. -/
inductive GgufScalarType where
  | uint8 | int8 | uint16 | int16 | uint32 | int32 | float32 | bool | uint64 | int64 | float64
deriving DecidableEq, Repr

namespace GgufScalarType

def code : GgufScalarType → ℕ
  | .uint8 => typeUint8
  | .int8 => typeInt8
  | .uint16 => typeUint16
  | .int16 => typeInt16
  | .uint32 => typeUint32
  | .int32 => typeInt32
  | .float32 => typeFloat32
  | .bool => typeBool
  | .uint64 => typeUint64
  | .int64 => typeInt64
  | .float64 => typeFloat64

/-- The width in bytes. -/
def width : GgufScalarType → ℕ
  | .uint8 | .int8 | .bool => 1
  | .uint16 | .int16 => 2
  | .uint32 | .int32 | .float32 => 4
  | .uint64 | .int64 | .float64 => 8

/-- The integer that the bits of a value are, for an integer type. -/
def integer {width : ℕ} (type : GgufScalarType) (bits : BitVec width) : Option ℤ :=
  match type with
  | .uint8 | .uint16 | .uint32 | .uint64 => some bits.toNat
  | .int8 | .int16 | .int32 | .int64 => some bits.toInt
  | .float32 | .bool | .float64 => none

end GgufScalarType

inductive GgufValue where
  | scalar (type : GgufScalarType) (bits : BitVec (8 * type.width))
  | string (bytes : List UInt8)
  | array (type : GgufScalarType) (elements : List (BitVec (8 * type.width)))
  | strings (elements : List (List UInt8))
deriving DecidableEq

structure GgufEntry where
  key : String
  value : GgufValue
deriving DecidableEq

structure GgufHeader where
  version : ℕ
  tensorCount : UInt64
  entries : List GgufEntry

/-! ### Encoding -/

def encodeGgufString (bytes : List UInt8) : List UInt8 := toLe 8 bytes.length ++ bytes

namespace GgufValue

def code : GgufValue → ℕ
  | .scalar type _ => type.code
  | .string _ => typeString
  | .array .. | .strings _ => typeArray

def encode : GgufValue → List UInt8
  | .scalar type bits => toLe type.width bits.toNat
  | .string bytes => encodeGgufString bytes
  | .array type elements =>
    toLe 4 type.code ++ (toLe 8 elements.length ++ elements.flatMap fun bits => toLe type.width bits.toNat)
  | .strings elements => toLe 4 typeString ++ (toLe 8 elements.length ++ elements.flatMap encodeGgufString)

def Within (limits : GgufInspectionLimits) : GgufValue → Prop
  | .scalar .. => True
  | .string bytes => bytes.length ≤ limits.maximumStringBytes.toNat
  | .array _ elements => elements.length ≤ limits.maximumArrayElements.toNat
  | .strings elements => elements.length ≤ limits.maximumArrayElements.toNat ∧
      ∀ bytes ∈ elements, bytes.length ≤ limits.maximumStringBytes.toNat

instance (limits : GgufInspectionLimits) : ∀ value : GgufValue, Decidable (value.Within limits)
  | .scalar .. => inferInstanceAs (Decidable True)
  | .string bytes => inferInstanceAs (Decidable (bytes.length ≤ limits.maximumStringBytes.toNat))
  | .array _ elements => inferInstanceAs (Decidable (elements.length ≤ limits.maximumArrayElements.toNat))
  | .strings elements => inferInstanceAs (Decidable (elements.length ≤ limits.maximumArrayElements.toNat ∧
      ∀ bytes ∈ elements, bytes.length ≤ limits.maximumStringBytes.toNat))

/-- The integer that a value is. -/
def integer : GgufValue → Option ℤ
  | .scalar type bits => type.integer bits
  | _ => none

end GgufValue

def GgufEntry.encode (entry : GgufEntry) : List UInt8 :=
  encodeGgufString (utf8 entry.key) ++ (toLe 4 entry.value.code ++ entry.value.encode)

structure GgufEntry.Within (limits : GgufInspectionLimits) (entry : GgufEntry) : Prop where
  key : (utf8 entry.key).length ≤ limits.maximumStringBytes.toNat
  value : entry.value.Within limits

instance (limits : GgufInspectionLimits) (entry : GgufEntry) : Decidable (entry.Within limits) :=
  decidable_of_iff ((utf8 entry.key).length ≤ limits.maximumStringBytes.toNat ∧ entry.value.Within limits)
    ⟨fun h => ⟨h.1, h.2⟩, fun h => ⟨h.1, h.2⟩⟩

def GgufHeader.encode (header : GgufHeader) : List UInt8 :=
  ggufMagic ++ (toLe 4 header.version ++ (toLe 8 header.tensorCount.toNat ++ (toLe 8 header.entries.length ++
    header.entries.flatMap GgufEntry.encode)))

/-- A header of a known version within the limits of an inspection. -/
structure GgufHeader.Within (limits : GgufInspectionLimits) (header : GgufHeader) : Prop where
  version : header.version = 2 ∨ header.version = 3
  count : header.entries.length ≤ limits.maximumMetadataEntries.toNat
  entries : ∀ entry ∈ header.entries, entry.Within limits
  bytes : header.encode.length ≤ limits.maximumHeaderBytes.toNat

/-! ### The specification -/

/-- The key of a field of some architecture: its name, which has no dot, and the
field's suffix. -/
def ArchitectureKey (suffix key : String) : Prop :=
  ∃ architecture : String, architecture ≠ "" ∧ '.' ∉ architecture.toList ∧ key = architecture ++ suffix

open Classical in
/-- Over all architectures the field occurs once, for this one, as a number that
is not zero and fits 32 bits. -/
def OccursOnce (entries : Multiset GgufEntry) (suffix architecture : String) (n : ℕ) : Prop :=
  ∃ value, entries.filter (fun entry => ArchitectureKey suffix entry.key) = {⟨architecture ++ suffix, value⟩} ∧
    value.integer = some (n : ℤ) ∧ n ≠ 0 ∧ n < 2 ^ 32

open Classical in
/-- The metadata that these entries give. -/
structure Specified (entries : Multiset GgufEntry) (m : GgufMetadata) : Prop where
  architectureName : entries.filter (fun entry => entry.key = "general.architecture") =
    {⟨"general.architecture", .string (utf8 m.architectureName)⟩}
  fileType : ∃ value, entries.filter (fun entry => entry.key = "general.file_type") = {⟨"general.file_type", value⟩} ∧
    value.integer = some (m.fileType : ℤ) ∧ m.fileType < 2 ^ 16
  vocabularySize : ∃ tokens, entries.filter (fun entry => entry.key = "tokenizer.ggml.tokens") =
      {⟨"tokenizer.ggml.tokens", .strings tokens⟩} ∧
    tokens.length = m.vocabularySize ∧ tokens ≠ [] ∧ tokens.length < 2 ^ 32
  contextLength : OccursOnce entries ".context_length" m.architectureName m.contextLength
  blockCount : OccursOnce entries ".block_count" m.architectureName m.blockCount
  embeddingLength : OccursOnce entries ".embedding_length" m.architectureName m.embeddingLength
  attentionHeadCount : OccursOnce entries ".attention.head_count" m.architectureName m.attentionHeadCount
  attentionHeadCountKv :
    (entries.filter (fun entry => ArchitectureKey ".attention.head_count_kv" entry.key) = 0 ∧
      m.attentionHeadCountKv = m.attentionHeadCount) ∨
    OccursOnce entries ".attention.head_count_kv" m.architectureName m.attentionHeadCountKv
  divides : m.attentionHeadCountKv ∣ m.attentionHeadCount
  architecture : m.architecture = classifyArchitecture m.architectureName
  formats : (m.scalarType, m.quantization) = scalarAndQuantization m.fileType

/-- A key that the inspection looks at; all other entries are skipped. -/
def Related (key : String) : Prop :=
  key = "general.architecture" ∨ key = "general.file_type" ∨ key = "tokenizer.ggml.tokens" ∨
    ∃ suffix ∈ [".context_length", ".block_count", ".embedding_length", ".attention.head_count_kv",
      ".attention.head_count"], ArchitectureKey suffix key

end LlmApp
