/-
# Persistent records

The binary records of the desktop store: the application settings and the
entries of the model catalogue. A record is a magic of four bytes, a version,
and its fields, a string behind its length; numbers are little-endian.

A `Decoder` reads a record from an offset into its bytes. It checks that the
magic and the version are the expected ones, and at the end that nothing is
left; what it decoded is then validated.

Key definitions: `ApplicationSettings`, `ModelRecord`, `encodeSettings`,
`decodeSettings`, `encodeModel`, `decodeModel`, `Decoder`.
-/
import LlmApp.Contracts
import LlmApp.Data.Bytes
import LlmApp.Data.Except
import LlmApp.Data.Utf8
import LlmApp.Data.Words

namespace LlmApp

/-! ### Records -/

structure ApplicationSettings where
  defaultRepository : String
  defaultRevision : String
  maximumHostMemoryBytes : UInt64
  maximumDeviceMemoryBytes : UInt64
  drainTimeoutMilliseconds : UInt64
deriving DecidableEq, Repr

inductive StoredScalarType where
  | f32 | f16 | bf16
deriving DecidableEq, Repr

structure ModelRecord where
  name : String
  repository : String
  revision : String
  scalarType : StoredScalarType
  lastUsedUnixMilliseconds : UInt64
deriving DecidableEq, Repr

inductive Field where
  | modelName | repository | revision | drainTimeout
deriving DecidableEq, Repr

/-- The failures of the codec; those of the database are not modelled. -/
inductive StorageError where
  | invalidField (field : Field)
  | invalidRecordKind
  | unsupportedVersion (version : ℕ)
  | truncatedRecord
  | stringTooLong (length : ℕ)
  | invalidUtf8
  | invalidScalarType (code : UInt8)
  | trailingBytes
deriving DecidableEq, Repr

def settingsMagic : List UInt8 := utf8 "LAS1"
def modelMagic : List UInt8 := utf8 "LAM1"
def recordVersion : ℕ := 1

/-! ### Validation -/

/-- The characters of `value.trim()`. -/
def trim (value : String) : List Char :=
  ((value.toList.dropWhile isWhitespace).reverse.dropWhile isWhitespace).reverse

def validateNonEmpty (value : String) (field : Field) : Except StorageError Unit :=
  Except.failIf ((trim value).isEmpty = true) (.invalidField field)

def ApplicationSettings.validate (settings : ApplicationSettings) : Except StorageError Unit := do
  validateNonEmpty settings.defaultRepository .repository
  validateNonEmpty settings.defaultRevision .revision
  Except.failIf (settings.drainTimeoutMilliseconds = 0) (.invalidField .drainTimeout)

def ModelRecord.validate (record : ModelRecord) : Except StorageError Unit := do
  validateNonEmpty record.name .modelName
  validateNonEmpty record.repository .repository
  validateNonEmpty record.revision .revision

/-! ### Encoding -/

def encodeString (output : List UInt8) (value : String) : Except StorageError (List UInt8) := do
  Except.failIf (u32Max < (utf8 value).length) (.stringTooLong (utf8 value).length)
  return output ++ toLe 4 (utf8 value).length ++ utf8 value

def encodeSettings (settings : ApplicationSettings) : Except StorageError (List UInt8) := do
  let output := settingsMagic
  let output := output ++ toLe 2 recordVersion
  let output ← encodeString output settings.defaultRepository
  let output ← encodeString output settings.defaultRevision
  let output := output ++ toLe 8 settings.maximumHostMemoryBytes.toNat
  let output := output ++ toLe 8 settings.maximumDeviceMemoryBytes.toNat
  let output := output ++ toLe 8 settings.drainTimeoutMilliseconds.toNat
  return output

/-- The byte that `encode_model` writes for a scalar type. -/
def StoredScalarType.code : StoredScalarType → UInt8
  | .f32 => 0
  | .f16 => 1
  | .bf16 => 2

def encodeModel (record : ModelRecord) : Except StorageError (List UInt8) := do
  let output := modelMagic
  let output := output ++ toLe 2 recordVersion
  let output ← encodeString output record.name
  let output ← encodeString output record.repository
  let output ← encodeString output record.revision
  let output := output ++ [record.scalarType.code]
  let output := output ++ toLe 8 record.lastUsedUnixMilliseconds.toNat
  return output

/-! ### Decoding -/

structure Decoder where
  bytes : List UInt8
  offset : ℕ
deriving DecidableEq, Repr

/-- `bytes.get(start..stop)`. -/
def getRange (bytes : List UInt8) (start stop : ℕ) : Option (List UInt8) :=
  if start ≤ stop ∧ stop ≤ bytes.length then some ((bytes.drop start).take (stop - start)) else none

/-- A method of the decoder that moves the offset. -/
abbrev Decode := StateT Decoder (Except StorageError)

namespace Decoder

def new (bytes expectedMagic : List UInt8) : Except StorageError Decoder := do
  let magic ← Except.okOr (getRange bytes 0 4) .truncatedRecord
  Except.failIf (magic ≠ expectedMagic) .invalidRecordKind
  let versionBytes ← Except.okOr (getRange bytes 4 6) .truncatedRecord
  Except.failIf (ofLe versionBytes ≠ recordVersion) (.unsupportedVersion (ofLe versionBytes))
  return ⟨bytes, 6⟩

/-- The next `length` bytes: what `u32`, `u64` and `string` have in common. -/
def take (length : ℕ) : Decode (List UInt8) := fun decoder => do
  let stop ← Except.okOr (checkedAdd u64Max decoder.offset length) .truncatedRecord
  let value ← Except.okOr (getRange decoder.bytes decoder.offset stop) .truncatedRecord
  return (value, { decoder with offset := stop })

def u8 : Decode UInt8 := fun decoder => do
  let value ← Except.okOr decoder.bytes[decoder.offset]? .truncatedRecord
  let offset ← Except.okOr (checkedAdd u64Max decoder.offset 1) .truncatedRecord
  return (value, { decoder with offset := offset })

def u32 : Decode UInt32 := do
  let value ← take 4
  return UInt32.ofNat (ofLe value)

def u64 : Decode UInt64 := do
  let value ← take 8
  return UInt64.ofNat (ofLe value)

def string : Decode String := do
  let length ← u32
  let bytes ← take length.toNat
  match fromUtf8 bytes with
  | some value => return value
  | none => throw .invalidUtf8

def finish (decoder : Decoder) : Except StorageError Unit :=
  Except.failIf (decoder.offset ≠ decoder.bytes.length) .trailingBytes

end Decoder

/-- A whole record: what `decode_settings` and `decode_model` have in common. -/
def decodeRecord {α : Type} (magic : List UInt8) (fields : Decode α) (validate : α → Except StorageError Unit)
    (bytes : List UInt8) : Except StorageError α := do
  let decoder ← Decoder.new bytes magic
  let (record, decoder) ← fields decoder
  decoder.finish
  validate record
  return record

/-- The fields that `decode_settings` reads. -/
def decodeSettingsFields : Decode ApplicationSettings := do
  let defaultRepository ← Decoder.string
  let defaultRevision ← Decoder.string
  let maximumHostMemoryBytes ← Decoder.u64
  let maximumDeviceMemoryBytes ← Decoder.u64
  let drainTimeoutMilliseconds ← Decoder.u64
  return ⟨defaultRepository, defaultRevision, maximumHostMemoryBytes, maximumDeviceMemoryBytes,
    drainTimeoutMilliseconds⟩

def decodeSettings (bytes : List UInt8) : Except StorageError ApplicationSettings :=
  decodeRecord settingsMagic decodeSettingsFields ApplicationSettings.validate bytes

/-- The scalar type that `decode_model` reads from its byte. -/
def StoredScalarType.decode : Decode StoredScalarType := do
  match ← Decoder.u8 with
  | 0 => return .f32
  | 1 => return .f16
  | 2 => return .bf16
  | code => throw (.invalidScalarType code)

/-- The fields that `decode_model` reads. -/
def decodeModelFields : Decode ModelRecord := do
  let name ← Decoder.string
  let repository ← Decoder.string
  let revision ← Decoder.string
  let scalarType ← StoredScalarType.decode
  let lastUsedUnixMilliseconds ← Decoder.u64
  return ⟨name, repository, revision, scalarType, lastUsedUnixMilliseconds⟩

def decodeModel (bytes : List UInt8) : Except StorageError ModelRecord :=
  decodeRecord modelMagic decodeModelFields ModelRecord.validate bytes

end LlmApp
