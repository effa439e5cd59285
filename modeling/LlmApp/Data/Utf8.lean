/-
# Strings as bytes

`utf8` encodes a string, and `fromUtf8` decodes a list of bytes if it is valid.
Decoding inverts encoding, on exactly the encodings (`fromUtf8_eq_some`).
-/
import Mathlib

/-- The bytes of a string. -/
def utf8 (s : String) : List UInt8 := s.toByteArray.data.toList

/-- The string of a valid list of bytes. -/
def fromUtf8 (bytes : List UInt8) : Option String := String.fromUTF8? ⟨bytes.toArray⟩

theorem fromUtf8_eq_some {bytes : List UInt8} {s : String} : fromUtf8 bytes = some s ↔ utf8 s = bytes := by
  unfold fromUtf8 String.fromUTF8?
  constructor
  · intro h
    split_ifs at h with hvalid
    obtain rfl := Option.some.inj h
    simp [utf8, String.fromUTF8]
  · rintro rfl
    have hbytes : (⟨(utf8 s).toArray⟩ : ByteArray) = s.toByteArray := by simp [utf8]
    have hvalid : s.toByteArray.IsValidUTF8 := s.isValidUTF8
    simp only [hbytes, hvalid, dif_pos]
    rfl
