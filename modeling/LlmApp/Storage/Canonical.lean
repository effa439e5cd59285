/-
# Records have one encoding

The decoder's readers read exactly the encodings of their values: a word from
its bytes, a string from its length and its bytes, a scalar type from its byte.
So the fields of a record are read from their encodings one after another
(`string_answers`, `u64_answers`), and what is read has been encoded
(`string_takes`, `u64_takes`).

A record is accepted if and only if it is the encoding of a valid value
(`decodeRecord_eq_ok`), whence both formats are canonical, and their magics keep
them apart (`records_canonical`).

Key theorems: `decodeRecord_eq_ok`, `canonical_of_fields`, `records_canonical`.
-/
import LlmApp.Data.Reader
import LlmApp.Storage.Codec

namespace LlmApp

/-! ### Readers of single values -/

namespace Decoder

/-- What is left to read. -/
def ahead (decoder : Decoder) : List UInt8 := decoder.bytes.drop decoder.offset

/-- `rest` lies ahead, within bytes whose length is a `usize`. -/
structure Ahead (decoder : Decoder) (rest : List UInt8) : Prop where
  bounded : decoder.bytes.length ≤ u64Max
  within : decoder.offset ≤ decoder.bytes.length
  ahead_eq : decoder.ahead = rest

theorem Ahead.length {decoder : Decoder} {code rest : List UInt8} (h : decoder.Ahead (code ++ rest)) :
    decoder.offset + (code.length + rest.length) = decoder.bytes.length := by
  have hlength := congrArg List.length h.ahead_eq
  rw [ahead, List.length_drop, List.length_append] at hlength
  have hwithin := h.within
  omega

/-- Past `code`. -/
theorem Ahead.skip {decoder : Decoder} {code rest : List UInt8} (h : decoder.Ahead (code ++ rest)) :
    Ahead { decoder with offset := decoder.offset + code.length } rest := by
  refine ⟨h.bounded, ?_, ?_⟩
  · have hlength := h.length
    show decoder.offset + code.length ≤ decoder.bytes.length
    omega
  · have hahead := h.ahead_eq
    unfold ahead at hahead ⊢
    rw [← List.drop_drop, hahead, List.drop_left]

theorem take_answers (code : List UInt8) : Answers Ahead (take code.length) code (some code) := by
  intro decoder rest h
  have hlength := h.length
  have hbounded := h.bounded
  have hstop : checkedAdd u64Max decoder.offset code.length = some (decoder.offset + code.length) :=
    checkedAdd_eq_some.mpr ⟨rfl, by omega⟩
  have hrange : getRange decoder.bytes decoder.offset (decoder.offset + code.length) = some code := by
    have hahead : decoder.bytes.drop decoder.offset = code ++ rest := h.ahead_eq
    rw [getRange, if_pos (by omega), hahead, Nat.add_sub_cancel_left, List.take_left]
  refine ⟨_, ?_, h.skip⟩
  rw [take, hstop, Except.okOr_some, Except.ok_bind, hrange]
  rfl

theorem take_takes (length : ℕ) : Takes ahead (take length) fun value code => value = code ∧ code.length = length := by
  intro decoder value decoder' h
  simp only [take, Except.bind_eq_ok, Except.okOr_eq_ok, checkedAdd_eq_some, Except.pure_eq_ok, Prod.mk.injEq] at h
  obtain ⟨_, ⟨rfl, -⟩, value, hrange, rfl, rfl⟩ := h
  unfold getRange at hrange
  split_ifs at hrange with hwithin
  rw [Nat.add_sub_cancel_left] at hrange
  obtain rfl := Option.some.inj hrange
  refine ⟨_, ⟨rfl, ?_⟩, ?_⟩
  · rw [List.length_take, List.length_drop]
    omega
  · show decoder.bytes.drop decoder.offset = _ ++ decoder.bytes.drop (decoder.offset + length)
    rw [← List.drop_drop, List.take_append_drop]

theorem u8_answers (value : UInt8) : Answers Ahead u8 [value] (some value) := by
  intro decoder rest h
  have hlength := h.length
  have hbounded := h.bounded
  rw [List.length_singleton] at hlength
  have hvalue : decoder.bytes[decoder.offset]? = some value := by
    have hahead : decoder.bytes.drop decoder.offset = [value] ++ rest := h.ahead_eq
    have hzero := congrArg (·[0]?) hahead
    simpa using hzero
  have hoffset : checkedAdd u64Max decoder.offset 1 = some (decoder.offset + 1) :=
    checkedAdd_eq_some.mpr ⟨rfl, by omega⟩
  refine ⟨_, ?_, h.skip⟩
  rw [u8, hvalue, Except.okOr_some, Except.ok_bind, hoffset]
  rfl

theorem u8_takes : Takes ahead u8 fun value code => code = [value] := by
  intro decoder value decoder' h
  simp only [u8, Except.bind_eq_ok, Except.okOr_eq_ok, checkedAdd_eq_some, Except.pure_eq_ok, Prod.mk.injEq] at h
  obtain ⟨value, hvalue, _, ⟨rfl, -⟩, rfl, rfl⟩ := h
  obtain ⟨hlt, rfl⟩ := List.getElem?_eq_some_iff.mp hvalue
  exact ⟨_, rfl, List.drop_eq_getElem_cons hlt⟩

theorem u32_answers (value : UInt32) : Answers Ahead u32 (toLe 4 value.toNat) (some value) := by
  have hlt : value.toNat < 256 ^ 4 := value.toNat_lt
  have htake := take_answers (toLe 4 value.toNat)
  rw [length_toLe] at htake
  refine htake.bind_nil ?_
  rw [ofLe_toLe hlt, UInt32.ofNat_toNat]
  exact Answers.pure value

theorem u32_takes : Takes ahead u32 fun value code => code = toLe 4 value.toNat := by
  refine ((take_takes 4).bind fun value => Takes.pure (UInt32.ofNat (ofLe value))).mono ?_
  rintro _ _ ⟨word, _, _, ⟨rfl, hlength⟩, ⟨rfl, rfl⟩, rfl⟩
  have hlt := ofLe_lt word
  rw [hlength] at hlt
  rw [List.append_nil, UInt32.toNat_ofNat', Nat.mod_eq_of_lt (by exact hlt), ← hlength, toLe_ofLe]

theorem u64_answers (value : UInt64) : Answers Ahead u64 (toLe 8 value.toNat) (some value) := by
  have hlt : value.toNat < 256 ^ 8 := value.toNat_lt
  have htake := take_answers (toLe 8 value.toNat)
  rw [length_toLe] at htake
  refine htake.bind_nil ?_
  rw [ofLe_toLe hlt, UInt64.ofNat_toNat]
  exact Answers.pure value

theorem u64_takes : Takes ahead u64 fun value code => code = toLe 8 value.toNat := by
  refine ((take_takes 8).bind fun value => Takes.pure (UInt64.ofNat (ofLe value))).mono ?_
  rintro _ _ ⟨word, _, _, ⟨rfl, hlength⟩, ⟨rfl, rfl⟩, rfl⟩
  have hlt := ofLe_lt word
  rw [hlength] at hlt
  rw [List.append_nil, UInt64.toNat_ofNat', Nat.mod_eq_of_lt (by exact hlt), ← hlength, toLe_ofLe]

end Decoder

/-- A string behind its length. -/
structure StringCode (value : String) (code : List UInt8) : Prop where
  fits : (utf8 value).length ≤ u32Max
  code_eq : code = toLe 4 (utf8 value).length ++ utf8 value

theorem StringCode.length {value : String} {code : List UInt8} (h : StringCode value code) :
    code.length ≤ 4 + u32Max := by
  rw [h.code_eq, List.length_append, length_toLe]
  exact Nat.add_le_add_left h.fits 4

theorem encodeString_eq_ok {output : List UInt8} {value : String} {bytes : List UInt8} :
    encodeString output value = .ok bytes ↔ ∃ code, StringCode value code ∧ bytes = output ++ code := by
  simp only [encodeString, Except.bind_eq_ok, Except.failIf_eq_ok, Except.pure_eq_ok, not_lt]
  constructor
  · rintro ⟨_, hfits, rfl⟩
    exact ⟨_, ⟨hfits, rfl⟩, List.append_assoc _ _ _⟩
  · rintro ⟨_, ⟨hfits, rfl⟩, rfl⟩
    exact ⟨(), hfits, List.append_assoc _ _ _⟩

namespace Decoder

theorem string_answers {value : String} {code : List UInt8} (h : StringCode value code) :
    Answers Ahead string code (some value) := by
  obtain ⟨hfits, rfl⟩ := h
  have hlength : (UInt32.ofNat (utf8 value).length).toNat = (utf8 value).length := by
    rw [UInt32.toNat_ofNat']
    exact Nat.mod_eq_of_lt (Nat.lt_succ_of_le hfits)
  have hword := u32_answers (UInt32.ofNat (utf8 value).length)
  rw [hlength] at hword
  refine hword.bind ?_
  rw [hlength]
  refine (take_answers (utf8 value)).bind_nil ?_
  rw [fromUtf8_eq_some.mpr rfl]
  exact Answers.pure value

theorem string_takes : Takes ahead string StringCode := by
  refine (u32_takes.bind fun length => (take_takes length.toNat).bind
    (D := fun bytes value code => utf8 value = bytes ∧ code = []) fun bytes => ?_).mono ?_
  · split
    next value hvalue =>
      refine (Takes.pure value).mono ?_
      rintro _ _ ⟨rfl, rfl⟩
      exact ⟨fromUtf8_eq_some.mp hvalue, rfl⟩
    · exact Takes.throw _ _
  rintro value _ ⟨length, _, _, rfl, ⟨_, _, _, ⟨rfl, hlength⟩, ⟨rfl, rfl⟩, rfl⟩, rfl⟩
  refine ⟨?_, ?_⟩
  · rw [hlength]
    exact Nat.le_of_lt_succ length.toNat_lt
  · rw [hlength, List.append_nil]

end Decoder

/-! ### Records -/

/-- What stands before the fields of a record. -/
def header (magic : List UInt8) : List UInt8 := magic ++ toLe 2 recordVersion

theorem getRange_append (before code rest : List UInt8) :
    getRange (before ++ (code ++ rest)) before.length (before.length + code.length) = some code := by
  rw [getRange, if_pos (by simp), List.drop_left, Nat.add_sub_cancel_left, List.take_left]

theorem Decoder.new_eq_ok {magic bytes : List UInt8} {decoder : Decoder} (hmagic : magic.length = 4) :
    Decoder.new bytes magic = .ok decoder ↔ ∃ rest, bytes = header magic ++ rest ∧ decoder = ⟨bytes, 6⟩ := by
  simp only [Decoder.new, Except.bind_eq_ok, Except.okOr_eq_ok, Except.failIf_eq_ok, Except.pure_eq_ok, not_not]
  constructor
  · rintro ⟨_, hfirst, _, rfl, word, hsecond, _, hversion, rfl⟩
    unfold getRange at hfirst hsecond
    split_ifs at hfirst hsecond with h4 h6
    have hword : word.length = 2 := by
      rw [← Option.some.inj hsecond, List.length_take, List.length_drop]
      omega
    have htoLe := toLe_ofLe word
    rw [hword, hversion] at htoLe
    refine ⟨bytes.drop 6, ?_, rfl⟩
    rw [header, htoLe, ← Option.some.inj hfirst, ← Option.some.inj hsecond, List.drop_zero, List.append_assoc,
      ← List.drop_drop (i := 2) (j := 4), List.take_append_drop, List.take_append_drop]
  · rintro ⟨rest, rfl, rfl⟩
    have hfirst := getRange_append [] magic (toLe 2 recordVersion ++ rest)
    have hsecond := getRange_append magic (toLe 2 recordVersion) rest
    rw [hmagic, length_toLe] at hsecond
    rw [hmagic] at hfirst
    rw [header, List.append_assoc]
    exact ⟨magic, hfirst, (), rfl, _, hsecond, (), ofLe_toLe (by decide), rfl⟩

/-- The fields of a record: a reader, what it reads, and how long that is. -/
structure FieldsOf {α : Type} (fields : Decode α) (F : α → List UInt8 → Prop) : Prop where
  answers : ∀ v code, F v code → Answers Decoder.Ahead fields code (some v)
  takes : Takes Decoder.ahead fields F
  bounded : ∀ v code, F v code → 6 + code.length ≤ u64Max

section Record

variable {α : Type} {fields : Decode α} {F : α → List UInt8 → Prop} {magic : List UInt8}
  {validate : α → Except StorageError Unit}

theorem length_header (hmagic : magic.length = 4) : (header magic).length = 6 := by
  rw [header, List.length_append, hmagic, length_toLe]

/-- A record is accepted if and only if it is the encoding of a valid value. -/
theorem decodeRecord_eq_ok (h : FieldsOf fields F) (hmagic : magic.length = 4) {bytes : List UInt8} {v : α} :
    decodeRecord magic fields validate bytes = .ok v ↔
      (∃ code, F v code ∧ bytes = header magic ++ code) ∧ validate v = .ok () := by
  simp only [decodeRecord, Except.bind_eq_ok, Decoder.new_eq_ok hmagic, Decoder.finish, Except.failIf_eq_ok,
    Except.pure_eq_ok, not_not]
  have hheader := length_header hmagic
  constructor
  · rintro ⟨_, ⟨rest, rfl, rfl⟩, ⟨record, decoder⟩, hfields, _, hend, _, hvalid, rfl⟩
    obtain ⟨code, hcode, hahead⟩ := h.takes _ _ _ hfields
    have hnone : decoder.ahead = [] := List.drop_eq_nil_of_le hend.ge
    have hrest : Decoder.ahead ⟨header magic ++ rest, 6⟩ = rest := by
      rw [Decoder.ahead, ← hheader, List.drop_left]
    rw [hrest, hnone, List.append_nil] at hahead
    subst hahead
    exact ⟨⟨rest, hcode, rfl⟩, hvalid⟩
  · rintro ⟨⟨code, hcode, rfl⟩, hvalid⟩
    have hstart : Decoder.Ahead ⟨header magic ++ code, 6⟩ (code ++ []) := by
      refine ⟨?_, ?_, ?_⟩
      · rw [List.length_append, hheader]
        exact h.bounded v code hcode
      · rw [List.length_append, hheader]
        exact Nat.le_add_right _ _
      · rw [Decoder.ahead, ← hheader, List.drop_left, List.append_nil]
    obtain ⟨decoder, hfields, hdone⟩ := h.answers v code hcode _ _ hstart
    have hend : decoder.offset = decoder.bytes.length := by
      have hlength := congrArg List.length hdone.ahead_eq
      rw [Decoder.ahead, List.length_drop, List.length_nil] at hlength
      have hwithin := hdone.within
      omega
    exact ⟨_, ⟨code, rfl, rfl⟩, (v, decoder), hfields, (), hend, (), hvalid, rfl⟩

/-- No fields lie ahead of longer ones. -/
theorem FieldsOf.rest_eq_nil (h : FieldsOf fields F) {v v' : α} {code x : List UInt8} (hcode : F v code)
    (hlonger : F v' (code ++ x)) : x = [] := by
  have hbounded := h.bounded v' _ hlonger
  have hlonger' : Decoder.Ahead ⟨code ++ x, 0⟩ ((code ++ x) ++ []) :=
    ⟨by show (code ++ x).length ≤ u64Max; omega, Nat.zero_le _, (List.append_nil _).symm⟩
  have hcode' : Decoder.Ahead ⟨code ++ x, 0⟩ (code ++ x) := ⟨hlonger'.bounded, Nat.zero_le _, rfl⟩
  obtain ⟨-, decoder, hx, hnil⟩ := (h.answers v code hcode).unique (h.answers v' _ hlonger) hcode' hlonger'
  exact hx.ahead_eq.symm.trans hnil.ahead_eq

/-- A format whose encodings are a header and the fields is canonical. -/
theorem canonical_of_fields (h : FieldsOf fields F) (hmagic : magic.length = 4)
    {encode : α → Except StorageError (List UInt8)} {Fits : α → Prop}
    (hencode : ∀ v bytes, encode v = .ok bytes ↔ ∃ code, F v code ∧ bytes = header magic ++ code)
    (hfits : ∀ v, Fits v → ∃ code, F v code) : Canonical encode (decodeRecord magic fields validate) validate Fits := by
  refine Canonical.of_iff (fun bytes v => ?_) (fun v hv => ?_) (fun v v' bytes x hbytes hlonger => ?_)
  · rw [decodeRecord_eq_ok h hmagic, hencode]
  · obtain ⟨code, hcode⟩ := hfits v hv
    exact ⟨_, (hencode v _).mpr ⟨code, hcode, rfl⟩⟩
  · obtain ⟨code, hcode, rfl⟩ := (hencode v bytes).mp hbytes
    obtain ⟨longer, hlonger, heq⟩ := (hencode v' _).mp hlonger
    rw [List.append_assoc, List.append_cancel_left_eq] at heq
    subst heq
    exact h.rest_eq_nil hcode hlonger

end Record

/-! ### The two formats -/

/-- The strings are shorter than 2^32 bytes. -/
def ApplicationSettings.Fits (settings : ApplicationSettings) : Prop :=
  (utf8 settings.defaultRepository).length < 2 ^ 32 ∧ (utf8 settings.defaultRevision).length < 2 ^ 32

def ModelRecord.Fits (record : ModelRecord) : Prop :=
  (utf8 record.name).length < 2 ^ 32 ∧ (utf8 record.repository).length < 2 ^ 32 ∧
    (utf8 record.revision).length < 2 ^ 32

/-- The fields of the settings, as `encode_settings` writes them. -/
def SettingsCode (settings : ApplicationSettings) (code : List UInt8) : Prop :=
  ∃ repository revision, StringCode settings.defaultRepository repository ∧
    StringCode settings.defaultRevision revision ∧
    code = repository ++ (revision ++ (toLe 8 settings.maximumHostMemoryBytes.toNat ++
      (toLe 8 settings.maximumDeviceMemoryBytes.toNat ++ toLe 8 settings.drainTimeoutMilliseconds.toNat)))

/-- The fields of a catalogue entry, as `encode_model` writes them. -/
def ModelCode (record : ModelRecord) (code : List UInt8) : Prop :=
  ∃ name repository revision, StringCode record.name name ∧ StringCode record.repository repository ∧
    StringCode record.revision revision ∧
    code = name ++ (repository ++ (revision ++ ([record.scalarType.code] ++
      toLe 8 record.lastUsedUnixMilliseconds.toNat)))

theorem exists_stringCode {value : String} (h : (utf8 value).length < 2 ^ 32) : ∃ code, StringCode value code :=
  ⟨_, Nat.le_of_lt_succ h, rfl⟩

theorem settingsFields : FieldsOf decodeSettingsFields SettingsCode where
  answers := by
    rintro v _ ⟨repository, revision, hrepository, hrevision, rfl⟩
    refine (Decoder.string_answers hrepository).bind ?_
    refine (Decoder.string_answers hrevision).bind ?_
    refine (Decoder.u64_answers _).bind ?_
    refine (Decoder.u64_answers _).bind ?_
    refine (Decoder.u64_answers _).bind_nil ?_
    exact Answers.pure v
  takes := by
    refine (Decoder.string_takes.bind fun _ => Decoder.string_takes.bind fun _ => Decoder.u64_takes.bind fun _ =>
      Decoder.u64_takes.bind fun _ => Decoder.u64_takes.bind fun _ => Takes.pure _).mono ?_
    rintro _ _ ⟨_, repository, _, hrepository, ⟨_, revision, _, hrevision, ⟨_, _, _, rfl, ⟨_, _, _, rfl,
      ⟨_, _, _, rfl, ⟨rfl, rfl⟩, rfl⟩, rfl⟩, rfl⟩, rfl⟩, rfl⟩
    refine ⟨repository, revision, hrepository, hrevision, ?_⟩
    rw [List.append_nil]
  bounded := by
    rintro v _ ⟨repository, revision, hrepository, hrevision, rfl⟩
    have h1 := hrepository.length
    have h2 := hrevision.length
    simp only [List.length_append, length_toLe]
    unfold u32Max at h1 h2
    unfold u64Max
    omega

theorem encodeSettings_eq_ok (settings : ApplicationSettings) (bytes : List UInt8) :
    encodeSettings settings = .ok bytes ↔ ∃ code, SettingsCode settings code ∧ bytes = header settingsMagic ++ code := by
  simp only [encodeSettings, Except.bind_eq_ok, encodeString_eq_ok, Except.pure_eq_ok]
  constructor
  · rintro ⟨_, ⟨repository, hrepository, rfl⟩, _, ⟨revision, hrevision, rfl⟩, rfl⟩
    refine ⟨_, ⟨repository, revision, hrepository, hrevision, rfl⟩, ?_⟩
    simp only [header, List.append_assoc]
  · rintro ⟨_, ⟨repository, revision, hrepository, hrevision, rfl⟩, rfl⟩
    refine ⟨_, ⟨repository, hrepository, rfl⟩, _, ⟨revision, hrevision, rfl⟩, ?_⟩
    simp only [header, List.append_assoc]

theorem settings_fit (settings : ApplicationSettings) (h : settings.Fits) : ∃ code, SettingsCode settings code := by
  obtain ⟨repository, hrepository⟩ := exists_stringCode h.1
  obtain ⟨revision, hrevision⟩ := exists_stringCode h.2
  exact ⟨_, repository, revision, hrepository, hrevision, rfl⟩

theorem scalarType_answers (scalarType : StoredScalarType) :
    Answers Decoder.Ahead StoredScalarType.decode [scalarType.code] (some scalarType) := by
  refine (Decoder.u8_answers scalarType.code).bind_nil ?_
  cases scalarType <;> exact Answers.pure _

theorem scalarType_takes : Takes Decoder.ahead StoredScalarType.decode fun scalarType code => code = [scalarType.code] := by
  refine (Decoder.u8_takes.bind
    (D := fun byte (scalarType : StoredScalarType) code => byte = scalarType.code ∧ code = []) fun byte => ?_).mono ?_
  · split
    · exact (Takes.pure _).mono fun _ _ h => ⟨by rw [h.1]; rfl, h.2⟩
    · exact (Takes.pure _).mono fun _ _ h => ⟨by rw [h.1]; rfl, h.2⟩
    · exact (Takes.pure _).mono fun _ _ h => ⟨by rw [h.1]; rfl, h.2⟩
    · exact Takes.throw _ _
  rintro _ _ ⟨_, _, _, rfl, ⟨rfl, rfl⟩, rfl⟩
  rw [List.append_nil]

theorem modelFields : FieldsOf decodeModelFields ModelCode where
  answers := by
    rintro v _ ⟨name, repository, revision, hname, hrepository, hrevision, rfl⟩
    refine (Decoder.string_answers hname).bind ?_
    refine (Decoder.string_answers hrepository).bind ?_
    refine (Decoder.string_answers hrevision).bind ?_
    refine (scalarType_answers _).bind ?_
    refine (Decoder.u64_answers _).bind_nil ?_
    exact Answers.pure v
  takes := by
    refine (Decoder.string_takes.bind fun _ => Decoder.string_takes.bind fun _ => Decoder.string_takes.bind fun _ =>
      scalarType_takes.bind fun _ => Decoder.u64_takes.bind fun _ => Takes.pure _).mono ?_
    rintro _ _ ⟨_, name, _, hname, ⟨_, repository, _, hrepository, ⟨_, revision, _, hrevision, ⟨_, _, _, rfl,
      ⟨_, _, _, rfl, ⟨rfl, rfl⟩, rfl⟩, rfl⟩, rfl⟩, rfl⟩, rfl⟩
    refine ⟨name, repository, revision, hname, hrepository, hrevision, ?_⟩
    rw [List.append_nil]
  bounded := by
    rintro v _ ⟨name, repository, revision, hname, hrepository, hrevision, rfl⟩
    have h1 := hname.length
    have h2 := hrepository.length
    have h3 := hrevision.length
    simp only [List.length_append, length_toLe, List.length_singleton]
    unfold u32Max at h1 h2 h3
    unfold u64Max
    omega

theorem encodeModel_eq_ok (record : ModelRecord) (bytes : List UInt8) :
    encodeModel record = .ok bytes ↔ ∃ code, ModelCode record code ∧ bytes = header modelMagic ++ code := by
  simp only [encodeModel, Except.bind_eq_ok, encodeString_eq_ok, Except.pure_eq_ok]
  constructor
  · rintro ⟨_, ⟨name, hname, rfl⟩, _, ⟨repository, hrepository, rfl⟩, _, ⟨revision, hrevision, rfl⟩, rfl⟩
    refine ⟨_, ⟨name, repository, revision, hname, hrepository, hrevision, rfl⟩, ?_⟩
    simp only [header, List.append_assoc]
  · rintro ⟨_, ⟨name, repository, revision, hname, hrepository, hrevision, rfl⟩, rfl⟩
    refine ⟨_, ⟨name, hname, rfl⟩, _, ⟨repository, hrepository, rfl⟩, _, ⟨revision, hrevision, rfl⟩, ?_⟩
    simp only [header, List.append_assoc]

theorem model_fits (record : ModelRecord) (h : record.Fits) : ∃ code, ModelCode record code := by
  obtain ⟨name, hname⟩ := exists_stringCode h.1
  obtain ⟨repository, hrepository⟩ := exists_stringCode h.2.1
  obtain ⟨revision, hrevision⟩ := exists_stringCode h.2.2
  exact ⟨_, name, repository, revision, hname, hrepository, hrevision, rfl⟩

/-- The magic tells what a record is. -/
theorem header_ne {magic magic' : List UInt8} (h : magic.length = magic'.length) (hne : magic ≠ magic')
    (code code' : List UInt8) : header magic ++ code ≠ header magic' ++ code' := by
  intro heq
  unfold header at heq
  rw [List.append_assoc, List.append_assoc] at heq
  exact hne (List.append_inj_left heq h)

/-- Both formats are canonical, and neither decoder accepts a record of the
other encoder. -/
theorem records_canonical :
    Canonical encodeSettings decodeSettings ApplicationSettings.validate ApplicationSettings.Fits ∧
      Canonical encodeModel decodeModel ModelRecord.validate ModelRecord.Fits ∧
      (∀ record bytes, encodeModel record = .ok bytes → ∃ e, decodeSettings bytes = .error e) ∧
      ∀ settings bytes, encodeSettings settings = .ok bytes → ∃ e, decodeModel bytes = .error e := by
  have hmagic : settingsMagic ≠ modelMagic := by decide +kernel
  have hsettings : settingsMagic.length = 4 := by decide +kernel
  have hmodel : modelMagic.length = 4 := by decide +kernel
  refine ⟨canonical_of_fields settingsFields hsettings encodeSettings_eq_ok settings_fit,
    canonical_of_fields modelFields hmodel encodeModel_eq_ok model_fits, ?_, ?_⟩
  · intro record bytes h
    obtain ⟨code, -, rfl⟩ := (encodeModel_eq_ok record bytes).mp h
    cases hread : decodeSettings (header modelMagic ++ code) with
    | error e => exact ⟨e, rfl⟩
    | ok settings =>
      obtain ⟨⟨code', -, heq⟩, -⟩ := (decodeRecord_eq_ok settingsFields hsettings).mp hread
      exact absurd heq (header_ne (hmodel.trans hsettings.symm) hmagic.symm _ _)
  · intro settings bytes h
    obtain ⟨code, -, rfl⟩ := (encodeSettings_eq_ok settings bytes).mp h
    cases hread : decodeModel (header settingsMagic ++ code) with
    | error e => exact ⟨e, rfl⟩
    | ok record =>
      obtain ⟨⟨code', -, heq⟩, -⟩ := (decodeRecord_eq_ok modelFields hmodel).mp hread
      exact absurd heq (header_ne (hsettings.trans hmodel.symm) hmagic _ _)

end LlmApp
