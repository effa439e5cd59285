/-
# The inspection is bounded, and monotone in its limits

Whatever the bytes, and however they are delivered, the inspection reads at most
as many bytes as its limit on the header and makes no string buffer above its
limit on strings (`inspectReader_keeps`).

Where it succeeds, what it read is the encoding of a header within the limits
(`readHeader_took`). So its specification applies to any file that starts with
this header, and under any higher limits (`inspection_bounded`).

Key theorems: `readHeader_took`, `inspection_bounded`.
-/
import LlmApp.Gguf.Inspection

namespace LlmApp

open InspectionState

/-! ### On every path -/

theorem readTokenArray_keeps (valueType : ℕ) (limits : GgufInspectionLimits) (c : CollectedMetadata) :
    Keeps limits.maximumStringBytes.toNat (readTokenArray valueType limits c) := by
  refine Keeps.guard fun _ => (readUnsigned_keeps 4).bind fun _ => (readUnsigned_keeps 8).bind fun count => ?_
  refine Keeps.guard fun _ => Keeps.guard fun _ => Keeps.guard fun _ => Keeps.guard fun _ => ?_
  exact (skipStrings_keeps _ count).bind fun _ => Keeps.pure _

theorem readMetadataValue_keeps (key : String) (valueType : ℕ) (limits : GgufInspectionLimits) (c : CollectedMetadata) :
    Keeps limits.maximumStringBytes.toNat (readMetadataValue key valueType limits c) := by
  unfold readMetadataValue
  split_ifs
  · exact Keeps.guard fun _ => (readString_keeps _).bind fun _ => Keeps.pure _
  · exact Keeps.guard fun _ => (readInteger_keeps valueType).bind fun _ => Keeps.guard fun _ => Keeps.pure _
  · exact readTokenArray_keeps valueType limits c
  · split
    · exact (readInteger_keeps valueType).bind fun _ => Keeps.lift _
    · exact (skipValue_keeps limits valueType).bind fun _ => Keeps.pure _

theorem readEntries_keeps (limits : GgufInspectionLimits) : ∀ (count : ℕ) (c : CollectedMetadata),
    Keeps limits.maximumStringBytes.toNat (readEntries limits count c)
  | 0, c => Keeps.pure c
  | count + 1, _ => (readString_keeps _).bind fun key => (readUnsigned_keeps 4).bind fun valueType =>
      (readMetadataValue_keeps key valueType limits _).bind fun c => readEntries_keeps limits count c

theorem readHeader_keeps (limits : GgufInspectionLimits) : Keeps limits.maximumStringBytes.toNat (readHeader limits) := by
  refine (readExact_keeps 4).bind fun _ => Keeps.guard fun _ => ?_
  refine (readUnsigned_keeps 4).bind fun _ => Keeps.guard fun _ => ?_
  refine (readUnsigned_keeps 8).bind fun _ => (readUnsigned_keeps 8).bind fun count => Keeps.guard fun _ => ?_
  exact readEntries_keeps limits count {}

/-- What the inspection consumed, and the buffers it made. -/
theorem inspectReader_keeps (file : FileReader) (limits : GgufInspectionLimits) :
    Passed limits.maximumStringBytes.toNat ⟨⟨file, limits.maximumHeaderBytes.toNat⟩, []⟩
      (inspectReader file limits).state :=
  ((readHeader_keeps limits).bind fun c => Keeps.lift c.finish) _

/-! ### What was read when it succeeds -/

theorem readTokenArray_took (valueType : ℕ) (limits : GgufInspectionLimits) (c : CollectedMetadata) :
    Took (readTokenArray valueType limits c) fun _ code => ∃ value, ValueCode limits valueType value code := by
  refine Took.guard fun htype => ?_
  obtain rfl := not_not.mp htype
  refine ((readUnsigned_took 4).bind
    (D := fun elementType _ code => ∃ value, ValueCode limits typeArray value (toLe 4 elementType ++ code))
    fun elementType => ?_).mono ?_
  · refine ((readUnsigned_took 8).bind
      (D := fun count _ code => ∃ value, ValueCode limits typeArray value (toLe 4 elementType ++ (toLe 8 count ++ code)))
      fun count => Took.guard fun hcount => Took.guard fun hstring => Took.guard fun _ => Took.guard fun _ => ?_).mono ?_
    · obtain rfl := not_not.mp hstring
      refine ((skipStrings_took _ count).bind fun _ => Took.pure _).mono ?_
      rintro _ _ ⟨_, _, _, ⟨elements, rfl, helements, rfl⟩, ⟨-, rfl⟩, rfl⟩
      exact ⟨.strings elements, rfl, ⟨Nat.not_lt.mp hcount, helements⟩, by rw [List.append_nil]; rfl⟩
    · rintro _ _ ⟨count, _, code, ⟨-, rfl⟩, hvalue, rfl⟩
      exact hvalue
  · rintro _ _ ⟨elementType, _, code, ⟨-, rfl⟩, hvalue, rfl⟩
    exact hvalue

theorem readMetadataValue_took (key : String) (valueType : ℕ) (limits : GgufInspectionLimits) (c : CollectedMetadata) :
    Took (readMetadataValue key valueType limits c) fun _ code => ∃ value, ValueCode limits valueType value code := by
  unfold readMetadataValue
  split_ifs
  · refine Took.guard fun htype => ?_
    rw [not_or] at htype
    obtain rfl := not_not.mp htype.1
    refine ((readString_took _).bind fun _ => Took.pure _).mono ?_
    rintro _ _ ⟨architecture, _, _, ⟨hlength, rfl⟩, ⟨-, rfl⟩, rfl⟩
    exact ⟨.string (utf8 architecture), rfl, hlength, List.append_nil _⟩
  · refine Took.guard fun _ => ((readInteger_took limits valueType).bind
      (D := fun _ _ code => code = []) fun n => ?_).mono ?_
    · exact Took.guard fun _ => (Took.pure _).mono fun _ _ h => h.2
    · rintro _ _ ⟨n, code, _, ⟨value, hvalue, -⟩, rfl, rfl⟩
      exact ⟨value, by rwa [List.append_nil]⟩
  · exact readTokenArray_took valueType limits c
  · split
    · refine ((readInteger_took limits valueType).bind fun _ => Took.lift _).mono ?_
      rintro _ _ ⟨n, code, _, ⟨value, hvalue, -⟩, ⟨-, rfl⟩, rfl⟩
      exact ⟨value, by rwa [List.append_nil]⟩
    · refine ((skipValue_took limits valueType).bind fun _ => Took.pure _).mono ?_
      rintro _ _ ⟨_, code, _, ⟨value, hvalue⟩, ⟨-, rfl⟩, rfl⟩
      exact ⟨value, by rwa [List.append_nil]⟩

theorem readEntries_took (limits : GgufInspectionLimits) : ∀ (count : ℕ) (c : CollectedMetadata),
    Took (readEntries limits count c) fun _ code => ∃ entries : List GgufEntry, entries.length = count ∧
      (∀ entry ∈ entries, entry.Within limits) ∧ code = entries.flatMap GgufEntry.encode
  | 0, c => (Took.pure c).mono fun _ _ h => ⟨[], rfl, nofun, h.2⟩
  | count + 1, _ => by
    refine ((readString_took _).bind fun key => (readUnsigned_took 4).bind fun valueType =>
      (readMetadataValue_took key valueType limits _).bind fun c => readEntries_took limits count c).mono ?_
    rintro _ _ ⟨key, _, _, ⟨hkey, rfl⟩, ⟨valueType, _, _, ⟨-, rfl⟩,
      ⟨_, _, _, ⟨value, rfl, hvalue, rfl⟩, ⟨entries, rfl, hentries, rfl⟩, rfl⟩, rfl⟩, rfl⟩
    refine ⟨⟨key, value⟩ :: entries, rfl, ?_, ?_⟩
    · intro entry hmem
      obtain rfl | hmem := List.mem_cons.mp hmem
      · exact ⟨hkey, hvalue⟩
      · exact hentries entry hmem
    · rw [List.flatMap_cons, GgufEntry.encode, List.append_assoc, List.append_assoc]

/-- What was read is the encoding of a header within the limits. -/
theorem readHeader_took (limits : GgufInspectionLimits) : Took (readHeader limits) fun _ code =>
    ∃ header : GgufHeader, (header.version = 2 ∨ header.version = 3) ∧
      header.entries.length ≤ limits.maximumMetadataEntries.toNat ∧ (∀ entry ∈ header.entries, entry.Within limits) ∧
      code = header.encode := by
  refine ((readExact_took 4).bind (D := fun magic _ code => magic = ggufMagic ∧ ∃ version tensorCount : ℕ,
      (version = 2 ∨ version = 3) ∧ tensorCount < 256 ^ 8 ∧ ∃ entries : List GgufEntry,
        entries.length ≤ limits.maximumMetadataEntries.toNat ∧ (∀ entry ∈ entries, entry.Within limits) ∧
        code = toLe 4 version ++ (toLe 8 tensorCount ++ (toLe 8 entries.length ++ entries.flatMap GgufEntry.encode)))
    fun magic => Took.guard fun hmagic => ?_).mono ?_
  · refine ((readUnsigned_took 4).bind (D := fun version _ code => (version = 2 ∨ version = 3) ∧ ∃ tensorCount : ℕ,
        tensorCount < 256 ^ 8 ∧ ∃ entries : List GgufEntry,
          entries.length ≤ limits.maximumMetadataEntries.toNat ∧ (∀ entry ∈ entries, entry.Within limits) ∧
          code = toLe 8 tensorCount ++ (toLe 8 entries.length ++ entries.flatMap GgufEntry.encode))
      fun version => Took.guard fun hversion => ?_).mono ?_
    · refine ((readUnsigned_took 8).bind fun tensorCount => (readUnsigned_took 8).bind (D := fun count _ code =>
          ∃ entries : List GgufEntry, entries.length = count ∧ count ≤ limits.maximumMetadataEntries.toNat ∧
            (∀ entry ∈ entries, entry.Within limits) ∧ code = entries.flatMap GgufEntry.encode)
        fun count => Took.guard fun hcount => ?_).mono ?_
      · refine (readEntries_took limits count {}).mono ?_
        rintro _ _ ⟨entries, hlength, hentries, rfl⟩
        exact ⟨entries, hlength, Nat.not_lt.mp hcount, hentries, rfl⟩
      · rintro _ _ ⟨tensorCount, _, _, ⟨htensors, rfl⟩, ⟨_, _, _, ⟨-, rfl⟩, ⟨entries, rfl, hcount, hentries, rfl⟩, rfl⟩, rfl⟩
        refine ⟨?_, tensorCount, htensors, entries, hcount, hentries, rfl⟩
        by_contra hno
        exact hversion (not_or.mp hno)
    · rintro _ _ ⟨version, _, _, ⟨-, rfl⟩, ⟨hversion, tensorCount, htensors, entries, hcount, hentries, rfl⟩, rfl⟩
      exact ⟨not_not.mp hmagic, version, tensorCount, hversion, htensors, entries, hcount, hentries, rfl⟩
  · rintro _ _ ⟨_, _, _, ⟨rfl, -⟩, ⟨rfl, version, tensorCount, hversion, htensors, entries, hcount, hentries, rfl⟩, rfl⟩
    refine ⟨⟨version, UInt64.ofNat tensorCount, entries⟩, hversion, hcount, hentries, ?_⟩
    have hlt : tensorCount < 2 ^ 64 := htensors
    rw [GgufHeader.encode, UInt64.toNat_ofNat', Nat.mod_eq_of_lt hlt]

/-! ### The result -/

/-- No limit is lower. -/
structure GgufInspectionLimits.Raised (limits limits' : GgufInspectionLimits) : Prop where
  headerBytes : limits.maximumHeaderBytes ≤ limits'.maximumHeaderBytes
  metadataEntries : limits.maximumMetadataEntries ≤ limits'.maximumMetadataEntries
  stringBytes : limits.maximumStringBytes ≤ limits'.maximumStringBytes
  arrayElements : limits.maximumArrayElements ≤ limits'.maximumArrayElements

theorem GgufHeader.Within.raised {limits limits' : GgufInspectionLimits} {header : GgufHeader}
    (h : header.Within limits) (hraised : limits.Raised limits') : header.Within limits' := by
  refine ⟨h.version, h.count.trans hraised.metadataEntries, fun entry hentry => ?_, h.bytes.trans hraised.headerBytes⟩
  have hwithin := h.entries entry hentry
  refine ⟨hwithin.key.trans hraised.stringBytes, ?_⟩
  have hvalue := hwithin.value
  cases hcases : entry.value with
  | scalar => trivial
  | string bytes =>
    rw [hcases] at hvalue
    exact Nat.le_trans hvalue hraised.stringBytes
  | array type elements =>
    rw [hcases] at hvalue
    exact Nat.le_trans hvalue hraised.arrayElements
  | strings elements =>
    rw [hcases] at hvalue
    exact ⟨hvalue.1.trans hraised.arrayElements, fun bytes hbytes => (hvalue.2 bytes hbytes).trans hraised.stringBytes⟩

/-- The inspection ends, on any bytes delivered in any way, with no more bytes
consumed than its limit on the header and no string buffer larger than its limit
on strings. If it succeeds it has consumed exactly a header, and every file that
starts with this header has the same result under the same and any higher
limits. -/
theorem inspection_bounded (file : FileReader) (limits : GgufInspectionLimits) :
    (∃ code, file.bytes = code ++ (inspectReader file limits).state.reader.inner.bytes ∧
      code.length ≤ limits.maximumHeaderBytes.toNat) ∧
    (∀ n ∈ (inspectReader file limits).state.reserved, n ≤ limits.maximumStringBytes.toNat) ∧
    ∀ m s, inspectReader file limits = .ok m s → ∃ header : GgufHeader,
      header.Within limits ∧ file.bytes = header.encode ++ s.reader.inner.bytes ∧
      ∀ (file' : FileReader) (limits' : GgufInspectionLimits), header.encode <+: file'.bytes → limits.Raised limits' →
        Inspected file' limits' m := by
  obtain ⟨code, hconsumed, hreserved⟩ := inspectReader_keeps file limits
  have hbytes : file.bytes = code ++ (inspectReader file limits).state.reader.inner.bytes := hconsumed.bytes
  have hfits : code.length ≤ limits.maximumHeaderBytes.toNat := by
    have hremaining : limits.maximumHeaderBytes.toNat = code.length + _ := hconsumed.remaining
    omega
  refine ⟨⟨code, hbytes, hfits⟩, fun n hn => (hreserved n hn).resolve_left List.not_mem_nil, fun m s h => ?_⟩
  have htook := ((readHeader_took limits).bind fun c => Took.lift c.finish) _ _ _ (EStateM.forget_eq_ok.mpr h)
  obtain ⟨_, ⟨c, _, _, ⟨header, hversion, hcount, hentries, rfl⟩, ⟨-, rfl⟩, rfl⟩, hahead⟩ := htook
  rw [List.append_nil] at hahead
  have hheader : file.bytes = header.encode ++ s.reader.inner.bytes := hahead
  rw [h] at hbytes
  -- what was consumed is this header
  obtain rfl : code = header.encode := List.append_cancel_right (hbytes.symm.trans hheader)
  have hwithin : header.Within limits := ⟨hversion, hcount, hentries, hfits⟩
  refine ⟨header, hwithin, hheader, fun file' limits' hlies hraised => ?_⟩
  rw [inspected_iff (hwithin.raised hraised) hlies, ← inspected_iff hwithin ⟨_, hheader.symm⟩]
  exact ⟨s, h⟩

end LlmApp
