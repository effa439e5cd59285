/-
# The readers of a GGUF header

A reader reads a code if it reads past it and returns its value, or fails
(`Reads`), and it took a code if that lay before the place it returned at
(`Took`). `readExact` reads exactly the next bytes, however the file is
delivered (`readExact_reads`, `readExact_took`), so the readers over it read
words, strings, scalars and arrays from their encodings.

On every path, failed or not, a reader consumes what the limit on the header
pays for, and makes no string buffer beyond the limit on strings (`Passed`).

Key theorems: `readString_reads`, `readInteger_reads`, `skipValue_reads`,
`skipValue_took`.
-/
import LlmApp.Data.Reader
import LlmApp.Gguf.Header

namespace LlmApp

/-! ### Reading a bounded file -/

/-- Between the two `code` was read. -/
structure BoundedReader.Consumed (reader : BoundedReader) (code : List UInt8) (reader' : BoundedReader) : Prop where
  bytes : reader.inner.bytes = code ++ reader'.inner.bytes
  remaining : reader.remaining = code.length + reader'.remaining

theorem BoundedReader.Consumed.refl (reader : BoundedReader) : reader.Consumed [] reader := ⟨rfl, (Nat.zero_add _).symm⟩

theorem BoundedReader.Consumed.trans {reader reader' reader'' : BoundedReader} {x y : List UInt8}
    (h : reader.Consumed x reader') (h' : reader'.Consumed y reader'') : reader.Consumed (x ++ y) reader'' where
  bytes := by rw [h.bytes, h'.bytes, List.append_assoc]
  remaining := by
    have hx := h.remaining
    have hy := h'.remaining
    rw [List.length_append]
    omega

/-- A read of something from a reader that is not exhausted. -/
theorem BoundedReader.read_eq {reader : BoundedReader} {length : ℕ} (hlength : length ≠ 0)
    (hremaining : reader.remaining ≠ 0) : ∃ code reader', reader.read length = (some code, reader') ∧
      reader.Consumed code reader' ∧ code.length ≤ length ∧ (code = [] → reader.inner.bytes = []) := by
  obtain ⟨count, hcount, hpos, hread⟩ : ∃ count, count ≤ min reader.remaining length ∧ 0 < count ∧
      (reader.inner.read (min reader.remaining length)).1 = reader.inner.bytes.take count ∧
      (reader.inner.read (min reader.remaining length)).2.bytes = reader.inner.bytes.drop count := by
    cases hsizes : reader.inner.sizes with
    | nil =>
      refine ⟨min reader.remaining length, le_rfl, by omega, ?_⟩
      simp [FileReader.read, hsizes]
    | cons size sizes =>
      refine ⟨min (min reader.remaining length) (size + 1), min_le_left _ _, by omega, ?_⟩
      simp [FileReader.read, hsizes]
  have hshort := List.length_take_le count reader.inner.bytes
  have hsub : checkedSub reader.remaining (reader.inner.bytes.take count).length =
      some (reader.remaining - (reader.inner.bytes.take count).length) :=
    checkedSub_eq_some.mpr (by omega)
  refine ⟨reader.inner.bytes.take count,
    ⟨(reader.inner.read (min reader.remaining length)).2, reader.remaining - (reader.inner.bytes.take count).length⟩,
    ?_, ⟨?_, ?_⟩, by omega, ?_⟩
  · unfold BoundedReader.read
    rw [if_neg hlength, if_neg hremaining]
    simp only [hread.1, hsub]
  · rw [hread.2, List.take_append_drop]
  · have hle : (reader.inner.bytes.take count).length ≤ reader.remaining := by omega
    exact (Nat.add_sub_cancel' hle).symm
  · intro hnil
    rw [List.take_eq_nil_iff] at hnil
    exact hnil.resolve_left (by omega)

theorem readExactLoop_zero (reader : BoundedReader) (output : List UInt8) :
    readExactLoop reader 0 output = (.ok output, reader) := by
  rw [readExactLoop, if_pos rfl]

/-- What is consumed when the loop ends, which is what was asked for if it
succeeds. -/
theorem readExactLoop_consumed (reader : BoundedReader) (length : ℕ) (output : List UInt8) :
    ∃ code, reader.Consumed code (readExactLoop reader length output).2 ∧
      ∀ bytes, (readExactLoop reader length output).1 = .ok bytes → bytes = output ++ code ∧ code.length = length := by
  induction length using Nat.strong_induction_on generalizing reader output with
  | _ length ih =>
    by_cases hlength : length = 0
    · subst hlength
      rw [readExactLoop_zero]
      refine ⟨[], .refl reader, ?_⟩
      rintro _ ⟨⟩
      exact ⟨(List.append_nil _).symm, rfl⟩
    · by_cases hremaining : reader.remaining = 0
      · have hread : reader.read length = (none, reader) := by
          rw [BoundedReader.read, if_neg hlength, if_pos hremaining]
        rw [readExactLoop, if_neg hlength, hread]
        exact ⟨[], .refl reader, nofun⟩
      · obtain ⟨code, reader', hread, hconsumed, hcode, -⟩ := BoundedReader.read_eq hlength hremaining
        rw [readExactLoop, if_neg hlength, hread]
        by_cases hnil : code = []
        · simp only [if_pos hnil]
          exact ⟨code, hconsumed, nofun⟩
        · have hpos := List.length_pos_iff.mpr hnil
          obtain ⟨more, hmore, hok⟩ := ih (length - code.length) (by omega) reader' (output ++ code)
          simp only [if_neg hnil]
          refine ⟨code ++ more, hconsumed.trans hmore, fun bytes hbytes => ?_⟩
          obtain ⟨rfl, hlong⟩ := hok bytes hbytes
          refine ⟨List.append_assoc _ _ _, ?_⟩
          rw [List.length_append]
          omega

/-- The loop succeeds if what is asked for can be read. -/
theorem readExactLoop_ok {reader : BoundedReader} {code : List UInt8} (output : List UInt8)
    (hlies : code <+: reader.inner.bytes) (hfits : code.length ≤ reader.remaining) :
    ∃ reader', readExactLoop reader code.length output = (.ok (output ++ code), reader') ∧ reader.Consumed code reader' := by
  generalize hlength : code.length = length
  induction length using Nat.strong_induction_on generalizing reader code output with
  | _ length ih =>
    by_cases hzero : length = 0
    · subst hzero
      obtain rfl := List.length_eq_zero_iff.mp hlength
      rw [readExactLoop_zero, List.append_nil]
      exact ⟨reader, rfl, .refl reader⟩
    · have hremaining : reader.remaining ≠ 0 := by omega
      obtain ⟨first, reader', hread, hconsumed, hfirst, hend⟩ := BoundedReader.read_eq hzero hremaining
      have hne : first ≠ [] := by
        intro hnil
        have hle := hlies.length_le
        rw [hend hnil, List.length_nil] at hle
        omega
      have hpos := List.length_pos_iff.mpr hne
      -- what was read is the start of the code
      obtain ⟨more, rfl⟩ : first <+: code :=
        List.prefix_of_prefix_length_le ⟨_, hconsumed.bytes.symm⟩ hlies (by omega)
      have hremaining := hconsumed.remaining
      rw [List.length_append] at hlength hfits
      have hlies' : more <+: reader'.inner.bytes := by
        rw [hconsumed.bytes] at hlies
        exact (List.prefix_append_right_inj first).mp hlies
      obtain ⟨reader'', hloop, hconsumed'⟩ :=
        ih (length - first.length) (by omega) (output ++ first) hlies' (by omega) (by omega)
      refine ⟨reader'', ?_, hconsumed.trans hconsumed'⟩
      rw [readExactLoop, if_neg hzero, hread]
      simp only [if_neg hne]
      rw [hloop, List.append_assoc]

/-! ### Readers -/

namespace InspectionState

/-- These bytes can be read next. -/
structure Ahead (s : InspectionState) (bytes : List UInt8) : Prop where
  lies : bytes <+: s.reader.inner.bytes
  fits : bytes.length ≤ s.reader.remaining

/-- What the file still holds. -/
def ahead (s : InspectionState) : List UInt8 := s.reader.inner.bytes

theorem Ahead.after {s : InspectionState} {code rest : List UInt8} {reader' : BoundedReader} {reserved : List ℕ}
    (h : s.Ahead (code ++ rest)) (hconsumed : s.reader.Consumed code reader') : Ahead ⟨reader', reserved⟩ rest where
  lies := by
    have hlies := h.lies
    rw [hconsumed.bytes] at hlies
    exact (List.prefix_append_right_inj code).mp hlies
  fits := by
    have hfits := h.fits
    have hremaining := hconsumed.remaining
    rw [List.length_append] at hfits
    show rest.length ≤ reader'.remaining
    omega

/-- Between the two nothing was read that the limit on the header does not pay
for, and no string buffer was made of more than `maximum` bytes. -/
def Passed (maximum : ℕ) (s s' : InspectionState) : Prop :=
  ∃ code, s.reader.Consumed code s'.reader ∧ ∀ n ∈ s'.reserved, n ∈ s.reserved ∨ n ≤ maximum

theorem Passed.refl {maximum : ℕ} (s : InspectionState) : Passed maximum s s := ⟨[], .refl _, fun _ => .inl⟩

theorem Passed.trans {maximum : ℕ} (s s' s'' : InspectionState) (h : Passed maximum s s') (h' : Passed maximum s' s'') :
    Passed maximum s s'' := by
  obtain ⟨x, hx, hreserved⟩ := h
  obtain ⟨y, hy, hreserved'⟩ := h'
  refine ⟨x ++ y, hx.trans hy, fun n hn => ?_⟩
  obtain hn | hn := hreserved' n hn
  · exact hreserved n hn
  · exact .inr hn

end InspectionState

open InspectionState

/-- With `code` ahead the reader reads past it and returns the answer, or fails. -/
def Reads {α : Type} (r : Inspect α) (code : List UInt8) (answer : Option α) : Prop :=
  Answers Ahead r.forget code answer

/-- Whatever the reader returns, it has read a code of it. -/
def Took {α : Type} (r : Inspect α) (C : α → List UInt8 → Prop) : Prop := Takes ahead r.forget C

namespace Reads

variable {α β : Type} {r : Inspect α} {f : α → Inspect β} {x y : List UInt8} {a : α} {o : Option β}

theorem pure (a : α) : Reads (Pure.pure a) [] (some a) := Answers.pure a

theorem throw (e : MetadataError) (code : List UInt8) : Reads (throw e : Inspect α) code none := Answers.throw e code

theorem bind (hr : Reads r x (some a)) (hf : Reads (f a) y o) : Reads (r >>= f) (x ++ y) o := by
  unfold Reads
  rw [EStateM.forget_bind]
  exact Answers.bind hr hf

theorem bind_nil (hr : Reads r x (some a)) (hf : Reads (f a) [] o) : Reads (r >>= f) x o := by
  have h := hr.bind hf
  rwa [List.append_nil] at h

theorem bind_fails (hr : Reads r x none) : Reads (r >>= f) (x ++ y) none := by
  unfold Reads
  rw [EStateM.forget_bind]
  exact Answers.bind_fails hr

theorem bind_nil_fails (hr : Reads r x none) : Reads (r >>= f) x none := by
  have h := hr.bind_fails (f := f) (y := [])
  rwa [List.append_nil] at h

theorem lift {z : Except MetadataError α} (hz : z = .ok a) : Reads (liftM z) [] (some a) := by
  subst hz
  exact Answers.pure a

theorem lift_error {z : Except MetadataError α} {e : MetadataError} (hz : z = .error e) (code : List UInt8) :
    Reads (liftM z) code none := by
  subst hz
  exact Answers.throw e code

theorem lift_option {z : Except MetadataError α} {o : Option α} (h : ∀ a, z = .ok a ↔ o = some a) :
    Reads (liftM z) [] o := by
  cases z with
  | ok a =>
    rw [(h a).mp rfl]
    exact Reads.lift rfl
  | error e =>
    have hnone : o = none := Option.eq_none_iff_forall_ne_some.mpr fun a ha => nomatch (h a).mpr ha
    rw [hnone]
    exact Reads.lift_error rfl []

/-- What a reader returns that has its code ahead. -/
theorem ok_iff {s : InspectionState} {o : Option α} (hr : Reads r x o) (hs : s.Ahead x) :
    (∃ s', r s = .ok a s') ↔ o = some a := by
  have hanswer := hr s [] (by rwa [List.append_nil])
  cases o with
  | some b =>
    obtain ⟨s', hrun, -⟩ := hanswer
    rw [EStateM.forget_eq_ok.mp hrun]
    simp
  | none =>
    obtain ⟨e, he⟩ := hanswer
    obtain ⟨s', hrun⟩ := EStateM.forget_eq_error.mp he
    rw [hrun]
    simp

/-- A check that passes. -/
theorem guard {c : Prop} [Decidable c] {e : MetadataError} {f : Unit → Inspect β} (hc : ¬ c) (hf : Reads (f ()) y o) :
    Reads (liftM (Except.failIf c e) >>= f) y o :=
  (Reads.lift (Except.failIf_eq_ok.mpr hc)).bind hf

/-- A check that fails. -/
theorem stop {c : Prop} [Decidable c] {e : MetadataError} {f : Unit → Inspect β} (hc : c) :
    Reads (liftM (Except.failIf c e) >>= f) y none :=
  (Reads.lift_error (Except.failIf_eq_error.mpr ⟨hc, rfl⟩) []).bind_fails

/-- What lies ahead of a reader is at most a file. -/
theorem of_length {o : Option α} (h : x.length ≤ isizeMax → Reads r x o) : Reads r x o := by
  intro s rest hs
  have hle := hs.lies.length_le
  have hbounded := s.reader.inner.bounded
  rw [List.length_append] at hle
  exact h (by omega) s rest hs

end Reads

namespace Took

variable {α β : Type} {r : Inspect α} {f : α → Inspect β} {C : α → List UInt8 → Prop} {D : α → β → List UInt8 → Prop}
  {E : β → List UInt8 → Prop}

theorem pure (a : α) : Took (Pure.pure a) fun b code => b = a ∧ code = [] := Takes.pure a

theorem throw (e : MetadataError) (C : α → List UInt8 → Prop) : Took (throw e : Inspect α) C := Takes.throw e C

theorem mono {C' : α → List UInt8 → Prop} (hr : Took r C) (h : ∀ a code, C a code → C' a code) : Took r C' :=
  Takes.mono hr h

theorem bind (hr : Took r C) (hf : ∀ a, Took (f a) (D a)) :
    Took (r >>= f) fun b code => ∃ a x y, C a x ∧ D a b y ∧ code = x ++ y := by
  unfold Took
  rw [EStateM.forget_bind]
  exact Takes.bind hr hf

theorem lift (z : Except MetadataError α) : Took (liftM z) fun a code => z = .ok a ∧ code = [] := by
  cases z with
  | ok a => exact (Took.pure a).mono fun b code h => ⟨congrArg Except.ok h.1.symm, h.2⟩
  | error e => exact Took.throw e _

/-- What follows a check. -/
theorem guard {c : Prop} [Decidable c] {e : MetadataError} {f : Unit → Inspect β} (hf : ¬ c → Took (f ()) E) :
    Took (liftM (Except.failIf c e) >>= f) E := by
  by_cases hc : c
  · rw [Except.failIf, if_pos hc]
    exact Took.throw e _
  · rw [Except.failIf, if_neg hc]
    exact hf hc

end Took

/-- On every path the reader keeps to the limits. -/
def Keeps {α : Type} (maximum : ℕ) (r : Inspect α) : Prop := Advances (Passed maximum) r

namespace Keeps

variable {α β : Type} {maximum : ℕ} {r : Inspect α} {f : α → Inspect β}

theorem pure (a : α) : Keeps maximum (Pure.pure a) := Advances.pure Passed.refl a

theorem throw (e : MetadataError) : Keeps maximum (throw e : Inspect α) := Advances.throw Passed.refl e

theorem bind (hr : Keeps maximum r) (hf : ∀ a, Keeps maximum (f a)) : Keeps maximum (r >>= f) :=
  Advances.bind Passed.trans hr hf

theorem lift (z : Except MetadataError α) : Keeps maximum (liftM z) := by
  cases z with
  | ok a => exact Keeps.pure a
  | error e => exact Keeps.throw e

/-- What follows a check. -/
theorem guard {c : Prop} [Decidable c] {e : MetadataError} {f : Unit → Inspect β} (hf : ¬ c → Keeps maximum (f ())) :
    Keeps maximum (liftM (Except.failIf c e) >>= f) := by
  by_cases hc : c
  · rw [Except.failIf, if_pos hc]
    exact Keeps.throw e
  · rw [Except.failIf, if_neg hc]
    exact hf hc

end Keeps

/-! ### Bytes and words -/

theorem readExact_reads (code : List UInt8) : Reads (readExact code.length) code (some code) := by
  intro s rest hs
  have hfits := hs.fits
  rw [List.length_append] at hfits
  obtain ⟨reader', hloop, hconsumed⟩ :=
    readExactLoop_ok [] ((List.prefix_append code rest).trans hs.lies) (by omega)
  refine ⟨{ s with reader := reader' }, EStateM.forget_eq_ok.mpr ?_, hs.after hconsumed⟩
  rw [readExact, hloop, List.nil_append]

theorem readExact_took (length : ℕ) : Took (readExact length) fun value code => value = code ∧ code.length = length := by
  intro s value s' h
  rw [EStateM.forget_eq_ok, readExact] at h
  obtain ⟨code, hconsumed, hok⟩ := readExactLoop_consumed s.reader length []
  generalize readExactLoop s.reader length [] = loop at h hconsumed hok
  obtain ⟨e | bytes, reader'⟩ := loop
  · cases h
  · obtain ⟨hvalue, rfl⟩ := EStateM.Result.ok.inj h
    obtain ⟨hbytes, hlength⟩ := hok bytes rfl
    rw [List.nil_append] at hbytes
    exact ⟨code, ⟨hvalue.symm.trans hbytes, hlength⟩, hconsumed.bytes⟩

theorem readExact_keeps {maximum : ℕ} (length : ℕ) : Keeps maximum (readExact length) := by
  intro s
  obtain ⟨code, hconsumed, -⟩ := readExactLoop_consumed s.reader length []
  rw [readExact]
  generalize readExactLoop s.reader length [] = loop at hconsumed ⊢
  obtain ⟨e | bytes, reader'⟩ := loop
  · exact ⟨code, hconsumed, fun _ => .inl⟩
  · exact ⟨code, hconsumed, fun _ => .inl⟩

theorem readUnsigned_reads {width n : ℕ} (hn : n < 256 ^ width) : Reads (readUnsigned width) (toLe width n) (some n) := by
  have hbytes := readExact_reads (toLe width n)
  rw [length_toLe] at hbytes
  have h : Reads (readUnsigned width) (toLe width n) (some (ofLe (toLe width n))) := hbytes.bind_nil (Reads.pure _)
  rwa [ofLe_toLe hn] at h

theorem readUnsigned_took (width : ℕ) : Took (readUnsigned width) fun n code => n < 256 ^ width ∧ code = toLe width n := by
  refine ((readExact_took width).bind fun bytes => Took.pure (ofLe bytes)).mono ?_
  rintro _ _ ⟨bytes, _, _, ⟨rfl, hlength⟩, ⟨rfl, rfl⟩, rfl⟩
  subst hlength
  exact ⟨ofLe_lt bytes, by rw [toLe_ofLe, List.append_nil]⟩

theorem readUnsigned_keeps {maximum : ℕ} (width : ℕ) : Keeps maximum (readUnsigned width) :=
  (readExact_keeps width).bind fun _ => Keeps.pure _

theorem readSigned_reads {width : ℕ} (bits : BitVec (8 * width)) :
    Reads (readSigned width) (toLe width bits.toNat) (some bits.toInt) := by
  have hbytes := readExact_reads (toLe width bits.toNat)
  rw [length_toLe] at hbytes
  have h : Reads (readSigned width) (toLe width bits.toNat)
      (some (BitVec.ofNat (8 * width) (ofLe (toLe width bits.toNat))).toInt) := hbytes.bind_nil (Reads.pure _)
  have hlt : bits.toNat < 256 ^ width := by
    have hlt := bits.isLt
    rwa [pow_mul] at hlt
  rwa [ofLe_toLe hlt, BitVec.ofNat_toNat, BitVec.setWidth_eq] at h

theorem readSigned_took (width : ℕ) : Took (readSigned width) fun n code =>
    ∃ bits : BitVec (8 * width), n = bits.toInt ∧ code = toLe width bits.toNat := by
  refine ((readExact_took width).bind fun bytes => Took.pure (BitVec.ofNat (8 * width) (ofLe bytes)).toInt).mono ?_
  rintro _ _ ⟨bytes, _, _, ⟨rfl, hlength⟩, ⟨rfl, rfl⟩, rfl⟩
  subst hlength
  have hlt : ofLe bytes < 2 ^ (8 * bytes.length) := by
    rw [pow_mul]
    exact ofLe_lt bytes
  refine ⟨_, rfl, ?_⟩
  rw [BitVec.toNat_ofNat, Nat.mod_eq_of_lt hlt, toLe_ofLe, List.append_nil]

theorem readSigned_keeps {maximum : ℕ} (width : ℕ) : Keeps maximum (readSigned width) :=
  (readExact_keeps width).bind fun _ => Keeps.pure _

theorem skipBytes_zero : skipBytes 0 = pure () := by
  rw [skipBytes, if_pos rfl]

theorem skipBytes_succ {remaining : ℕ} (h : remaining ≠ 0) : skipBytes remaining =
    readExact (min remaining skipBufferBytes) >>= fun _ => skipBytes (remaining - min remaining skipBufferBytes) := by
  rw [skipBytes, if_neg h]

theorem min_skipBufferBytes {remaining : ℕ} (h : remaining ≠ 0) :
    remaining - min remaining skipBufferBytes < remaining := by
  unfold skipBufferBytes
  omega

theorem skipBytes_reads (code : List UInt8) : Reads (skipBytes code.length) code (some ()) := by
  generalize hlength : code.length = length
  induction length using Nat.strong_induction_on generalizing code with
  | _ length ih =>
    by_cases hzero : length = 0
    · subst hzero
      obtain rfl := List.length_eq_zero_iff.mp hlength
      rw [skipBytes_zero]
      exact Reads.pure ()
    · have hchunk : (code.take (min length skipBufferBytes)).length = min length skipBufferBytes := by
        rw [List.length_take]
        omega
      have hread := readExact_reads (code.take (min length skipBufferBytes))
      rw [hchunk] at hread
      have hrest := ih _ (min_skipBufferBytes hzero) (code.drop (min length skipBufferBytes))
        (by rw [List.length_drop, hlength])
      rw [skipBytes_succ hzero, ← List.take_append_drop (min length skipBufferBytes) code]
      exact hread.bind hrest

theorem skipBytes_took (length : ℕ) : Took (skipBytes length) fun _ code => code.length = length := by
  induction length using Nat.strong_induction_on with
  | _ length ih =>
    by_cases hzero : length = 0
    · subst hzero
      rw [skipBytes_zero]
      exact (Took.pure ()).mono fun _ _ h => List.length_eq_zero_iff.mpr h.2
    · rw [skipBytes_succ hzero]
      refine ((readExact_took _).bind fun _ => ih _ (min_skipBufferBytes hzero)).mono ?_
      rintro _ _ ⟨_, x, y, ⟨-, hx⟩, hy, rfl⟩
      rw [List.length_append, hx, hy]
      omega

theorem skipBytes_keeps {maximum : ℕ} (length : ℕ) : Keeps maximum (skipBytes length) := by
  induction length using Nat.strong_induction_on with
  | _ length ih =>
    by_cases hzero : length = 0
    · subst hzero
      rw [skipBytes_zero]
      exact Keeps.pure ()
    · rw [skipBytes_succ hzero]
      exact (readExact_keeps _).bind fun _ => ih _ (min_skipBufferBytes hzero)

/-! ### Strings -/

theorem tryReserveString_reads {length : ℕ} (h : length ≤ isizeMax) : Reads (tryReserveString length) [] (some ()) := by
  intro s rest hs
  refine ⟨{ s with reserved := s.reserved ++ [length] }, EStateM.forget_eq_ok.mpr ?_, hs.lies, hs.fits⟩
  rw [tryReserveString, if_neg (Nat.not_lt.mpr h)]

theorem tryReserveString_took (length : ℕ) : Took (tryReserveString length) fun _ code => code = [] := by
  intro s u s' h
  rw [EStateM.forget_eq_ok, tryReserveString] at h
  split_ifs at h
  obtain ⟨-, rfl⟩ := EStateM.Result.ok.inj h
  exact ⟨[], rfl, rfl⟩

/-- The one place where a string buffer is made. -/
theorem tryReserveString_keeps {maximum length : ℕ} (h : length ≤ maximum) : Keeps maximum (tryReserveString length) := by
  intro s
  have hpassed : Passed maximum s { s with reserved := s.reserved ++ [length] } := by
    refine ⟨[], .refl _, fun n hn => ?_⟩
    obtain hn | hn := List.mem_append.mp hn
    · exact .inl hn
    · rw [List.mem_singleton] at hn
      exact .inr (hn ▸ h)
  unfold tryReserveString
  by_cases hlength : isizeMax < length
  · rw [if_pos hlength]
    exact hpassed
  · rw [if_neg hlength]
    exact hpassed

theorem readString_reads {maximum : ℕ} {bytes : List UInt8} (hmaximum : maximum < 256 ^ 8) (hbytes : bytes.length ≤ maximum)
    (hsize : bytes.length ≤ isizeMax) : Reads (readString maximum) (encodeGgufString bytes) (fromUtf8 bytes) := by
  refine (readUnsigned_reads (hbytes.trans_lt hmaximum)).bind (Reads.guard (Nat.not_lt.mpr hbytes) ?_)
  refine Reads.bind (x := []) (tryReserveString_reads hsize) ?_
  refine (readExact_reads bytes).bind_nil ?_
  cases fromUtf8 bytes with
  | some value => exact Reads.pure value
  | none => exact Reads.throw _ _

theorem readString_took (maximum : ℕ) : Took (readString maximum) fun value code =>
    (utf8 value).length ≤ maximum ∧ code = encodeGgufString (utf8 value) := by
  refine ((readUnsigned_took 8).bind (D := fun length value code =>
    length ≤ maximum ∧ length = (utf8 value).length ∧ code = utf8 value) fun length => Took.guard fun hlength => ?_).mono ?_
  · refine ((tryReserveString_took length).bind fun _ => (readExact_took length).bind
      (D := fun bytes value code => utf8 value = bytes ∧ code = []) fun bytes => ?_).mono ?_
    · cases hvalue : fromUtf8 bytes with
      | some value =>
        refine (Took.pure value).mono ?_
        rintro _ _ ⟨rfl, rfl⟩
        exact ⟨fromUtf8_eq_some.mp hvalue, rfl⟩
      | none => exact Took.throw _ _
    · rintro value _ ⟨_, _, _, rfl, ⟨_, _, _, ⟨rfl, rfl⟩, ⟨rfl, rfl⟩, rfl⟩, rfl⟩
      exact ⟨Nat.not_lt.mp hlength, rfl, List.append_nil _⟩
  · rintro value _ ⟨_, _, _, ⟨-, rfl⟩, ⟨hlength, rfl, rfl⟩, rfl⟩
    exact ⟨hlength, rfl⟩

theorem readString_keeps (maximum : ℕ) : Keeps maximum (readString maximum) := by
  refine (readUnsigned_keeps 8).bind fun length => Keeps.guard fun hlength => ?_
  refine (tryReserveString_keeps (Nat.not_lt.mp hlength)).bind fun _ => (readExact_keeps length).bind fun bytes => ?_
  cases fromUtf8 bytes with
  | some value => exact Keeps.pure value
  | none => exact Keeps.throw _

theorem skipString_reads {maximum : ℕ} {bytes : List UInt8} (hmaximum : maximum < 256 ^ 8) (hbytes : bytes.length ≤ maximum) :
    Reads (skipString maximum) (encodeGgufString bytes) (some ()) :=
  (readUnsigned_reads (hbytes.trans_lt hmaximum)).bind (Reads.guard (Nat.not_lt.mpr hbytes) (skipBytes_reads bytes))

theorem skipString_took (maximum : ℕ) : Took (skipString maximum) fun _ code =>
    ∃ bytes : List UInt8, bytes.length ≤ maximum ∧ code = encodeGgufString bytes := by
  refine ((readUnsigned_took 8).bind (D := fun length _ code => length ≤ maximum ∧ code.length = length) fun length =>
    Took.guard fun hlength => ?_).mono ?_
  · exact (skipBytes_took length).mono fun _ _ hcode => ⟨Nat.not_lt.mp hlength, hcode⟩
  · rintro _ _ ⟨_, _, bytes, ⟨-, rfl⟩, ⟨hlength, rfl⟩, rfl⟩
    exact ⟨bytes, hlength, rfl⟩

theorem skipString_keeps (maximum : ℕ) : Keeps maximum (skipString maximum) :=
  (readUnsigned_keeps 8).bind fun _ => Keeps.guard fun _ => skipBytes_keeps _

theorem skipStrings_reads {maximum : ℕ} (hmaximum : maximum < 256 ^ 8) : ∀ {elements : List (List UInt8)},
    (∀ bytes ∈ elements, bytes.length ≤ maximum) →
    Reads (skipStrings maximum elements.length) (elements.flatMap encodeGgufString) (some ())
  | [], _ => Reads.pure ()
  | bytes :: elements, h => by
    have hrest := skipStrings_reads hmaximum fun bytes hbytes => h bytes (List.mem_cons_of_mem _ hbytes)
    exact (skipString_reads hmaximum (h bytes List.mem_cons_self)).bind hrest

theorem skipStrings_took (maximum : ℕ) : ∀ count : ℕ, Took (skipStrings maximum count) fun _ code =>
    ∃ elements : List (List UInt8), elements.length = count ∧ (∀ bytes ∈ elements, bytes.length ≤ maximum) ∧
      code = elements.flatMap encodeGgufString
  | 0 => (Took.pure ()).mono fun _ _ h => ⟨[], rfl, nofun, h.2⟩
  | count + 1 => by
    refine ((skipString_took maximum).bind fun _ => skipStrings_took maximum count).mono ?_
    rintro _ _ ⟨_, _, _, ⟨bytes, hbytes, rfl⟩, ⟨elements, rfl, helements, rfl⟩, rfl⟩
    refine ⟨bytes :: elements, rfl, ?_, rfl⟩
    intro bytes' hmem
    obtain rfl | hmem := List.mem_cons.mp hmem
    · exact hbytes
    · exact helements bytes' hmem

theorem skipStrings_keeps (maximum : ℕ) : ∀ count : ℕ, Keeps maximum (skipStrings maximum count)
  | 0 => Keeps.pure ()
  | count + 1 => (skipString_keeps maximum).bind fun _ => skipStrings_keeps maximum count

/-! ### Values -/

/-- The natural number that a value is. -/
def GgufValue.natural (value : GgufValue) : Option ℕ :=
  value.integer.bind fun n => if 0 ≤ n then some n.toNat else none

theorem GgufValue.natural_eq_some {value : GgufValue} {n : ℕ} : value.natural = some n ↔ value.integer = some (n : ℤ) := by
  unfold natural
  constructor
  · intro h
    obtain ⟨z, hz, h⟩ := Option.bind_eq_some_iff.mp h
    split_ifs at h with hpos
    rw [hz, ← Option.some.inj h, Int.toNat_of_nonneg hpos]
  · intro h
    rw [h, Option.bind_some, if_pos (Int.natCast_nonneg n), Int.toNat_natCast]

theorem fixedWidth_code (type : GgufScalarType) : fixedWidth type.code = some type.width := by
  cases type <;> rfl

theorem code_ne (type : GgufScalarType) : type.code ≠ typeString ∧ type.code ≠ typeArray := by
  cases type <;> decide

theorem code_lt (type : GgufScalarType) : type.code < 256 ^ 4 := by
  cases type <;> decide

theorem fixedWidth_eq_some {valueType width : ℕ} (h : fixedWidth valueType = some width) :
    ∃ type : GgufScalarType, type.code = valueType ∧ type.width = width := by
  unfold fixedWidth at h
  split at h
  · exact ⟨.uint8, rfl, Option.some.inj h⟩
  · exact ⟨.int8, rfl, Option.some.inj h⟩
  · exact ⟨.bool, rfl, Option.some.inj h⟩
  · exact ⟨.uint16, rfl, Option.some.inj h⟩
  · exact ⟨.int16, rfl, Option.some.inj h⟩
  · exact ⟨.uint32, rfl, Option.some.inj h⟩
  · exact ⟨.int32, rfl, Option.some.inj h⟩
  · exact ⟨.float32, rfl, Option.some.inj h⟩
  · exact ⟨.uint64, rfl, Option.some.inj h⟩
  · exact ⟨.int64, rfl, Option.some.inj h⟩
  · exact ⟨.float64, rfl, Option.some.inj h⟩
  · cases h

/-- Bytes of the width of a type are a value of it. -/
theorem exists_bits {width : ℕ} {code : List UInt8} (h : code.length = width) :
    ∃ bits : BitVec (8 * width), code = toLe width bits.toNat := by
  subst h
  refine ⟨BitVec.ofNat _ (ofLe code), ?_⟩
  have hlt : ofLe code < 2 ^ (8 * code.length) := by
    rw [pow_mul]
    exact ofLe_lt code
  rw [BitVec.toNat_ofNat, Nat.mod_eq_of_lt hlt, toLe_ofLe]

theorem length_elements {width : ℕ} : ∀ elements : List (BitVec (8 * width)),
    (elements.flatMap fun bits => toLe width bits.toNat).length = elements.length * width
  | [] => (Nat.zero_mul width).symm
  | bits :: elements => by
    rw [List.flatMap_cons, List.length_append, length_toLe, length_elements elements, List.length_cons]
    exact (Nat.add_comm _ _).trans (Nat.succ_mul _ _).symm

theorem exists_elements {width : ℕ} : ∀ {count : ℕ} {code : List UInt8}, code.length = count * width →
    ∃ elements : List (BitVec (8 * width)), elements.length = count ∧
      code = elements.flatMap fun bits => toLe width bits.toNat
  | 0, code, h => by
    rw [Nat.zero_mul, List.length_eq_zero_iff] at h
    exact ⟨[], rfl, h⟩
  | count + 1, code, h => by
    rw [Nat.succ_mul] at h
    have htake : (code.take width).length = width := by rw [List.length_take]; omega
    have hdrop : (code.drop width).length = count * width := by rw [List.length_drop]; omega
    obtain ⟨bits, hbits⟩ := exists_bits htake
    obtain ⟨elements, rfl, helements⟩ := exists_elements hdrop
    refine ⟨bits :: elements, rfl, ?_⟩
    rw [List.flatMap_cons, ← hbits, ← helements, List.take_append_drop]

theorem signed_reads {width : ℕ} (bits : BitVec (8 * width)) :
    Reads (readSigned width >>= fun n => liftM (signedToU64 n)) (toLe width bits.toNat)
      (if 0 ≤ bits.toInt then some bits.toInt.toNat else none) := by
  refine (readSigned_reads bits).bind_nil ?_
  by_cases hpos : 0 ≤ bits.toInt
  · rw [if_pos hpos]
    exact Reads.lift (by rw [signedToU64, if_pos hpos])
  · rw [if_neg hpos]
    exact Reads.lift_error (e := .invalidValue) (by rw [signedToU64, if_neg hpos]) []

theorem signed_took (width : ℕ) : Took (readSigned width >>= fun n => liftM (signedToU64 n)) fun n code =>
    ∃ bits : BitVec (8 * width), bits.toInt = (n : ℤ) ∧ code = toLe width bits.toNat := by
  refine ((readSigned_took width).bind fun z => Took.lift (signedToU64 z)).mono ?_
  rintro n _ ⟨_, _, _, ⟨bits, rfl, rfl⟩, ⟨hn, rfl⟩, rfl⟩
  refine ⟨bits, ?_, List.append_nil _⟩
  unfold signedToU64 at hn
  split_ifs at hn with hpos
  rw [← Except.ok.inj hn, Int.toNat_of_nonneg hpos]

theorem readInteger_reads (value : GgufValue) : Reads (readInteger value.code) value.encode value.natural := by
  have hunsigned : ∀ (width : ℕ) (bits : BitVec (8 * width)),
      Reads (readUnsigned width) (toLe width bits.toNat) (some bits.toNat) := by
    intro width bits
    have hlt := bits.isLt
    rw [pow_mul] at hlt
    exact readUnsigned_reads hlt
  cases value with
  | scalar type bits =>
    cases type with
    | uint8 => exact hunsigned 1 bits
    | uint16 => exact hunsigned 2 bits
    | uint32 => exact hunsigned 4 bits
    | uint64 => exact hunsigned 8 bits
    | int8 => exact @signed_reads 1 bits
    | int16 => exact @signed_reads 2 bits
    | int32 => exact @signed_reads 4 bits
    | int64 => exact @signed_reads 8 bits
    | float32 => exact Reads.throw _ _
    | bool => exact Reads.throw _ _
    | float64 => exact Reads.throw _ _
  | string => exact Reads.throw _ _
  | array => exact Reads.throw _ _
  | strings => exact Reads.throw _ _

/-- A code of a value of this type, within the limits. -/
def ValueCode (limits : GgufInspectionLimits) (valueType : ℕ) (value : GgufValue) (code : List UInt8) : Prop :=
  value.code = valueType ∧ value.Within limits ∧ code = value.encode

theorem readInteger_took (limits : GgufInspectionLimits) (valueType : ℕ) : Took (readInteger valueType) fun n code =>
    ∃ value, ValueCode limits valueType value code ∧ value.natural = some n := by
  have hunsigned : ∀ (type : GgufScalarType), (∀ bits : BitVec (8 * type.width), type.integer bits = some bits.toNat) →
      Took (readUnsigned type.width) fun n code =>
        ∃ value, ValueCode limits type.code value code ∧ value.natural = some n := by
    intro type htype
    refine (readUnsigned_took type.width).mono fun n code hcode => ?_
    have hlength : code.length = type.width := by rw [hcode.2, length_toLe]
    obtain ⟨bits, hbits⟩ := exists_bits hlength
    have hlt := bits.isLt
    rw [pow_mul] at hlt
    obtain rfl : n = bits.toNat := toLe_injective hcode.1 hlt (hcode.2.symm.trans hbits)
    exact ⟨.scalar type bits, ⟨rfl, trivial, hbits⟩, GgufValue.natural_eq_some.mpr (htype bits)⟩
  have hsigned : ∀ (type : GgufScalarType), (∀ bits : BitVec (8 * type.width), type.integer bits = some bits.toInt) →
      Took (readSigned type.width >>= fun n => liftM (signedToU64 n)) fun n code =>
        ∃ value, ValueCode limits type.code value code ∧ value.natural = some n := by
    intro type htype
    refine (signed_took type.width).mono fun n code ⟨bits, hn, hcode⟩ => ?_
    exact ⟨.scalar type bits, ⟨rfl, trivial, hcode⟩, GgufValue.natural_eq_some.mpr ((htype bits).trans (congrArg some hn))⟩
  unfold readInteger
  split
  · exact hunsigned .uint8 fun _ => rfl
  · exact hunsigned .uint16 fun _ => rfl
  · exact hunsigned .uint32 fun _ => rfl
  · exact hunsigned .uint64 fun _ => rfl
  · exact hsigned .int8 fun _ => rfl
  · exact hsigned .int16 fun _ => rfl
  · exact hsigned .int32 fun _ => rfl
  · exact hsigned .int64 fun _ => rfl
  · exact Took.throw _ _

theorem readInteger_keeps {maximum : ℕ} (valueType : ℕ) : Keeps maximum (readInteger valueType) := by
  have hsigned : ∀ width : ℕ, Keeps maximum (readSigned width >>= fun n => liftM (signedToU64 n)) :=
    fun width => (readSigned_keeps width).bind fun n => Keeps.lift (signedToU64 n)
  unfold readInteger
  split
  · exact readUnsigned_keeps 1
  · exact readUnsigned_keeps 2
  · exact readUnsigned_keeps 4
  · exact readUnsigned_keeps 8
  · exact hsigned 1
  · exact hsigned 2
  · exact hsigned 4
  · exact hsigned 8
  · exact Keeps.throw _

theorem checkedMul_u64 {count width : ℕ} (h : count * width ≤ isizeMax) :
    checkedMul u64Max count width = some (count * width) := by
  have hle : isizeMax ≤ u64Max := by decide
  rw [checkedMul, if_pos (h.trans hle)]

theorem skipArray_reads {limits : GgufInspectionLimits} {type : GgufScalarType} {elements : List (BitVec (8 * type.width))}
    (h : elements.length ≤ limits.maximumArrayElements.toNat) :
    Reads (skipArray limits) (GgufValue.array type elements).encode (some ()) := by
  have hcount := limits.maximumArrayElements.toNat_lt
  refine Reads.of_length fun hlength => ?_
  rw [GgufValue.encode, List.length_append, List.length_append, length_elements] at hlength
  unfold skipArray GgufValue.encode
  refine Reads.bind (readUnsigned_reads (code_lt type)) (Reads.guard (code_ne type).2 ?_)
  refine Reads.bind (readUnsigned_reads (h.trans_lt hcount)) (Reads.guard (Nat.not_lt.mpr h) ?_)
  rw [fixedWidth_code]
  have hskip := skipBytes_reads (elements.flatMap fun bits => toLe type.width bits.toNat)
  rw [length_elements] at hskip
  exact Reads.bind (x := []) (Reads.lift (by rw [checkedMul_u64 (by omega)]; rfl)) hskip

theorem skipArray_strings_reads {limits : GgufInspectionLimits} {elements : List (List UInt8)}
    (h : (GgufValue.strings elements).Within limits) :
    Reads (skipArray limits) (GgufValue.strings elements).encode (some ()) := by
  have hcount := limits.maximumArrayElements.toNat_lt
  unfold skipArray GgufValue.encode
  refine Reads.bind (readUnsigned_reads (n := typeString) (by decide)) (Reads.guard (by decide) ?_)
  refine Reads.bind (readUnsigned_reads (h.1.trans_lt hcount)) (Reads.guard (Nat.not_lt.mpr h.1) ?_)
  exact skipStrings_reads limits.maximumStringBytes.toNat_lt h.2

theorem skipValue_reads {limits : GgufInspectionLimits} {value : GgufValue} (h : value.Within limits) :
    Reads (skipValue value.code limits) value.encode (some ()) := by
  cases value with
  | scalar type bits =>
    show Reads (skipValue type.code limits) (toLe type.width bits.toNat) (some ())
    have hskip := skipBytes_reads (toLe type.width bits.toNat)
    rw [length_toLe] at hskip
    unfold skipValue
    rw [fixedWidth_code]
    exact hskip
  | string bytes => exact skipString_reads limits.maximumStringBytes.toNat_lt h
  | array type elements => exact skipArray_reads h
  | strings elements => exact skipArray_strings_reads h

theorem skipArray_took (limits : GgufInspectionLimits) : Took (skipArray limits) fun _ code =>
    ∃ value, ValueCode limits typeArray value code := by
  refine ((readUnsigned_took 4).bind
    (D := fun elementType _ code => ∃ value, ValueCode limits typeArray value (toLe 4 elementType ++ code))
    fun elementType => Took.guard fun _ => ?_).mono ?_
  · refine ((readUnsigned_took 8).bind
      (D := fun count _ code => ∃ value, ValueCode limits typeArray value (toLe 4 elementType ++ (toLe 8 count ++ code)))
      fun count => Took.guard fun hcount => ?_).mono ?_
    · cases hwidth : fixedWidth elementType with
      | some width =>
        obtain ⟨type, rfl, rfl⟩ := fixedWidth_eq_some hwidth
        refine ((Took.lift _).bind fun bytes => skipBytes_took bytes).mono ?_
        rintro _ _ ⟨bytes, _, code, ⟨hbytes, rfl⟩, hcode, rfl⟩
        rw [Except.okOr_eq_ok, checkedMul] at hbytes
        split_ifs at hbytes
        rw [← Option.some.inj hbytes] at hcode
        obtain ⟨elements, rfl, rfl⟩ := exists_elements hcode
        exact ⟨.array type elements, rfl, Nat.not_lt.mp hcount, rfl⟩
      | none =>
        dsimp only
        split_ifs with hstring
        · subst hstring
          refine (skipStrings_took _ count).mono ?_
          rintro _ _ ⟨elements, rfl, helements, rfl⟩
          exact ⟨.strings elements, rfl, ⟨Nat.not_lt.mp hcount, helements⟩, rfl⟩
        · exact Took.throw _ _
    · rintro _ _ ⟨count, _, code, ⟨-, rfl⟩, hvalue, rfl⟩
      exact hvalue
  · rintro _ _ ⟨elementType, _, code, ⟨-, rfl⟩, hvalue, rfl⟩
    exact hvalue

theorem skipValue_took (limits : GgufInspectionLimits) (valueType : ℕ) : Took (skipValue valueType limits) fun _ code =>
    ∃ value, ValueCode limits valueType value code := by
  cases hwidth : fixedWidth valueType with
  | some width =>
    obtain ⟨type, rfl, rfl⟩ := fixedWidth_eq_some hwidth
    unfold skipValue
    rw [hwidth]
    refine (skipBytes_took type.width).mono fun _ code hcode => ?_
    obtain ⟨bits, hbits⟩ := exists_bits hcode
    exact ⟨.scalar type bits, rfl, trivial, hbits⟩
  | none =>
    unfold skipValue
    rw [hwidth]
    dsimp only
    split_ifs with hstring harray
    · subst hstring
      refine (skipString_took limits.maximumStringBytes.toNat).mono ?_
      rintro _ _ ⟨bytes, hbytes, rfl⟩
      exact ⟨.string bytes, rfl, hbytes, rfl⟩
    · subst harray
      exact skipArray_took limits
    · exact Took.throw _ _

theorem skipArray_keeps (limits : GgufInspectionLimits) : Keeps limits.maximumStringBytes.toNat (skipArray limits) := by
  refine (readUnsigned_keeps 4).bind fun elementType => Keeps.guard fun _ => ?_
  refine (readUnsigned_keeps 8).bind fun count => Keeps.guard fun _ => ?_
  split
  · exact (Keeps.lift _).bind fun _ => skipBytes_keeps _
  · split_ifs
    · exact skipStrings_keeps _ count
    · exact Keeps.throw _

theorem skipValue_keeps (limits : GgufInspectionLimits) (valueType : ℕ) :
    Keeps limits.maximumStringBytes.toNat (skipValue valueType limits) := by
  unfold skipValue
  split
  · exact skipBytes_keeps _
  · split_ifs
    · exact skipString_keeps _
    · exact skipArray_keeps limits
    · exact Keeps.throw _

end LlmApp
