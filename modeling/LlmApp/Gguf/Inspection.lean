/-
# The inspection of a header is its specification

An entry is for one field of the metadata or for none (`entryField`): the keys of
the numeric fields are told apart by what follows their first dot
(`numericTarget_eq_some`). Reading an entry fills its field (`collect`), so the
entries of a header fill each field at most once in any order.

Of a header within the limits the inspection returns what the entries, as a
multiset, specify (`specified_iff`). So neither the order of the
entries nor an unrelated one, the version, the number of tensors or what follows
the header matters (`inspection_specified`).

Key theorems: `numericTarget_eq_some`, `readMetadataValue_reads`,
`specified_iff`, `inspection_specified`.
-/
import LlmApp.Data.FillOnce
import LlmApp.Gguf.Reading

namespace LlmApp

/-! ### Keys -/

/-- What the key of a field ends in. -/
def Dimension.suffix : Dimension → String
  | .contextLength => ".context_length"
  | .blockCount => ".block_count"
  | .embeddingLength => ".embedding_length"
  | .attentionHeadCountKv => ".attention.head_count_kv"
  | .attentionHeadCount => ".attention.head_count"

theorem Dimension.suffix_eq (d : Dimension) : ∃ rest, d.suffix.toList = '.' :: rest := by
  cases d <;> exact ⟨_, rfl⟩

theorem Dimension.suffix_injective : Function.Injective Dimension.suffix := by
  intro d d' h
  cases d <;> cases d' <;> first | rfl | exact absurd h (by decide)

/-- A name without a dot and what follows its first dot. -/
theorem append_dot_inj {a a' : String} {x x' : List Char} (ha : '.' ∉ a.toList) (ha' : '.' ∉ a'.toList)
    (h : a.toList ++ '.' :: x = a'.toList ++ '.' :: x') : a = a' ∧ x = x' := by
  obtain ⟨htake, hdrop⟩ : a.toList = a'.toList ∧ x = x' := by
    generalize a.toList = l at ha h ⊢
    generalize a'.toList = l' at ha' h ⊢
    induction l generalizing l' with
    | nil =>
      cases l' with
      | nil => exact ⟨rfl, List.tail_eq_of_cons_eq h⟩
      | cons c l' =>
        obtain rfl : '.' = c := List.head_eq_of_cons_eq h
        exact absurd List.mem_cons_self ha'
    | cons c l ih =>
      cases l' with
      | nil =>
        obtain rfl : c = '.' := List.head_eq_of_cons_eq h
        exact absurd List.mem_cons_self ha
      | cons c' l' =>
        obtain rfl : c = c' := List.head_eq_of_cons_eq h
        obtain ⟨rfl, hx⟩ := ih (fun hmem => ha (List.mem_cons_of_mem _ hmem)) l'
          (fun hmem => ha' (List.mem_cons_of_mem _ hmem)) (List.tail_eq_of_cons_eq h)
        exact ⟨rfl, hx⟩
  exact ⟨String.toList_inj.mp htake, hdrop⟩

theorem append_suffix_inj {a a' : String} {d d' : Dimension} (ha : '.' ∉ a.toList) (ha' : '.' ∉ a'.toList)
    (h : a ++ d.suffix = a' ++ d'.suffix) : a = a' ∧ d = d' := by
  obtain ⟨x, hx⟩ := d.suffix_eq
  obtain ⟨x', hx'⟩ := d'.suffix_eq
  have hlist := congrArg String.toList h
  rw [String.toList_append, String.toList_append, hx, hx'] at hlist
  obtain ⟨rfl, rfl⟩ := append_dot_inj ha ha' hlist
  exact ⟨rfl, Dimension.suffix_injective (String.toList_inj.mp (hx.trans hx'.symm))⟩

theorem architecturePrefix_eq_some {key suffix architecture : String} : architecturePrefix key suffix = some architecture ↔
    architecture ≠ "" ∧ '.' ∉ architecture.toList ∧ key = architecture ++ suffix := by
  rw [architecturePrefix, Option.filter_eq_some_iff, stripSuffix_eq_some, decide_eq_true_iff]
  tauto

theorem architecturePrefix_suffix {architecture : String} (hne : architecture ≠ "") (hdot : '.' ∉ architecture.toList)
    (d d' : Dimension) :
    architecturePrefix (architecture ++ d.suffix) d'.suffix = if d' = d then some architecture else none := by
  by_cases hd : d' = d
  · rw [if_pos hd, hd]
    exact architecturePrefix_eq_some.mpr ⟨hne, hdot, rfl⟩
  · rw [if_neg hd]
    cases h : architecturePrefix (architecture ++ d.suffix) d'.suffix with
    | none => rfl
    | some a =>
      obtain ⟨-, hdot', heq⟩ := architecturePrefix_eq_some.mp h
      exact absurd (append_suffix_inj hdot hdot' heq).2.symm hd

theorem numericTarget_suffix {architecture : String} (hne : architecture ≠ "") (hdot : '.' ∉ architecture.toList)
    (d : Dimension) : numericTarget (architecture ++ d.suffix) = some (architecture, d) := by
  have hprefix := architecturePrefix_suffix hne hdot d
  have h₁ := hprefix .contextLength
  have h₂ := hprefix .blockCount
  have h₃ := hprefix .embeddingLength
  have h₄ := hprefix .attentionHeadCountKv
  have h₅ := hprefix .attentionHeadCount
  unfold numericTarget
  simp only [Dimension.suffix] at h₁ h₂ h₃ h₄ h₅
  cases d <;> simp [Dimension.suffix, h₁, h₂, h₃, h₄, h₅]

theorem numericTarget_eq_some {key architecture : String} {d : Dimension} : numericTarget key = some (architecture, d) ↔
    architecture ≠ "" ∧ '.' ∉ architecture.toList ∧ key = architecture ++ d.suffix := by
  constructor
  · intro h
    obtain ⟨a, d', ha⟩ : ∃ a d', architecturePrefix key (Dimension.suffix d') = some a := by
      unfold numericTarget at h
      split at h
      · exact ⟨_, .contextLength, ‹_›⟩
      split at h
      · exact ⟨_, .blockCount, ‹_›⟩
      split at h
      · exact ⟨_, .embeddingLength, ‹_›⟩
      split at h
      · exact ⟨_, .attentionHeadCountKv, ‹_›⟩
      split at h
      · exact ⟨_, .attentionHeadCount, ‹_›⟩
      · cases h
    obtain ⟨hne, hdot, rfl⟩ := architecturePrefix_eq_some.mp ha
    rw [numericTarget_suffix hne hdot] at h
    obtain ⟨rfl, rfl⟩ := Prod.mk.inj (Option.some.inj h)
    exact ⟨hne, hdot, rfl⟩
  · rintro ⟨hne, hdot, rfl⟩
    exact numericTarget_suffix hne hdot d

/-! ### Fields -/

/-- A field of the collected metadata. -/
inductive MetadataField where
  | architecture | fileType | vocabularySize
  | dimension (d : Dimension)
deriving DecidableEq

abbrev MetadataField.Value : MetadataField → Type
  | .architecture => String
  | .fileType | .vocabularySize => ℕ
  | .dimension _ => ArchitectureValue

theorem dimension_setDimension (c : CollectedMetadata) (v : ArchitectureValue) (d d' : Dimension) :
    (c.setDimension v d).dimension d' = if d' = d then some v else c.dimension d' := by
  cases d <;> cases d' <;> rfl

def metadataFields : Fields CollectedMetadata MetadataField.Value where
  get c
    | .architecture => c.architecture
    | .fileType => c.fileType
    | .vocabularySize => c.vocabularySize
    | .dimension d => c.dimension d
  set c
    | .architecture => fun v => { c with architecture := some v }
    | .fileType => fun v => { c with fileType := some v }
    | .vocabularySize => fun v => { c with vocabularySize := some v }
    | .dimension d => fun v => c.setDimension v d
  get_set_self c f v := by
    cases f with
    | dimension d => exact (dimension_setDimension c v d d).trans (if_pos rfl)
    | _ => rfl
  get_set_ne c f v f' h := by
    cases f with
    | dimension d =>
      cases f' with
      | dimension d' => exact (dimension_setDimension c v d d').trans (if_neg fun heq => h (congrArg _ heq))
      | _ => cases d <;> rfl
    | _ =>
      cases f' with
      | dimension d' => cases d' <;> rfl
      | _ => first | rfl | exact absurd rfl h

/-- The field that an entry is for. -/
def entryField (entry : GgufEntry) : Option MetadataField :=
  if entry.key = "general.architecture" then some .architecture
  else if entry.key = "general.file_type" then some .fileType
  else if entry.key = "tokenizer.ggml.tokens" then some .vocabularySize
  else (numericTarget entry.key).map fun target => .dimension target.2

/-- What an entry holds for a field. -/
def entryValue : ∀ f : MetadataField, GgufEntry → Option f.Value
  | .architecture, entry =>
    match entry.value with
    | .string bytes => fromUtf8 bytes
    | _ => none
  | .fileType, entry => entry.value.natural.filter (· ≤ u16Max)
  | .vocabularySize, entry =>
    match entry.value with
    | .strings elements => if elements.length ≤ u32Max then some elements.length else none
    | _ => none
  | .dimension _, entry => (numericTarget entry.key).bind fun target =>
    (entry.value.natural.filter (· ≤ u32Max)).map (ArchitectureValue.mk target.1)

/-- An entry fills its field. -/
def collect : CollectedMetadata → GgufEntry → Option CollectedMetadata := fill metadataFields entryField entryValue

/-! ### Reading the entries -/

theorem bind_ite_none {α β : Type} {c : Prop} [Decidable c] (h : c) (o : Option α) (g : α → Option β) :
    (o.bind fun v => if c then none else g v) = none := by
  cases o with
  | none => rfl
  | some v => exact if_pos h

theorem typeString_ne : typeString ≠ typeArray := by decide

theorem readTokenArray_reads {limits : GgufInspectionLimits} {entry : GgufEntry} (h : entry.value.Within limits)
    (collected : CollectedMetadata) : Reads (readTokenArray entry.value.code limits collected) entry.value.encode
      ((entryValue .vocabularySize entry).bind fun v =>
        if collected.vocabularySize.isSome then none else some { collected with vocabularySize := some v }) := by
  obtain ⟨key, value⟩ := entry
  have hcount := limits.maximumArrayElements.toNat_lt
  unfold readTokenArray
  cases value with
  | scalar type bits => exact Reads.stop (code_ne type).2
  | string bytes => exact Reads.stop typeString_ne
  | array type elements =>
    refine Reads.guard (not_not_intro rfl) (Reads.bind (readUnsigned_reads (code_lt type)) ?_)
    refine Reads.bind (readUnsigned_reads (h.trans_lt hcount)) (Reads.guard (Nat.not_lt.mpr h) ?_)
    exact Reads.stop (code_ne type).1
  | strings elements =>
    refine Reads.guard (not_not_intro rfl) (Reads.bind (readUnsigned_reads (n := typeString) (by decide)) ?_)
    refine Reads.bind (readUnsigned_reads (h.1.trans_lt hcount)) (Reads.guard (Nat.not_lt.mpr h.1) ?_)
    refine Reads.guard (not_not_intro rfl) ?_
    by_cases hsome : collected.vocabularySize.isSome = true
    · rw [bind_ite_none hsome]
      exact Reads.stop hsome
    · refine Reads.guard hsome ?_
      show Reads _ _ ((if elements.length ≤ u32Max then some elements.length else none).bind _)
      by_cases hfits : elements.length ≤ u32Max
      · rw [if_pos hfits, Option.bind_some, if_neg hsome]
        refine Reads.guard (Nat.not_lt.mpr hfits) ?_
        exact (skipStrings_reads limits.maximumStringBytes.toNat_lt h.2).bind_nil (Reads.pure _)
      · rw [if_neg hfits, Option.bind_none]
        exact Reads.stop (Nat.not_le.mp hfits)

theorem storeArchitectureValue_eq_ok {collected c : CollectedMetadata} {d : Dimension} {architecture : String} {n : ℕ} :
    storeArchitectureValue collected d architecture n = .ok c ↔
      (if (collected.dimension d).isSome then none
        else if n ≤ u32Max then some (collected.setDimension ⟨architecture, n⟩ d) else none) = some c := by
  unfold storeArchitectureValue
  simp only [Except.bind_eq_ok, Except.failIf_eq_ok, Except.pure_eq_ok, exists_const, Nat.not_lt]
  by_cases hsome : (collected.dimension d).isSome = true
  · simp [hsome]
  · by_cases hfits : n ≤ u32Max <;> simp [hsome, hfits]

/-! What an entry does to its field. -/

theorem collect_architecture {entry : GgufEntry} (h : entryField entry = some .architecture) (c : CollectedMetadata) :
    collect c entry = (entryValue .architecture entry).bind fun v =>
      if c.architecture.isSome then none else some { c with architecture := some v } := fill_some h

theorem collect_fileType {entry : GgufEntry} (h : entryField entry = some .fileType) (c : CollectedMetadata) :
    collect c entry = (entryValue .fileType entry).bind fun v =>
      if c.fileType.isSome then none else some { c with fileType := some v } := fill_some h

theorem collect_vocabularySize {entry : GgufEntry} (h : entryField entry = some .vocabularySize) (c : CollectedMetadata) :
    collect c entry = (entryValue .vocabularySize entry).bind fun v =>
      if c.vocabularySize.isSome then none else some { c with vocabularySize := some v } := fill_some h

theorem collect_dimension {entry : GgufEntry} {d : Dimension} (h : entryField entry = some (.dimension d))
    (c : CollectedMetadata) : collect c entry = (entryValue (.dimension d) entry).bind fun v =>
      if (c.dimension d).isSome then none else some (c.setDimension v d) := fill_some h

theorem architecture_reads {limits : GgufInspectionLimits} {entry : GgufEntry} (h : entry.value.Within limits)
    (hkey : entry.key = "general.architecture") (c : CollectedMetadata) :
    Reads (readMetadataValue entry.key entry.value.code limits c) entry.value.encode (collect c entry) := by
  rw [collect_architecture (if_pos hkey), readMetadataValue, if_pos hkey]
  by_cases hsome : c.architecture.isSome = true
  · rw [bind_ite_none hsome]
    exact Reads.stop (.inr hsome)
  · obtain ⟨key, value⟩ := entry
    cases value with
    | scalar type bits => exact Reads.stop (.inl (code_ne type).1)
    | array type elements => exact Reads.stop (.inl typeString_ne.symm)
    | strings elements => exact Reads.stop (.inl typeString_ne.symm)
    | string bytes =>
      refine Reads.guard (not_or_intro (not_not_intro rfl) hsome) (Reads.of_length fun hlength => ?_)
      rw [GgufValue.encode, encodeGgufString, List.length_append] at hlength
      have hread := readString_reads limits.maximumStringBytes.toNat_lt h (by omega)
      show Reads _ _ ((fromUtf8 bytes).bind _)
      cases hvalue : fromUtf8 bytes with
      | none =>
        rw [hvalue] at hread
        exact hread.bind_nil_fails
      | some architecture =>
        rw [hvalue] at hread
        rw [Option.bind_some, if_neg hsome]
        exact hread.bind_nil (Reads.pure _)

theorem fileType_reads {limits : GgufInspectionLimits} {entry : GgufEntry} (hkey : entry.key = "general.file_type")
    (c : CollectedMetadata) :
    Reads (readMetadataValue entry.key entry.value.code limits c) entry.value.encode (collect c entry) := by
  have hne : entry.key ≠ "general.architecture" := by
    rw [hkey]
    decide
  have hfield : entryField entry = some .fileType := by rw [entryField, if_neg hne, if_pos hkey]
  rw [collect_fileType hfield, readMetadataValue, if_neg hne, if_pos hkey]
  by_cases hsome : c.fileType.isSome = true
  · rw [bind_ite_none hsome]
    exact Reads.stop hsome
  · refine Reads.guard hsome ?_
    have hread := readInteger_reads entry.value
    show Reads _ _ ((entry.value.natural.filter (· ≤ u16Max)).bind _)
    cases hvalue : entry.value.natural with
    | none =>
      rw [hvalue] at hread
      exact hread.bind_nil_fails
    | some n =>
      rw [hvalue] at hread
      refine hread.bind_nil ?_
      by_cases hfits : n ≤ u16Max
      · rw [Option.filter_some_pos (by simpa using hfits), Option.bind_some, if_neg hsome]
        exact Reads.guard (Nat.not_lt.mpr hfits) (Reads.pure _)
      · rw [Option.filter_some_neg (by simpa using hfits), Option.bind_none]
        exact Reads.stop (Nat.not_le.mp hfits)

theorem dimension_reads {entry : GgufEntry} {architecture : String} {d : Dimension}
    (htarget : numericTarget entry.key = some (architecture, d)) (c : CollectedMetadata) :
    Reads (do
      let value ← readInteger entry.value.code
      storeArchitectureValue c d architecture value) entry.value.encode
      ((entryValue (.dimension d) entry).bind fun v => if (c.dimension d).isSome then none else some (c.setDimension v d)) := by
  have hread := readInteger_reads entry.value
  rw [entryValue, htarget, Option.bind_some]
  cases hvalue : entry.value.natural with
  | none =>
    rw [hvalue] at hread
    exact hread.bind_nil_fails
  | some n =>
    rw [hvalue] at hread
    refine hread.bind_nil (Reads.lift_option fun c' => storeArchitectureValue_eq_ok.trans ?_)
    by_cases hsome : (c.dimension d).isSome = true
    · rw [bind_ite_none hsome, if_pos hsome]
    · by_cases hfits : n ≤ u32Max
      · rw [Option.filter_some_pos (by simpa using hfits), if_neg hsome, if_pos hfits, Option.map_some, Option.bind_some,
          if_neg hsome]
      · rw [Option.filter_some_neg (by simpa using hfits), if_neg hsome, if_neg hfits, Option.map_none, Option.bind_none]

/-- Reading an entry's value fills its field. -/
theorem readMetadataValue_reads {limits : GgufInspectionLimits} {entry : GgufEntry} (h : entry.value.Within limits)
    (c : CollectedMetadata) :
    Reads (readMetadataValue entry.key entry.value.code limits c) entry.value.encode (collect c entry) := by
  by_cases harchitecture : entry.key = "general.architecture"
  · exact architecture_reads h harchitecture c
  by_cases hfileType : entry.key = "general.file_type"
  · exact fileType_reads hfileType c
  rw [readMetadataValue, if_neg harchitecture, if_neg hfileType]
  by_cases htokens : entry.key = "tokenizer.ggml.tokens"
  · have hfield : entryField entry = some .vocabularySize := by
      rw [entryField, if_neg harchitecture, if_neg hfileType, if_pos htokens]
    rw [collect_vocabularySize hfield, if_pos htokens]
    exact readTokenArray_reads h c
  · have hfield : entryField entry = (numericTarget entry.key).map fun target => .dimension target.2 := by
      rw [entryField, if_neg harchitecture, if_neg hfileType, if_neg htokens]
    rw [if_neg htokens]
    cases htarget : numericTarget entry.key with
    | none =>
      rw [htarget] at hfield
      rw [collect, fill_none hfield]
      exact (skipValue_reads h).bind_nil (Reads.pure c)
    | some target =>
      obtain ⟨architecture, d⟩ := target
      rw [htarget] at hfield
      rw [collect_dimension hfield]
      exact dimension_reads htarget c

theorem GgufValue.code_lt (value : GgufValue) : value.code < 256 ^ 4 := by
  have hstring : typeString < 256 ^ 4 := by decide
  have harray : typeArray < 256 ^ 4 := by decide
  cases value with
  | scalar type bits => exact LlmApp.code_lt type
  | string => exact hstring
  | array => exact harray
  | strings => exact harray

theorem readEntries_reads {limits : GgufInspectionLimits} : ∀ {entries : List GgufEntry},
    (∀ entry ∈ entries, entry.Within limits) → ∀ c : CollectedMetadata,
    Reads (readEntries limits entries.length c) (entries.flatMap GgufEntry.encode) (entries.foldlM collect c)
  | [], _, c => Reads.pure c
  | entry :: entries, h, c => by
    have hentry := h entry List.mem_cons_self
    refine Reads.of_length fun hlength => ?_
    rw [List.flatMap_cons, GgufEntry.encode, List.append_assoc, List.append_assoc] at hlength ⊢
    rw [List.length_append, encodeGgufString, List.length_append] at hlength
    have hkey := readString_reads limits.maximumStringBytes.toNat_lt hentry.key (by omega)
    rw [fromUtf8_eq_some.mpr rfl] at hkey
    have hvalue := readMetadataValue_reads hentry.value c
    refine hkey.bind (Reads.bind (readUnsigned_reads entry.value.code_lt) ?_)
    rw [List.foldlM_cons]
    cases hcollect : collect c entry with
    | none =>
      rw [hcollect] at hvalue
      exact hvalue.bind_fails
    | some c' =>
      rw [hcollect] at hvalue
      exact hvalue.bind (readEntries_reads (fun entry hmem => h entry (List.mem_cons_of_mem _ hmem)) c')

theorem readHeader_reads {limits : GgufInspectionLimits} {header : GgufHeader} (h : header.Within limits) :
    Reads (readHeader limits) header.encode (header.entries.foldlM collect {}) := by
  have hcount := limits.maximumMetadataEntries.toNat_lt
  have hversion : header.version < 256 ^ 4 := by
    obtain hv | hv := h.version <;> rw [hv] <;> decide
  refine Reads.bind (readExact_reads ggufMagic) (Reads.guard (not_not_intro rfl) ?_)
  refine Reads.bind (readUnsigned_reads hversion) (Reads.guard ?_ ?_)
  · rintro ⟨h₂, h₃⟩
    obtain hv | hv := h.version
    · exact h₂ hv
    · exact h₃ hv
  refine Reads.bind (readUnsigned_reads header.tensorCount.toNat_lt) ?_
  refine Reads.bind (readUnsigned_reads (h.count.trans_lt hcount)) (Reads.guard (Nat.not_lt.mpr h.count) ?_)
  exact readEntries_reads h.entries {}

/-- The inspection returns this metadata. -/
def Inspected (file : FileReader) (limits : GgufInspectionLimits) (m : GgufMetadata) : Prop :=
  ∃ s, inspectReader file limits = .ok m s

/-- Of a header within the limits the inspection collects the entries. -/
theorem inspected_iff {file : FileReader} {limits : GgufInspectionLimits} {header : GgufHeader} (h : header.Within limits)
    (hlies : header.encode <+: file.bytes) (m : GgufMetadata) :
    Inspected file limits m ↔ ∃ c, header.entries.foldlM collect {} = some c ∧ c.finish = .ok m := by
  have hread : Reads (do (← readHeader limits).finish : Inspect GgufMetadata) header.encode
      ((header.entries.foldlM collect {}).bind fun c => c.finish.toOption) := by
    have hheader := readHeader_reads h
    cases hcollect : header.entries.foldlM collect {} with
    | none =>
      rw [hcollect] at hheader
      exact hheader.bind_nil_fails
    | some c =>
      rw [hcollect] at hheader
      refine hheader.bind_nil (Reads.lift_option fun m => ?_)
      rw [Option.bind_some]
      cases c.finish <;> simp [Except.toOption]
  refine (hread.ok_iff ⟨hlies, h.bytes⟩).trans ?_
  rw [Option.bind_eq_some_iff]
  refine exists_congr fun c => and_congr_right fun _ => ?_
  cases c.finish <;> simp [Except.toOption]

/-! ### What the entries specify -/

/-- The entries for a field are one, and it holds this value. -/
def HeldFor (entries : List GgufEntry) (f : MetadataField) (v : f.Value) : Prop :=
  ∃ entry, entries.filter (fun entry => entryField entry = some f) = [entry] ∧ entryValue f entry = some v

theorem heldWith_start (entries : List GgufEntry) (f : MetadataField) :
    heldWith metadataFields entryField entryValue {} entries f =
      (entries.filter fun entry => entryField entry = some f).map (entryValue f) := by
  have hnone : metadataFields.get {} f = none := by
    cases f with
    | dimension d => cases d <;> rfl
    | _ => rfl
  rw [heldWith, hnone]
  rfl

theorem collected_iff {entries : List GgufEntry} {c : CollectedMetadata} (h : entries.foldlM collect {} = some c)
    (f : MetadataField) (v : f.Value) : metadataFields.get c f = some v ↔ HeldFor entries f v := by
  have hheld := foldlM_fill_ok h f
  rw [heldWith_start] at hheld
  constructor
  · intro hget
    rw [hget] at hheld
    exact List.map_eq_singleton_iff.mp hheld
  · rintro ⟨entry, hentry, hvalue⟩
    rw [hentry, List.map_singleton, hvalue] at hheld
    cases hget : metadataFields.get c f with
    | none =>
      rw [hget] at hheld
      cases hheld
    | some w =>
      rw [hget] at hheld
      exact (List.singleton_inj.mp hheld).symm

theorem collected_none {entries : List GgufEntry} {c : CollectedMetadata} (h : entries.foldlM collect {} = some c)
    {f : MetadataField} : metadataFields.get c f = none ↔ entries.filter (fun entry => entryField entry = some f) = [] := by
  have hheld := foldlM_fill_ok h f
  rw [heldWith_start] at hheld
  cases hget : metadataFields.get c f with
  | none =>
    rw [hget] at hheld
    exact iff_of_true rfl (List.map_eq_nil_iff.mp hheld)
  | some v =>
    rw [hget] at hheld
    refine iff_of_false nofun fun hnil => ?_
    rw [hnil] at hheld
    cases hheld

/-- Entries that hold one value or none for each field are collected. -/
theorem collected_of {entries : List GgufEntry} {g : ∀ f : MetadataField, Option f.Value}
    (hsome : ∀ f v, g f = some v → HeldFor entries f v)
    (hnone : ∀ f, g f = none → entries.filter (fun entry => entryField entry = some f) = []) :
    ∃ c, entries.foldlM collect {} = some c ∧ ∀ f, metadataFields.get c f = g f := by
  refine foldlM_fill_of fun f => ?_
  rw [heldWith_start]
  cases hg : g f with
  | none =>
    rw [hnone f hg]
    rfl
  | some v =>
    obtain ⟨entry, hentry, hvalue⟩ := hsome f v hg
    rw [hentry, List.map_singleton, hvalue]
    rfl

/-- The entries for a field, as a multiset. -/
theorem filter_field {entries : List GgufEntry} {f : MetadataField} {P : GgufEntry → Prop} [DecidablePred P]
    (hP : ∀ entry, entryField entry = some f ↔ P entry) : (entries : Multiset GgufEntry).filter P =
      ((entries.filter fun entry => entryField entry = some f : List GgufEntry) : Multiset GgufEntry) := by
  rw [Multiset.filter_coe]
  refine congrArg _ (List.filter_congr fun entry _ => ?_)
  rw [decide_eq_decide]
  exact (hP entry).symm

theorem held_iff {entries : List GgufEntry} {f : MetadataField} {v : f.Value} {P : GgufEntry → Prop} [DecidablePred P]
    (hP : ∀ entry, entryField entry = some f ↔ P entry) : HeldFor entries f v ↔
      ∃ entry, (entries : Multiset GgufEntry).filter P = {entry} ∧ P entry ∧ entryValue f entry = some v := by
  refine exists_congr fun entry => ?_
  rw [filter_field hP, Multiset.coe_eq_singleton]
  refine and_congr_right fun hentry => (and_iff_right ?_).symm
  have hmem : entry ∈ entries.filter fun entry => entryField entry = some f := by
    rw [hentry]
    exact List.mem_singleton_self entry
  have hfield := (List.mem_filter.mp hmem).2
  rw [decide_eq_true_iff] at hfield
  exact (hP entry).mp hfield

/-! Which entries a field is for, and what it then holds. -/

theorem numericTarget_none {key head : String} {rest : List Char} (hkey : key.toList = head.toList ++ '.' :: rest)
    (hdot : '.' ∉ head.toList) (hrest : ∀ d : Dimension, d.suffix.toList ≠ '.' :: rest) : numericTarget key = none := by
  cases htarget : numericTarget key with
  | none => rfl
  | some target =>
    obtain ⟨architecture, d⟩ := target
    obtain ⟨-, hdot', rfl⟩ := numericTarget_eq_some.mp htarget
    obtain ⟨x, hx⟩ := d.suffix_eq
    rw [String.toList_append, hx] at hkey
    obtain ⟨-, rfl⟩ := append_dot_inj hdot' hdot hkey
    exact absurd hx (hrest d)

theorem numericTarget_key {key : String} (h : key = "general.architecture" ∨ key = "general.file_type" ∨
    key = "tokenizer.ggml.tokens") : numericTarget key = none := by
  obtain rfl | rfl | rfl := h
  · exact numericTarget_none (show _ = "general".toList ++ '.' :: "architecture".toList from rfl) (by decide)
      fun d => by cases d <;> decide
  · exact numericTarget_none (show _ = "general".toList ++ '.' :: "file_type".toList from rfl) (by decide)
      fun d => by cases d <;> decide
  · exact numericTarget_none (show _ = "tokenizer".toList ++ '.' :: "ggml.tokens".toList from rfl) (by decide)
      fun d => by cases d <;> decide

theorem entryField_architecture (entry : GgufEntry) :
    entryField entry = some .architecture ↔ entry.key = "general.architecture" := by
  unfold entryField
  split_ifs with h <;> simp [h]

theorem entryField_fileType (entry : GgufEntry) :
    entryField entry = some .fileType ↔ entry.key = "general.file_type" := by
  unfold entryField
  split_ifs with h h' <;> simp [*]

theorem entryField_vocabularySize (entry : GgufEntry) :
    entryField entry = some .vocabularySize ↔ entry.key = "tokenizer.ggml.tokens" := by
  unfold entryField
  split_ifs with h h' h'' <;> simp [*]

theorem entryField_dimension (d : Dimension) (entry : GgufEntry) :
    entryField entry = some (.dimension d) ↔ ArchitectureKey d.suffix entry.key := by
  have hmap : (numericTarget entry.key).map (fun target => MetadataField.dimension target.2) = some (.dimension d) ↔
      ArchitectureKey d.suffix entry.key := by
    rw [Option.map_eq_some_iff]
    constructor
    · rintro ⟨⟨architecture, d'⟩, htarget, hd⟩
      obtain rfl := MetadataField.dimension.inj hd
      exact ⟨architecture, numericTarget_eq_some.mp htarget⟩
    · rintro ⟨architecture, hkey⟩
      exact ⟨(architecture, d), numericTarget_eq_some.mpr hkey, rfl⟩
  by_cases hkey : entry.key = "general.architecture" ∨ entry.key = "general.file_type" ∨
      entry.key = "tokenizer.ggml.tokens"
  · rw [numericTarget_key hkey] at hmap
    rw [← hmap, entryField, numericTarget_key hkey]
    split_ifs <;> simp
  · rw [not_or, not_or] at hkey
    rw [entryField, if_neg hkey.1, if_neg hkey.2.1, if_neg hkey.2.2, hmap]

theorem held_architecture {entries : List GgufEntry} {name : String} : HeldFor entries .architecture name ↔
    (entries : Multiset GgufEntry).filter (fun entry => entry.key = "general.architecture") =
      {⟨"general.architecture", .string (utf8 name)⟩} := by
  rw [held_iff entryField_architecture]
  constructor
  · rintro ⟨⟨key, value⟩, hentry, rfl, hvalue⟩
    cases value with
    | string bytes => rw [hentry, fromUtf8_eq_some.mp hvalue]
    | _ => cases hvalue
  · exact fun h => ⟨_, h, rfl, fromUtf8_eq_some.mpr rfl⟩

theorem filter_le_eq_some {o : Option ℕ} {n m : ℕ} : o.filter (· ≤ m) = some n ↔ o = some n ∧ n ≤ m := by
  rw [Option.filter_eq_some_iff, decide_eq_true_iff]

theorem held_fileType {entries : List GgufEntry} {n : ℕ} : HeldFor entries .fileType n ↔
    ∃ value, (entries : Multiset GgufEntry).filter (fun entry => entry.key = "general.file_type") =
      {⟨"general.file_type", value⟩} ∧ value.integer = some (n : ℤ) ∧ n < 2 ^ 16 := by
  rw [held_iff entryField_fileType]
  constructor
  · rintro ⟨⟨key, value⟩, hentry, rfl, hvalue⟩
    obtain ⟨hn, hle⟩ := filter_le_eq_some.mp hvalue
    exact ⟨value, hentry, GgufValue.natural_eq_some.mp hn, Nat.lt_succ_of_le hle⟩
  · rintro ⟨value, hentry, hn, hlt⟩
    exact ⟨_, hentry, rfl, filter_le_eq_some.mpr ⟨GgufValue.natural_eq_some.mpr hn, Nat.le_of_lt_succ hlt⟩⟩

theorem held_vocabularySize {entries : List GgufEntry} {n : ℕ} : HeldFor entries .vocabularySize n ↔
    ∃ tokens, (entries : Multiset GgufEntry).filter (fun entry => entry.key = "tokenizer.ggml.tokens") =
      {⟨"tokenizer.ggml.tokens", .strings tokens⟩} ∧ tokens.length = n ∧ tokens.length < 2 ^ 32 := by
  rw [held_iff entryField_vocabularySize]
  constructor
  · rintro ⟨⟨key, value⟩, hentry, rfl, hvalue⟩
    cases value with
    | strings tokens =>
      change (if tokens.length ≤ u32Max then some tokens.length else none) = some n at hvalue
      split_ifs at hvalue with hle
      exact ⟨tokens, hentry, Option.some.inj hvalue, Nat.lt_succ_of_le hle⟩
    | _ => cases hvalue
  · rintro ⟨tokens, hentry, rfl, hlt⟩
    exact ⟨_, hentry, rfl, if_pos (Nat.le_of_lt_succ hlt)⟩

open Classical in
theorem held_dimension {entries : List GgufEntry} {d : Dimension} {architecture : String} {n : ℕ} :
    HeldFor entries (.dimension d) ⟨architecture, n⟩ ↔ ∃ value,
      (entries : Multiset GgufEntry).filter (fun entry => ArchitectureKey d.suffix entry.key) =
        {⟨architecture ++ d.suffix, value⟩} ∧ value.integer = some (n : ℤ) ∧ n < 2 ^ 32 := by
  rw [held_iff (entryField_dimension d)]
  have hvalue : ∀ {a : String} {entry : GgufEntry}, a ≠ "" → '.' ∉ a.toList → entry.key = a ++ d.suffix →
      (entryValue (.dimension d) entry = some ⟨architecture, n⟩ ↔
        a = architecture ∧ entry.value.integer = some (n : ℤ) ∧ n ≤ u32Max) := by
    intro a entry hne hdot hkey
    rw [entryValue, hkey, numericTarget_suffix hne hdot, Option.bind_some, Option.map_eq_some_iff,
      ← GgufValue.natural_eq_some]
    constructor
    · rintro ⟨n', hn', heq⟩
      obtain ⟨rfl, rfl⟩ := ArchitectureValue.mk.inj heq
      exact ⟨rfl, filter_le_eq_some.mp hn'⟩
    · rintro ⟨rfl, hn⟩
      exact ⟨n, filter_le_eq_some.mpr hn, rfl⟩
  constructor
  · rintro ⟨⟨key, value⟩, hentry, ⟨a, hne, hdot, hkey⟩, hheld⟩
    obtain ⟨rfl, hn, hle⟩ := (hvalue hne hdot hkey).mp hheld
    obtain rfl : key = a ++ d.suffix := hkey
    exact ⟨value, hentry, hn, Nat.lt_succ_of_le hle⟩
  · rintro ⟨value, hentry, hn, hlt⟩
    have hmem : (⟨architecture ++ d.suffix, value⟩ : GgufEntry) ∈
        (entries : Multiset GgufEntry).filter fun entry => ArchitectureKey d.suffix entry.key := by
      rw [hentry]
      exact Multiset.mem_singleton_self _
    obtain ⟨a, hne, hdot, hkey⟩ := (Multiset.mem_filter.mp hmem).2
    have ha : a = architecture := by
      have hlist := congrArg String.toList hkey
      rw [String.toList_append, String.toList_append] at hlist
      exact (String.toList_inj.mp (List.append_cancel_right hlist)).symm
    exact ⟨_, hentry, ⟨a, hne, hdot, hkey⟩, (hvalue hne hdot hkey).mpr ⟨ha, hn, Nat.le_of_lt_succ hlt⟩⟩

/-! ### The end of the inspection -/

/-- The collected values are those of `m` and pass all checks. -/
structure CollectedMetadata.Finished (c : CollectedMetadata) (m : GgufMetadata) : Prop where
  architectureName : c.architecture = some m.architectureName
  contextLength : c.contextLength = some ⟨m.architectureName, m.contextLength⟩ ∧ m.contextLength ≠ 0
  blockCount : c.blockCount = some ⟨m.architectureName, m.blockCount⟩ ∧ m.blockCount ≠ 0
  embeddingLength : c.embeddingLength = some ⟨m.architectureName, m.embeddingLength⟩ ∧ m.embeddingLength ≠ 0
  attentionHeadCount : c.attentionHeadCount = some ⟨m.architectureName, m.attentionHeadCount⟩ ∧ m.attentionHeadCount ≠ 0
  attentionHeadCountKv : (c.attentionHeadCountKv = none ∧ m.attentionHeadCountKv = m.attentionHeadCount) ∨
    (c.attentionHeadCountKv = some ⟨m.architectureName, m.attentionHeadCountKv⟩ ∧ m.attentionHeadCountKv ≠ 0)
  divides : m.attentionHeadCountKv ∣ m.attentionHeadCount
  vocabularySize : c.vocabularySize = some m.vocabularySize ∧ m.vocabularySize ≠ 0
  fileType : c.fileType = some m.fileType
  architecture : m.architecture = classifyArchitecture m.architectureName
  formats : (m.scalarType, m.quantization) = scalarAndQuantization m.fileType

theorem requiredArchitectureValue_eq_ok {value : Option ArchitectureValue} {architecture : String} {n : ℕ} :
    requiredArchitectureValue value architecture = .ok n ↔ value = some ⟨architecture, n⟩ ∧ n ≠ 0 := by
  unfold requiredArchitectureValue
  simp only [Except.bind_eq_ok, Except.okOr_eq_ok, Except.failIf_eq_ok, Except.pure_eq_ok, exists_const, not_or]
  constructor
  · rintro ⟨⟨a, v⟩, rfl, ⟨ha, hv⟩, rfl⟩
    obtain rfl : a = architecture := not_not.mp ha
    exact ⟨rfl, hv⟩
  · rintro ⟨rfl, hn⟩
    exact ⟨_, rfl, ⟨not_not_intro rfl, hn⟩, rfl⟩

theorem requiredNonZero_eq_ok {value : Option ℕ} {n : ℕ} : requiredNonZero value = .ok n ↔ value = some n ∧ n ≠ 0 := by
  cases value with
  | none => simp [requiredNonZero]
  | some v =>
    rw [requiredNonZero]
    split_ifs with hv
    · simp only [Except.ok.injEq, Option.some.injEq]
      exact ⟨fun h => ⟨h, h ▸ hv⟩, And.left⟩
    · simp only [Option.some.injEq, false_iff, not_and]
      exact fun h => h ▸ hv

theorem architectureValueOr_eq_ok {value : Option ArchitectureValue} {architecture : String} {default n : ℕ} :
    architectureValueOr value architecture default = .ok n ↔
      (value = none ∧ n = default) ∨ (value = some ⟨architecture, n⟩ ∧ n ≠ 0) := by
  cases value with
  | none => simp [architectureValueOr, eq_comm]
  | some value => simp [architectureValueOr, requiredArchitectureValue_eq_ok]

theorem finish_eq_ok {c : CollectedMetadata} {m : GgufMetadata} : c.finish = .ok m ↔ c.Finished m := by
  unfold CollectedMetadata.finish
  simp only [Except.bind_eq_ok, Except.okOr_eq_ok, Except.failIf_eq_ok, Except.pure_eq_ok, exists_const, not_or,
    requiredArchitectureValue_eq_ok, architectureValueOr_eq_ok, requiredNonZero_eq_ok]
  constructor
  · rintro ⟨name, hname, context, hcontext, block, hblock, embedding, hembedding, heads, hheads, kv, hkv, ⟨-, hdvd⟩,
      vocabulary, hvocabulary, file, hfile, rfl⟩
    exact ⟨hname, hcontext, hblock, hembedding, hheads, hkv, not_not.mp hdvd, hvocabulary, hfile, rfl, rfl⟩
  · intro h
    have hle := Nat.le_of_dvd (Nat.pos_of_ne_zero h.attentionHeadCount.2) h.divides
    have hscalar : m.scalarType = (scalarAndQuantization m.fileType).1 := congrArg Prod.fst h.formats
    have hquantization : m.quantization = (scalarAndQuantization m.fileType).2 := congrArg Prod.snd h.formats
    refine ⟨_, h.architectureName, _, h.contextLength, _, h.blockCount, _, h.embeddingLength, _, h.attentionHeadCount, _,
      h.attentionHeadCountKv, ⟨Nat.not_lt.mpr hle, not_not_intro h.divides⟩, _, h.vocabularySize, _, h.fileType, ?_⟩
    rw [← h.architecture, ← hscalar, ← hquantization]

theorem occursOnce_iff {entries : List GgufEntry} {d : Dimension} {architecture : String} {n : ℕ} :
    OccursOnce entries d.suffix architecture n ↔ HeldFor entries (.dimension d) ⟨architecture, n⟩ ∧ n ≠ 0 := by
  rw [held_dimension]
  constructor
  · rintro ⟨value, hentry, hn, hne, hlt⟩
    exact ⟨⟨value, hentry, hn, hlt⟩, hne⟩
  · rintro ⟨⟨value, hentry, hn, hlt⟩, hne⟩
    exact ⟨value, hentry, hn, hne, hlt⟩

/-- What the fields hold that `m` was collected from. -/
def GgufMetadata.held (m : GgufMetadata) (kv : Bool) : ∀ f : MetadataField, Option f.Value
  | .architecture => some m.architectureName
  | .fileType => some m.fileType
  | .vocabularySize => some m.vocabularySize
  | .dimension .contextLength => some ⟨m.architectureName, m.contextLength⟩
  | .dimension .blockCount => some ⟨m.architectureName, m.blockCount⟩
  | .dimension .embeddingLength => some ⟨m.architectureName, m.embeddingLength⟩
  | .dimension .attentionHeadCount => some ⟨m.architectureName, m.attentionHeadCount⟩
  | .dimension .attentionHeadCountKv => if kv then some ⟨m.architectureName, m.attentionHeadCountKv⟩ else none

open Classical in
/-- The entries for a numeric field are none. -/
theorem filter_dimension {entries : List GgufEntry} {d : Dimension} :
    (entries : Multiset GgufEntry).filter (fun entry => ArchitectureKey d.suffix entry.key) = 0 ↔
      entries.filter (fun entry => entryField entry = some (.dimension d)) = [] := by
  rw [filter_field (entryField_dimension d), Multiset.coe_eq_zero]

theorem collected_of_specified {entries : List GgufEntry} {m : GgufMetadata} (h : Specified entries m) :
    ∃ c, entries.foldlM collect {} = some c ∧ c.Finished m := by
  have harchitecture : HeldFor entries .architecture m.architectureName := held_architecture.mpr h.architectureName
  have hfileType : HeldFor entries .fileType m.fileType := held_fileType.mpr h.fileType
  obtain ⟨tokens, htokens, hsize, hne, hlt⟩ := h.vocabularySize
  have hvocabulary : HeldFor entries .vocabularySize m.vocabularySize := held_vocabularySize.mpr ⟨tokens, htokens, hsize, hlt⟩
  have hcontext := (occursOnce_iff (d := .contextLength)).mp h.contextLength
  have hblock := (occursOnce_iff (d := .blockCount)).mp h.blockCount
  have hembedding := (occursOnce_iff (d := .embeddingLength)).mp h.embeddingLength
  have hheads := (occursOnce_iff (d := .attentionHeadCount)).mp h.attentionHeadCount
  have hpositive : m.vocabularySize ≠ 0 := by
    rw [← hsize]
    exact fun hzero => hne (List.length_eq_zero_iff.mp hzero)
  -- the one field that need not occur
  obtain ⟨kv, hkv, hnone⟩ : ∃ kv : Bool,
      (kv = true → HeldFor entries (.dimension .attentionHeadCountKv) ⟨m.architectureName, m.attentionHeadCountKv⟩ ∧
        m.attentionHeadCountKv ≠ 0) ∧
      (kv = false → entries.filter (fun entry => entryField entry = some (.dimension .attentionHeadCountKv)) = [] ∧
        m.attentionHeadCountKv = m.attentionHeadCount) := by
    obtain ⟨hnil, hdefault⟩ | hoccurs := h.attentionHeadCountKv
    · exact ⟨false, nofun, fun _ => ⟨(filter_dimension (d := .attentionHeadCountKv)).mp hnil, hdefault⟩⟩
    · exact ⟨true, fun _ => (occursOnce_iff (d := .attentionHeadCountKv)).mp hoccurs, nofun⟩
  have hsome : ∀ (f : MetadataField) (v : f.Value), m.held kv f = some v → HeldFor entries f v := by
    intro f v hv
    match f with
    | .architecture => exact Option.some.inj hv ▸ harchitecture
    | .fileType => exact Option.some.inj hv ▸ hfileType
    | .vocabularySize => exact Option.some.inj hv ▸ hvocabulary
    | .dimension .contextLength => exact Option.some.inj hv ▸ hcontext.1
    | .dimension .blockCount => exact Option.some.inj hv ▸ hblock.1
    | .dimension .embeddingLength => exact Option.some.inj hv ▸ hembedding.1
    | .dimension .attentionHeadCount => exact Option.some.inj hv ▸ hheads.1
    | .dimension .attentionHeadCountKv =>
      cases kv with
      | true => exact Option.some.inj hv ▸ (hkv rfl).1
      | false => cases hv
  have hempty : ∀ f : MetadataField, m.held kv f = none →
      entries.filter (fun entry => entryField entry = some f) = [] := by
    intro f hf
    match f with
    | .dimension .attentionHeadCountKv =>
      cases kv with
      | true => cases hf
      | false => exact (hnone rfl).1
  obtain ⟨c, hc, hget⟩ := collected_of hsome hempty
  refine ⟨c, hc, hget .architecture, ⟨hget (.dimension .contextLength), hcontext.2⟩,
    ⟨hget (.dimension .blockCount), hblock.2⟩, ⟨hget (.dimension .embeddingLength), hembedding.2⟩,
    ⟨hget (.dimension .attentionHeadCount), hheads.2⟩, ?_, h.divides, ⟨hget .vocabularySize, hpositive⟩, hget .fileType,
    h.architecture, h.formats⟩
  have hfield := hget (.dimension .attentionHeadCountKv)
  cases kv with
  | true => exact .inr ⟨hfield, (hkv rfl).2⟩
  | false => exact .inl ⟨hfield, (hnone rfl).2⟩

theorem specified_of_collected {entries : List GgufEntry} {m : GgufMetadata} {c : CollectedMetadata}
    (hc : entries.foldlM collect {} = some c) (h : c.Finished m) : Specified entries m := by
  have hdimension : ∀ (d : Dimension) (n : ℕ), c.dimension d = some ⟨m.architectureName, n⟩ ∧ n ≠ 0 →
      OccursOnce entries d.suffix m.architectureName n :=
    fun d _ hn => occursOnce_iff.mpr ⟨(collected_iff hc (.dimension d) _).mp hn.1, hn.2⟩
  have hvocabulary := held_vocabularySize.mp ((collected_iff hc .vocabularySize _).mp h.vocabularySize.1)
  obtain ⟨tokens, htokens, hsize, hlt⟩ := hvocabulary
  refine ⟨held_architecture.mp ((collected_iff hc .architecture _).mp h.architectureName),
    held_fileType.mp ((collected_iff hc .fileType _).mp h.fileType), ⟨tokens, htokens, hsize, ?_, hlt⟩,
    hdimension .contextLength _ h.contextLength, hdimension .blockCount _ h.blockCount,
    hdimension .embeddingLength _ h.embeddingLength, hdimension .attentionHeadCount _ h.attentionHeadCount, ?_, h.divides,
    h.architecture, h.formats⟩
  · rintro rfl
    exact h.vocabularySize.2 hsize.symm
  · obtain ⟨hnone, hdefault⟩ | hkv := h.attentionHeadCountKv
    · have hnil := (collected_none hc (f := .dimension .attentionHeadCountKv)).mp hnone
      exact .inl ⟨(filter_dimension (d := .attentionHeadCountKv)).mpr hnil, hdefault⟩
    · exact .inr (hdimension .attentionHeadCountKv _ hkv)

/-- The specification holds of what the entries are collected to. -/
theorem specified_iff {entries : List GgufEntry} {m : GgufMetadata} :
    Specified entries m ↔ ∃ c, entries.foldlM collect {} = some c ∧ c.finish = .ok m := by
  constructor
  · intro h
    obtain ⟨c, hc, hfinished⟩ := collected_of_specified h
    exact ⟨c, hc, finish_eq_ok.mpr hfinished⟩
  · rintro ⟨c, hc, hfinish⟩
    exact specified_of_collected hc (finish_eq_ok.mp hfinish)

/-! ### The result -/

theorem filter_related {entries : Multiset GgufEntry} {P R : GgufEntry → Prop} [DecidablePred P] [DecidablePred R]
    (h : ∀ entry, P entry → R entry) : (entries.filter R).filter P = entries.filter P := by
  rw [Multiset.filter_filter]
  exact Multiset.filter_congr fun entry _ => ⟨And.left, fun hP => ⟨hP, h entry hP⟩⟩

theorem related_suffix (d : Dimension) {key : String} (h : ArchitectureKey d.suffix key) : Related key := by
  refine .inr (.inr (.inr ⟨d.suffix, ?_, h⟩))
  cases d <;> simp [Dimension.suffix]

/-- The related entries are those that are for a field. -/
theorem related_iff (entry : GgufEntry) : Related entry.key ↔ (entryField entry).isSome = true := by
  rw [Option.isSome_iff_exists]
  constructor
  · rintro (hkey | hkey | hkey | ⟨suffix, hmem, hkey⟩)
    · exact ⟨_, (entryField_architecture entry).mpr hkey⟩
    · exact ⟨_, (entryField_fileType entry).mpr hkey⟩
    · exact ⟨_, (entryField_vocabularySize entry).mpr hkey⟩
    · obtain ⟨d, rfl⟩ : ∃ d : Dimension, d.suffix = suffix := by
        simp only [List.mem_cons, List.not_mem_nil, or_false] at hmem
        obtain rfl | rfl | rfl | rfl | rfl := hmem
        · exact ⟨.contextLength, rfl⟩
        · exact ⟨.blockCount, rfl⟩
        · exact ⟨.embeddingLength, rfl⟩
        · exact ⟨.attentionHeadCountKv, rfl⟩
        · exact ⟨.attentionHeadCount, rfl⟩
      exact ⟨_, (entryField_dimension d entry).mpr hkey⟩
  · rintro ⟨f, hf⟩
    cases f with
    | architecture => exact .inl ((entryField_architecture entry).mp hf)
    | fileType => exact .inr (.inl ((entryField_fileType entry).mp hf))
    | vocabularySize => exact .inr (.inr (.inl ((entryField_vocabularySize entry).mp hf)))
    | dimension d => exact related_suffix d ((entryField_dimension d entry).mp hf)

open Classical in
/-- Only related entries matter. -/
theorem Specified.of_related {entries entries' : Multiset GgufEntry} {m : GgufMetadata}
    (hrelated : entries.filter (fun entry => Related entry.key) = entries'.filter fun entry => Related entry.key)
    (h : Specified entries m) : Specified entries' m := by
  have hfilter : ∀ {P : GgufEntry → Prop} [DecidablePred P], (∀ entry, P entry → Related entry.key) →
      entries'.filter P = entries.filter P := by
    intro P _ hP
    rw [← filter_related hP, ← hrelated, filter_related hP]
  have honce : ∀ {d : Dimension} {n : ℕ}, OccursOnce entries d.suffix m.architectureName n →
      OccursOnce entries' d.suffix m.architectureName n := by
    intro d n hn
    rw [OccursOnce, hfilter fun entry => related_suffix d]
    exact hn
  constructor
  · rw [hfilter fun entry hkey => .inl hkey]
    exact h.architectureName
  · rw [hfilter fun entry hkey => .inr (.inl hkey)]
    exact h.fileType
  · rw [hfilter fun entry hkey => .inr (.inr (.inl hkey))]
    exact h.vocabularySize
  · exact honce (d := .contextLength) h.contextLength
  · exact honce (d := .blockCount) h.blockCount
  · exact honce (d := .embeddingLength) h.embeddingLength
  · exact honce (d := .attentionHeadCount) h.attentionHeadCount
  · refine h.attentionHeadCountKv.imp (And.imp_left fun hnil => ?_) (honce (d := .attentionHeadCountKv))
    exact (hfilter fun entry => related_suffix .attentionHeadCountKv).trans hnil
  · exact h.divides
  · exact h.architecture
  · exact h.formats

open Classical in
/-- The inspection of a header within the limits returns what its entries
specify, whatever follows it. Another header whose related entries are the same
has the same result: their order, the other entries, the version, the number of
tensors and the file they are in do not matter. -/
theorem inspection_specified {file : FileReader} {limits : GgufInspectionLimits} {header : GgufHeader}
    (h : header.Within limits) (hlies : header.encode <+: file.bytes) :
    (∀ m, Inspected file limits m ↔ Specified header.entries m) ∧
      ∀ (file' : FileReader) (header' : GgufHeader), header'.Within limits → header'.encode <+: file'.bytes →
        ((header.entries : Multiset GgufEntry).filter fun entry => Related entry.key) =
          ((header'.entries : Multiset GgufEntry).filter fun entry => Related entry.key) →
        ∀ m, Inspected file limits m ↔ Inspected file' limits m := by
  have hspecified : ∀ m, Inspected file limits m ↔ Specified header.entries m :=
    fun m => (inspected_iff h hlies m).trans specified_iff.symm
  refine ⟨hspecified, fun file' header' h' hlies' hrelated m => ?_⟩
  rw [hspecified m, inspected_iff h' hlies' m, ← specified_iff]
  exact ⟨Specified.of_related hrelated, Specified.of_related hrelated.symm⟩

/-- A header of a model with three tokens. -/
def llamaHeader : GgufHeader where
  version := 3
  tensorCount := 0
  entries := [⟨"general.architecture", .string (utf8 "llama")⟩, ⟨"general.file_type", .scalar .uint32 7⟩,
    ⟨"llama.context_length", .scalar .uint32 4096⟩, ⟨"llama.block_count", .scalar .uint32 2⟩,
    ⟨"llama.embedding_length", .scalar .uint32 16⟩, ⟨"llama.attention.head_count", .scalar .uint32 4⟩,
    ⟨"llama.attention.head_count_kv", .scalar .uint32 2⟩,
    ⟨"tokenizer.ggml.tokens", .strings [utf8 "<s>", utf8 "a", utf8 "b"]⟩]

/-- The same in another version and order, among other entries. -/
def llamaHeaderReordered : GgufHeader where
  version := 2
  tensorCount := 5
  entries := ⟨"general.alignment", .array .int16 [-1, 1]⟩ :: llamaHeader.entries.reverse ++
    [⟨"llama.context_length.scaled", .scalar .float64 0⟩]

def llamaLimits : GgufInspectionLimits := ⟨1048576, 64, 1024, 8⟩

/-- A file that holds only the header. -/
def llamaFile : FileReader := ⟨llamaHeader.encode, [2, 0, 5], by decide +kernel⟩

/-- A file in which three more bytes follow. -/
def llamaFileReordered : FileReader := ⟨llamaHeaderReordered.encode ++ [1, 2, 3], [], by decide +kernel⟩

def llamaMetadata : GgufMetadata := ⟨"llama", .llama, .other 7, .gguf 7, 3, 4096, 2, 16, 4, 2, 7⟩

open Classical in
theorem inspection_specified_llama : Inspected llamaFile llamaLimits llamaMetadata ∧
    Specified llamaHeader.entries llamaMetadata ∧ Inspected llamaFileReordered llamaLimits llamaMetadata := by
  have hwithin : llamaHeader.Within llamaLimits := ⟨.inr rfl, by decide, by decide +kernel, by decide +kernel⟩
  have hreordered : llamaHeaderReordered.Within llamaLimits := ⟨.inl rfl, by decide, by decide +kernel, by decide +kernel⟩
  have hrelated : ((llamaHeader.entries : Multiset GgufEntry).filter fun entry => Related entry.key) =
      ((llamaHeaderReordered.entries : Multiset GgufEntry).filter fun entry => Related entry.key) := by
    rw [Multiset.filter_congr fun entry _ => related_iff entry, Multiset.filter_congr fun entry _ => related_iff entry]
    decide +kernel
  have hlies : llamaHeader.encode <+: llamaFile.bytes := List.prefix_refl _
  have hinspected : Inspected llamaFile llamaLimits llamaMetadata := by
    have hcollect : llamaHeader.entries.foldlM collect {} = some ⟨some "llama", some ⟨"llama", 4096⟩, some ⟨"llama", 2⟩,
        some ⟨"llama", 16⟩, some ⟨"llama", 4⟩, some ⟨"llama", 2⟩, some 3, some 7⟩ := by decide +kernel
    exact (inspected_iff hwithin hlies llamaMetadata).mpr ⟨_, hcollect, rfl⟩
  obtain ⟨hspecified, hsame⟩ := inspection_specified hwithin hlies
  refine ⟨hinspected, (hspecified llamaMetadata).mp hinspected, ?_⟩
  exact (hsame llamaFileReordered llamaHeaderReordered hreordered (List.prefix_append _ _) hrelated llamaMetadata).mp
    hinspected

end LlmApp
