/-
# Which files hold the weights

A repository names its weight files with an index file, or by the standard names
of shards: `model-00001-of-00002.safetensors` and so on. `directWeights` reads
the names alone and accepts a set of shards when none is missing and none is of
another total; `indexedWeights` takes the names an index refers to.

The standard names of one total are in the order of their numbers
(`shardName_lt_shardName`), so both give the shards of a complete set in the same
order.

Key definitions: `parseStandardShard`, `directWeights`, `indexedWeights`,
`CompleteShards`.
Key theorems: `parseStandardShard_eq_some`, `directWeights_complete`, `complete_of_directWeights`,
`shards_resolved`.
-/
import LlmApp.Contracts
import LlmApp.Data.Decimal
import LlmApp.Data.Except
import LlmApp.Data.OrdMap
import LlmApp.Data.Sorting
import LlmApp.Data.Text
import LlmApp.Data.Utf8
import LlmApp.Data.Words

namespace LlmApp

def singleWeightFile : String := "model.safetensors"

/-- The failures of the resolution of weights, over those of the JSON reader. -/
inductive HubError (ε : Type) where
  | unsupportedWeightLayout
  | unsafeArtifactPath (filename : String)
  | invalidIndex (error : ε)
deriving DecidableEq, Repr

structure SafetensorsIndex where
  weightMap : OrdMap String String

/-! ### Paths -/

/-- `std::path::Component`. -/
inductive PathComponent where
  | rootDir | curDir | parentDir
  | normal (name : List Char)
deriving DecidableEq, Repr

/-- `Path::components` of a Unix path. A dot is kept at the start only. -/
def pathComponents (path : String) : List PathComponent :=
  let pieces := path.toList.splitOn '/'
  let root := if path.toList.head? = some '/' then [PathComponent.rootDir] else []
  let lead := if pieces.head? = some ['.'] then [PathComponent.curDir] else []
  root ++ lead ++ pieces.filterMap fun piece =>
    if piece = [] ∨ piece = ['.'] then none
    else if piece = ['.', '.'] then some .parentDir
    else some (.normal piece)

def PathComponent.isNormal : PathComponent → Bool
  | .normal _ => true
  | _ => false

variable {ε : Type}

def validateArtifactPath (filename : String) : Except (HubError ε) Unit :=
  Except.failIf (filename = "" ∨ (pathComponents filename).head? = some .rootDir ∨
    ∃ component ∈ pathComponents filename, component.isNormal = false) (.unsafeArtifactPath filename)

/-! ### Resolution -/

/-- One character of a digit is one byte, so the bytes of a text are digits when its characters are. -/
def fiveDigits (s : String) : Prop := s.utf8ByteSize = 5 ∧ ∀ c ∈ s.toList, c.isDigit = true

instance (s : String) : Decidable (fiveDigits s) := inferInstanceAs (Decidable (_ ∧ _))

def parseStandardShard (filename : String) : Option (ℕ × ℕ) := do
  let stem ← stripPrefix "model-" filename
  let stem ← stripSuffix stem ".safetensors"
  let parts ← splitOnce "-of-" stem
  if ¬fiveDigits parts.1 ∨ ¬fiveDigits parts.2 then none
  else return (← parseUnsigned u64Max parts.1, ← parseUnsigned u64Max parts.2)

/-- The shards that are named as such, in the order of their names. -/
def standardShards (available : Finset String) : List (ℕ × ℕ × String) :=
  available.sort.filterMap fun filename =>
    (parseStandardShard filename).map fun shard => (shard.1, shard.2, filename)

def directWeights (sort : UnstableSort (ℕ × ℕ × String)) (available : Finset String) :
    Except (HubError ε) (List String) :=
  if singleWeightFile ∈ available then .ok [singleWeightFile]
  else do
    let shards := standardShards available
    let expectedTotal ← Except.okOr (shards.head?.map fun shard => shard.2.1) .unsupportedWeightLayout
    Except.failIf (expectedTotal = 0 ∨ shards.length ≠ expectedTotal ∨ ∃ shard ∈ shards, shard.2.1 ≠ expectedTotal)
      .unsupportedWeightLayout
    let shards := sort.sort (compareOn fun shard => shard.1) shards
    Except.failIf (∃ entry ∈ shards.zipIdx, entry.1.1 ≠ entry.2 + 1) .unsupportedWeightLayout
    return shards.map fun shard => shard.2.2

/-- One turn of the loop of `indexed_weights`. -/
def indexWeight (available weights : Finset String) (filename : String) : Except (HubError ε) (Finset String) := do
  validateArtifactPath filename
  Except.failIf (¬".safetensors".toList <:+ filename.toList ∨ filename ∉ available) .unsupportedWeightLayout
  return insert filename weights

/-- `serde_json` is the reader of the index. -/
def indexedWeights (parse : List UInt8 → Except ε SafetensorsIndex) (bytes : List UInt8) (available : Finset String) :
    Except (HubError ε) (List String) := do
  let index ← (parse bytes).mapError .invalidIndex
  let weights ← index.weightMap.values.foldlM (indexWeight available) ∅
  Except.failIf (weights = ∅) .unsupportedWeightLayout
  return weights.sort

/-! ### The names of shards -/

/-- A name of the standard form. -/
def IsStandardShard (filename : String) : Prop :=
  ∃ index total, fiveDigits index ∧ fiveDigits total ∧
    filename = "model-" ++ (index ++ "-of-" ++ total ++ ".safetensors")

def shardName (index total : ℕ) : String :=
  "model-" ++ (String.ofList (numeral 5 index) ++ "-of-" ++ String.ofList (numeral 5 total) ++ ".safetensors")

theorem fiveDigits_iff {s : String} : fiveDigits s ↔ ∃ n < 10 ^ 5, s = String.ofList (numeral 5 n) := by
  have hsize : ∀ {l : List Char}, (∀ c ∈ l, c.isDigit = true) → (String.ofList l).utf8ByteSize = l.length := by
    intro l hl
    have hone : ∀ c ∈ l, c.utf8Size = 1 := by
      intro c hc
      have hdigit := hl c hc
      simp only [Char.isDigit, Bool.and_eq_true, decide_eq_true_eq, UInt32.le_iff_toNat_le] at hdigit
      refine Char.utf8Size_eq_one_iff.mpr (UInt32.le_iff_toNat_le.mpr (hdigit.2.trans ?_))
      decide
    rw [utf8ByteSize_eq_weight, weight, List.map_congr_left hone]
    simp
  constructor
  · rintro ⟨hlength, hdigits⟩
    have hlist : s.toList.length = 5 := by
      rw [← hsize hdigits, String.ofList_toList, hlength]
    have hlt := ofDigitChars_lt hdigits
    have hnumeral := numeral_ofDigitChars hdigits
    rw [hlist] at hlt hnumeral
    exact ⟨_, hlt, by rw [hnumeral, String.ofList_toList]⟩
  · rintro ⟨n, -, rfl⟩
    have hdigits : ∀ c ∈ numeral 5 n, c.isDigit = true := fun c => isDigit_of_mem_numeral
    exact ⟨(hsize hdigits).trans (numeral_length 5 n), by rwa [String.toList_ofList]⟩

theorem isStandardShard_iff {filename : String} : IsStandardShard filename ↔
    ∃ index < 10 ^ 5, ∃ total < 10 ^ 5, filename = shardName index total := by
  constructor
  · rintro ⟨index, total, hindex, htotal, rfl⟩
    obtain ⟨i, hi, rfl⟩ := fiveDigits_iff.mp hindex
    obtain ⟨t, ht, rfl⟩ := fiveDigits_iff.mp htotal
    exact ⟨i, hi, t, ht, rfl⟩
  · rintro ⟨i, hi, t, ht, rfl⟩
    exact ⟨_, _, fiveDigits_iff.mpr ⟨i, hi, rfl⟩, fiveDigits_iff.mpr ⟨t, ht, rfl⟩, rfl⟩

theorem parseUnsigned_numeral {n : ℕ} (h : n < 10 ^ 5) :
    parseUnsigned u64Max (String.ofList (numeral 5 n)) = some n := by
  have hvalue : Nat.ofDigitChars 10 (numeral 5 n) 0 = n := by
    rw [ofDigitChars_numeral, Nat.mod_eq_of_lt h]
  have hmax : n ≤ u64Max := h.le.trans (by decide)
  have hne : String.ofList (numeral 5 n) ≠ "" := by
    intro hempty
    have hlength := congrArg String.length hempty
    rw [String.length_ofList, numeral_length] at hlength
    cases hlength
  have hlist : (String.ofList (numeral 5 n)).toList = numeral 5 n := String.toList_ofList
  rw [parseUnsigned_of_digits hne, hlist, hvalue]
  · rw [hlist]
    exact fun c => isDigit_of_mem_numeral
  · rwa [hlist, hvalue]

/-- The numbers are read back from exactly the standard names. -/
theorem parseStandardShard_eq_some {filename : String} {index total : ℕ} :
    parseStandardShard filename = some (index, total) ↔
      index < 10 ^ 5 ∧ total < 10 ^ 5 ∧ filename = shardName index total := by
  simp only [parseStandardShard, Option.bind_eq_bind, Option.bind_eq_some_iff, stripPrefix_eq_some, stripSuffix_eq_some]
  constructor
  · rintro ⟨_, rfl, _, rfl, ⟨left, right⟩, hsplit, hparse⟩
    obtain ⟨rfl, -⟩ := splitOnce_eq_some.mp hsplit
    split_ifs at hparse with hdigits
    obtain ⟨hleft, hright⟩ := not_or.mp hdigits
    obtain ⟨i, hi, rfl⟩ := fiveDigits_iff.mp (not_not.mp hleft)
    obtain ⟨t, ht, rfl⟩ := fiveDigits_iff.mp (not_not.mp hright)
    simp only [parseUnsigned_numeral hi, parseUnsigned_numeral ht, Option.bind_some, Option.pure_def, Option.some.injEq,
      Prod.mk.injEq] at hparse
    obtain ⟨rfl, rfl⟩ := hparse
    exact ⟨hi, ht, rfl⟩
  · rintro ⟨hi, ht, rfl⟩
    refine ⟨_, rfl, _, rfl, (String.ofList (numeral 5 index), String.ofList (numeral 5 total)), ?_, ?_⟩
    · refine splitOnce_append (c := '-') rfl fun hdash => ?_
      rw [String.toList_ofList] at hdash
      cases isDigit_of_mem_numeral hdash
    · have hindex := fiveDigits_iff.mpr ⟨index, hi, rfl⟩
      have htotal := fiveDigits_iff.mpr ⟨total, ht, rfl⟩
      rw [if_neg (not_or.mpr ⟨not_not.mpr hindex, not_not.mpr htotal⟩), parseUnsigned_numeral hi,
        parseUnsigned_numeral ht]
      rfl

/-- The names of one total are in the order of their numbers. -/
theorem shardName_lt_shardName {i j total : ℕ} (h : i < j) (hj : j < 10 ^ 5) : shardName i total < shardName j total := by
  simp only [String.lt_iff_toList_lt, shardName, String.toList_append, String.toList_ofList, List.append_assoc]
  refine List.append_left_lt (append_lt_append ?_ (numeral_lt_numeral h hj) _)
  rw [numeral_length, numeral_length]

theorem shardName_injective {i j t u : ℕ} (hi : i < 10 ^ 5) (ht : t < 10 ^ 5) (hj : j < 10 ^ 5) (hu : u < 10 ^ 5)
    (h : shardName i t = shardName j u) : i = j ∧ t = u := by
  have hread := parseStandardShard_eq_some.mpr ⟨hi, ht, rfl⟩
  have hread' := parseStandardShard_eq_some.mpr ⟨hj, hu, h⟩
  exact Prod.mk.inj (Option.some.inj (hread.symm.trans hread'))

/-! ### Complete sets of shards -/

/-- The files of the standard form are the shards `1` to `n` of `n`. -/
structure CompleteShards (available : Finset String) (n : ℕ) : Prop where
  pos : 1 ≤ n
  lt : n < 10 ^ 5
  files : ∀ filename, filename ∈ available ∧ IsStandardShard filename ↔
    ∃ index, 1 ≤ index ∧ index ≤ n ∧ filename = shardName index n

/-- The names of a complete set, by the number of the shard. -/
def shardNames (n : ℕ) : List String := (List.range n).map fun offset => shardName (offset + 1) n

section Direct

variable {available : Finset String} {n : ℕ} {weights : List String}

theorem mem_standardShards {index total : ℕ} {filename : String} : (index, total, filename) ∈ standardShards available ↔
    filename ∈ available ∧ index < 10 ^ 5 ∧ total < 10 ^ 5 ∧ filename = shardName index total := by
  rw [standardShards, List.mem_filterMap]
  constructor
  · rintro ⟨name, hname, hread⟩
    obtain ⟨⟨i, t⟩, hparse, hshard⟩ := Option.map_eq_some_iff.mp hread
    simp only [Prod.mk.injEq] at hshard
    obtain ⟨rfl, rfl, rfl⟩ := hshard
    exact ⟨Finset.mem_sort _ |>.mp hname, parseStandardShard_eq_some.mp hparse⟩
  · rintro ⟨hname, hshard⟩
    exact ⟨filename, (Finset.mem_sort _).mpr hname, by rw [parseStandardShard_eq_some.mpr hshard]; rfl⟩

theorem nodup_standardShards : (standardShards available).Nodup := by
  refine List.Nodup.filterMap (fun name name' shard h h' => ?_) (Finset.sort_nodup _ _)
  obtain ⟨_, -, rfl⟩ := Option.map_eq_some_iff.mp h
  obtain ⟨_, -, heq⟩ := Option.map_eq_some_iff.mp h'
  exact (congrArg (·.2.2) heq).symm

/-- A complete set as it is listed when it is in order. -/
theorem CompleteShards.perm (h : CompleteShards available n) :
    ((List.range n).map fun offset => (offset + 1, n, shardName (offset + 1) n)).Perm (standardShards available) := by
  refine (List.perm_ext_iff_of_nodup ?_ nodup_standardShards).mpr ?_
  · exact List.nodup_range.map fun i j hij => Nat.succ.inj (Prod.mk.inj hij).1
  rintro ⟨index, total, filename⟩
  rw [mem_standardShards, List.mem_map]
  constructor
  · rintro ⟨offset, hoffset, hshard⟩
    simp only [Prod.mk.injEq] at hshard
    obtain ⟨rfl, rfl, rfl⟩ := hshard
    have hlt : offset + 1 ≤ n := List.mem_range.mp hoffset
    have hfile := (h.files _).mpr ⟨offset + 1, Nat.le_add_left 1 offset, hlt, rfl⟩
    exact ⟨hfile.1, hlt.trans_lt h.lt, h.lt, rfl⟩
  · rintro ⟨havailable, hindex, htotal, rfl⟩
    obtain ⟨i, hpos, hle, hname⟩ := (h.files _).mp ⟨havailable, isStandardShard_iff.mpr ⟨index, hindex, total, htotal, rfl⟩⟩
    obtain ⟨rfl, rfl⟩ := shardName_injective hindex htotal (hle.trans_lt h.lt) h.lt hname
    exact ⟨index - 1, List.mem_range.mpr (by omega), by rw [Nat.sub_add_cancel hpos]⟩

/-- The shards of a complete set are told apart by their numbers, so there is one way to sort them. -/
theorem CompleteShards.sort_eq (h : CompleteShards available n) (sort : UnstableSort (ℕ × ℕ × String)) :
    sort.sort (compareOn fun shard => shard.1) (standardShards available) =
      (List.range n).map fun offset => (offset + 1, n, shardName (offset + 1) n) := by
  have horders : OrdersOn (compareOn fun shard : ℕ × ℕ × String => shard.1) (standardShards available) :=
    .of_transCmp _
  refine ordered_unique horders ?_ (sort.perm _ _) h.perm (sort.ordered horders) ?_
  · intro a ha b hb hcmp
    obtain ⟨i, -, rfl⟩ := List.mem_map.mp (h.perm.mem_iff.mpr ha)
    obtain ⟨j, -, rfl⟩ := List.mem_map.mp (h.perm.mem_iff.mpr hb)
    have heq : i + 1 = j + 1 := Std.LawfulEqCmp.eq_of_compare hcmp
    rw [heq]
  · rw [List.pairwise_map]
    refine List.pairwise_lt_range.imp fun {i j} hij => ?_
    exact Nat.isLE_compare.mpr (Nat.succ_le_succ hij.le)

theorem directWeights_complete (hsingle : singleWeightFile ∉ available) (h : CompleteShards available n)
    (sort : UnstableSort (ℕ × ℕ × String)) :
    directWeights sort available = (.ok (shardNames n) : Except (HubError ε) (List String)) := by
  have hlength : (standardShards available).length = n := by
    rw [← h.perm.length_eq, List.length_map, List.length_range]
  have htotals : ∀ shard ∈ standardShards available, shard.2.1 = n := by
    intro shard hshard
    obtain ⟨i, -, rfl⟩ := List.mem_map.mp (h.perm.mem_iff.mpr hshard)
    rfl
  have hhead : (standardShards available).head?.map (fun shard => shard.2.1) = some n := by
    cases hlist : standardShards available with
    | nil =>
      rw [hlist] at hlength
      exact absurd hlength.symm (Nat.pos_iff_ne_zero.mp h.pos)
    | cons shard rest => exact congrArg some (htotals shard (hlist ▸ List.mem_cons_self))
  have hpos := Nat.pos_iff_ne_zero.mp h.pos
  simp only [directWeights, if_neg hsingle, hhead, Except.bind_eq_ok, Except.okOr_eq_ok, Except.failIf_eq_ok,
    Except.pure_eq_ok]
  refine ⟨n, rfl, (), ?_, (), ?_, ?_⟩
  · simp only [hlength, not_or, not_not, not_exists, not_and]
    exact ⟨hpos, trivial, htotals⟩
  · rw [h.sort_eq]
    rintro ⟨⟨shard, offset⟩, hentry, hne⟩
    obtain ⟨hlt, hget⟩ := List.mk_mem_zipIdx_iff_getElem?.mp hentry |> List.getElem?_eq_some_iff.mp
    rw [List.getElem_map, List.getElem_range] at hget
    exact hne (hget ▸ rfl)
  · rw [h.sort_eq, List.map_map]
    rfl

/-- What is accepted is a complete set. -/
theorem complete_of_directWeights (hsingle : singleWeightFile ∉ available) (sort : UnstableSort (ℕ × ℕ × String))
    (h : directWeights sort available = (.ok weights : Except (HubError ε) (List String))) :
    ∃ n, CompleteShards available n := by
  simp only [directWeights, if_neg hsingle, Except.bind_eq_ok, Except.okOr_eq_ok, Except.failIf_eq_ok,
    Except.pure_eq_ok, not_or, not_not, not_exists, not_and, exists_const] at h
  obtain ⟨n, hhead, ⟨hpos, hlength, htotals⟩, hoffsets, -⟩ := h
  obtain ⟨first, hfirst, rfl⟩ := Option.map_eq_some_iff.mp hhead
  have hperm := sort.perm (compareOn fun shard => shard.1) (standardShards available)
  generalize sort.sort (compareOn fun shard => shard.1) (standardShards available) = sorted at hperm hoffsets
  have hsorted : sorted.length = first.2.1 := hperm.length_eq.trans hlength
  -- The shard at an offset has the number after it.
  have hindex : ∀ (offset : ℕ) (hlt : offset < sorted.length), sorted[offset].1 = offset + 1 := by
    intro offset hlt
    exact hoffsets (sorted[offset], offset) (List.mk_mem_zipIdx_iff_getElem?.mpr (List.getElem?_eq_getElem hlt))
  have hshard : ∀ shard ∈ standardShards available, shard.2.2 ∈ available ∧ shard.1 < 10 ^ 5 ∧
      first.2.1 < 10 ^ 5 ∧ shard.2.2 = shardName shard.1 first.2.1 := by
    intro shard hmem
    rw [← htotals shard hmem]
    exact mem_standardShards.mp hmem
  refine ⟨first.2.1, Nat.pos_of_ne_zero hpos, (hshard first (List.mem_of_mem_head? hfirst)).2.2.1, fun filename => ?_⟩
  constructor
  · rintro ⟨havailable, hstandard⟩
    obtain ⟨index, hindexlt, total, htotallt, rfl⟩ := isStandardShard_iff.mp hstandard
    have hmem := mem_standardShards.mpr ⟨havailable, hindexlt, htotallt, rfl⟩
    obtain ⟨offset, hlt, hget⟩ := List.mem_iff_getElem.mp (hperm.mem_iff.mpr hmem)
    have hnumber := hindex offset hlt
    have htotal : total = first.2.1 := htotals _ hmem
    rw [hget] at hnumber
    exact ⟨index, by omega, by omega, by rw [htotal]⟩
  · rintro ⟨index, hone, hle, rfl⟩
    have hlt : index - 1 < sorted.length := by omega
    have hmem := hperm.mem_iff.mp (List.getElem_mem hlt)
    have hnumber := hindex (index - 1) hlt
    obtain ⟨havailable, hindexlt, htotallt, hname⟩ := hshard _ hmem
    rw [hnumber, Nat.sub_add_cancel hone] at hindexlt hname
    rw [hname] at havailable
    exact ⟨havailable, isStandardShard_iff.mpr ⟨index, hindexlt, _, htotallt, rfl⟩⟩

end Direct

/-! ### An index of the shards -/

section Indexed

variable {available : Finset String} {n : ℕ}

theorem validateArtifactPath_shardName (index total : ℕ) :
    validateArtifactPath (shardName index total) = (.ok () : Except (HubError ε) Unit) := by
  have hchars : ∀ c ∈ (shardName index total).toList, c ≠ '/' := by
    simp only [shardName, String.toList_append, String.toList_ofList, List.mem_append]
    rintro c (hc | ((hc | hc) | hc) | hc) rfl
    · revert hc
      decide
    · cases isDigit_of_mem_numeral hc
    · revert hc
      decide
    · cases isDigit_of_mem_numeral hc
    · revert hc
      decide
  have hsplit : (shardName index total).toList.splitOn '/' = [(shardName index total).toList] :=
    List.splitOnP_eq_singleton fun c hc => beq_false_of_ne (hchars c hc)
  obtain ⟨rest, hrest⟩ : ∃ rest, (shardName index total).toList = 'm' :: 'o' :: 'd' :: rest :=
    ⟨_, by rw [shardName, String.toList_append]; rfl⟩
  have hcomponents : pathComponents (shardName index total) = [.normal (shardName index total).toList] := by
    rw [hrest] at hsplit
    simp [pathComponents, hsplit, hrest]
  refine Except.failIf_eq_ok.mpr ?_
  rw [hcomponents]
  simp only [List.head?_cons, Option.some.injEq, reduceCtorEq, List.mem_singleton, exists_eq_left,
    PathComponent.isNormal, Bool.true_eq_false, or_false]
  intro hempty
  rw [hempty] at hrest
  cases hrest

theorem indexedWeights_complete (h : CompleteShards available n) {parse : List UInt8 → Except ε SafetensorsIndex}
    {bytes : List UInt8} {index : SafetensorsIndex} (hparse : parse bytes = .ok index)
    (hvalues : ∀ filename, filename ∈ index.weightMap.values ↔ filename ∈ available ∧ IsStandardShard filename) :
    indexedWeights parse bytes available = .ok (shardNames n) := by
  have hnames : ∀ filename, filename ∈ index.weightMap.values ↔ filename ∈ shardNames n := by
    intro filename
    rw [hvalues, h.files, shardNames, List.mem_map]
    constructor
    · rintro ⟨i, hpos, hle, rfl⟩
      exact ⟨i - 1, List.mem_range.mpr (by omega), by rw [Nat.sub_add_cancel hpos]⟩
    · rintro ⟨offset, hoffset, rfl⟩
      exact ⟨offset + 1, Nat.le_add_left 1 offset, List.mem_range.mp hoffset, rfl⟩
  -- Every value of the index is accepted, and collected.
  have hstep : ∀ done filename rest (weights : Finset String), index.weightMap.values = done ++ filename :: rest →
      weights = done.toFinset → ∃ weights', indexWeight available weights filename =
        (.ok weights' : Except (HubError ε) (Finset String)) ∧ weights' = (done ++ [filename]).toFinset := by
    rintro done filename rest _ hvalue rfl
    have hmem : filename ∈ index.weightMap.values := by
      rw [hvalue]
      exact List.mem_append_cons_self
    obtain ⟨havailable, -⟩ := (hvalues filename).mp hmem
    obtain ⟨offset, -, rfl⟩ := List.mem_map.mp ((hnames filename).mp hmem)
    have hsuffix : ".safetensors".toList <:+ (shardName (offset + 1) n).toList := by
      simp only [shardName, String.toList_append]
      exact (List.suffix_append _ _).trans (List.suffix_append _ _)
    refine ⟨insert (shardName (offset + 1) n) done.toFinset, ?_, by simp⟩
    simp only [indexWeight, validateArtifactPath_shardName, Except.ok_bind, Except.bind_eq_ok, Except.failIf_eq_ok,
      Except.pure_eq_ok, exists_const, and_true]
    exact not_or.mpr ⟨not_not.mpr hsuffix, not_not.mpr havailable⟩
  obtain ⟨_, hloop, rfl⟩ := Except.foldlM_invariant (fun done (weights : Finset String) =>
    weights = done.toFinset) (List.toFinset_nil.symm : (∅ : Finset String) = [].toFinset) hstep
  have hsorted : (shardNames n).SortedLT := by
    refine List.Pairwise.sortedLT (List.pairwise_map.mpr ?_)
    refine List.pairwise_lt_range.imp_of_mem fun {i j} hi hj hij => ?_
    have hlt : j + 1 ≤ n := List.mem_range.mp hj
    exact shardName_lt_shardName (Nat.succ_lt_succ hij) (hlt.trans_lt h.lt)
  have hsort : index.weightMap.values.toFinset.sort = shardNames n := by
    refine (Finset.sortedLT_sort _).eq_of_mem_iff hsorted fun filename => ?_
    rw [Finset.mem_sort, List.mem_toFinset, hnames]
  have hne : index.weightMap.values.toFinset ≠ ∅ := by
    intro hempty
    rw [hempty, Finset.sort_empty, shardNames] at hsort
    have hlength := congrArg List.length hsort
    rw [List.length_map, List.length_range] at hlength
    exact absurd hlength.symm (Nat.pos_iff_ne_zero.mp h.pos)
  simp only [indexedWeights, hparse, Except.mapError, Except.ok_bind, hloop, Except.bind_eq_ok, Except.failIf_eq_ok,
    Except.pure_eq_ok, exists_const]
  exact ⟨hne, hsort⟩

end Indexed

/-- Without a single file of weights, the names alone are accepted when they name a complete set of
shards, which is then listed by the numbers of the shards; and an index that refers to these files lists
them the same way. -/
theorem shards_resolved (sort : UnstableSort (ℕ × ℕ × String)) (available : Finset String)
    (hsingle : singleWeightFile ∉ available) :
    ((∃ weights, directWeights sort available = (.ok weights : Except (HubError ε) (List String))) ↔
      ∃ n, CompleteShards available n) ∧
    ∀ n, CompleteShards available n → directWeights sort available = (.ok (shardNames n) : Except (HubError ε) (List String)) ∧
      ∀ (parse : List UInt8 → Except ε SafetensorsIndex) (bytes : List UInt8) (index : SafetensorsIndex),
        parse bytes = .ok index →
        (∀ filename, filename ∈ index.weightMap.values ↔ filename ∈ available ∧ IsStandardShard filename) →
          indexedWeights parse bytes available = .ok (shardNames n) := by
  refine ⟨⟨fun ⟨_, hok⟩ => complete_of_directWeights hsingle sort hok, fun ⟨n, h⟩ => ?_⟩, fun n h => ⟨?_, ?_⟩⟩
  · exact ⟨shardNames n, directWeights_complete hsingle h sort⟩
  · exact directWeights_complete hsingle h sort
  · exact fun _ _ _ => indexedWeights_complete h

/-- An index that refers to the second of two shards twice. -/
def twoShardsJson : String :=
  "\x7b\"weight_map\": \x7b\"layer.1\": \"model-00002-of-00002.safetensors\", " ++
    "\"layer.0\": \"model-00001-of-00002.safetensors\", \"layer.2\": \"model-00002-of-00002.safetensors\"\x7d\x7d"

/-- What `serde_json` reads from it. -/
def twoShardsIndex : SafetensorsIndex where
  weightMap := ⟨[("layer.0", shardName 1 2), ("layer.1", shardName 2 2), ("layer.2", shardName 2 2)], by decide⟩

/-- A reader of this index, which refuses all other bytes. -/
def readTwoShards (bytes : List UInt8) : Except Unit SafetensorsIndex :=
  if bytes = utf8 twoShardsJson then .ok twoShardsIndex else .error ()

theorem shards_resolved_two :
    directWeights (.mergeSort _) {"config.json", shardName 2 2, shardName 1 2} =
      (.ok ["model-00001-of-00002.safetensors", "model-00002-of-00002.safetensors"] : Except (HubError Unit) _) ∧
    indexedWeights readTwoShards (utf8 twoShardsJson) {"config.json", shardName 2 2, shardName 1 2} =
      (.ok ["model-00001-of-00002.safetensors", "model-00002-of-00002.safetensors"] : Except (HubError Unit) _) := by
  have hname : ∀ index total, index < 10 ^ 5 → total < 10 ^ 5 → IsStandardShard (shardName index total) :=
    fun index total hindex htotal => isStandardShard_iff.mpr ⟨index, hindex, total, htotal, rfl⟩
  have hconfig : ¬IsStandardShard "config.json" := by
    rw [isStandardShard_iff]
    rintro ⟨index, hindex, total, htotal, h⟩
    have hread := parseStandardShard_eq_some.mpr ⟨hindex, htotal, h⟩
    have hnone : parseStandardShard "config.json" = none := by decide
    cases hnone.symm.trans hread
  have hcomplete : CompleteShards {"config.json", shardName 2 2, shardName 1 2} 2 := by
    refine ⟨by decide, by decide, fun filename => ?_⟩
    simp only [Finset.mem_insert, Finset.mem_singleton]
    constructor
    · rintro ⟨rfl | rfl | rfl, h⟩
      · exact absurd h hconfig
      · exact ⟨2, by decide, by decide, rfl⟩
      · exact ⟨1, by decide, by decide, rfl⟩
    · rintro ⟨index, hpos, hle, rfl⟩
      refine ⟨?_, hname index 2 (by omega) (by decide)⟩
      interval_cases index <;> simp
  have hresolved := (@shards_resolved Unit (.mergeSort _) {"config.json", shardName 2 2, shardName 1 2}
    (by decide)).2 2 hcomplete
  refine ⟨hresolved.1, hresolved.2 readTwoShards _ twoShardsIndex (if_pos rfl) fun filename => ?_⟩
  simp only [twoShardsIndex, OrdMap.values, List.map_cons, List.map_nil, List.mem_cons, List.not_mem_nil, or_false,
    Finset.mem_insert, Finset.mem_singleton]
  constructor
  · rintro (rfl | rfl | rfl)
    · exact ⟨.inr (.inr rfl), hname 1 2 (by decide) (by decide)⟩
    · exact ⟨.inr (.inl rfl), hname 2 2 (by decide) (by decide)⟩
    · exact ⟨.inr (.inl rfl), hname 2 2 (by decide) (by decide)⟩
  · rintro ⟨rfl | rfl | rfl, h⟩
    · exact absurd h hconfig
    · exact .inr (.inl rfl)
    · exact .inl rfl

end LlmApp
