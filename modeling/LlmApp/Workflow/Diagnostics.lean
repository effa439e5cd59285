/-
# Diagnostics and their normal form

`normalize_validation_report` trims codes and paths, collapses the whitespace of
messages, and sorts and deduplicates what comes of it. Two raw diagnostics are
the same up to whitespace (`SameDiagnostic`, said with the words and the trimmed
cores of their texts, not with the code that finds them) exactly when their
normal forms are equal, so the normal form of a report stands for the set of its
diagnostics up to whitespace (`normalizeValidationReport_canonical`).

Key definitions: `RawDiagnostic`, `Diagnostic`, `ValidationReport`,
`normalizeValidationReport`, `SameDiagnostic`.
Key theorems: `normalizeDiagnostic_eq_iff`, `normalizeDiagnostic_asRaw`,
`normalizeValidationReport_canonical`.
-/
import LlmApp.Data.Normal
import LlmApp.Data.Words

namespace LlmApp

/-! ### Texts -/

/-- `str::trim`. -/
def trimText (text : String) : String := .ofList (trimEnds isWhitespace text.toList)

def normalizeOptionalText (value : Option String) : Option String :=
  value.bind fun text => if trimText text = "" then none else some (trimText text)

def collapseWhitespace (value : String) : String := .ofList (joinWords ' ' (words isWhitespace value.toList))

/-! ### Diagnostics -/

inductive DiagnosticSeverity where
  | information | warning | error
deriving DecidableEq, Repr

structure DiagnosticLocation where
  path : Option String
  line : Option ℕ
  column : Option ℕ
deriving DecidableEq, Repr

structure RawDiagnostic where
  severity : DiagnosticSeverity
  code : Option String
  message : String
  location : Option DiagnosticLocation
deriving DecidableEq, Repr

structure Diagnostic where
  severity : DiagnosticSeverity
  code : Option String
  message : String
  location : Option DiagnosticLocation
deriving DecidableEq, Repr

inductive ValidationVerdict where
  | passed | rejected
deriving DecidableEq, Repr

structure ValidationReport where
  verdict : ValidationVerdict
  diagnostics : List RawDiagnostic
deriving DecidableEq, Repr

structure NormalizedValidationReport where
  verdict : ValidationVerdict
  diagnostics : List Diagnostic
deriving DecidableEq, Repr

/-! ### The derived orders

Field by field, an absent option first. The order of strings is that of their
characters, as that of their bytes is. -/

def DiagnosticSeverity.rank : DiagnosticSeverity → ℕ
  | .information => 0
  | .warning => 1
  | .error => 2

instance : Ord DiagnosticSeverity := ⟨compareOn DiagnosticSeverity.rank⟩

instance : Std.TransOrd DiagnosticSeverity := inferInstanceAs (Std.TransCmp (compareOn DiagnosticSeverity.rank))

instance : Std.LawfulEqOrd DiagnosticSeverity where
  eq_of_compare {a b} h := by
    have hrank : a.rank = b.rank := Std.LawfulEqOrd.eq_of_compare h
    cases a <;> cases b <;> first | rfl | cases hrank

instance : Ord DiagnosticLocation where
  compare := compareLex (compareOn DiagnosticLocation.path)
    (compareLex (compareOn DiagnosticLocation.line) (compareOn DiagnosticLocation.column))

instance : Std.TransOrd DiagnosticLocation := inferInstanceAs (Std.TransCmp
  (compareLex (compareOn DiagnosticLocation.path)
    (compareLex (compareOn DiagnosticLocation.line) (compareOn DiagnosticLocation.column))))

instance : Std.LawfulEqOrd DiagnosticLocation where
  eq_of_compare {a b} h := by
    obtain ⟨hpath, hrest⟩ := compareLex_eq_eq.mp h
    obtain ⟨hline, hcolumn⟩ := compareLex_eq_eq.mp hrest
    obtain ⟨path, line, column⟩ := a
    obtain ⟨path', line', column'⟩ := b
    obtain rfl : path = path' := Std.LawfulEqOrd.eq_of_compare hpath
    obtain rfl : line = line' := Std.LawfulEqOrd.eq_of_compare hline
    obtain rfl : column = column' := Std.LawfulEqOrd.eq_of_compare hcolumn
    rfl

/-- `Diagnostic::cmp`. -/
def Diagnostic.cmp : Diagnostic → Diagnostic → Ordering :=
  compareLex (compareOn Diagnostic.severity)
    (compareLex (compareOn Diagnostic.code)
      (compareLex (compareOn Diagnostic.message) (compareOn Diagnostic.location)))

instance : Std.TransCmp Diagnostic.cmp := inferInstanceAs (Std.TransCmp
  (compareLex (compareOn Diagnostic.severity)
    (compareLex (compareOn Diagnostic.code)
      (compareLex (compareOn Diagnostic.message) (compareOn Diagnostic.location)))))

instance : Std.LawfulEqCmp Diagnostic.cmp where
  eq_of_compare {a b} h := by
    obtain ⟨hseverity, hrest⟩ := compareLex_eq_eq.mp h
    obtain ⟨hcode, hrest⟩ := compareLex_eq_eq.mp hrest
    obtain ⟨hmessage, hlocation⟩ := compareLex_eq_eq.mp hrest
    obtain ⟨severity, code, message, location⟩ := a
    obtain ⟨severity', code', message', location'⟩ := b
    obtain rfl : severity = severity' := Std.LawfulEqOrd.eq_of_compare hseverity
    obtain rfl : code = code' := Std.LawfulEqOrd.eq_of_compare hcode
    obtain rfl : message = message' := Std.LawfulEqOrd.eq_of_compare hmessage
    obtain rfl : location = location' := Std.LawfulEqOrd.eq_of_compare hlocation
    rfl

/-! ### Normalization -/

def normalizeLocation (location : DiagnosticLocation) : DiagnosticLocation :=
  ⟨normalizeOptionalText location.path, location.line, location.column⟩

def normalizeDiagnostic (raw : RawDiagnostic) : Diagnostic :=
  ⟨raw.severity, normalizeOptionalText raw.code, collapseWhitespace raw.message, raw.location.map normalizeLocation⟩

def normalizeValidationReport (report : ValidationReport) : NormalizedValidationReport :=
  ⟨report.verdict, sortDedup Diagnostic.cmp (report.diagnostics.map normalizeDiagnostic)⟩

/-- A normalized diagnostic as a raw one. -/
def Diagnostic.asRaw (d : Diagnostic) : RawDiagnostic := ⟨d.severity, d.code, d.message, d.location⟩

/-- A normalized report as a raw one. -/
def NormalizedValidationReport.asRaw (report : NormalizedValidationReport) : ValidationReport :=
  ⟨report.verdict, report.diagnostics.map Diagnostic.asRaw⟩

/-! ### The same up to whitespace -/

/-- The same words, in whatever whitespace. -/
def SameMessage (a b : String) : Prop := ∃ ws, Spaced isWhitespace a.toList ws ∧ Spaced isWhitespace b.toList ws

/-- What an optional text holds between whitespace: nothing when it is absent or blank. -/
inductive HasCore : Option String → Option (List Char) → Prop where
  | absent : HasCore none none
  | blank {text : String} : (∀ c ∈ text.toList, isWhitespace c = true) → HasCore (some text) none
  | padded {text : String} {core : List Char} : Padded isWhitespace text.toList core → Trimmed isWhitespace core →
      core ≠ [] → HasCore (some text) (some core)

def SameOptionalText (a b : Option String) : Prop := ∃ core, HasCore a core ∧ HasCore b core

def SameLocation : Option DiagnosticLocation → Option DiagnosticLocation → Prop
  | none, none => True
  | some a, some b => SameOptionalText a.path b.path ∧ a.line = b.line ∧ a.column = b.column
  | _, _ => False

structure SameDiagnostic (a b : RawDiagnostic) : Prop where
  severity : a.severity = b.severity
  code : SameOptionalText a.code b.code
  message : SameMessage a.message b.message
  location : SameLocation a.location b.location

/-- The same set of diagnostics. -/
def SameDiagnostics (l l' : List RawDiagnostic) : Prop :=
  (∀ a ∈ l, ∃ b ∈ l', SameDiagnostic a b) ∧ ∀ b ∈ l', ∃ a ∈ l, SameDiagnostic a b

/-! ### Normal forms of the parts -/

theorem isWhitespace_space : isWhitespace ' ' = true := rfl

theorem collapseWhitespace_eq_iff {a b : String} : collapseWhitespace a = collapseWhitespace b ↔ SameMessage a b := by
  have hsame : SameMessage a b ↔ words isWhitespace a.toList = words isWhitespace b.toList := by
    constructor
    · rintro ⟨ws, ha, hb⟩
      rw [ha.words_eq, hb.words_eq]
    · intro h
      exact ⟨_, words_eq_iff.mp h, spaced_words _⟩
  rw [hsame]
  constructor
  · intro h
    have hlist := congrArg (fun s => words isWhitespace s.toList) h
    simp only [collapseWhitespace, String.toList_ofList, words_joinWords isWhitespace_space] at hlist
    exact hlist
  · intro h
    rw [collapseWhitespace, h]
    rfl

theorem collapseWhitespace_collapse (a : String) : collapseWhitespace (collapseWhitespace a) = collapseWhitespace a := by
  rw [collapseWhitespace, collapseWhitespace, String.toList_ofList, words_joinWords isWhitespace_space]

theorem trimText_eq_empty {text : String} : trimText text = "" ↔ ∀ c ∈ text.toList, isWhitespace c = true := by
  rw [← trimEnds_eq_nil, trimText, String.ofList_eq_empty_iff]

theorem hasCore_iff {a : Option String} {core : Option (List Char)} :
    HasCore a core ↔ normalizeOptionalText a = core.map String.ofList := by
  constructor
  · rintro (_ | hblank | ⟨hpadded, htrimmed, hne⟩)
    · rfl
    · exact if_pos (trimText_eq_empty.mpr hblank)
    · have htrim := hpadded.trimEnds_eq htrimmed
      simp only [normalizeOptionalText, Option.bind_some, trimText, htrim, String.ofList_eq_empty_iff, hne, if_false,
        Option.map_some]
  · intro h
    cases a with
    | none =>
      cases core with
      | none => exact .absent
      | some core => cases h
    | some text =>
      simp only [normalizeOptionalText, Option.bind_some] at h
      split_ifs at h with hempty
      · cases core with
        | none => exact .blank (trimText_eq_empty.mp hempty)
        | some core => cases h
      · cases core with
        | none => cases h
        | some core =>
          have hcore : trimEnds isWhitespace text.toList = core := String.ofList_injective (Option.some.inj h)
          obtain ⟨hpadded, htrimmed⟩ := trimEnds_eq_iff.mp hcore
          refine .padded hpadded htrimmed fun hnil => hempty ?_
          rw [trimText, hcore, hnil]

theorem exists_hasCore (a : Option String) : ∃ core, HasCore a core := by
  refine ⟨(normalizeOptionalText a).map String.toList, hasCore_iff.mpr ?_⟩
  rw [Option.map_map]
  have hid : String.ofList ∘ String.toList = id := funext fun s => String.ofList_toList
  rw [hid, Option.map_id_apply]

theorem normalizeOptionalText_eq_iff {a b : Option String} :
    normalizeOptionalText a = normalizeOptionalText b ↔ SameOptionalText a b := by
  constructor
  · intro h
    obtain ⟨core, hcore⟩ := exists_hasCore a
    exact ⟨core, hcore, hasCore_iff.mpr (h ▸ hasCore_iff.mp hcore)⟩
  · rintro ⟨core, ha, hb⟩
    rw [hasCore_iff.mp ha, hasCore_iff.mp hb]

theorem normalizeOptionalText_normalize (a : Option String) :
    normalizeOptionalText (normalizeOptionalText a) = normalizeOptionalText a := by
  rw [normalizeOptionalText_eq_iff]
  obtain ⟨core, hcore⟩ := exists_hasCore a
  refine ⟨core, ?_, hcore⟩
  rw [hasCore_iff.mp hcore]
  cases hcore with
  | absent => exact .absent
  | blank => exact .absent
  | padded _ htrimmed hne =>
    refine .padded ?_ htrimmed hne
    rw [String.toList_ofList]
    exact .refl _

theorem normalizeLocation_eq_iff {a b : Option DiagnosticLocation} :
    a.map normalizeLocation = b.map normalizeLocation ↔ SameLocation a b := by
  cases a with
  | none => cases b <;> simp [SameLocation]
  | some a =>
    cases b with
    | none => simp [SameLocation]
    | some b =>
      simp only [Option.map_some, Option.some.injEq, normalizeLocation, DiagnosticLocation.mk.injEq, SameLocation,
        normalizeOptionalText_eq_iff]

/-- The normal forms are equal when the diagnostics are the same up to whitespace. -/
theorem normalizeDiagnostic_eq_iff {a b : RawDiagnostic} :
    normalizeDiagnostic a = normalizeDiagnostic b ↔ SameDiagnostic a b := by
  simp only [normalizeDiagnostic, Diagnostic.mk.injEq, normalizeOptionalText_eq_iff, collapseWhitespace_eq_iff,
    normalizeLocation_eq_iff]
  constructor
  · rintro ⟨hseverity, hcode, hmessage, hlocation⟩
    exact ⟨hseverity, hcode, hmessage, hlocation⟩
  · rintro ⟨hseverity, hcode, hmessage, hlocation⟩
    exact ⟨hseverity, hcode, hmessage, hlocation⟩

/-- A normal form is its own. -/
theorem normalizeDiagnostic_asRaw (raw : RawDiagnostic) :
    normalizeDiagnostic (normalizeDiagnostic raw).asRaw = normalizeDiagnostic raw := by
  obtain ⟨severity, code, message, location⟩ := raw
  simp only [normalizeDiagnostic, Diagnostic.asRaw, normalizeOptionalText_normalize, collapseWhitespace_collapse,
    Diagnostic.mk.injEq, true_and]
  cases location with
  | none => rfl
  | some location => simp only [Option.map_some, normalizeLocation, normalizeOptionalText_normalize]

/-! ### The normal form of a report -/

theorem mem_normalizeValidationReport {report : ValidationReport} {d : Diagnostic} :
    d ∈ (normalizeValidationReport report).diagnostics ↔ ∃ raw ∈ report.diagnostics, normalizeDiagnostic raw = d := by
  rw [normalizeValidationReport, mem_sortDedup, List.mem_map]

theorem normalizeValidationReport_eq_iff {report report' : ValidationReport} :
    normalizeValidationReport report = normalizeValidationReport report' ↔
      report.verdict = report'.verdict ∧ SameDiagnostics report.diagnostics report'.diagnostics := by
  simp only [normalizeValidationReport, NormalizedValidationReport.mk.injEq, sortDedup_eq_iff, List.mem_map]
  refine and_congr_right fun _ => ?_
  constructor
  · intro h
    constructor
    · intro a ha
      obtain ⟨b, hb, heq⟩ := (h _).mp ⟨a, ha, rfl⟩
      exact ⟨b, hb, normalizeDiagnostic_eq_iff.mp heq.symm⟩
    · intro b hb
      obtain ⟨a, ha, heq⟩ := (h _).mpr ⟨b, hb, rfl⟩
      exact ⟨a, ha, normalizeDiagnostic_eq_iff.mp heq⟩
  · rintro ⟨hleft, hright⟩ d
    constructor
    · rintro ⟨a, ha, rfl⟩
      obtain ⟨b, hb, hsame⟩ := hleft a ha
      exact ⟨b, hb, (normalizeDiagnostic_eq_iff.mpr hsame).symm⟩
    · rintro ⟨b, hb, rfl⟩
      obtain ⟨a, ha, hsame⟩ := hright b hb
      exact ⟨a, ha, normalizeDiagnostic_eq_iff.mpr hsame⟩

/-- The normal form of a report is its verdict and its diagnostics up to
whitespace, each once and in order, and is its own normal form. -/
theorem normalizeValidationReport_canonical (report : ValidationReport) :
    let normalized := normalizeValidationReport report
    (∀ report', normalized = normalizeValidationReport report' ↔
      report.verdict = report'.verdict ∧ SameDiagnostics report.diagnostics report'.diagnostics) ∧
    normalized.diagnostics.Pairwise (fun a b => Diagnostic.cmp a b = .lt) ∧
    (∀ d, d ∈ normalized.diagnostics ↔ ∃ raw ∈ report.diagnostics, normalizeDiagnostic raw = d) ∧
    normalized.verdict = report.verdict ∧
    normalizeValidationReport normalized.asRaw = normalized := by
  refine ⟨fun _ => normalizeValidationReport_eq_iff, sortDedup_pairwise _, fun _ => mem_normalizeValidationReport, rfl, ?_⟩
  have hmap : (normalizeValidationReport report).asRaw.diagnostics.map normalizeDiagnostic =
      (normalizeValidationReport report).diagnostics := by
    simp only [NormalizedValidationReport.asRaw, List.map_map]
    conv_rhs => rw [← List.map_id (normalizeValidationReport report).diagnostics]
    refine List.map_congr_left fun d hd => ?_
    obtain ⟨raw, -, rfl⟩ := mem_normalizeValidationReport.mp hd
    exact normalizeDiagnostic_asRaw raw
  have hsorted : sortDedup Diagnostic.cmp (normalizeValidationReport report).diagnostics =
      (normalizeValidationReport report).diagnostics := sortDedup_of_pairwise (sortDedup_pairwise _)
  rw [normalizeValidationReport, hmap]
  exact congrArg (NormalizedValidationReport.mk report.verdict) hsorted

end LlmApp
