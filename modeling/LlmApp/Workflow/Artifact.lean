/-
# Artifacts of a workflow

The failures of the workflow executor, the payloads it commits, the store that
keeps them without replacing one, and the view of the store that a port gets.
What a payload is accounted with is in `artifactContentSize`, over checked
addition. A normalized report is accounted with no more than the raw report it
is made from (`normalizedReportSize_le`).

Key definitions: `WorkflowError`, `ArtifactContent`, `Artifact`, `ArtifactStore`,
`ArtifactInputs`, `artifactContentSize`.
Key theorems: `ArtifactStore.insert_eq_ok`, `normalizedReportSize_le`.
-/
import LlmApp.Data.OrdMap
import LlmApp.TaskGraph.Artifacts
import LlmApp.Workflow.Diagnostics

namespace LlmApp

abbrev WorkflowId := ℕ

inductive WorkflowStage where
  | draft | initialValidation | normalizeDiagnostics | review | revise | finalValidation
deriving DecidableEq, Repr

/-! ### Failures -/

inductive WorkflowExecutorLimitError where
  | zeroMaximumArtifacts | zeroMaximumPendingEvents | zeroMaximumSpecificationBytes
deriving DecidableEq, Repr

inductive WorkflowBudgetClass where
  | model | validation
deriving DecidableEq, Repr

inductive WorkflowConfigurationError where
  | invalidInitialValidation (kind : TaskKind)
  | deterministicModelPolicy
  | zeroMaximumInputTokens (budget : WorkflowBudgetClass)
  | zeroMaximumOutputTokens (budget : WorkflowBudgetClass)
  | zeroArtifactLimit (role : ArtifactRole)
deriving DecidableEq, Repr

inductive WorkflowIdentifierKind where
  | workflow | task | artifact
deriving DecidableEq, Repr

inductive ArtifactContentKind where
  | specification | draft | rawValidation | normalizedDiagnostics | review | revision | finalValidation
deriving DecidableEq, Repr

inductive WorkflowError where
  | invalidConfiguration (error : WorkflowConfigurationError)
  | invalidExecutorLimits (error : WorkflowExecutorLimitError)
  | unknownSpecification (id : ArtifactId)
  | invalidSpecification (reference : ArtifactReference)
  | identifierExhausted (kind : WorkflowIdentifierKind)
  | artifactContentMismatch (reference : ArtifactReference) (content : ArtifactContentKind)
  | duplicateArtifact (id : ArtifactId)
  | artifactCapacityExceeded (required available : ℕ)
  | specificationCapacityExceeded (required maximum : ℕ)
  | specificationSizeOverflow
  | eventCapacityExceeded (required available : ℕ)
  | eventCapacityOverflow
  | taskGraph (error : TaskGraphError)
  | artifactSizeOverflow (workflow : WorkflowId) (stage : WorkflowStage) (task : TaskId) (artifact : ArtifactId)
  | outputCapacityExceeded (workflow : WorkflowId) (stage : WorkflowStage) (task : TaskId) (artifact : ArtifactId)
      (required maximum : ℕ)
  | taskExhausted (workflow : WorkflowId) (stage : WorkflowStage) (task : TaskId) (attempts : ℕ) (diagnostic : String)
  | invalidCommittedArtifact (artifact : ArtifactId) (expectedRole : ArtifactRole)
deriving DecidableEq, Repr

/-! ### Payloads -/

inductive ArtifactContent where
  | specification (value : String)
  | draft (value : String)
  | rawValidation (report : ValidationReport)
  | normalizedDiagnostics (report : NormalizedValidationReport)
  | review (value : String)
  | revision (value : String)
  | finalValidation (report : ValidationReport)
deriving DecidableEq, Repr

def ArtifactContent.kind : ArtifactContent → ArtifactContentKind
  | .specification _ => .specification
  | .draft _ => .draft
  | .rawValidation _ => .rawValidation
  | .normalizedDiagnostics _ => .normalizedDiagnostics
  | .review _ => .review
  | .revision _ => .revision
  | .finalValidation _ => .finalValidation

/-- The kind and role of a reference to each kind of payload. -/
def ArtifactContentKind.reference : ArtifactContentKind → ArtifactKind × ArtifactRole
  | .specification => (.text, .specification)
  | .draft => (.text, .draft)
  | .rawValidation => (.diagnostics, .rawDiagnostics)
  | .normalizedDiagnostics => (.diagnostics, .normalizedDiagnostics)
  | .review => (.text, .review)
  | .revision => (.text, .revision)
  | .finalValidation => (.diagnostics, .finalValidation)

def validateContent (reference : ArtifactReference) (content : ArtifactContent) : Except WorkflowError Unit :=
  Except.failIf ((reference.kind, reference.role) ≠ content.kind.reference)
    (.artifactContentMismatch reference content.kind)

structure Artifact where
  reference : ArtifactReference
  content : ArtifactContent
deriving DecidableEq, Repr

def Artifact.new (reference : ArtifactReference) (content : ArtifactContent) : Except WorkflowError Artifact := do
  validateContent reference content
  return ⟨reference, content⟩

/-! ### The store -/

structure ArtifactStore where
  artifacts : OrdMap ArtifactId Artifact
  maximumArtifacts : ℕ
deriving DecidableEq, Repr

namespace ArtifactStore

def new (maximumArtifacts : ℕ) : ArtifactStore := ⟨.empty, maximumArtifacts⟩

def get (store : ArtifactStore) (id : ArtifactId) : Option Artifact := store.artifacts.get? id

def remainingCapacity (store : ArtifactStore) : ℕ :=
  if store.maximumArtifacts ≤ store.artifacts.size then 0 else store.maximumArtifacts - store.artifacts.size

def insert (store : ArtifactStore) (artifact : Artifact) : Except WorkflowError ArtifactStore := do
  validateContent artifact.reference artifact.content
  Except.failIf (store.artifacts.contains artifact.reference.id = true) (.duplicateArtifact artifact.reference.id)
  Except.failIf (store.remainingCapacity = 0) (.artifactCapacityExceeded 1 store.remainingCapacity)
  return { store with artifacts := store.artifacts.insert artifact.reference.id artifact }

/-- A valid payload under a new identity is stored while there is room. -/
theorem insert_eq_ok {store store' : ArtifactStore} {artifact : Artifact} : store.insert artifact = .ok store' ↔
    (artifact.reference.kind, artifact.reference.role) = artifact.content.kind.reference ∧
      store.get artifact.reference.id = none ∧ store.remainingCapacity ≠ 0 ∧
        { store with artifacts := store.artifacts.insert artifact.reference.id artifact } = store' := by
  have hcontains : ¬store.artifacts.contains artifact.reference.id = true ↔ store.get artifact.reference.id = none := by
    rw [OrdMap.contains_eq, Option.not_isSome_iff_eq_none]
    rfl
  simp only [insert, validateContent, Except.bind_eq_ok, Except.failIf_eq_ok, Except.pure_eq_ok, exists_const, not_not,
    hcontains, ne_eq]

@[simp] theorem remainingCapacity_eq (store : ArtifactStore) :
    store.remainingCapacity = store.maximumArtifacts - store.artifacts.size := by
  unfold remainingCapacity
  split_ifs with h
  · exact (Nat.sub_eq_zero_of_le h).symm
  · rfl

end ArtifactStore

/-- The store, restricted to the identities declared for a task. -/
structure ArtifactInputs where
  store : ArtifactStore
  ids : List ArtifactId
deriving DecidableEq, Repr

def ArtifactInputs.get (inputs : ArtifactInputs) (id : ArtifactId) : Option Artifact :=
  if id ∈ inputs.ids then inputs.store.get id else none

/-! ### Accounted sizes -/

/-- `u64::try_from` of the length in bytes. -/
def stringSize (value : String) : Option ℕ := if value.utf8ByteSize ≤ u64Max then some value.utf8ByteSize else none

def optionalStringSize (value : Option String) : Option ℕ := do
  let payload ← value.elim (some 0) stringSize
  checkedAdd u64Max 1 payload

def optionalU32Size (value : Option ℕ) : ℕ := if value.isSome then 5 else 1

def optionalLocationSize : Option DiagnosticLocation → Option ℕ
  | none => some 1
  | some location => do
    let path ← optionalStringSize location.path
    let total ← checkedAdd u64Max 1 path
    let total ← checkedAdd u64Max total (optionalU32Size location.line)
    checkedAdd u64Max total (optionalU32Size location.column)

/-- `raw_diagnostic_size` and `diagnostic_size`, of the fields they read. -/
def findingSize (code : Option String) (message : String) (location : Option DiagnosticLocation) : Option ℕ := do
  let code ← optionalStringSize code
  let total ← checkedAdd u64Max 1 code
  let message ← stringSize message
  let total ← checkedAdd u64Max total message
  let location ← optionalLocationSize location
  checkedAdd u64Max total location

def rawDiagnosticSize (d : RawDiagnostic) : Option ℕ := findingSize d.code d.message d.location

def diagnosticSize (d : Diagnostic) : Option ℕ := findingSize d.code d.message d.location

def rawReportSize (report : ValidationReport) : Option ℕ :=
  report.diagnostics.foldlM (fun total d => do checkedAdd u64Max total (← rawDiagnosticSize d)) 1

def normalizedReportSize (report : NormalizedValidationReport) : Option ℕ :=
  report.diagnostics.foldlM (fun total d => do checkedAdd u64Max total (← diagnosticSize d)) 1

def artifactContentSize : ArtifactContent → Option ℕ
  | .specification value | .draft value | .review value | .revision value => stringSize value
  | .rawValidation report | .finalValidation report => rawReportSize report
  | .normalizedDiagnostics report => normalizedReportSize report

/-! ### Sizes without a bound

Every checked sum is the sum when it fits, and nothing otherwise. -/

section Bytes

variable {total n : ℕ}

def optionalStringBytes (value : Option String) : ℕ := 1 + value.elim 0 String.utf8ByteSize

def optionalLocationBytes : Option DiagnosticLocation → ℕ
  | none => 1
  | some location =>
    1 + optionalStringBytes location.path + optionalU32Size location.line + optionalU32Size location.column

def findingBytes (code : Option String) (message : String) (location : Option DiagnosticLocation) : ℕ :=
  1 + optionalStringBytes code + message.utf8ByteSize + optionalLocationBytes location

theorem stringSize_eq_some {value : String} : stringSize value = some n ↔ value.utf8ByteSize = n ∧ n ≤ u64Max := by
  unfold stringSize
  split_ifs with h
  · rw [Option.some.injEq]
    exact ⟨fun heq => ⟨heq, heq ▸ h⟩, And.left⟩
  · simp only [false_iff, not_and]
    rintro rfl
    exact h

theorem optionalStringSize_eq_some {value : Option String} :
    optionalStringSize value = some n ↔ optionalStringBytes value = n ∧ n ≤ u64Max := by
  cases value with
  | none =>
    simp only [optionalStringSize, optionalStringBytes, Option.elim_none, Option.bind_eq_bind, Option.bind_some,
      checkedAdd_eq_some]
  | some text =>
    simp only [optionalStringSize, optionalStringBytes, Option.elim_some, Option.bind_eq_bind, Option.bind_eq_some_iff,
      stringSize_eq_some, checkedAdd_eq_some]
    constructor
    · rintro ⟨m, ⟨rfl, -⟩, h⟩
      exact h
    · rintro ⟨rfl, h⟩
      exact ⟨_, ⟨rfl, by omega⟩, rfl, h⟩

theorem optionalLocationSize_eq_some {location : Option DiagnosticLocation} :
    optionalLocationSize location = some n ↔ optionalLocationBytes location = n ∧ n ≤ u64Max := by
  cases location with
  | none =>
    simp only [optionalLocationSize, optionalLocationBytes, Option.some.injEq, iff_self_and]
    rintro rfl
    decide
  | some location =>
    simp only [optionalLocationSize, optionalLocationBytes, Option.bind_eq_bind, Option.bind_eq_some_iff,
      optionalStringSize_eq_some, checkedAdd_eq_some]
    constructor
    · rintro ⟨path, ⟨rfl, -⟩, _, ⟨rfl, -⟩, _, ⟨rfl, -⟩, rfl, h⟩
      exact ⟨rfl, h⟩
    · rintro ⟨rfl, h⟩
      exact ⟨_, ⟨rfl, by omega⟩, _, ⟨rfl, by omega⟩, _, ⟨rfl, by omega⟩, rfl, h⟩

theorem findingSize_eq_some {code : Option String} {message : String} {location : Option DiagnosticLocation} :
    findingSize code message location = some n ↔ findingBytes code message location = n ∧ n ≤ u64Max := by
  simp only [findingSize, findingBytes, Option.bind_eq_bind, Option.bind_eq_some_iff, optionalStringSize_eq_some,
    stringSize_eq_some, optionalLocationSize_eq_some, checkedAdd_eq_some]
  constructor
  · rintro ⟨_, ⟨rfl, -⟩, _, ⟨rfl, -⟩, _, ⟨rfl, -⟩, _, ⟨rfl, -⟩, _, ⟨rfl, -⟩, rfl, h⟩
    exact ⟨rfl, h⟩
  · rintro ⟨rfl, h⟩
    exact ⟨_, ⟨rfl, by omega⟩, _, ⟨rfl, by omega⟩, _, ⟨rfl, by omega⟩, _, ⟨rfl, by omega⟩, _, ⟨rfl, by omega⟩, rfl, h⟩

/-- A checked fold of checked sizes. -/
theorem foldlM_checkedAdd {α : Type} {size : α → Option ℕ} {bytes : α → ℕ}
    (hsize : ∀ {a n}, size a = some n ↔ bytes a = n ∧ n ≤ u64Max) : ∀ {l : List α} {total n : ℕ}, total ≤ u64Max →
      (l.foldlM (fun total a => do checkedAdd u64Max total (← size a)) total = some n ↔
        total + (l.map bytes).sum = n ∧ n ≤ u64Max)
  | [], total, n, hle => by
    simp only [List.foldlM_nil, Option.pure_def, Option.some.injEq, List.map_nil, List.sum_nil, Nat.add_zero, iff_self_and]
    rintro rfl
    exact hle
  | a :: l, total, n, hle => by
    simp only [List.foldlM_cons, Option.bind_eq_bind, Option.bind_eq_some_iff, hsize, checkedAdd_eq_some, List.map_cons,
      List.sum_cons]
    constructor
    · rintro ⟨next, ⟨_, ⟨rfl, -⟩, rfl, hnext⟩, hrest⟩
      have hsum := (foldlM_checkedAdd hsize hnext).mp hrest
      rwa [← Nat.add_assoc]
    · rintro ⟨hn, hmax⟩
      have hnext : total + bytes a ≤ u64Max := by omega
      refine ⟨total + bytes a, ⟨bytes a, ⟨rfl, by omega⟩, rfl, hnext⟩, (foldlM_checkedAdd hsize hnext).mpr ⟨?_, hmax⟩⟩
      rwa [Nat.add_assoc]

def RawDiagnostic.bytes (d : RawDiagnostic) : ℕ := findingBytes d.code d.message d.location

def Diagnostic.bytes (d : Diagnostic) : ℕ := findingBytes d.code d.message d.location

theorem rawReportSize_eq_some {report : ValidationReport} :
    rawReportSize report = some n ↔ 1 + (report.diagnostics.map RawDiagnostic.bytes).sum = n ∧ n ≤ u64Max :=
  foldlM_checkedAdd findingSize_eq_some (by decide)

theorem normalizedReportSize_eq_some {report : NormalizedValidationReport} :
    normalizedReportSize report = some n ↔ 1 + (report.diagnostics.map Diagnostic.bytes).sum = n ∧ n ≤ u64Max :=
  foldlM_checkedAdd findingSize_eq_some (by decide)

/-! ### Normalization does not add to a size -/

theorem collapseWhitespace_bytes_le (message : String) :
    (collapseWhitespace message).utf8ByteSize ≤ message.utf8ByteSize := by
  have hmin : ∀ c, isWhitespace c = true → Char.utf8Size ' ' ≤ Char.utf8Size c := fun c _ => Char.utf8Size_pos c
  have hle := weight_joinWords_le hmin message.toList
  rw [← utf8ByteSize_eq_weight, ← utf8ByteSize_eq_weight, String.ofList_toList] at hle
  exact hle

theorem trimText_bytes_le (text : String) : (trimText text).utf8ByteSize ≤ text.utf8ByteSize := by
  have hle := weight_trimEnds_le (p := isWhitespace) Char.utf8Size text.toList
  rw [← utf8ByteSize_eq_weight, ← utf8ByteSize_eq_weight, String.ofList_toList] at hle
  exact hle

theorem normalizeOptionalText_bytes_le (value : Option String) :
    optionalStringBytes (normalizeOptionalText value) ≤ optionalStringBytes value := by
  cases value with
  | none => exact le_rfl
  | some text =>
    simp only [normalizeOptionalText, Option.bind_some]
    split_ifs
    · exact Nat.le_add_right _ _
    · exact Nat.add_le_add_left (trimText_bytes_le text) 1

theorem normalizeLocation_bytes_le (location : Option DiagnosticLocation) :
    optionalLocationBytes (location.map normalizeLocation) ≤ optionalLocationBytes location := by
  cases location with
  | none => exact le_rfl
  | some location =>
    have hpath := normalizeOptionalText_bytes_le location.path
    simp only [Option.map_some, optionalLocationBytes, normalizeLocation]
    omega

theorem normalizeDiagnostic_bytes_le (raw : RawDiagnostic) : (normalizeDiagnostic raw).bytes ≤ raw.bytes := by
  have hcode := normalizeOptionalText_bytes_le raw.code
  have hmessage := collapseWhitespace_bytes_le raw.message
  have hlocation := normalizeLocation_bytes_le raw.location
  simp only [Diagnostic.bytes, RawDiagnostic.bytes, normalizeDiagnostic, findingBytes]
  omega

/-- A normalized report is accounted with no more than its raw report. -/
theorem normalizedReportSize_le {report : ValidationReport} (h : rawReportSize report = some n) :
    ∃ m ≤ n, normalizedReportSize (normalizeValidationReport report) = some m := by
  obtain ⟨rfl, hmax⟩ := rawReportSize_eq_some.mp h
  have hmerged : ((normalizeValidationReport report).diagnostics.map Diagnostic.bytes).sum ≤
      ((report.diagnostics.map normalizeDiagnostic).map Diagnostic.bytes).sum := sum_sortDedup_le _ _
  have hbytes : ((report.diagnostics.map normalizeDiagnostic).map Diagnostic.bytes).sum ≤
      (report.diagnostics.map RawDiagnostic.bytes).sum := by
    rw [List.map_map]
    exact List.sum_le_sum fun raw _ => normalizeDiagnostic_bytes_le raw
  have hle : 1 + ((normalizeValidationReport report).diagnostics.map Diagnostic.bytes).sum ≤
      1 + (report.diagnostics.map RawDiagnostic.bytes).sum := Nat.add_le_add_left (hmerged.trans hbytes) 1
  exact ⟨_, hle, normalizedReportSize_eq_some.mpr ⟨rfl, hle.trans hmax⟩⟩

end Bytes

end LlmApp
