/-
# Context planning

`plan` over the caller's buffers: one loop writes the pinned entries and the
candidates, the candidates are sorted by rank and admitted while they fit, and
both results are sorted by ordinal. The buffers have any contents before the
call, and only their lengths matter. What an entry is (its role, source and
content) is not read.

Key definitions: `ContextEntry`, `ContextBudget`, `PlanWorkspace`, `PlanningError`,
`ContextPlan`, `plan`.
-/
import LlmApp.Contracts
import LlmApp.Data.Buffer
import LlmApp.Data.Except
import LlmApp.Data.Sorting

namespace LlmApp

abbrev ContextEntryId := ℕ
abbrev ContextPriority := ℕ

inductive ContextPersistence where
  | pinned | retained | ephemeral
deriving DecidableEq, Repr

structure ContextEntry where
  id : ContextEntryId
  ordinal : ℕ
  priority : ContextPriority
  persistence : ContextPersistence
  estimatedTokens : ℕ
deriving DecidableEq, Repr

structure ContextBudget where
  maximumTokens : ℕ
  reservedOutputTokens : ℕ
  le : maximumTokens ≤ u32Max

/-- Caller-owned buffers. -/
structure PlanWorkspace where
  ordering : List ℕ
  selected : List ℕ
  dropped : List ℕ

inductive PlanningError where
  | invalidBudget
  | duplicateEntryId (id : ContextEntryId)
  | pinnedBudgetExceeded (requiredTokens availableTokens : ℕ)
  | capacityExhausted (capacity : CapacityExhausted)
deriving DecidableEq, Repr

/-- The lists are of indices into the entries. -/
structure ContextPlan where
  selected : List ℕ
  dropped : List ℕ
  inputTokens : ℕ
  reservedOutputTokens : ℕ
  maximumTokens : ℕ
deriving DecidableEq, Repr

namespace ContextPlanner

def availableInputTokens (budget : ContextBudget) : ℕ := budget.maximumTokens - budget.reservedOutputTokens

def workspaceCapacity (required available : ℕ) : PlanningError :=
  .capacityExhausted ⟨.contextEntries, required, available⟩

/-! ### Checks -/

def validateWorkspace (required : ℕ) (workspace : PlanWorkspace) : Except PlanningError Unit :=
  let available := min (min workspace.ordering.length workspace.selected.length) workspace.dropped.length
  Except.failIf (available < required) (workspaceCapacity required available)

def validateUniqueIds : List ContextEntry → Except PlanningError Unit
  | [] => .ok ()
  | left :: tail => do
    Except.failIf (tail.any (fun right => right.id = left.id) = true) (.duplicateEntryId left.id)
    validateUniqueIds tail

/-! ### Orders -/

def persistenceRank : ContextPersistence → ℕ
  | .pinned => 2
  | .retained => 1
  | .ephemeral => 0

/-- How two entries compare in `candidate_order`. -/
def candidateRank (left right : ContextEntry) : Ordering :=
  (compare right.priority left.priority).then
    ((compare (persistenceRank right.persistence) (persistenceRank left.persistence)).then
      ((compare right.ordinal left.ordinal).then (compare left.id right.id)))

/-- How two entries compare in `ordinal_order`. -/
def ordinalRank (left right : ContextEntry) : Ordering :=
  (compare left.ordinal right.ordinal).then (compare left.id right.id)

def candidateOrder (entries : List ContextEntry) : ℕ → ℕ → Ordering :=
  lookupOrder (fun index => entries[index]?) fun left right => candidateRank left.2 right.2

def ordinalOrder (entries : List ContextEntry) : ℕ → ℕ → Ordering :=
  lookupOrder (fun index => entries[index]?) fun left right => ordinalRank left.2 right.2

/-! ### The plan -/

/-- `write_index` at the end of what is written. -/
def writeIndex (output : Buffer ℕ) (value : ℕ) : Except PlanningError (Buffer ℕ) :=
  Except.okOr (output.push value) (workspaceCapacity (saturatingAdd u64Max output.used 1) output.cells.length)

/-- `output.get_mut(..length)`, of what is written. -/
def writtenPart (output : Buffer ℕ) : Except PlanningError (List ℕ) :=
  if output.used ≤ output.cells.length then .ok (output.cells.take output.used)
  else .error (workspaceCapacity output.used output.cells.length)

/-- The pinned entries, the candidates and the tokens of the first. -/
structure Partition where
  selected : Buffer ℕ
  ordering : Buffer ℕ
  pinnedTokens : ℕ

/-- An entry with its index is pinned or becomes a candidate. -/
def partitionEntry (s : Partition) (entry : ContextEntry × ℕ) : Except PlanningError Partition :=
  if entry.1.persistence = .pinned then do
    let selected ← writeIndex s.selected entry.2
    return { s with
      selected := selected
      pinnedTokens := saturatingAdd u64Max s.pinnedTokens entry.1.estimatedTokens }
  else do
    let ordering ← writeIndex s.ordering entry.2
    return { s with ordering := ordering }

structure Selection where
  selected : Buffer ℕ
  dropped : Buffer ℕ
  admittedTokens : ℕ

/-- A candidate is admitted or dropped. -/
def admitCandidate (entries : List ContextEntry) (availableTokens : ℕ) (s : Selection) (index : ℕ) :
    Except PlanningError Selection := do
  let entry ← Except.okOr entries[index]?
    (workspaceCapacity (saturatingAdd u64Max index 1) entries.length)
  if saturatingAdd u64Max s.admittedTokens entry.estimatedTokens ≤ availableTokens then
    let selected ← writeIndex s.selected index
    return { s with
      selected := selected
      admittedTokens := saturatingAdd u64Max s.admittedTokens entry.estimatedTokens }
  else
    let dropped ← writeIndex s.dropped index
    return { s with dropped := dropped }

/-- The plan after its checks. -/
def select (sort : UnstableSort ℕ) (entries : List ContextEntry) (budget : ContextBudget)
    (workspace : PlanWorkspace) : Except PlanningError ContextPlan := do
  let availableTokens := availableInputTokens budget
  let p ← entries.zipIdx.foldlM partitionEntry ⟨⟨workspace.selected, 0⟩, ⟨workspace.ordering, 0⟩, 0⟩
  Except.failIf (availableTokens < p.pinnedTokens) (.pinnedBudgetExceeded p.pinnedTokens availableTokens)
  let candidates ← writtenPart p.ordering
  let s ← (sort.sort (candidateOrder entries) candidates).foldlM (admitCandidate entries availableTokens)
    ⟨p.selected, ⟨workspace.dropped, 0⟩, p.pinnedTokens⟩
  let selected ← writtenPart s.selected
  let dropped ← writtenPart s.dropped
  Except.failIf (u32Max < s.admittedTokens) (.pinnedBudgetExceeded s.admittedTokens availableTokens)
  return {
    selected := sort.sort (ordinalOrder entries) selected
    dropped := sort.sort (ordinalOrder entries) dropped
    inputTokens := s.admittedTokens
    reservedOutputTokens := budget.reservedOutputTokens
    maximumTokens := budget.maximumTokens }

def plan (sort : UnstableSort ℕ) (entries : List ContextEntry) (budget : ContextBudget) (workspace : PlanWorkspace) :
    Except PlanningError ContextPlan := do
  validateWorkspace entries.length workspace
  validateUniqueIds entries
  select sort entries budget workspace

/-- The entries that indices refer to: `ContextEntryIter`. -/
def entriesAt (entries : List ContextEntry) (indices : List ℕ) : List ContextEntry :=
  indices.filterMap fun index => entries[index]?

def selectedEntries (entries : List ContextEntry) (p : ContextPlan) : List ContextEntry := entriesAt entries p.selected

end ContextPlanner

end LlmApp
