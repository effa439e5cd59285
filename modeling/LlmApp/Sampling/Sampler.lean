/-
# The sampler

One draw of a token from a slice of logits, over the caller's buffers: the
repetition penalty with its table of epochs, the candidates by partial selection
and a sort of the prefix, and the choice among them by their weights. Logits,
indices and table are working memory, so a draw returns them as it leaves them,
on an error as far as the source has written them.

Key definitions: `SamplingError`, `SplitMix64`, `Sampler`, `Sampler.applyPenalty`,
`Sampler.repetitionStage`, `Sampler.orderCandidates`, `Sampler.sampleFinite`,
`Sampler.sample`.
-/
import LlmApp.Data.Except
import LlmApp.Data.Sorting
import LlmApp.Generation.Task
import LlmApp.Sampling.Floats

namespace LlmApp

inductive SamplingConfigurationField where
  | temperature | topP | minP | repetitionPenalty
deriving DecidableEq, Repr

inductive SamplingError where
  | invalidConfiguration (field : SamplingConfigurationField)
  | emptyLogits | noCandidate
  | historyTokenOutOfRange (token : TokenId) (vocabularySize : ℕ)
  | vocabularyTooLarge (vocabularySize : ℕ)
  | capacityExhausted (capacity : CapacityExhausted)
deriving DecidableEq, Repr

/-- `SamplingConfig::validate`. -/
def SamplingConfig.validate (c : SamplingConfig) : Except SamplingError SamplingConfig := do
  Except.failIf ((!F32.isFinite c.temperature || F32.le c.temperature Floats.zero) = true)
    (.invalidConfiguration .temperature)
  Except.failIf ((!F32.isFinite c.topP || F32.le c.topP Floats.zero || F32.lt F32.one c.topP) = true)
    (.invalidConfiguration .topP)
  Except.failIf ((!F32.isFinite c.minP || F32.lt c.minP Floats.zero || F32.lt F32.one c.minP) = true)
    (.invalidConfiguration .minP)
  Except.failIf ((!F32.isFinite c.repetitionPenalty || F32.le c.repetitionPenalty Floats.zero) = true)
    (.invalidConfiguration .repetitionPenalty)
  return c

/-! ### Random numbers -/

structure SplitMix64 where
  state : UInt64
deriving DecidableEq, Repr

namespace SplitMix64

def nextU64 (random : SplitMix64) : UInt64 × SplitMix64 :=
  let state := random.state + 0x9E3779B97F4A7C15
  let value := (state ^^^ (state >>> 30)) * 0xBF58476D1CE4E5B9
  let value := (value ^^^ (value >>> 27)) * 0x94D049BB133111EB
  (value ^^^ (value >>> 31), ⟨state⟩)

/-- The 24 random bits as a multiple of `1.0 / 16_777_216.0`. -/
def nextUnit {F : Type} (A : Arithmetic F) (random : SplitMix64) : F × SplitMix64 :=
  let bits := (random.nextU64.1 >>> 40).toNat
  (A.mul (A.ofCount bits) (A.div (A.ofCount 1) (A.ofCount 16777216)), random.nextU64.2)

end SplitMix64

structure Sampler where
  configuration : SamplingConfig
  random : SplitMix64
  repetitionEpoch : ℕ
deriving DecidableEq, Repr

/-- Caller-owned buffers: token indices, and the epochs of the tokens seen. -/
structure SamplingWorkspace where
  indices : List ℕ
  seenTokens : List ℕ
deriving DecidableEq, Repr

structure Sample (F : Type) where
  token : TokenId
  probability : F
deriving DecidableEq, Repr

namespace Sampler

def new (configuration : SamplingConfig) (seed : UInt64) : Except SamplingError Sampler := do
  let configuration ← configuration.validate
  return ⟨configuration, ⟨seed⟩, 0⟩

def indexCapacity (required available : ℕ) : SamplingError := .capacityExhausted ⟨.samplingIndices, required, available⟩

def maskCapacity (required available : ℕ) : SamplingError := .capacityExhausted ⟨.samplingMask, required, available⟩

/-- The checks of `sample` before it touches anything. -/
def checkInput (vocabularySize : ℕ) (workspace : SamplingWorkspace) : Except SamplingError Unit := do
  Except.failIf (vocabularySize = 0) .emptyLogits
  Except.failIf (u32Max < vocabularySize) (.vocabularyTooLarge vocabularySize)
  Except.failIf (workspace.indices.length < vocabularySize) (indexCapacity vocabularySize workspace.indices.length)
  Except.failIf (workspace.seenTokens.length < vocabularySize) (maskCapacity vocabularySize workspace.seenTokens.length)

/-! ### The repetition penalty -/

/-- The trailing tokens that the penalty considers. -/
def recentHistory (history : List TokenId) (repetitionWindow : ℕ) : List TokenId :=
  history.drop (if repetitionWindow = 0 then 0 else history.length - repetitionWindow)

/-- What the penalty makes of a logit. -/
def penalize (A : Arithmetic F32) (penalty logit : F32) : F32 :=
  if F32.le Floats.zero logit then A.div logit penalty else A.mul logit penalty

/-- The loop of `apply_repetition_penalty`, with the logits and the table as it
leaves them. -/
def applyPenalty (A : Arithmetic F32) (penalty : F32) (epoch : ℕ) :
    List TokenId → List F32 → List ℕ → Except SamplingError Unit × List F32 × List ℕ
  | [], logits, seen => (.ok (), logits, seen)
  | token :: history, logits, seen =>
    if logits.length ≤ token then (.error (.historyTokenOutOfRange token logits.length), logits, seen)
    else
    match seen[token]? with
    | none => (.error (maskCapacity logits.length seen.length), logits, seen)
    | some mark =>
    if mark = epoch then applyPenalty A penalty epoch history logits seen
    else
    match logits[token]? with
    | none => (.error (.historyTokenOutOfRange token logits.length), logits, seen.set token epoch)
    | some logit => applyPenalty A penalty epoch history (logits.set token (penalize A penalty logit)) (seen.set token epoch)

/-- The table and the epoch that a draw uses: the epoch counts modulo `2^32` and
is not zero, and when it starts again the part of the table in use is cleared. -/
def nextEpoch (epoch : ℕ) (seen : List ℕ) : ℕ × List ℕ :=
  let next := (epoch + 1) % 2 ^ 32
  if next = 0 then (1, List.replicate seen.length 0) else (next, seen)

/-- The penalty stage of `sample`, on the part of the table in use. -/
def repetitionStage (A : Arithmetic F32) (sampler : Sampler) (logits : List F32) (history : List TokenId)
    (seenTokens : List ℕ) : Except SamplingError Unit × Sampler × List F32 × List ℕ :=
  let configuration := sampler.configuration
  if F32.isExactlyOne configuration.repetitionPenalty then (.ok (), sampler, logits, seenTokens)
  else
    let (epoch, seen) := nextEpoch sampler.repetitionEpoch (seenTokens.take logits.length)
    let (result, logits', seen) := applyPenalty A configuration.repetitionPenalty epoch
      (recentHistory history configuration.repetitionWindow) logits seen
    (result, { sampler with repetitionEpoch := epoch }, logits', seen ++ seenTokens.drop logits.length)

/-! ### The candidates -/

/-- Every slot of the part of the buffer in use gets its own position. -/
def fillIndices (vocabularySize : ℕ) (indices : List ℕ) : Except SamplingError (List ℕ) :=
  indices.zipIdx.mapM fun slot =>
    if slot.2 ≤ u32Max then .ok slot.2 else .error (.vocabularyTooLarge vocabularySize)

def replaceNan (logits : List F32) : List F32 := logits.map fun logit => if F32.isNan logit then F32.negInfinity else logit

def compareLogits (logits : List F32) : ℕ → ℕ → Ordering :=
  lookupOrder (fun index => logits[index]?) fun left right =>
    (F32.totalCmp right.2 left.2).then (compare left.1 right.1)

/-- How many candidates are retained. Zero retains all. -/
def candidateCount (vocabularySize topK : ℕ) : ℕ := if topK = 0 then vocabularySize else min vocabularySize topK

/-- The candidates in their order, and the indices after them. -/
def selectCandidates (sort : UnstableSort ℕ) (select : UnstableSelect ℕ) (logits : List F32) (topK : ℕ) (indices : List ℕ) :
    Except SamplingError (List ℕ × List ℕ) :=
  let count := candidateCount logits.length topK
  let indices := if count < indices.length then select.select (compareLogits logits) (count - 1) indices else indices
  if count ≤ indices.length then .ok (sort.sort (compareLogits logits) (indices.take count), indices.drop count)
  else .error (indexCapacity count indices.length)

/-- The candidates of the logits, and the indices after them. -/
def orderCandidates (sort : UnstableSort ℕ) (select : UnstableSelect ℕ) (logits : List F32) (topK : ℕ) (indices : List ℕ) :
    Except SamplingError (List ℕ × List ℕ) := do
  let filled ← fillIndices logits.length (indices.take logits.length)
  selectCandidates sort select (replaceNan logits) topK filled

def tokenAt (candidates : List ℕ) (position : ℕ) : Except SamplingError TokenId :=
  Except.okOr candidates[position]? .noCandidate

/-! ### The choice among finite logits -/

section Finite

variable {F : Type} [Floats F] (A : Arithmetic F) (logits : List F)

/-- The first loop of `sample_finite`: the candidates' logits become weights. -/
def weigh (temperature maximumLogit : F) : List ℕ → List F → Except SamplingError Unit × List F
  | [], logits => (.ok (), logits)
  | candidate :: candidates, logits =>
    match logits[candidate]? with
    | none => (.error .noCandidate, logits)
    | some logit =>
      weigh temperature maximumLogit candidates
        (logits.set candidate (A.expf (A.div (A.sub logit maximumLogit) temperature)))

/-- The second loop: how many candidates have weight enough, and their weight. -/
def eligibleLoop (minP : F) : List ℕ → ℕ → F → Except SamplingError (ℕ × F)
  | [], count, total => .ok (count, total)
  | candidate :: candidates, count, total =>
    match logits[candidate]? with
    | none => .error .noCandidate
    | some weight =>
    if !Floats.isFinite weight || Floats.le weight Floats.zero || Floats.lt weight minP then .ok (count, total)
    else eligibleLoop minP candidates (count + 1) (A.add total weight)

/-- The third loop: the shortest prefix with a share of `topP`, and its weight. -/
def allowedLoop (topP eligibleWeight : F) : List ℕ → ℕ → F → Except SamplingError (ℕ × F)
  | [], count, total => .ok (count, total)
  | candidate :: candidates, count, total =>
    match logits[candidate]? with
    | none => .error .noCandidate
    | some weight =>
    let total := A.add total weight
    if Floats.le topP (A.div total eligibleWeight) then .ok (count + 1, total)
    else allowedLoop topP eligibleWeight candidates (count + 1) total

/-- The last loop: the first candidate whose cumulative weight exceeds the target. -/
def drawLoop (target : F) (last : TokenId) : List ℕ → F → Except SamplingError TokenId
  | [], _ => .ok last
  | candidate :: candidates, cumulative =>
    match logits[candidate]? with
    | none => .error .noCandidate
    | some weight =>
    let cumulative := A.add cumulative weight
    if Floats.lt target cumulative then .ok candidate else drawLoop target last candidates cumulative

/-- A prefix with the weight it has, where both are usable. -/
def usablePrefix (candidates : List ℕ) (counted : ℕ × F) : Except SamplingError (List ℕ × F) := do
  Except.failIf ((counted.1 = 0 || !Floats.isFinite counted.2 || Floats.le counted.2 Floats.zero) = true) .noCandidate
  if counted.1 ≤ candidates.length then return (candidates.take counted.1, counted.2)
  else .error (indexCapacity counted.1 candidates.length)

/-- The candidates with weight enough, and their weight. -/
def eligibleCandidates (minP : F) (candidates : List ℕ) : Except SamplingError (List ℕ × F) := do
  let counted ← eligibleLoop A logits minP candidates 0 Floats.zero
  usablePrefix candidates counted

/-- The candidates that may be drawn, and their weight. -/
def allowedCandidates (minP topP : F) (candidates : List ℕ) : Except SamplingError (List ℕ × F) := do
  let eligible ← eligibleCandidates A logits minP candidates
  let counted ← allowedLoop A logits topP eligible.2 eligible.1 0 Floats.zero
  usablePrefix eligible.1 counted

/-- The candidate drawn by `unit`, of those allowed. -/
def drawCandidate (unit : F) (allowed : List ℕ × F) : Except SamplingError (Sample F) := do
  let last ← tokenAt allowed.1 (allowed.1.length - 1)
  let selected ← drawLoop A logits (A.mul unit allowed.2) last allowed.1 Floats.zero
  let weight ← Except.okOr logits[selected]? .noCandidate
  return ⟨selected, A.div weight allowed.2⟩

/-- `sample_finite`, with a generator `draw` of units. A unit is drawn only when
some candidate is allowed. -/
def sampleFinite {ρ : Type} (draw : ρ → F × ρ) (temperature minP topP : F) (random : ρ) (candidates : List ℕ)
    (logits : List F) (maximumLogit : F) : Except SamplingError (Sample F) × ρ × List F :=
  match weigh A temperature maximumLogit candidates logits with
  | (.error e, weights) => (.error e, random, weights)
  | (.ok (), weights) =>
  match allowedCandidates A weights minP topP candidates with
  | .error e => (.error e, random, weights)
  | .ok allowed => (drawCandidate A weights (draw random).1 allowed, (draw random).2, weights)

end Finite

/-! ### The choice among infinite logits -/

/-- The loop of `uniform_top_p_count`, from `allowed` on. -/
def uniformTopPLoop (A : Arithmetic F32) (candidateCount : ℕ) (topP : F32) (allowed : ℕ) : ℕ :=
  if _h : allowed < candidateCount ∧ F32.lt (A.div (A.ofCount allowed) (A.ofCount candidateCount)) topP = true then
    uniformTopPLoop A candidateCount topP (allowed + 1)
  else allowed
termination_by candidateCount - allowed

def uniformTopPCount (A : Arithmetic F32) (candidateCount : ℕ) (topP : F32) : ℕ :=
  if candidateCount ≤ 1 then candidateCount else uniformTopPLoop A candidateCount topP 1

/-- How many of the first candidates are positive infinities. -/
def infinityLoop (logits : List F32) : List ℕ → ℕ → Except SamplingError ℕ
  | [], count => .ok count
  | candidate :: candidates, count =>
    match logits[candidate]? with
    | none => .error .noCandidate
    | some value => if value = F32.infinity then infinityLoop logits candidates (count + 1) else .ok count

def samplePositiveInfinities (A : Arithmetic F32) (topP : F32) (random : SplitMix64) (candidates : List ℕ)
    (logits : List F32) : Except SamplingError (Sample F32) × SplitMix64 :=
  match infinityLoop logits candidates 0 with
  | .error e => (.error e, random)
  | .ok count =>
  if count = 0 then (.error .noCandidate, random)
  else
  let allowedCount := uniformTopPCount A count topP
  let result := do
    let token ← tokenAt candidates (random.nextU64.1.toNat % allowedCount)
    return ⟨token, A.div (A.ofCount 1) (A.ofCount allowedCount)⟩
  (result, random.nextU64.2)

/-! ### A draw -/

/-- The choice among the candidates. -/
def choose (A : Arithmetic F32) (sampler : Sampler) (candidates : List ℕ) (logits : List F32) :
    Except SamplingError (Sample F32) × Sampler × List F32 :=
  let configuration := sampler.configuration
  match (candidates.head?.bind fun first => logits[first]?) with
  | none => (.error .noCandidate, sampler, logits)
  | some maximumLogit =>
  if maximumLogit = F32.infinity then
    let (result, random) := samplePositiveInfinities A configuration.topP sampler.random candidates logits
    (result, { sampler with random := random }, logits)
  else if F32.isFinite maximumLogit = false then (.error .noCandidate, sampler, logits)
  else
    let (result, random, logits) := sampleFinite A (SplitMix64.nextUnit A) configuration.temperature configuration.minP
      configuration.topP sampler.random candidates logits maximumLogit
    (result, { sampler with random := random }, logits)

/-- The rest of `sample`, after the penalty stage. -/
def sampleCandidates (A : Arithmetic F32) (sort : UnstableSort ℕ) (select : UnstableSelect ℕ) (sampler : Sampler)
    (logits : List F32) (indices : List ℕ) : Except SamplingError (Sample F32) × Sampler × List F32 × List ℕ :=
  match orderCandidates sort select logits sampler.configuration.topK indices with
  | .error e => (.error e, sampler, replaceNan logits, indices)
  | .ok (candidates, others) =>
    let (result, sampler, logits') := choose A sampler candidates (replaceNan logits)
    (result, sampler, logits', candidates ++ others ++ indices.drop logits.length)

def sample (A : Arithmetic F32) (sort : UnstableSort ℕ) (select : UnstableSelect ℕ) (sampler : Sampler)
    (logits : List F32) (history : List TokenId) (workspace : SamplingWorkspace) :
    Except SamplingError (Sample F32) × Sampler × List F32 × SamplingWorkspace :=
  match checkInput logits.length workspace with
  | .error e => (.error e, sampler, logits, workspace)
  | .ok () =>
  match repetitionStage A sampler logits history workspace.seenTokens with
  | (.error e, sampler, logits, seenTokens) => (.error e, sampler, logits, ⟨workspace.indices, seenTokens⟩)
  | (.ok (), sampler, logits, seenTokens) =>
    let (result, sampler, logits, indices) := sampleCandidates A sort select sampler logits workspace.indices
    (result, sampler, logits, ⟨indices, seenTokens⟩)

end Sampler

end LlmApp
