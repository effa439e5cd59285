/-
# Each recent token is penalized once

The table of epochs is not cleared between draws: a mark is of this draw when it
is the current epoch. That holds as long as every mark is at most the epoch of
the last draw (`Fresh`), which each draw keeps, whether it fails or not, until the
epoch starts again. Then the source clears the part of the table that the draw
uses, so marks of a larger vocabulary stay behind and stop a later penalty
(`repetition_stale`). A run is exact when no draw that starts the epochs again
leaves a mark outside the part it clears (`repetition_exact`).

Key definitions: `SampleCall`, `SamplerRun`, `SamplerRun.PenalizesOnce`,
`SamplerRun.ClearsMarks`, `SamplerRun.Fresh`.
Key theorems: `Sampler.applyPenalty_ok`, `SamplerRun.step_cases`,
`SamplerRun.Fresh.step`, `repetition_exact`, `repetition_stale`.
-/
import LlmApp.Sampling.Sampler

namespace LlmApp

/-! ### Runs -/

/-- What one draw is called with, besides the table. -/
structure SampleCall where
  logits : List F32
  history : List TokenId
  indices : List ℕ

/-- A sampler with the table it shares between its draws. -/
structure SamplerRun where
  sampler : Sampler
  seenTokens : List ℕ

namespace SamplerRun

variable (A : Arithmetic F32) (sort : UnstableSort ℕ) (select : UnstableSelect ℕ)

/-- A draw, whatever it returns. -/
def step (run : SamplerRun) (call : SampleCall) : SamplerRun :=
  let (_, sampler, _, workspace) :=
    run.sampler.sample A sort select call.logits call.history ⟨call.indices, run.seenTokens⟩
  ⟨sampler, workspace.seenTokens⟩

def all (run : SamplerRun) (calls : List SampleCall) : SamplerRun := calls.foldl (step A sort select) run

@[simp] theorem all_nil (run : SamplerRun) : run.all A sort select [] = run := rfl

@[simp] theorem all_cons (run : SamplerRun) (call : SampleCall) (calls : List SampleCall) :
    run.all A sort select (call :: calls) = (run.step A sort select call).all A sort select calls := rfl

theorem all_append (run : SamplerRun) (calls others : List SampleCall) :
    run.all A sort select (calls ++ others) = (run.all A sort select calls).all A sort select others :=
  List.foldl_append

/-- The draw comes to a penalty stage that is not disabled. -/
def Reaches (run : SamplerRun) (call : SampleCall) : Prop :=
  Sampler.checkInput call.logits.length ⟨call.indices, run.seenTokens⟩ = .ok () ∧
    F32.isExactlyOne run.sampler.configuration.repetitionPenalty = false

/-- If the penalty stage completes, it penalizes the tokens of the window, each
once, and changes no other logit. -/
def PenalizesOnce (run : SamplerRun) (call : SampleCall) : Prop :=
  let configuration := run.sampler.configuration
  run.Reaches call → ∀ sampler logits seenTokens,
    Sampler.repetitionStage A run.sampler call.logits call.history run.seenTokens =
      (.ok (), sampler, logits, seenTokens) →
    logits = call.logits.mapIdx fun i logit =>
      if i ∈ Sampler.recentHistory call.history configuration.repetitionWindow then
        Sampler.penalize A configuration.repetitionPenalty logit
      else logit

/-- If the draw starts the epochs again, it leaves no mark outside the part of
the table that it clears. -/
def ClearsMarks (run : SamplerRun) (call : SampleCall) : Prop :=
  run.Reaches call → run.sampler.repetitionEpoch = u32Max →
    ∀ mark ∈ run.seenTokens.drop call.logits.length, mark = 0

end SamplerRun

/-! ### The penalty stage -/

namespace Sampler

variable {A : Arithmetic F32} {penalty : F32} {epoch : ℕ}

/-- The tokens without a mark of the epoch are penalized, and all are marked. -/
theorem applyPenalty_ok : ∀ {history : List TokenId} {logits logits' : List F32} {seen seen' : List ℕ},
    applyPenalty A penalty epoch history logits seen = (.ok (), logits', seen') →
      ∀ i : ℕ, logits'[i]? = (logits[i]?).map fun logit =>
        if i ∈ history ∧ seen[i]? ≠ some epoch then penalize A penalty logit else logit
  | [], logits, logits', seen, seen', h => by
    obtain ⟨rfl, -⟩ := Prod.mk.inj (Prod.mk.inj h).2
    intro i
    simp
  | token :: history, logits, logits', seen, seen', h => by
    intro i
    rw [applyPenalty] at h
    split_ifs at h with hlength
    · cases h
    split at h
    · cases h
    next mark hmark =>
    split_ifs at h with hepoch
    · -- The token was marked before.
      rw [applyPenalty_ok h i]
      by_cases hi : i = token
      · subst hi
        simp [hmark, hepoch]
      · simp [hi]
    split at h
    · cases h
    next logit hlogit =>
    rw [applyPenalty_ok h i]
    by_cases hi : i = token
    · subst hi
      have hlt := (List.getElem?_eq_some_iff.mp hlogit).1
      have hlt' := (List.getElem?_eq_some_iff.mp hmark).1
      rw [List.getElem?_set_self hlt, List.getElem?_set_self hlt', hlogit, hmark]
      simp [hepoch]
    · rw [List.getElem?_set_ne (Ne.symm hi), List.getElem?_set_ne (Ne.symm hi)]
      simp [hi]

/-- Whatever comes of it, only marks of the epoch are new. -/
theorem applyPenalty_marks : ∀ (history : List TokenId) (logits : List F32) (seen : List ℕ),
    (applyPenalty A penalty epoch history logits seen).2.2.length = seen.length ∧
      ∀ mark ∈ (applyPenalty A penalty epoch history logits seen).2.2, mark ∈ seen ∨ mark = epoch
  | [], logits, seen => ⟨rfl, fun _ h => .inl h⟩
  | token :: history, logits, seen => by
    have hset : ∀ mark ∈ seen.set token epoch, mark ∈ seen ∨ mark = epoch := fun mark h => List.mem_or_eq_of_mem_set h
    rw [applyPenalty]
    split_ifs
    · exact ⟨rfl, fun _ h => .inl h⟩
    split
    · exact ⟨rfl, fun _ h => .inl h⟩
    split_ifs
    · exact applyPenalty_marks history logits seen
    split
    · exact ⟨List.length_set, hset⟩
    next logit _ =>
    obtain ⟨hlength, hmarks⟩ :=
      applyPenalty_marks history (logits.set token (penalize A penalty logit)) (seen.set token epoch)
    refine ⟨hlength.trans List.length_set, fun mark h => ?_⟩
    obtain h | h := hmarks mark h
    · exact hset mark h
    · exact .inr h

/-- The penalty stage by its parts. -/
theorem repetitionStage_eq {sampler : Sampler} (h : F32.isExactlyOne sampler.configuration.repetitionPenalty = false)
    (logits : List F32) (history : List TokenId) (seenTokens : List ℕ) :
    let next := nextEpoch sampler.repetitionEpoch (seenTokens.take logits.length)
    let applied := applyPenalty A sampler.configuration.repetitionPenalty next.1
      (recentHistory history sampler.configuration.repetitionWindow) logits next.2
    repetitionStage A sampler logits history seenTokens = (applied.1, { sampler with repetitionEpoch := next.1 },
      applied.2.1, applied.2.2 ++ seenTokens.drop logits.length) := by
  simp only [repetitionStage, h, Bool.false_eq_true, if_false]

theorem nextEpoch_of_lt {epoch : ℕ} (h : epoch < u32Max) (seen : List ℕ) : nextEpoch epoch seen = (epoch + 1, seen) := by
  have hmod : (epoch + 1) % 2 ^ 32 = epoch + 1 := Nat.mod_eq_of_lt (by unfold u32Max at h; omega)
  simp only [nextEpoch, hmod, Nat.add_one_ne_zero, if_false]

theorem nextEpoch_max (seen : List ℕ) : nextEpoch u32Max seen = (1, List.replicate seen.length 0) := rfl

/-- What the penalty stage does when it is disabled. -/
theorem repetitionStage_one {sampler : Sampler} (h : F32.isExactlyOne sampler.configuration.repetitionPenalty = true)
    (logits : List F32) (history : List TokenId) (seenTokens : List ℕ) :
    repetitionStage A sampler logits history seenTokens = (.ok (), sampler, logits, seenTokens) := by
  simp only [repetitionStage, h, if_true]

theorem repetitionStage_configuration (sampler : Sampler) (logits : List F32) (history : List TokenId)
    (seenTokens : List ℕ) :
    (repetitionStage A sampler logits history seenTokens).2.1.configuration = sampler.configuration := by
  cases h : F32.isExactlyOne sampler.configuration.repetitionPenalty with
  | true => rw [repetitionStage_one h]
  | false => rw [repetitionStage_eq h]

/-- The choice among the candidates leaves the configuration and the epoch. -/
theorem sampleCandidates_keeps (sort : UnstableSort ℕ) (select : UnstableSelect ℕ) (sampler : Sampler) (logits : List F32)
    (indices : List ℕ) :
    (sampleCandidates A sort select sampler logits indices).2.1.configuration = sampler.configuration ∧
      (sampleCandidates A sort select sampler logits indices).2.1.repetitionEpoch = sampler.repetitionEpoch := by
  unfold sampleCandidates
  split
  · exact ⟨rfl, rfl⟩
  simp only [choose]
  split
  · exact ⟨rfl, rfl⟩
  split_ifs
  · exact ⟨rfl, rfl⟩
  · exact ⟨rfl, rfl⟩
  · exact ⟨rfl, rfl⟩

end Sampler

/-! ### What a draw does to the table -/

namespace SamplerRun

variable {A : Arithmetic F32} {sort : UnstableSort ℕ} {select : UnstableSelect ℕ} {run : SamplerRun} {call : SampleCall}

/-- A draw does what its penalty stage does, or nothing to the table. -/
theorem step_cases (A : Arithmetic F32) (sort : UnstableSort ℕ) (select : UnstableSelect ℕ) (run : SamplerRun)
    (call : SampleCall) :
    (run.step A sort select call).sampler.configuration = run.sampler.configuration ∧
      let stage := Sampler.repetitionStage A run.sampler call.logits call.history run.seenTokens
      ((run.Reaches call ∧ (run.step A sort select call).sampler.repetitionEpoch = stage.2.1.repetitionEpoch ∧
        (run.step A sort select call).seenTokens = stage.2.2.2) ∨
      ¬run.Reaches call ∧ (run.step A sort select call).sampler.repetitionEpoch = run.sampler.repetitionEpoch ∧
        (run.step A sort select call).seenTokens = run.seenTokens) := by
  have hconfiguration := Sampler.repetitionStage_configuration (A := A) run.sampler call.logits call.history run.seenTokens
  cases hcheck : Sampler.checkInput call.logits.length ⟨call.indices, run.seenTokens⟩ with
  | error e =>
    have hstep : run.step A sort select call = run := by
      simp only [step, Sampler.sample, hcheck]
    rw [hstep]
    refine ⟨rfl, .inr ⟨fun h => ?_, rfl, rfl⟩⟩
    cases hcheck.symm.trans h.1
  | ok u =>
    -- After the stage, the configuration, the epoch and the table stay.
    have hstage : (run.step A sort select call).sampler.configuration = run.sampler.configuration ∧
        (run.step A sort select call).sampler.repetitionEpoch = (Sampler.repetitionStage A run.sampler call.logits
          call.history run.seenTokens).2.1.repetitionEpoch ∧
        (run.step A sort select call).seenTokens = (Sampler.repetitionStage A run.sampler call.logits call.history
          run.seenTokens).2.2.2 := by
      rw [← hconfiguration]
      simp only [step, Sampler.sample, hcheck]
      generalize Sampler.repetitionStage A run.sampler call.logits call.history run.seenTokens = stage
      obtain ⟨result, sampler, logits, seenTokens⟩ := stage
      cases result with
      | error e => exact ⟨rfl, rfl, rfl⟩
      | ok u =>
        obtain ⟨hconfiguration, hepoch⟩ := Sampler.sampleCandidates_keeps (A := A) sort select sampler logits call.indices
        exact ⟨hconfiguration, hepoch, rfl⟩
    refine ⟨hstage.1, ?_⟩
    cases hone : F32.isExactlyOne run.sampler.configuration.repetitionPenalty with
    | true =>
      have hdisabled := Sampler.repetitionStage_one (A := A) hone call.logits call.history run.seenTokens
      rw [hdisabled] at hstage
      exact .inr ⟨fun h => (nomatch hone.symm.trans h.2), hstage.2⟩
    | false => exact .inl ⟨⟨hcheck, hone⟩, hstage.2⟩

/-- No mark is above the epoch of the last draw. -/
structure Fresh (run : SamplerRun) : Prop where
  epoch : run.sampler.repetitionEpoch ≤ u32Max
  marks : ∀ mark ∈ run.seenTokens, mark ≤ run.sampler.repetitionEpoch

/-- The epoch and the table that a draw uses: no mark in it is of that epoch, and
the marks outside it are no later. -/
theorem Fresh.next (h : run.Fresh) (hclears : run.ClearsMarks call) (hreaches : run.Reaches call) :
    let next := Sampler.nextEpoch run.sampler.repetitionEpoch (run.seenTokens.take call.logits.length)
    next.1 ≤ u32Max ∧ (∀ mark ∈ next.2, mark < next.1) ∧ ∀ mark ∈ run.seenTokens.drop call.logits.length, mark ≤ next.1 := by
  obtain hlt | heq := Nat.lt_or_eq_of_le h.epoch
  · rw [Sampler.nextEpoch_of_lt hlt]
    refine ⟨hlt, fun mark hmark => ?_, fun mark hmark => ?_⟩
    · exact Nat.lt_succ_of_le (h.marks mark (List.mem_of_mem_take hmark))
    · exact (h.marks mark (List.mem_of_mem_drop hmark)).trans (Nat.le_succ _)
  · have hzero := hclears hreaches heq
    rw [heq, Sampler.nextEpoch_max]
    refine ⟨by simp [u32Max], fun mark hmark => ?_, fun mark hmark => ?_⟩
    · rw [List.eq_of_mem_replicate hmark]
      exact Nat.one_pos
    · rw [hzero mark hmark]
      exact Nat.zero_le _

/-- A draw keeps the marks below its epoch, also when it fails. -/
theorem Fresh.step (h : run.Fresh) (hclears : run.ClearsMarks call) : (run.step A sort select call).Fresh := by
  obtain ⟨-, ⟨hreaches, hepoch, hseen⟩ | ⟨-, hepoch, hseen⟩⟩ := step_cases A sort select run call
  · obtain ⟨hmax, hused, hrest⟩ := h.next hclears hreaches
    rw [Sampler.repetitionStage_eq hreaches.2] at hepoch hseen
    simp only at hepoch hseen
    constructor
    · rw [hepoch]
      exact hmax
    · rw [hepoch, hseen]
      intro mark hmark
      obtain hmark | hmark := List.mem_append.mp hmark
      · obtain hold | rfl := (Sampler.applyPenalty_marks _ _ _).2 mark hmark
        · exact (hused mark hold).le
        · exact le_rfl
      · exact hrest mark hmark
  · constructor
    · rw [hepoch]
      exact h.epoch
    · rw [hepoch, hseen]
      exact h.marks

theorem Fresh.penalizesOnce (h : run.Fresh) (hclears : run.ClearsMarks call) : run.PenalizesOnce A call := by
  intro hreaches sampler logits seenTokens hstage
  obtain ⟨-, hused, -⟩ := h.next hclears hreaches
  rw [Sampler.repetitionStage_eq hreaches.2] at hstage
  simp only [Prod.mk.injEq] at hstage
  obtain ⟨hok, -, rfl, -⟩ := hstage
  refine List.ext_getElem? fun i => ?_
  rw [Sampler.applyPenalty_ok (Prod.ext hok rfl) i, List.getElem?_mapIdx]
  have hnot : (Sampler.nextEpoch run.sampler.repetitionEpoch (run.seenTokens.take call.logits.length)).2[i]? ≠
      some (Sampler.nextEpoch run.sampler.repetitionEpoch (run.seenTokens.take call.logits.length)).1 :=
    fun hmark => lt_irrefl _ (hused _ (List.mem_of_getElem? hmark))
  simp only [hnot, ne_eq, not_false_eq_true, and_true]

/-- A run whose draws clear the marks stays fresh. -/
theorem Fresh.all : ∀ {calls : List SampleCall} {run : SamplerRun}, run.Fresh →
    (∀ before call after, calls = before ++ call :: after → (run.all A sort select before).ClearsMarks call) →
      (run.all A sort select calls).Fresh
  | [], _, h, _ => h
  | call :: calls, run, h, hclears => by
    have hfirst : run.ClearsMarks call := hclears [] call calls rfl
    rw [all_cons]
    refine Fresh.all (h.step hfirst) fun before later after hcalls => ?_
    exact hclears (call :: before) later after (by rw [hcalls]; rfl)

end SamplerRun

/-- In every run of draws that share a table, all zero at first: when no draw
that starts the epochs again leaves a mark outside the part of the table that it
clears, every draw penalizes each recent token once and no other. -/
theorem repetition_exact (A : Arithmetic F32) (sort : UnstableSort ℕ) (select : UnstableSelect ℕ)
    (configuration : SamplingConfig) (seed : UInt64) (sampler : Sampler)
    (hnew : Sampler.new configuration seed = .ok sampler) (size : ℕ) (calls : List SampleCall) :
    let start : SamplerRun := ⟨sampler, List.replicate size 0⟩
    (∀ before call after, calls = before ++ call :: after → (start.all A sort select before).ClearsMarks call) →
      ∀ before call after, calls = before ++ call :: after → (start.all A sort select before).PenalizesOnce A call := by
  intro start hclears before call after hcalls
  have hepoch : sampler.repetitionEpoch = 0 := by
    simp only [Sampler.new, Except.bind_eq_ok, Except.pure_eq_ok] at hnew
    obtain ⟨_, -, rfl⟩ := hnew
    rfl
  have hstart : start.Fresh := by
    constructor
    · exact hepoch.trans_le (Nat.zero_le _)
    · intro mark hmark
      rw [List.eq_of_mem_replicate hmark]
      exact Nat.zero_le _
  have hbefore : (start.all A sort select before).Fresh := by
    refine hstart.all fun before' call' after' hsplit => hclears before' call' (after' ++ call :: after) ?_
    rw [hcalls, hsplit, List.append_assoc]
    rfl
  exact hbefore.penalizesOnce (hclears before call after hcalls)

/-- A token that is twice in the history of the first draw is penalized. -/
theorem repetition_exact_twice :
    let A : Arithmetic F32 := ⟨fun x _ => x, fun x _ => x, fun x _ => x, fun x _ => x - 0x00800000#32, id, fun _ => 0#32⟩
    let configuration : SamplingConfig := ⟨F32.one, 0, F32.one, 0#32, 0x40000000#32, 0⟩
    let sampler : Sampler := ⟨configuration, ⟨0⟩, 0⟩
    SamplerRun.PenalizesOnce A ⟨sampler, [0, 0]⟩ ⟨[F32.one, 0x40800000#32], [1, 1], [0, 0]⟩ := by
  intro A configuration sampler
  have hclears : ∀ (before : List SampleCall) (call : SampleCall) (after : List SampleCall),
      [⟨[F32.one, 0x40800000#32], [1, 1], [0, 0]⟩] = before ++ call :: after →
        SamplerRun.ClearsMarks (SamplerRun.all A (.mergeSort ℕ) (.mergeSort ℕ) ⟨sampler, List.replicate 2 0⟩ before) call := by
    intro before call after hcalls _ hmax
    obtain rfl : before = [] := by
      refine List.eq_nil_of_length_eq_zero ?_
      have hlength := congrArg List.length hcalls
      rw [List.length_append, List.length_cons, List.length_cons, List.length_nil] at hlength
      omega
    exact absurd hmax (by decide)
  exact repetition_exact A (.mergeSort ℕ) (.mergeSort ℕ) configuration 0 sampler (by decide) 2 _ hclears [] _ [] rfl

/-! ### A mark that stays behind -/

section Stale

variable (A : Arithmetic F32) (sort : UnstableSort ℕ) (select : UnstableSelect ℕ)

/-- A draw from one token without a history. -/
def SampleCall.idle : SampleCall := ⟨[F32.negInfinity], [], [0]⟩

/-- The epoch and the table after a draw whose penalty stage is reached. -/
theorem SamplerRun.step_reaches {run : SamplerRun} {call : SampleCall} (h : run.Reaches call) {epoch : ℕ}
    {marks : List ℕ} (hnext : Sampler.nextEpoch run.sampler.repetitionEpoch (run.seenTokens.take call.logits.length) =
      (epoch, marks)) :
    (run.step A sort select call).sampler.configuration = run.sampler.configuration ∧
      (run.step A sort select call).sampler.repetitionEpoch = epoch ∧
      (run.step A sort select call).seenTokens = (Sampler.applyPenalty A run.sampler.configuration.repetitionPenalty epoch
        (Sampler.recentHistory call.history run.sampler.configuration.repetitionWindow) call.logits marks).2.2 ++
          run.seenTokens.drop call.logits.length := by
  obtain ⟨hconfiguration, ⟨-, hepoch, hmarks⟩ | ⟨hnot, -⟩⟩ := step_cases A sort select run call
  · rw [Sampler.repetitionStage_eq h.2, hnext] at hepoch hmarks
    exact ⟨hconfiguration, hepoch, hmarks⟩
  · exact absurd h hnot

/-- What a draw without a history does to a table of two. -/
theorem SamplerRun.step_idle {run : SamplerRun} {x y : ℕ} (hseen : run.seenTokens = [x, y])
    (hone : F32.isExactlyOne run.sampler.configuration.repetitionPenalty = false) :
    (run.step A sort select .idle).sampler.configuration = run.sampler.configuration ∧
      (run.step A sort select .idle).sampler.repetitionEpoch = (Sampler.nextEpoch run.sampler.repetitionEpoch [x]).1 ∧
      (run.step A sort select .idle).seenTokens = (Sampler.nextEpoch run.sampler.repetitionEpoch [x]).2 ++ [y] := by
  have hreaches : run.Reaches .idle := by
    refine ⟨?_, hone⟩
    rw [hseen]
    rfl
  have hstep := step_reaches A sort select hreaches rfl
  have hrecent : Sampler.recentHistory SampleCall.idle.history run.sampler.configuration.repetitionWindow = [] :=
    List.drop_nil
  rw [hrecent, hseen] at hstep
  exact hstep

/-- Draws without a history count the epoch up to its maximum and leave the marks. -/
theorem SamplerRun.all_idle {x y : ℕ} : ∀ (n : ℕ) {run : SamplerRun}, run.seenTokens = [x, y] →
    F32.isExactlyOne run.sampler.configuration.repetitionPenalty = false → run.sampler.repetitionEpoch + n ≤ u32Max →
      (run.all A sort select (List.replicate n .idle)).sampler.configuration = run.sampler.configuration ∧
      (run.all A sort select (List.replicate n .idle)).sampler.repetitionEpoch = run.sampler.repetitionEpoch + n ∧
      (run.all A sort select (List.replicate n .idle)).seenTokens = [x, y]
  | 0, run, hseen, _, _ => ⟨rfl, rfl, hseen⟩
  | n + 1, run, hseen, hone, hle => by
    obtain ⟨hconfiguration, hepoch, hmarks⟩ := step_idle A sort select hseen hone
    rw [Sampler.nextEpoch_of_lt (by omega)] at hepoch hmarks
    obtain ⟨h1, h2, h3⟩ := all_idle n hmarks (by rw [hconfiguration]; exact hone) (by rw [hepoch]; omega)
    rw [List.replicate_succ]
    refine ⟨h1.trans hconfiguration, ?_, h3⟩
    refine h2.trans ?_
    rw [hepoch]
    omega

end Stale

/-- A mark of the second draw stays behind when the epochs start again over a
vocabulary of one, and the next second draw passes its token over. -/
theorem repetition_stale :
    -- On what is computed here, division by two and multiplication as they are.
    let A : Arithmetic F32 := ⟨fun x _ => x, fun x _ => x, fun x _ => x, fun x _ => x - 0x00800000#32, id, fun _ => 0#32⟩
    let configuration : SamplingConfig := ⟨F32.one, 0, F32.one, 0#32, 0x40000000#32, 0⟩
    let sampler : Sampler := ⟨configuration, ⟨0⟩, 0⟩
    let marking : SampleCall := ⟨[F32.negInfinity, F32.negInfinity], [1], [0, 0]⟩
    let calls := .idle :: marking :: (List.replicate (2 ^ 32 - 3) .idle ++ [.idle])
    let later : SampleCall := ⟨[F32.one, 0x40800000#32], [1], [0, 0]⟩
    Sampler.new configuration 0 = .ok sampler ∧
      ¬(SamplerRun.all A (.mergeSort ℕ) (.mergeSort ℕ) ⟨sampler, List.replicate 2 0⟩ calls).PenalizesOnce A later := by
  intro A configuration sampler marking calls later
  refine ⟨by decide, ?_⟩
  intro honce
  have hone : F32.isExactlyOne configuration.repetitionPenalty = false := rfl
  -- The first draw is of epoch one.
  let start : SamplerRun := ⟨sampler, List.replicate 2 0⟩
  have hstart : start.seenTokens = [0, 0] := rfl
  obtain ⟨hc, he, hs⟩ := SamplerRun.step_idle A (.mergeSort ℕ) (.mergeSort ℕ) hstart hone
  generalize hfirst : start.step A (.mergeSort ℕ) (.mergeSort ℕ) .idle = first at hc he hs
  -- The second marks its token with two.
  have hreaches : first.Reaches marking := by
    refine ⟨?_, ?_⟩
    · rw [hs]
      rfl
    · rw [hc]
      rfl
  have hnext : Sampler.nextEpoch first.sampler.repetitionEpoch (first.seenTokens.take 2) = (2, [0, 0]) := by
    rw [he, hs]
    rfl
  obtain ⟨hc', he', hs'⟩ := SamplerRun.step_reaches A (.mergeSort ℕ) (.mergeSort ℕ) hreaches hnext
  generalize hsecond : first.step A (.mergeSort ℕ) (.mergeSort ℕ) marking = second at hc' he' hs'
  have hseen : second.seenTokens = [0, 2] := by
    rw [hs', hc, hs]
    rfl
  have hconfiguration : second.sampler.configuration = configuration := hc'.trans hc
  -- The epoch reaches its maximum, and starts again over the first token only.
  obtain ⟨hc₃, he₃, hs₃⟩ := SamplerRun.all_idle A (.mergeSort ℕ) (.mergeSort ℕ) (2 ^ 32 - 3) hseen
    (by rw [hconfiguration]; exact hone) (by rw [he']; simp [u32Max])
  generalize hthird : second.all A (.mergeSort ℕ) (.mergeSort ℕ) (List.replicate (2 ^ 32 - 3) .idle) = third at hc₃ he₃ hs₃
  obtain ⟨hc₄, he₄, hs₄⟩ := SamplerRun.step_idle A (.mergeSort ℕ) (.mergeSort ℕ) hs₃
    (by rw [hc₃, hconfiguration]; exact hone)
  have hmax : third.sampler.repetitionEpoch = u32Max := by
    rw [he₃, he']
    rfl
  rw [hmax, Sampler.nextEpoch_max] at he₄ hs₄
  generalize hfourth : third.step A (.mergeSort ℕ) (.mergeSort ℕ) .idle = fourth at hc₄ he₄ hs₄
  have hrun : start.all A (.mergeSort ℕ) (.mergeSort ℕ) calls = fourth := by
    rw [← hfourth, ← hthird, ← hsecond, ← hfirst]
    rw [SamplerRun.all_cons, SamplerRun.all_cons, SamplerRun.all_append, SamplerRun.all_cons, SamplerRun.all_nil]
  -- The next draw is of epoch two again.
  rw [hrun] at honce
  have hconfiguration' : fourth.sampler.configuration = configuration := (hc₄.trans hc₃).trans hconfiguration
  have hreaches' : fourth.Reaches later := by
    refine ⟨?_, ?_⟩
    · rw [hs₄]
      rfl
    · rw [hconfiguration']
      rfl
  have hstage := Sampler.repetitionStage_eq (A := A) hreaches'.2 later.logits later.history fourth.seenTokens
  rw [hs₄, he₄, hconfiguration'] at hstage
  have hlogits := honce hreaches' _ _ _ (by rw [hs₄]; exact hstage)
  rw [hconfiguration'] at hlogits
  revert hlogits
  decide

end LlmApp
