/-
# Turns are fair

A run of the scheduler: its turns, whatever happens in them, and between them any
changes of the tasks, which admissions, cancellations and removals are. The
scheduler takes turns in round robin over the resident requests
(`nextRequest_nextTurn`), so a run is one of `Rounds` (`SchedulerRun.rounds`).

While a task is resident, no other has two turns before it has one, and among
fixed tasks every `n` turns in a row are one for each (`scheduler_fair`).

Key definitions: `SchedulerStep`, `SchedulerRun`.
Key theorems: `nextRequest_nextTurn`, `SchedulerRun.rounds`, `scheduler_fair`.
-/
import LlmApp.Data.RoundRobin
import LlmApp.Generation.Scheduler

namespace LlmApp

open GenerationScheduler

variable {σ Source τ : Type}

/-- The resident requests. -/
def GenerationScheduler.residents (sch : GenerationScheduler τ) : Set RequestId := {r | sch.contains r = true}

theorem mem_residents {sch : GenerationScheduler τ} {r : RequestId} :
    r ∈ sch.residents ↔ ∃ task, sch.requests.get? r = some task := by
  rw [residents, Set.mem_ofPred_eq, contains, OrdMap.contains_eq, Option.isSome_iff_exists]

/-- The scheduler takes turns in round robin. -/
theorem nextRequest_nextTurn {sch : GenerationScheduler τ} {r : RequestId} (h : sch.nextRequest = some r) :
    NextTurn sch.residents sch.cursor r := by
  unfold nextRequest at h
  cases hafter : sch.cursor.bind sch.requests.after? with
  | some entry =>
    obtain ⟨r', task⟩ := entry
    rw [hafter] at h
    obtain rfl := Option.some.inj h
    obtain ⟨c, hc, hnext⟩ := Option.bind_eq_some_iff.mp hafter
    obtain ⟨hget, hlt, hleast⟩ := OrdMap.after?_eq_some hnext
    refine ⟨mem_residents.mpr ⟨task, hget⟩, .inl ⟨c, hc, hlt, fun k' hk' hlt' => ?_⟩⟩
    obtain ⟨task', hget'⟩ := mem_residents.mp hk'
    exact hleast k' task' hget' hlt'
  | none =>
    rw [hafter] at h
    obtain ⟨⟨r', task⟩, hfirst, rfl⟩ := Option.map_eq_some_iff.mp h
    refine ⟨mem_residents.mpr ⟨task, OrdMap.get?_of_first? hfirst⟩, .inr ⟨fun c hc k' hk' => ?_, fun k' hk' => ?_⟩⟩
    · rw [hc, Option.bind_some] at hafter
      obtain ⟨task', hget'⟩ := mem_residents.mp hk'
      exact OrdMap.after?_eq_none hafter hget'
    · obtain ⟨task', hget'⟩ := mem_residents.mp hk'
      exact OrdMap.first?_le hfirst hget'

theorem nextRequest_eq_none {sch : GenerationScheduler τ} (h : sch.nextRequest = none) (r : RequestId) :
    r ∉ sch.residents := by
  unfold nextRequest at h
  cases hafter : sch.cursor.bind sch.requests.after? with
  | some entry =>
    rw [hafter] at h
    cases h
  | none =>
    rw [hafter] at h
    have hempty := OrdMap.isEmpty_iff.mp (OrdMap.first?_eq_none.mp (Option.map_eq_none_iff.mp h))
    intro hr
    obtain ⟨task, htask⟩ := mem_residents.mp hr
    rw [hempty r] at htask
    cases htask

/-- A turn moves the cursor to the request it is for. -/
theorem advance_cursor {sch : GenerationScheduler τ} {r : RequestId} (h : sch.nextRequest = some r)
    (b : Backend σ Source) (s : Sampling τ) (rt : InferenceRuntime σ) (output : TokenOutput GenerationOutputState) :
    (sch.advance b s rt output).scheduler.cursor = some r := by
  obtain ⟨task, htask⟩ := mem_residents.mp (nextRequest_nextTurn h).1
  unfold advance
  rw [h]
  simp only [htask]
  split_ifs <;> rfl

/-! ### Runs -/

/-- A step of a scheduler, and the request it selected if it was a turn. -/
inductive SchedulerStep : GenerationScheduler τ → Option (Option RequestId) → GenerationScheduler τ → Prop
  | advance {σ Source : Type} (sch : GenerationScheduler τ) (b : Backend σ Source) (s : Sampling τ) (rt : InferenceRuntime σ)
    (output : TokenOutput GenerationOutputState) :
    SchedulerStep sch (some sch.nextRequest) (sch.advance b s rt output).scheduler
  | change {sch sch' : GenerationScheduler τ} (h : sch'.cursor = sch.cursor) : SchedulerStep sch none sch'
  | discard (sch : GenerationScheduler τ) : SchedulerStep sch none .new

/-- An admission is a change of the tasks. -/
theorem SchedulerStep.admit (sch : GenerationScheduler τ) (b : Backend σ Source) (s : Sampling τ) (rt : InferenceRuntime σ)
    (capacities : ℕ × ℕ) (allocates : CapacityResource → Bool) (handle : ModelHandle) (request : GenerationRequest) :
    SchedulerStep sch none (sch.admitGeneration b s rt capacities allocates handle request).2.1 := by
  apply SchedulerStep.change
  unfold admitGeneration
  split
  · rfl
  split
  · rfl
  split
  · rfl
  split <;> rfl

/-- A run, and what its turns selected. The residents satisfy `P` throughout. -/
inductive SchedulerRun (P : Set RequestId → Prop) :
    GenerationScheduler τ → List (Option RequestId) → GenerationScheduler τ → Prop
  | start {sch : GenerationScheduler τ} (h : P sch.residents) : SchedulerRun P sch [] sch
  | step {sch sch' sch'' : GenerationScheduler τ} {turns : List (Option RequestId)} {turn : Option (Option RequestId)}
    (h : SchedulerRun P sch turns sch') (hstep : SchedulerStep sch' turn sch'') (hP : P sch''.residents) :
    SchedulerRun P sch (turns ++ turn.toList) sch''

namespace SchedulerRun

variable {P : Set RequestId → Prop} {sch sch' : GenerationScheduler τ} {turns : List (Option RequestId)}

theorem residents (h : SchedulerRun P sch turns sch') : P sch'.residents := by
  cases h with
  | start h => exact h
  | step _ _ hP => exact hP

theorem mono {Q : Set RequestId → Prop} (h : SchedulerRun P sch turns sch') (hPQ : ∀ residents, P residents → Q residents) :
    SchedulerRun Q sch turns sch' := by
  induction h with
  | start h => exact .start (hPQ _ h)
  | step _ hstep hP ih => exact ih.step hstep (hPQ _ hP)

/-- The two parts of a run. -/
theorem split {before after : List (Option RequestId)} (h : SchedulerRun P sch turns sch')
    (hturns : turns = before ++ after) :
    ∃ middle, SchedulerRun P sch before middle ∧ SchedulerRun P middle after sch' := by
  induction h generalizing after with
  | start h =>
    obtain ⟨rfl, rfl⟩ := List.append_eq_nil_iff.mp hturns.symm
    exact ⟨sch, .start h, .start h⟩
  | @step sch' sch'' turns turn h hstep hP ih =>
    obtain rfl | ⟨after', last, rfl⟩ := after.eq_nil_or_concat'
    · rw [List.append_nil] at hturns
      rw [← hturns]
      exact ⟨sch'', h.step hstep hP, .start hP⟩
    · cases turn with
      | none =>
        rw [Option.toList_none, List.append_nil] at hturns
        obtain ⟨middle, hbefore, hafter⟩ := ih hturns
        have hrun := hafter.step hstep hP
        rw [Option.toList_none, List.append_nil] at hrun
        exact ⟨middle, hbefore, hrun⟩
      | some selected =>
        rw [Option.toList_some, ← List.append_assoc] at hturns
        obtain ⟨hturns, hlast⟩ := List.append_inj' hturns rfl
        obtain ⟨middle, hbefore, hafter⟩ := ih hturns
        have hrun := hafter.step hstep hP
        rw [Option.toList_some, hlast] at hrun
        exact ⟨middle, hbefore, hrun⟩

/-- While there are residents, a run is a round robin. -/
theorem rounds (hP : ∀ residents, P residents → residents.Nonempty) (h : SchedulerRun P sch turns sch') :
    ∃ ks, turns = ks.map some ∧ Rounds P sch.cursor ks sch'.cursor := by
  induction h with
  | start => exact ⟨[], rfl, .nil _⟩
  | @step sch' sch'' turns turn h hstep hafter ih =>
    obtain ⟨ks, rfl, hrounds⟩ := ih
    cases hstep with
    | advance b s rt output =>
      cases hnext : sch'.nextRequest with
      | none =>
        obtain ⟨r, hr⟩ := hP _ h.residents
        exact absurd hr (nextRequest_eq_none hnext r)
      | some r =>
        refine ⟨ks ++ [r], by rw [List.map_append, Option.toList_some, List.map_singleton], ?_⟩
        rw [advance_cursor hnext]
        exact hrounds.turn h.residents (nextRequest_nextTurn hnext)
    | change hcursor =>
      refine ⟨ks, List.append_nil _, ?_⟩
      rw [hcursor]
      exact hrounds
    | discard =>
      obtain ⟨r, hr⟩ := hP _ hafter
      cases hr

end SchedulerRun

/-- Turns are fair. In any run in which `x` stays resident, no request is selected
twice between two turns of `x`, or from the start on up to the next; and in any
run of fixed tasks every `n` turns in a row, where `n` is their number, select
each of them exactly once. -/
theorem scheduler_fair :
    (∀ (x : RequestId) (sch sch' : GenerationScheduler τ) (before between after : List (Option RequestId)),
      SchedulerRun (fun residents => x ∈ residents) sch (before ++ between ++ after) sch' → some x ∉ between →
      ∀ y, between.count y ≤ 1) ∧
    ∀ (tasks : Finset RequestId) (sch sch' : GenerationScheduler τ) (before between after : List (Option RequestId)),
      SchedulerRun (fun residents => residents = tasks) sch (before ++ between ++ after) sch' →
      between.length = tasks.card → ∀ y ∈ tasks, between.count (some y) = 1 := by
  constructor
  · intro x sch sch' before between after h hx y
    obtain ⟨middle, hmiddle, -⟩ := h.split rfl
    obtain ⟨start, -, hbetween⟩ := hmiddle.split rfl
    obtain ⟨ks, rfl, hrounds⟩ := hbetween.rounds fun residents hmem => ⟨x, hmem⟩
    have hnodup := hrounds.nodup fun hmem => hx (List.mem_map_of_mem hmem)
    exact List.nodup_iff_count_le_one.mp (hnodup.map (Option.some_injective _)) y
  · intro tasks sch sch' before between after h hlength y hy
    obtain ⟨middle, hmiddle, -⟩ := h.split rfl
    obtain ⟨start, -, hbetween⟩ := hmiddle.split rfl
    have hnonempty : ∀ residents : Set RequestId, residents = tasks → residents.Nonempty := by
      rintro _ rfl
      exact ⟨y, hy⟩
    obtain ⟨ks, rfl, hrounds⟩ := hbetween.rounds hnonempty
    rw [List.length_map] at hlength
    rw [List.count_map_of_injective _ _ (Option.some_injective _)]
    exact hrounds.each_once hlength hy

/-! Two tasks of a registry without models: both fail, and their terminal records
wait for room in the output. -/

def pairOfTasks : GenerationScheduler ℕ :=
  let task := newTask ⟨7, 1⟩ (.short 1) 2 0 ⟨0, 0, 0, 0, 0⟩
  { requests := (OrdMap.empty.insert 1 task).insert 2 task, cursor := none }

def pairRuntime : InferenceRuntime Unit := .new () ⟨1, 1, ⟨100, 1000⟩, ⟨2⟩⟩

/-- The scheduler after a turn. -/
def pairTurn (sch : GenerationScheduler ℕ) : GenerationScheduler ℕ :=
  (sch.advance (.scripted ⟨1, 0, 2, 0, 0⟩ (fun _ _ => true) fun _ _ => true) (.scripted fun _ => .ok 0) pairRuntime
    { tokenCapacity := 8, recordCapacity := 0 }).scheduler

theorem residents_of_keys {sch : GenerationScheduler τ} {tasks : Finset RequestId} (h : sch.requests.keys.toFinset = tasks) :
    sch.residents = tasks := by
  ext r
  rw [mem_residents, ← OrdMap.mem_keys, ← List.mem_toFinset, h]
  rfl

/-- Between the first two turns of request 1 there is one of request 2, and any two
turns in a row are one for each. -/
theorem scheduler_fair_pair :
    [pairOfTasks, pairTurn pairOfTasks, pairTurn (pairTurn pairOfTasks)].map nextRequest = [some 1, some 2, some 1] ∧
      (∀ y, [some 2].count y ≤ 1) ∧ ∀ y ∈ ({1, 2} : Finset RequestId), [some 2, some 1].count (some y) = 1 := by
  have hturns : [pairOfTasks, pairTurn pairOfTasks, pairTurn (pairTurn pairOfTasks)].map nextRequest =
      [some 1, some 2, some 1] := by decide +kernel
  have hrun : SchedulerRun (fun residents => residents = ({1, 2} : Finset RequestId)) pairOfTasks
      [some 1, some 2, some 1] (pairTurn (pairTurn (pairTurn pairOfTasks))) := by
    rw [← hturns]
    have hpair : pairOfTasks.residents = ({1, 2} : Finset RequestId) :=
      residents_of_keys (by decide +kernel)
    have hstart := SchedulerRun.start (P := fun residents => residents = ({1, 2} : Finset RequestId)) hpair
    refine ((hstart.step (.advance _ _ _ _ _) ?_).step (.advance _ _ _ _ _) ?_).step (.advance _ _ _ _ _) ?_
    · exact residents_of_keys (show (pairTurn pairOfTasks).requests.keys.toFinset = _ by decide +kernel)
    · exact residents_of_keys (show (pairTurn (pairTurn pairOfTasks)).requests.keys.toFinset = _ by decide +kernel)
    · exact residents_of_keys (show (pairTurn (pairTurn (pairTurn pairOfTasks))).requests.keys.toFinset = _ by
        decide +kernel)
  have hresident : SchedulerRun (fun residents => (1 : RequestId) ∈ residents) pairOfTasks
      [some 1, some 2, some 1] (pairTurn (pairTurn (pairTurn pairOfTasks))) :=
    hrun.mono fun residents hP => by rw [hP]; decide
  obtain ⟨hbetween, honce⟩ := scheduler_fair (τ := ℕ)
  exact ⟨hturns, hbetween 1 _ _ [some 1] [some 2] [some 1] hresident (by decide),
    honce {1, 2} _ _ [some 1] [some 2, some 1] [] hrun rfl⟩

end LlmApp
