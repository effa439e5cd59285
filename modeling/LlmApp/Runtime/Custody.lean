/-
# Custody of backend resources

What the registry is for, without its bookkeeping: it holds models, and
sequences on them, each with the cleanup calls made on it so far. A resource
is made, used, cleaned up without success a bounded number of times, and let
go by the one cleanup that succeeds. A model is cleaned up only when no
sequence is held on it.

`Safe` is what every state keeps. The counter of a held resource is the
number of cleanup calls in the record, nothing is let go without a successful
cleanup, and the record is `Ordered`: no call on a resource follows its
successful cleanup, and every sequence of a model is destroyed before the
model is.

Key definitions: `Custody`, `Custody.Step`, `Ordered`, `Custody.Safe`.
Key theorems: `Custody.Step.safe`.
-/
import LlmApp.Backend
import LlmApp.Data.Tracked

namespace LlmApp

/-! ### The record of calls -/

/-- A cleanup of the sequence succeeded. -/
def Destroyed (calls : List BackendCall) (s : SequenceRef) : Prop :=
  ∃ m, BackendCall.destroySequence m s true ∈ calls

/-- A cleanup of the model succeeded. -/
def Unloaded (calls : List BackendCall) (m : ModelRef) : Prop :=
  BackendCall.prepareUnload m true ∈ calls

/-- What must hold of the record before a call: its model and its sequence are
not cleaned up, and a model is cleaned up when all its sequences are. -/
structure Permitted (calls : List BackendCall) (c : BackendCall) : Prop where
  sequence (s : SequenceRef) (h : c.onSequence = some s) : ¬ Destroyed calls s
  model (m : ModelRef) (h : c.onModel = some m) : ¬ Unloaded calls m
  unload (m : ModelRef) (h : c.unloads m = true) (s : SequenceRef)
    (hs : BackendCall.createSequence m (some s) ∈ calls) : Destroyed calls s

/-- Each call of the record was permitted when it was made. -/
def Ordered (calls : List BackendCall) : Prop :=
  ∀ before c after, calls = before ++ c :: after → Permitted before c

theorem Ordered.nil : Ordered [] := fun before c after h => by simp at h

theorem Ordered.append {calls : List BackendCall} {c : BackendCall} (h : Ordered calls)
    (hc : Permitted calls c) : Ordered (calls ++ [c]) := by
  intro before c' after heq
  rcases List.eq_nil_or_concat after with rfl | ⟨after, d, rfl⟩
  · obtain ⟨rfl, h'⟩ := List.append_inj' heq rfl
    cases h'
    exact hc
  · rw [List.concat_eq_append, ← List.cons_append, ← List.append_assoc] at heq
    exact h before c' after (List.append_inj' heq rfl).1

/-- A successful destruction is the last call on its sequence. -/
theorem Ordered.after_destroyed {calls before after : List BackendCall} {m : ModelRef}
    {s : SequenceRef} (h : Ordered calls) (heq : calls = before ++ .destroySequence m s true :: after) :
    ∀ c ∈ after, c.onSequence ≠ some s := by
  intro c hc hs
  obtain ⟨l, l', rfl⟩ := List.append_of_mem hc
  refine (h (before ++ .destroySequence m s true :: l) c l' (by simp [heq])).sequence s hs ?_
  exact ⟨m, by simp⟩

/-- A successful unload preparation is the last call on its model. -/
theorem Ordered.after_unloaded {calls before after : List BackendCall} {m : ModelRef} (h : Ordered calls)
    (heq : calls = before ++ .prepareUnload m true :: after) : ∀ c ∈ after, c.onModel ≠ some m := by
  intro c hc hm
  obtain ⟨l, l', rfl⟩ := List.append_of_mem hc
  refine (h (before ++ .prepareUnload m true :: l) c l' (by simp [heq])).model m hm ?_
  simp [Unloaded]

section Record

variable {calls : List BackendCall} {c : BackendCall} {s : SequenceRef} {m : ModelRef}

@[simp] theorem destroyed_append :
    Destroyed (calls ++ [c]) s ↔ Destroyed calls s ∨ ∃ m, c = .destroySequence m s true := by
  simp [Destroyed, exists_or, eq_comm]

@[simp] theorem unloaded_append :
    Unloaded (calls ++ [c]) m ↔ Unloaded calls m ∨ c = .prepareUnload m true := by
  simp [Unloaded, eq_comm]

end Record

/-! ### The machine -/

/-- The resources held, by model and by model and request, and the backend's
next references and record. -/
@[ext] structure Custody where
  models : ModelId → Option Held
  sequences : ModelId × RequestId → Option Held
  loaded : ModelRef
  created : SequenceRef
  calls : List BackendCall

namespace Custody

def new : Custody := ⟨fun _ => none, fun _ => none, 0, 0, []⟩

/-- A call that is not a cleanup and makes nothing, on a held model and, if on
a sequence, on a sequence held on it. -/
structure Uses (c : Custody) (m : ModelId) (h : Held) (call : BackendCall) : Prop where
  model : call.onModel = some h.ref
  sequence (s : SequenceRef) (hs : call.onSequence = some s) :
    ∃ r h', c.sequences (m, r) = some h' ∧ h'.ref = s
  destroys (s : SequenceRef) : call.destroys s = false
  unloads (m : ModelRef) : call.unloads m = false
  creates (m : ModelRef) (s : SequenceRef) : call ≠ .createSequence m (some s)

/-- One step: `k` is the number of cleanup calls allowed on a resource. -/
inductive Step (k : ℕ) : Custody → Custody → Prop
  | used {c : Custody} {m : ModelId} {h : Held} {call : BackendCall} (hm : c.models m = some h)
      (hu : c.Uses m h call) : Step k c { c with calls := c.calls ++ [call] }
  | loaded {c : Custody} {m : ModelId} (hm : c.models m = none) :
      Step k c { c with
        models := Function.update c.models m (some ⟨c.loaded, 0⟩)
        loaded := c.loaded + 1
        calls := c.calls ++ [.load c.loaded] }
  | created {c : Custody} {m : ModelId} {r : RequestId} {h : Held} (hm : c.models m = some h)
      (hr : c.sequences (m, r) = none) :
      Step k c { c with
        sequences := Function.update c.sequences (m, r) (some ⟨c.created, 0⟩)
        created := c.created + 1
        calls := c.calls ++ [.createSequence h.ref (some c.created)] }
  | destroyFailed {c : Custody} {m : ModelId} {r : RequestId} {h h' : Held}
      (hm : c.models m = some h) (hr : c.sequences (m, r) = some h') (hk : h'.attempts < k) :
      Step k c { c with
        sequences := Function.update c.sequences (m, r) (some ⟨h'.ref, h'.attempts + 1⟩)
        calls := c.calls ++ [.destroySequence h.ref h'.ref false] }
  | destroyed {c : Custody} {m : ModelId} {r : RequestId} {h h' : Held}
      (hm : c.models m = some h) (hr : c.sequences (m, r) = some h') (hk : h'.attempts < k) :
      Step k c { c with
        sequences := Function.update c.sequences (m, r) none
        calls := c.calls ++ [.destroySequence h.ref h'.ref true] }
  | unloadFailed {c : Custody} {m : ModelId} {h : Held} (hm : c.models m = some h)
      (hempty : ∀ r, c.sequences (m, r) = none) (hk : h.attempts < k) :
      Step k c { c with
        models := Function.update c.models m (some ⟨h.ref, h.attempts + 1⟩)
        calls := c.calls ++ [.prepareUnload h.ref false] }
  | unloaded {c : Custody} {m : ModelId} {h : Held} (hm : c.models m = some h)
      (hempty : ∀ r, c.sequences (m, r) = none) (hk : h.attempts < k) :
      Step k c { c with
        models := Function.update c.models m none
        calls := c.calls ++ [.prepareUnload h.ref true] }

/-! ### What every state keeps -/

structure Safe (k : ℕ) (c : Custody) : Prop where
  models : Tracked k c.models c.loaded (fun m => c.calls.countP (BackendCall.unloads m))
    (Unloaded c.calls)
  sequences : Tracked k c.sequences c.created (fun s => c.calls.countP (BackendCall.destroys s))
    (Destroyed c.calls)
  resident {m : ModelId} {r : RequestId} {h : Held} (hr : c.sequences (m, r) = some h) :
    ∃ h', c.models m = some h'
  parent {m : ModelId} {r : RequestId} {h h' : Held} {n : ModelRef}
    (hr : c.sequences (m, r) = some h) (hm : c.models m = some h')
    (hc : BackendCall.createSequence n (some h.ref) ∈ c.calls) : n = h'.ref
  creation {n : ModelRef} {s : SequenceRef}
    (hc : BackendCall.createSequence n (some s) ∈ c.calls) : s < c.created
  ordered : Ordered c.calls

theorem safe_new (k : ℕ) : Safe k new where
  models := ⟨nofun, nofun, nofun, nofun, fun n hn => absurd hn (Nat.not_lt_zero n),
    fun n => Nat.zero_le k, fun n _ => ⟨rfl, by simp [new, Unloaded]⟩⟩
  sequences := ⟨nofun, nofun, nofun, nofun, fun n hn => absurd hn (Nat.not_lt_zero n),
    fun n => Nat.zero_le k, fun n _ => ⟨rfl, by simp [new, Destroyed]⟩⟩
  resident := nofun
  parent := nofun
  creation hc := by simp [new] at hc
  ordered := Ordered.nil

/-! ### Each step keeps it -/

section Step

variable {k : ℕ} {c c' : Custody} {m : ModelId} {r : RequestId} {h h' : Held}

/-- A call on held resources is permitted, if it is not a cleanup of a model
with a sequence held on it. -/
theorem Safe.permitted (hs : Safe k c) (hm : c.models m = some h) {call : BackendCall}
    (hmodel : call.onModel = some h.ref)
    (hseq : ∀ s, call.onSequence = some s → ∃ r h', c.sequences (m, r) = some h' ∧ h'.ref = s)
    (hunload : ∀ n, call.unloads n = true → ∀ r, c.sequences (m, r) = none) :
    Permitted c.calls call where
  sequence s hs' := by
    obtain ⟨r, h', hr, rfl⟩ := hseq s hs'
    exact hs.sequences.live hr
  model n hn := by
    rw [hmodel, Option.some.injEq] at hn
    exact hn ▸ hs.models.live hm
  unload n hn s hc := by
    have hempty := hunload n hn
    have hn' : n = h.ref := by
      cases call <;> simp only [BackendCall.unloads, Bool.false_eq_true, decide_eq_true_eq] at hn
      rw [← hn]
      simpa [BackendCall.onModel] using hmodel
    -- A sequence of the model that is not destroyed would be held on it.
    by_contra hd
    obtain ⟨⟨m', r⟩, h', hr, rfl⟩ := hs.sequences.kept s (hs.creation hc) hd
    obtain ⟨h'', hm'⟩ := hs.resident hr
    have hmm : m' = m := hs.models.once hm' hm (by rw [← hs.parent hr hm' hc, hn'])
    rw [hmm, hempty r] at hr
    cases hr

theorem Safe.used (hs : Safe k c) {call : BackendCall} (hm : c.models m = some h) (hu : c.Uses m h call) :
    Safe k { c with calls := c.calls ++ [call] } := by
  refine ⟨hs.models.congr ?_ ?_, hs.sequences.congr ?_ ?_, hs.resident, fun hr hm hc => ?_,
    fun hc => ?_, hs.ordered.append (hs.permitted hm hu.model hu.sequence fun n hn => ?_)⟩
  · funext n
    simp [hu.unloads n]
  · funext n
    have : call ≠ .prepareUnload n true := by
      rintro rfl
      simpa [BackendCall.unloads] using hu.unloads n
    simp [this]
  · funext n
    simp [hu.destroys n]
  · funext n
    have : ¬ ∃ m, call = .destroySequence m n true := by
      rintro ⟨m, rfl⟩
      simpa [BackendCall.destroys] using hu.destroys n
    simp [this]
  · exact hs.parent hr hm (by simpa [(hu.creates _ _).symm] using hc)
  · exact hs.creation (by simpa [(hu.creates _ _).symm] using hc)
  · rw [hu.unloads n] at hn
    cases hn

theorem Safe.loaded (hs : Safe k c) (hm : c.models m = none) :
    Safe k { c with
      models := Function.update c.models m (some ⟨c.loaded, 0⟩)
      loaded := c.loaded + 1
      calls := c.calls ++ [.load c.loaded] } := by
  have hne : ∀ {m' r h}, c.sequences (m', r) = some h → m' ≠ m := by
    rintro m' r h hr rfl
    obtain ⟨h', hm'⟩ := hs.resident hr
    rw [hm] at hm'
    cases hm'
  refine ⟨(hs.models.make hm).congr ?_ ?_, hs.sequences.congr ?_ ?_, fun hr => ?_,
    fun hr hm hc => ?_, fun hc => ?_, hs.ordered.append ⟨nofun, nofun, nofun⟩⟩
  · funext n; simp [BackendCall.unloads]
  · funext n; simp
  · funext n; simp [BackendCall.destroys]
  · funext n; simp
  · simpa [Function.update_of_ne (hne hr)] using hs.resident hr
  · simp only [Function.update_of_ne (hne hr)] at hm
    exact hs.parent hr hm (by simpa using hc)
  · exact hs.creation (by simpa using hc)

theorem Safe.created (hs : Safe k c) (hm : c.models m = some h) (hr : c.sequences (m, r) = none) :
    Safe k { c with
      sequences := Function.update c.sequences (m, r) (some ⟨c.created, 0⟩)
      created := c.created + 1
      calls := c.calls ++ [.createSequence h.ref (some c.created)] } := by
  refine ⟨hs.models.congr ?_ ?_, (hs.sequences.make hr).congr ?_ ?_, fun {m' r' x} hr' => ?_,
    fun {m' r' x x' n} hr' hm' hc => ?_, fun {n s} hc => ?_,
    hs.ordered.append (hs.permitted hm rfl nofun nofun)⟩
  · funext n; simp [BackendCall.unloads]
  · funext n; simp
  · funext n; simp [BackendCall.destroys]
  · funext n; simp
  · by_cases hk : (m', r') = (m, r)
    · cases hk
      exact ⟨h, hm⟩
    · simp only [Function.update_of_ne hk] at hr'
      exact hs.resident hr'
  · simp only [List.mem_append, List.mem_singleton, BackendCall.createSequence.injEq,
      Option.some.injEq] at hc
    by_cases hk : (m', r') = (m, r)
    · cases hk
      rw [hm, Option.some.injEq] at hm'
      simp only [Function.update_self, Option.some.injEq] at hr'
      subst hr' hm'
      rcases hc with hc | ⟨hc, -⟩
      · exact absurd (hs.creation hc) (lt_irrefl _)
      · exact hc
    · simp only [Function.update_of_ne hk] at hr'
      rcases hc with hc | ⟨-, hc⟩
      · exact hs.parent hr' hm' hc
      · have := hs.sequences.fresh hr'
        rw [hc] at this
        exact absurd this (lt_irrefl _)
  · simp only [List.mem_append, List.mem_singleton, BackendCall.createSequence.injEq,
      Option.some.injEq] at hc
    rcases hc with hc | ⟨-, rfl⟩
    · exact (hs.creation hc).trans (Nat.lt_succ_self _)
    · exact Nat.lt_succ_self _

theorem Safe.destroyFailed (hs : Safe k c) (hm : c.models m = some h) (hr : c.sequences (m, r) = some h')
    (hk : h'.attempts < k) :
    Safe k { c with
      sequences := Function.update c.sequences (m, r) (some ⟨h'.ref, h'.attempts + 1⟩)
      calls := c.calls ++ [.destroySequence h.ref h'.ref false] } := by
  refine ⟨hs.models.congr ?_ ?_, (hs.sequences.fail hr hk).congr ?_ ?_, fun {m' r' x} hr' => ?_,
    fun {m' r' x x' n} hr' hm' hc => ?_, fun hc => hs.creation (by simpa using hc),
    hs.ordered.append (hs.permitted hm rfl (fun s hs' => ⟨r, h', hr, by
      simpa [BackendCall.onSequence] using hs'⟩) nofun)⟩
  · funext n; simp [BackendCall.unloads]
  · funext n; simp
  · funext n
    by_cases hn : n = h'.ref
    · simp [BackendCall.destroys, hn]
    · simp [BackendCall.destroys, hn, Ne.symm hn]
  · funext n; simp
  · by_cases hk : (m', r') = (m, r)
    · cases hk
      exact ⟨h, hm⟩
    · simp only [Function.update_of_ne hk] at hr'
      exact hs.resident hr'
  · by_cases hk : (m', r') = (m, r)
    · cases hk
      simp only [Function.update_self, Option.some.injEq] at hr'
      subst hr'
      exact hs.parent hr hm' (by simpa using hc)
    · simp only [Function.update_of_ne hk] at hr'
      exact hs.parent hr' hm' (by simpa using hc)

theorem Safe.destroyed (hs : Safe k c) (hm : c.models m = some h) (hr : c.sequences (m, r) = some h')
    (hk : h'.attempts < k) :
    Safe k { c with
      sequences := Function.update c.sequences (m, r) none
      calls := c.calls ++ [.destroySequence h.ref h'.ref true] } := by
  have back : ∀ {p x}, Function.update c.sequences (m, r) none p = some x → c.sequences p = some x := by
    intro p x hp
    by_cases hk : p = (m, r)
    · simp [hk] at hp
    · rwa [Function.update_of_ne hk] at hp
  refine ⟨hs.models.congr ?_ ?_, (hs.sequences.letGo hr hk).congr ?_ ?_,
    fun hr' => hs.resident (back hr'), fun hr' hm' hc => hs.parent (back hr') hm' (by simpa using hc),
    fun hc => hs.creation (by simpa using hc),
    hs.ordered.append (hs.permitted hm rfl (fun s hs' => ⟨r, h', hr, by
      simpa [BackendCall.onSequence] using hs'⟩) nofun)⟩
  · funext n; simp [BackendCall.unloads]
  · funext n; simp
  · funext n
    by_cases hn : n = h'.ref
    · simp [BackendCall.destroys, hn]
    · simp [BackendCall.destroys, hn, Ne.symm hn]
  · funext n; simp [eq_comm]

theorem ne_of_empty (hempty : ∀ r, c.sequences (m, r) = none) {m' : ModelId} (hr : c.sequences (m', r) = some h) :
    m' ≠ m := by
  rintro rfl
  rw [hempty] at hr
  cases hr

theorem Safe.unloadFailed (hs : Safe k c) (hm : c.models m = some h) (hempty : ∀ r, c.sequences (m, r) = none)
    (hk : h.attempts < k) :
    Safe k { c with
      models := Function.update c.models m (some ⟨h.ref, h.attempts + 1⟩)
      calls := c.calls ++ [.prepareUnload h.ref false] } := by
  refine ⟨(hs.models.fail hm hk).congr ?_ ?_, hs.sequences.congr ?_ ?_, fun hr => ?_,
    fun hr hm hc => ?_, fun hc => hs.creation (by simpa using hc),
    hs.ordered.append (hs.permitted hm rfl nofun fun _ _ => hempty)⟩
  · funext n
    by_cases hn : n = h.ref
    · simp [BackendCall.unloads, hn]
    · simp [BackendCall.unloads, hn, Ne.symm hn]
  · funext n; simp
  · funext n; simp [BackendCall.destroys]
  · funext n; simp
  · simpa [Function.update_of_ne (ne_of_empty hempty hr)] using hs.resident hr
  · simp only [Function.update_of_ne (ne_of_empty hempty hr)] at hm
    exact hs.parent hr hm (by simpa using hc)

theorem Safe.unloaded (hs : Safe k c) (hm : c.models m = some h) (hempty : ∀ r, c.sequences (m, r) = none)
    (hk : h.attempts < k) :
    Safe k { c with
      models := Function.update c.models m none
      calls := c.calls ++ [.prepareUnload h.ref true] } := by
  refine ⟨(hs.models.letGo hm hk).congr ?_ ?_, hs.sequences.congr ?_ ?_, fun hr => ?_,
    fun hr hm hc => ?_, fun hc => hs.creation (by simpa using hc),
    hs.ordered.append (hs.permitted hm rfl nofun fun _ _ => hempty)⟩
  · funext n
    by_cases hn : n = h.ref
    · simp [BackendCall.unloads, hn]
    · simp [BackendCall.unloads, hn, Ne.symm hn]
  · funext n; simp [eq_comm]
  · funext n; simp [BackendCall.destroys]
  · funext n; simp
  · simpa [Function.update_of_ne (ne_of_empty hempty hr)] using hs.resident hr
  · simp only [Function.update_of_ne (ne_of_empty hempty hr)] at hm
    exact hs.parent hr hm (by simpa using hc)

/-- Every step keeps the custody safe. -/
theorem Step.safe (hstep : Step k c c') (hs : Safe k c) : Safe k c' := by
  cases hstep with
  | used hm hu => exact hs.used hm hu
  | loaded hm => exact hs.loaded hm
  | created hm hr => exact hs.created hm hr
  | destroyFailed hm hr hk => exact hs.destroyFailed hm hr hk
  | destroyed hm hr hk => exact hs.destroyed hm hr hk
  | unloadFailed hm hempty hk => exact hs.unloadFailed hm hempty hk
  | unloaded hm hempty hk => exact hs.unloaded hm hempty hk

theorem Safe.steps (hs : Safe k c) (h : Relation.ReflTransGen (Step k) c c') : Safe k c' := by
  induction h with
  | refl => exact hs
  | tail _ hstep ih => exact hstep.safe ih

end Step

end Custody

end LlmApp
