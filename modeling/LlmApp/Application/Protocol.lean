/-
# One command at a time

The application together with what its workers still owe it. The hub answers
each resolve once, and the inference worker each load. It answers an unload with
a receipt for its handle or with an error. After a draining receipt another
answer follows; after an error a completion may, if the cleanup is retried. The
application is idle after that error, and a second unload can be sent before the
completion of the first (`completion_mistaken`).

Key definitions: `Awaited.Gives`, `ApplicationSystem.Step`, `ApplicationSystem.Clear`.
Key theorems: `Step.agrees`, `one_command_awaited`, `completion_mistaken`.
-/
import LlmApp.Application.Shutdown
import Mathlib.Logic.Relation

namespace LlmApp

/-! ### What is owed -/

/-- What a worker still owes for a command that it was sent. -/
inductive Awaited where
  | resolve
  | load (ticket : CommandTicket)
  | unload (ticket : CommandTicket) (handle : ModelHandle)
  | draining (ticket : CommandTicket) (handle : ModelHandle)
  -- The unload was answered with an error, and its cleanup goes on.
  | late (ticket : CommandTicket) (handle : ModelHandle)
deriving DecidableEq

namespace Awaited

def ofHub : HubCommand → Option Awaited
  | .resolve _ => some .resolve
  | .shutdown => none

def ofInference : RuntimeCommand CandleLlamaSource → Option Awaited
  | .loadModel ticket .. => some (.load ticket)
  | .unloadModel ticket handle _ => some (.unload ticket handle)
  | _ => none

def unload? : Awaited → Option (CommandTicket × ModelHandle)
  | .unload ticket handle | .draining ticket handle | .late ticket handle => some (ticket, handle)
  | .resolve | .load _ => none

def isLate : Awaited → Bool
  | .late _ _ => true
  | _ => false

/-- The events that answer a command, and what is owed after each. -/
inductive Gives : Awaited → RuntimeEvent → Option Awaited → Prop where
  | loaded {ticket : CommandTicket} {result : Except RuntimeError LoadReceipt} :
      Gives (.load ticket) (.modelLoaded ticket result) none
  | draining {ticket : CommandTicket} {handle : ModelHandle} {receipt : UnloadReceipt}
      (hhandle : receipt.handle = handle) (hstatus : receipt.status = .draining) :
      Gives (.unload ticket handle) (.modelUnload ticket (.ok receipt)) (some (.draining ticket handle))
  | completed {owed : Awaited} {ticket : CommandTicket} {handle : ModelHandle} {receipt : UnloadReceipt}
      (howed : owed.unload? = some (ticket, handle)) (hhandle : receipt.handle = handle)
      (hstatus : receipt.status ≠ .draining) : Gives owed (.modelUnload ticket (.ok receipt)) none
  | failed {owed : Awaited} {ticket : CommandTicket} {handle : ModelHandle} {e : RuntimeError}
      (howed : owed.unload? = some (ticket, handle)) (hfirst : owed.isLate = false) (retried : Bool) :
      Gives owed (.modelUnload ticket (.error e)) (if retried then some (.late ticket handle) else none)

end Awaited

/-- What the workers owe for the commands that `app'` has sent and `app` has not. -/
def ApplicationRuntime.sent (app app' : ApplicationRuntime) : List Awaited :=
  (app'.hubCommands.drop app.hubCommands.length).filterMap Awaited.ofHub ++
    (app'.inferenceCommands.drop app.inferenceCommands.length).filterMap Awaited.ofInference

/-! ### The system -/

/-- The commands are numbered as they are sent. -/
structure ApplicationSystem where
  app : ApplicationRuntime
  submitted : ℕ := 0
  awaited : List (Awaited × ℕ) := []

namespace ApplicationSystem

def start (preferences : ApplicationPreferences) : ApplicationSystem := { app := .start preferences }

/-- The application goes on to `app` when `rest` is left of what was awaited. -/
def advance (s : ApplicationSystem) (app : ApplicationRuntime) (rest : List (Awaited × ℕ)) : ApplicationSystem where
  app := app
  submitted := s.submitted + (s.app.sent app).length
  awaited := rest ++ (s.app.sent app).zipIdx (s.submitted + 1)

/-- A call and the number of the command that the event taken by it answers. A
worker that is gone owes nothing. -/
inductive Step (debug : RuntimeError → String) (s : ApplicationSystem) :
    ApplicationCall → Option ℕ → ApplicationSystem → Prop where
  | resolveModel (repository revision : String) (send : SendResult) :
      Step debug s (.resolveModel repository revision send) none
        (s.advance (s.app.resolveModel repository revision send).2 s.awaited)
  | loadModel (repository revision : String) (submit : SendResult) :
      Step debug s (.loadModel repository revision submit) none
        (s.advance (s.app.loadModel repository revision submit).2 s.awaited)
  | unloadModel (submit : SendResult) :
      Step debug s (.unloadModel submit) none (s.advance (s.app.unloadModel submit).2 s.awaited)
  | resolved {answer : ApplicationRuntime.PollAnswer} {event : HubEvent} {before after : List (Awaited × ℕ)} {k : ℕ}
      (havailable : s.app.state.hubAvailable = true) (hhub : answer.hub = .event event)
      (hawaited : s.awaited = before ++ (.resolve, k) :: after) :
      Step debug s (.pollEvent answer) (some k) (s.advance (s.app.pollEvent debug answer).2 (before ++ after))
  | hubLost {answer : ApplicationRuntime.PollAnswer} (havailable : s.app.state.hubAvailable = true)
      (hhub : answer.hub = .disconnected) :
      Step debug s (.pollEvent answer) none
        (s.advance (s.app.pollEvent debug answer).2 (s.awaited.filter fun owed => owed.1 ≠ .resolve))
  | answered {answer : ApplicationRuntime.PollAnswer} {event : RuntimeEvent} {before after : List (Awaited × ℕ)}
      {owed : Awaited} {rest : Option Awaited} {k : ℕ}
      (hhub : s.app.state.hubAvailable = false ∨ answer.hub = .empty)
      (havailable : s.app.state.inferenceAvailable = true) (hinference : answer.inference = .event event)
      (hawaited : s.awaited = before ++ (owed, k) :: after) (hgives : owed.Gives event rest) :
      Step debug s (.pollEvent answer) (some k)
        (s.advance (s.app.pollEvent debug answer).2 (before ++ rest.toList.map (·, k) ++ after))
  | inferenceLost {answer : ApplicationRuntime.PollAnswer}
      (hhub : s.app.state.hubAvailable = false ∨ answer.hub = .empty)
      (havailable : s.app.state.inferenceAvailable = true) (hinference : answer.inference = .disconnected) :
      Step debug s (.pollEvent answer) none
        (s.advance (s.app.pollEvent debug answer).2 (s.awaited.filter fun owed => owed.1 = .resolve))
  | nothing {answer : ApplicationRuntime.PollAnswer}
      (hhub : s.app.state.hubAvailable = false ∨ answer.hub = .empty)
      (hinference : s.app.state.inferenceAvailable = false ∨ answer.inference = .empty) :
      Step debug s (.pollEvent answer) none (s.advance (s.app.pollEvent debug answer).2 s.awaited)

/-- No unload is asked for while the completion of an earlier one, already
answered with an error, can still come. -/
def Clear (s : ApplicationSystem) : ApplicationCall → Prop
  | .unloadModel _ => ∀ owed ∈ s.awaited, owed.1.isLate = false
  | _ => True

/-- A step of a system that awaits one command at a time. -/
structure Proper (s : ApplicationSystem) (call : ApplicationCall) (answered : Option ℕ) (s' : ApplicationSystem) :
    Prop where
  single : s'.awaited.length ≤ 1
  -- An event answers the last command, so it ends no activity of a later one.
  current : ∀ k ∈ answered, k = s.submitted
  cleared : ∀ model, s.app.state.loaded = some model → s'.app.state.loaded ≠ some model →
    ∃ answer ticket receipt, call = .pollEvent answer ∧
      answer.inference = .event (.modelUnload ticket (.ok receipt)) ∧ receipt.status ≠ .draining ∧
      receipt.handle = model.handle

end ApplicationSystem

/-! ### What a call can do -/

namespace ApplicationRuntime

variable {app : ApplicationRuntime} {debug : RuntimeError → String}

/-- From `app` to `app'` the application sends `sent`. -/
structure Goes (app app' : ApplicationRuntime) (activity : ApplicationActivity)
    (loaded : Option ApplicationState.LoadedModel) (sent : List Awaited) : Prop where
  activity : app'.state.activity = activity
  loaded : app'.state.loaded = loaded
  sent : app.sent app' = sent

theorem sent_same {app' : ApplicationRuntime} (hhub : app'.hubCommands = app.hubCommands)
    (hinference : app'.inferenceCommands = app.inferenceCommands) : app.sent app' = [] := by
  simp [sent, hhub, hinference]

theorem sent_hub {app' : ApplicationRuntime} {command : HubCommand} {owed : Awaited}
    (howed : Awaited.ofHub command = some owed) (hhub : app'.hubCommands = app.hubCommands ++ [command])
    (hinference : app'.inferenceCommands = app.inferenceCommands) : app.sent app' = [owed] := by
  simp [sent, hhub, hinference, howed]

theorem sent_inference {app' : ApplicationRuntime} {command : RuntimeCommand CandleLlamaSource} {owed : Awaited}
    (howed : Awaited.ofInference command = some owed) (hhub : app'.hubCommands = app.hubCommands)
    (hinference : app'.inferenceCommands = app.inferenceCommands ++ [command]) : app.sent app' = [owed] := by
  simp [sent, hhub, hinference, howed]

/-- Nothing is sent, and nothing of what is shown changes. -/
theorem Goes.refl {app' : ApplicationRuntime} (hstate : app'.state.activity = app.state.activity)
    (hloaded : app'.state.loaded = app.state.loaded) (hhub : app'.hubCommands = app.hubCommands)
    (hinference : app'.inferenceCommands = app.inferenceCommands) :
    Goes app app' app.state.activity app.state.loaded [] :=
  ⟨hstate, hloaded, sent_same hhub hinference⟩

theorem resolveModel_goes (app : ApplicationRuntime) (repository revision : String) (send : SendResult) :
    let app' := (app.resolveModel repository revision send).2
    Goes app app' app.state.activity app.state.loaded [] ∨
      app.state.activity = .idle ∧ app.state.loaded = none ∧ Goes app app' .resolving none [.resolve] := by
  unfold resolveModel
  dsimp only
  split
  · exact .inl (.refl rfl rfl rfl rfl)
  next reference hchecks =>
    simp only [requireIdle, Except.bind_eq_ok, Except.failIf_eq_ok, not_not] at hchecks
    obtain ⟨-, hidle, -, hloaded, -⟩ := hchecks
    have hnone : app.state.loaded = none := Option.not_isSome_iff_eq_none.mp hloaded
    cases send with
    | sent => exact .inr ⟨hidle, hnone, rfl, hnone, sent_hub (by rfl) rfl rfl⟩
    | full => exact .inl (.refl rfl rfl rfl rfl)
    | disconnected => exact .inl (.refl rfl rfl rfl rfl)

theorem loadModel_goes (app : ApplicationRuntime) (repository revision : String) (submit : SendResult) :
    let app' := (app.loadModel repository revision submit).2
    Goes app app' app.state.activity app.state.loaded [] ∨
      app.state.activity = .idle ∧ app.state.loaded = none ∧
        Goes app app' .loading none [.load app.nextTicket] := by
  unfold loadModel
  dsimp only
  split
  · exact .inl (.refl rfl rfl rfl rfl)
  next source hsource =>
    simp only [loadSource, requireIdle, Except.bind_eq_ok, Except.failIf_eq_ok, not_not] at hsource
    obtain ⟨-, hidle, -, hloaded, -⟩ := hsource
    have hnone : app.state.loaded = none := Option.not_isSome_iff_eq_none.mp hloaded
    unfold takeTicket
    cases checkedAdd u64Max app.nextTicket 1 with
    | none => exact .inl (.refl rfl rfl rfl rfl)
    | some nextTicket =>
      cases submit with
      | sent => exact .inr ⟨hidle, hnone, rfl, hnone, sent_inference (by rfl) rfl rfl⟩
      | full => exact .inl (.refl rfl rfl rfl rfl)
      | disconnected => exact .inl (.refl rfl rfl rfl rfl)

/-- A failed submission leaves the rest as it was. -/
theorem submitUnload_goes (app : ApplicationRuntime) (handle : ModelHandle) (submit : SendResult) :
    (∃ e app', app.submitUnload handle submit = (.error e, app') ∧
      Goes app app' app.state.activity app.state.loaded []) ∨
    ∃ app', app.submitUnload handle submit = (.ok (), app') ∧
      Goes app app' .unloading app.state.loaded [.unload app.nextTicket handle] := by
  unfold submitUnload takeTicket
  split_ifs with hpositive
  · cases checkedAdd u64Max app.nextTicket 1 with
    | none => exact .inl ⟨_, _, rfl, .refl rfl rfl rfl rfl⟩
    | some nextTicket =>
      cases submit with
      | sent => exact .inr ⟨_, rfl, rfl, rfl, sent_inference (by rfl) rfl rfl⟩
      | full => exact .inl ⟨_, _, rfl, .refl rfl rfl rfl rfl⟩
      | disconnected => exact .inl ⟨_, _, rfl, .refl rfl rfl rfl rfl⟩
  · exact .inl ⟨_, _, rfl, .refl rfl rfl rfl rfl⟩

theorem unloadModel_goes (app : ApplicationRuntime) (submit : SendResult) :
    let app' := (app.unloadModel submit).2
    Goes app app' app.state.activity app.state.loaded [] ∨
      app.state.activity = .idle ∧ ∃ model, app.state.loaded = some model ∧
        Goes app app' .unloading (some model) [.unload app.nextTicket model.handle] := by
  unfold unloadModel
  dsimp only
  split
  · exact .inl (.refl rfl rfl rfl rfl)
  next handle hchecks =>
    simp only [requireIdle, Except.bind_eq_ok, Except.failIf_eq_ok, not_not, Except.okOr_eq_ok,
      Except.pure_eq_ok] at hchecks
    obtain ⟨-, hidle, model, hloaded, rfl⟩ := hchecks
    obtain ⟨e, app', hsubmitted, hgoes⟩ | ⟨app', hsubmitted, hgoes⟩ := submitUnload_goes app model.handle submit
    · rw [hsubmitted]
      exact .inl hgoes
    · rw [hsubmitted]
      exact .inr ⟨hidle, model, hloaded, hloaded ▸ hgoes⟩

/-- An unload that is accepted was sent, with what else it changes. -/
theorem unloadModel_ok {submit : SendResult} (h : (app.unloadModel submit).1 = .ok ()) :
    ∃ model nextTicket timeout, app.state.activity = .idle ∧ app.state.loaded = some model ∧
      (app.unloadModel submit).2 = { app with
        nextTicket := nextTicket
        inferenceCommands := app.inferenceCommands ++ [.unloadModel app.nextTicket model.handle (.drain timeout)]
        state := app.state.beginUnloading } := by
  unfold unloadModel at h ⊢
  dsimp only at h ⊢
  split at h
  · cases h
  next handle hchecks =>
    simp only [requireIdle, Except.bind_eq_ok, Except.failIf_eq_ok, not_not, Except.okOr_eq_ok,
      Except.pure_eq_ok] at hchecks
    obtain ⟨-, hidle, model, hloaded, rfl⟩ := hchecks
    unfold submitUnload takeTicket at h ⊢
    by_cases hpositive : 0 < app.preferences.drainTimeoutMilliseconds
    · rw [dif_pos hpositive] at h ⊢
      cases hticket : checkedAdd u64Max app.nextTicket 1 with
      | none =>
        rw [hticket] at h
        cases h
      | some nextTicket =>
        rw [hticket] at h
        cases submit with
        | sent => exact ⟨model, nextTicket, ⟨_, hpositive⟩, hidle, hloaded, rfl⟩
        | full => cases h
        | disconnected => cases h
    · rw [dif_neg hpositive] at h
      cases h

/-! ### What an event can do -/

theorem processHubEvent_goes (app : ApplicationRuntime) (event : HubEvent) (tokenizer : Except String ℕ)
    (storage : StorageAnswer) : Goes app (app.processHubEvent event tokenizer storage).2 .idle app.state.loaded [] := by
  obtain ⟨resolved⟩ := event
  cases resolved with
  | error error => exact ⟨rfl, rfl, sent_same rfl rfl⟩
  | ok artifacts =>
    cases tokenizer with
    | error error => exact ⟨rfl, rfl, sent_same rfl rfl⟩
    | ok vocabularySize => exact ⟨rfl, rfl, sent_same rfl rfl⟩

/-- The answer to a load leaves the application idle, or unloading a model that
does not fit the tokenizer. -/
theorem processModelLoaded_goes (app : ApplicationRuntime) (debug : RuntimeError → String)
    (result : Except RuntimeError LoadReceipt) (submit : SendResult) :
    let app' := (app.processModelLoaded debug result submit).2
    (∃ loaded, Goes app app' .idle loaded []) ∨
      ∃ model ticket, Goes app app' .unloading (some model) [.unload ticket model.handle] := by
  cases result with
  | error error => exact .inl ⟨_, rfl, rfl, sent_same rfl rfl⟩
  | ok receipt =>
    unfold processModelLoaded
    dsimp only
    split_ifs
    · unfold rejectIncompatibleModel
      dsimp only
      generalize hrejecting : ApplicationRuntime.mk _ _ _ _ _ _ _ _ _ = rejecting
      have hgoes := submitUnload_goes rejecting receipt.handle submit
      subst hrejecting
      obtain ⟨e, app', hsubmitted, hgoes⟩ | ⟨app', hsubmitted, hgoes⟩ := hgoes
      · rw [hsubmitted]
        exact .inl ⟨_, rfl, rfl, hgoes.sent⟩
      · rw [hsubmitted]
        exact .inr ⟨_, _, hgoes.activity, hgoes.loaded, hgoes.sent⟩
    · exact .inl ⟨_, rfl, rfl, sent_same rfl rfl⟩

theorem pollEvent_eq_pollInference {answer : PollAnswer}
    (hhub : app.state.hubAvailable = false ∨ answer.hub = .empty) :
    app.pollEvent debug answer = app.pollInference debug answer := by
  unfold pollEvent
  split_ifs with havailable
  · rw [hhub.resolve_left (by simp [havailable])]
  · rfl

theorem pollInference_event {answer : PollAnswer} {event : RuntimeEvent}
    (havailable : app.state.inferenceAvailable = true) (hinference : answer.inference = .event event) :
    app.pollInference debug answer = app.processRuntimeEvent debug event answer.submit := by
  rw [pollInference, if_pos havailable, hinference]

theorem processRuntimeEvent_completed (app : ApplicationRuntime) (debug : RuntimeError → String)
    {ticket : CommandTicket} {receipt : UnloadReceipt} {submit : SendResult} (hstatus : receipt.status ≠ .draining) :
    (app.processRuntimeEvent debug (.modelUnload ticket (.ok receipt)) submit).2 = app.withState .clearLoaded := by
  cases hcase : receipt.status with
  | draining => exact absurd hcase hstatus
  | alreadyAbsent => simp [processRuntimeEvent, processModelUnload, hcase]
  | unloaded => simp [processRuntimeEvent, processModelUnload, hcase]

theorem pollInference_quiet {answer : PollAnswer}
    (hinference : app.state.inferenceAvailable = false ∨ answer.inference = .empty) :
    app.pollInference debug answer = (none, app) := by
  unfold pollInference
  split_ifs with havailable
  · rw [hinference.resolve_left (by simp [havailable])]
  · rfl

end ApplicationRuntime

/-! ### What is awaited in each activity -/

namespace ApplicationSystem

open ApplicationRuntime (Goes)

variable {s s' : ApplicationSystem} {debug : RuntimeError → String} {call : ApplicationCall} {answered : Option ℕ}

/-- What is awaited is the answer to the last command, and the activity is the
one that ends with it. A model whose unload failed may be completed while idle. -/
inductive Agrees (s : ApplicationSystem) : Prop where
  | idle (hactivity : s.app.state.activity = .idle) (hawaited : s.awaited = [])
  | late {ticket : CommandTicket} {model : ApplicationState.LoadedModel}
      (hactivity : s.app.state.activity = .idle) (hloaded : s.app.state.loaded = some model)
      (hawaited : s.awaited = [(.late ticket model.handle, s.submitted)])
  | resolving (hactivity : s.app.state.activity = .resolving) (hawaited : s.awaited = [(.resolve, s.submitted)])
  | loading {ticket : CommandTicket} (hactivity : s.app.state.activity = .loading)
      (hloaded : s.app.state.loaded = none) (hawaited : s.awaited = [(.load ticket, s.submitted)])
  | unloading {owed : Awaited} {ticket : CommandTicket} {model : ApplicationState.LoadedModel}
      (hactivity : s.app.state.activity = .unloading) (hloaded : s.app.state.loaded = some model)
      (howed : owed.unload? = some (ticket, model.handle)) (hfirst : owed.isLate = false)
      (hawaited : s.awaited = [(owed, s.submitted)])

theorem Agrees.length_le (h : Agrees s) : s.awaited.length ≤ 1 := by
  cases h <;> simp [*]

/-- The only thing awaited is the answer to the last command. -/
theorem Agrees.split (h : Agrees s) {before after : List (Awaited × ℕ)} {owed : Awaited} {k : ℕ}
    (hawaited : s.awaited = before ++ (owed, k) :: after) :
    before = [] ∧ after = [] ∧ k = s.submitted ∧ s.awaited = [(owed, s.submitted)] := by
  have hone : s.awaited = [] ∨ ∃ owed, s.awaited = [(owed, s.submitted)] := by
    cases h with
    | idle _ h => exact .inl h
    | late _ _ h => exact .inr ⟨_, h⟩
    | resolving _ h => exact .inr ⟨_, h⟩
    | loading _ _ h => exact .inr ⟨_, h⟩
    | unloading _ _ _ _ h => exact .inr ⟨_, h⟩
  obtain hnone | ⟨owed', hsome⟩ := hone
  · simp [hnone] at hawaited
  · rw [hsome] at hawaited
    cases before with
    | nil =>
      obtain ⟨hpair, rfl⟩ := List.cons.inj hawaited
      obtain ⟨rfl, rfl⟩ := Prod.mk.inj hpair
      exact ⟨rfl, rfl, rfl, hsome⟩
    | cons head tail => simp at hawaited

theorem Agrees.awaited_eq (h : Agrees s) (hidle : s.app.state.activity = .idle)
    (hclear : s.app.state.loaded = none ∨ ∀ owed ∈ s.awaited, owed.1.isLate = false) : s.awaited = [] := by
  cases h with
  | idle _ hawaited => exact hawaited
  | late _ hloaded hawaited =>
    obtain hnone | hclear := hclear
    · cases hnone.symm.trans hloaded
    · rw [hawaited] at hclear
      exact Bool.noConfusion (hclear _ (List.mem_singleton_self _))
  | resolving hactivity => exact ApplicationActivity.noConfusion (hidle.symm.trans hactivity)
  | loading hactivity => exact ApplicationActivity.noConfusion (hidle.symm.trans hactivity)
  | unloading hactivity => exact ApplicationActivity.noConfusion (hidle.symm.trans hactivity)

/-- Nothing is sent. -/
theorem advance_quiet {app' : ApplicationRuntime} {activity : ApplicationActivity}
    {loaded : Option ApplicationState.LoadedModel} (h : Goes s.app app' activity loaded [])
    (rest : List (Awaited × ℕ)) : s.advance app' rest = ⟨app', s.submitted, rest⟩ := by
  simp [advance, h.sent]

theorem advance_sent {app' : ApplicationRuntime} {activity : ApplicationActivity} {owed : Awaited}
    {loaded : Option ApplicationState.LoadedModel} (h : Goes s.app app' activity loaded [owed]) :
    s.advance app' [] = ⟨app', s.submitted + 1, [(owed, s.submitted + 1)]⟩ := by
  simp [advance, h.sent]

/-- A call that sends nothing and shows nothing new. -/
theorem Agrees.same (h : Agrees s) {app' : ApplicationRuntime}
    (hgoes : Goes s.app app' s.app.state.activity s.app.state.loaded []) : Agrees (s.advance app' s.awaited) := by
  rw [advance_quiet hgoes]
  cases h with
  | idle hactivity hawaited => exact .idle (hgoes.activity.trans hactivity) hawaited
  | late hactivity hloaded hawaited =>
    exact .late (hgoes.activity.trans hactivity) (hgoes.loaded.trans hloaded) hawaited
  | resolving hactivity hawaited => exact .resolving (hgoes.activity.trans hactivity) hawaited
  | loading hactivity hloaded hawaited =>
    exact .loading (hgoes.activity.trans hactivity) (hgoes.loaded.trans hloaded) hawaited
  | unloading hactivity hloaded howed hfirst hawaited =>
    exact .unloading (hgoes.activity.trans hactivity) (hgoes.loaded.trans hloaded) howed hfirst hawaited

/-! ### One step -/

/-- A step that keeps the loaded model, or loads one. -/
theorem Proper.of_loaded (h : Agrees s') (hcurrent : ∀ k ∈ answered, k = s.submitted)
    (hloaded : s'.app.state.loaded = s.app.state.loaded ∨ s.app.state.loaded = none) :
    Proper s call answered s' := by
  refine ⟨h.length_le, hcurrent, fun model hmodel hcleared => ?_⟩
  obtain hsame | hnone := hloaded
  · exact absurd (hsame.trans hmodel) hcleared
  · cases hnone.symm.trans hmodel

theorem same_agrees (h : Agrees s) {app' : ApplicationRuntime} {rest : List (Awaited × ℕ)} (hrest : rest = s.awaited)
    (hgoes : Goes s.app app' s.app.state.activity s.app.state.loaded []) :
    Agrees (s.advance app' rest) ∧ Proper s call none (s.advance app' rest) := by
  rw [hrest]
  have hsame := h.same hgoes
  exact ⟨hsame, .of_loaded hsame nofun (.inl hgoes.loaded)⟩

theorem resolveModel_agrees (h : Agrees s) (repository revision : String) (send : SendResult) :
    let s' := s.advance (s.app.resolveModel repository revision send).2 s.awaited
    Agrees s' ∧ Proper s call none s' := by
  obtain hgoes | ⟨hidle, hnone, hgoes⟩ := ApplicationRuntime.resolveModel_goes s.app repository revision send
  · exact same_agrees h rfl hgoes
  · rw [h.awaited_eq hidle (.inl hnone), advance_sent hgoes]
    have hresolving : Agrees ⟨_, s.submitted + 1, [(.resolve, s.submitted + 1)]⟩ := .resolving hgoes.activity rfl
    exact ⟨hresolving, .of_loaded hresolving nofun (.inr hnone)⟩

theorem loadModel_agrees (h : Agrees s) (repository revision : String) (submit : SendResult) :
    let s' := s.advance (s.app.loadModel repository revision submit).2 s.awaited
    Agrees s' ∧ Proper s call none s' := by
  obtain hgoes | ⟨hidle, hnone, hgoes⟩ := ApplicationRuntime.loadModel_goes s.app repository revision submit
  · exact same_agrees h rfl hgoes
  · rw [h.awaited_eq hidle (.inl hnone), advance_sent hgoes]
    have hloading : Agrees ⟨_, s.submitted + 1, [(.load s.app.nextTicket, s.submitted + 1)]⟩ :=
      .loading hgoes.activity hgoes.loaded rfl
    exact ⟨hloading, .of_loaded hloading nofun (.inr hnone)⟩

theorem unloadModel_agrees (h : Agrees s) (hclear : ∀ owed ∈ s.awaited, owed.1.isLate = false) (submit : SendResult) :
    let s' := s.advance (s.app.unloadModel submit).2 s.awaited
    Agrees s' ∧ Proper s call none s' := by
  obtain hgoes | ⟨hidle, model, hmodel, hgoes⟩ := ApplicationRuntime.unloadModel_goes s.app submit
  · exact same_agrees h rfl hgoes
  · rw [h.awaited_eq hidle (.inr hclear), advance_sent hgoes]
    have hunloading : Agrees ⟨_, s.submitted + 1, [(.unload s.app.nextTicket model.handle, s.submitted + 1)]⟩ :=
      .unloading hgoes.activity hgoes.loaded rfl rfl rfl
    exact ⟨hunloading, .of_loaded hunloading nofun (.inl (hgoes.loaded.trans hmodel.symm))⟩

theorem resolved_agrees (h : Agrees s) {answer : ApplicationRuntime.PollAnswer} {event : HubEvent}
    {before after : List (Awaited × ℕ)} {k : ℕ} (havailable : s.app.state.hubAvailable = true)
    (hhub : answer.hub = .event event) (hawaited : s.awaited = before ++ (.resolve, k) :: after) :
    let s' := s.advance (s.app.pollEvent debug answer).2 (before ++ after)
    Agrees s' ∧ Proper s call (some k) s' := by
  obtain ⟨rfl, rfl, rfl, -⟩ := h.split hawaited
  have hpoll : (s.app.pollEvent debug answer).2 = (s.app.processHubEvent event answer.tokenizer answer.storage).2 := by
    rw [ApplicationRuntime.pollEvent, if_pos havailable, hhub]
  have hgoes := ApplicationRuntime.processHubEvent_goes s.app event answer.tokenizer answer.storage
  rw [hpoll, advance_quiet hgoes]
  have hidle : Agrees ⟨_, s.submitted, []⟩ := .idle hgoes.activity rfl
  refine ⟨hidle, .of_loaded hidle ?_ (.inl hgoes.loaded)⟩
  rintro _ ⟨⟩
  rfl

/-- Without the hub, a resolve is no longer waited for. -/
theorem hubLost_agrees (h : Agrees s) {answer : ApplicationRuntime.PollAnswer}
    (havailable : s.app.state.hubAvailable = true) (hhub : answer.hub = .disconnected) :
    let s' := s.advance (s.app.pollEvent debug answer).2 (s.awaited.filter fun owed => owed.1 ≠ .resolve)
    Agrees s' ∧ Proper s call none s' := by
  have hpoll : (s.app.pollEvent debug answer).2 = s.app.withState fun state =>
      if state.activity = .resolving then state.disconnectHub.setIdle else state.disconnectHub := by
    rw [ApplicationRuntime.pollEvent, if_pos havailable, hhub]
  rw [hpoll]
  by_cases hresolving : s.app.state.activity = .resolving
  · have hrest : (s.awaited.filter fun owed => owed.1 ≠ .resolve) = [] := by
      cases h with
      | resolving _ hawaited => simp [hawaited]
      | idle hactivity => exact ApplicationActivity.noConfusion (hresolving.symm.trans hactivity)
      | late hactivity => exact ApplicationActivity.noConfusion (hresolving.symm.trans hactivity)
      | loading hactivity => exact ApplicationActivity.noConfusion (hresolving.symm.trans hactivity)
      | unloading hactivity => exact ApplicationActivity.noConfusion (hresolving.symm.trans hactivity)
    have hgoes : Goes s.app (s.app.withState fun state =>
        if state.activity = .resolving then state.disconnectHub.setIdle else state.disconnectHub)
        .idle s.app.state.loaded [] := by
      refine ⟨?_, ?_, ApplicationRuntime.sent_same rfl rfl⟩ <;> simp only [ApplicationRuntime.withState, if_pos hresolving]
      · rfl
      · rfl
    rw [hrest, advance_quiet hgoes]
    have hidle : Agrees ⟨_, s.submitted, []⟩ := .idle hgoes.activity rfl
    exact ⟨hidle, .of_loaded hidle nofun (.inl hgoes.loaded)⟩
  · have hrest : (s.awaited.filter fun owed => owed.1 ≠ .resolve) = s.awaited := by
      cases h with
      | resolving hactivity => exact absurd hactivity hresolving
      | idle _ hawaited => simp [hawaited]
      | late _ _ hawaited => simp [hawaited]
      | loading _ _ hawaited => simp [hawaited]
      | @unloading owed _ _ _ _ howed _ hawaited =>
        have hne : owed ≠ .resolve := by
          rintro rfl
          cases howed
        simp [hawaited, hne]
    refine same_agrees h hrest ?_
    refine ⟨?_, ?_, ApplicationRuntime.sent_same rfl rfl⟩ <;> simp only [ApplicationRuntime.withState, if_neg hresolving]
    · rfl
    · rfl

/-- Without the inference worker, only a resolve is still waited for. -/
theorem inferenceLost_agrees (h : Agrees s) {answer : ApplicationRuntime.PollAnswer}
    (hhub : s.app.state.hubAvailable = false ∨ answer.hub = .empty)
    (havailable : s.app.state.inferenceAvailable = true) (hinference : answer.inference = .disconnected) :
    let s' := s.advance (s.app.pollEvent debug answer).2 (s.awaited.filter fun owed => owed.1 = .resolve)
    Agrees s' ∧ Proper s call none s' := by
  have hpoll : (s.app.pollEvent debug answer).2 = s.app.withState fun state =>
      if state.activity = .loading ∨ state.activity = .unloading then state.disconnectInference.setIdle
      else state.disconnectInference := by
    rw [ApplicationRuntime.pollEvent_eq_pollInference hhub, ApplicationRuntime.pollInference, if_pos havailable,
      hinference]
  rw [hpoll]
  have hloaded : (s.app.withState fun state =>
      if state.activity = .loading ∨ state.activity = .unloading then state.disconnectInference.setIdle
      else state.disconnectInference).state.loaded = s.app.state.loaded := by
    dsimp only [ApplicationRuntime.withState]
    split_ifs <;> rfl
  by_cases hresolving : s.app.state.activity = .resolving
  · have hrest : (s.awaited.filter fun owed => owed.1 = .resolve) = s.awaited := by
      cases h with
      | resolving _ hawaited => simp [hawaited]
      | idle hactivity => exact ApplicationActivity.noConfusion (hresolving.symm.trans hactivity)
      | late hactivity => exact ApplicationActivity.noConfusion (hresolving.symm.trans hactivity)
      | loading hactivity => exact ApplicationActivity.noConfusion (hresolving.symm.trans hactivity)
      | unloading hactivity => exact ApplicationActivity.noConfusion (hresolving.symm.trans hactivity)
    refine same_agrees h hrest ⟨?_, hloaded, ApplicationRuntime.sent_same rfl rfl⟩
    simp [ApplicationRuntime.withState, hresolving, ApplicationState.disconnectInference]
  · have hrest : (s.awaited.filter fun owed => owed.1 = .resolve) = [] := by
      cases h with
      | resolving hactivity => exact absurd hactivity hresolving
      | idle _ hawaited => simp [hawaited]
      | late _ _ hawaited => simp [hawaited]
      | loading _ _ hawaited => simp [hawaited]
      | @unloading owed _ _ _ _ howed _ hawaited =>
        have hne : owed ≠ .resolve := by
          rintro rfl
          cases howed
        simp [hawaited, hne]
    have hgoes : Goes s.app (s.app.withState fun state =>
        if state.activity = .loading ∨ state.activity = .unloading then state.disconnectInference.setIdle
        else state.disconnectInference) .idle s.app.state.loaded [] := by
      refine ⟨?_, hloaded, ApplicationRuntime.sent_same rfl rfl⟩
      cases h with
      | resolving hactivity => exact absurd hactivity hresolving
      | idle hactivity =>
        simp [ApplicationRuntime.withState, hactivity, ApplicationState.disconnectInference]
      | late hactivity =>
        simp [ApplicationRuntime.withState, hactivity, ApplicationState.disconnectInference]
      | loading hactivity => simp [ApplicationRuntime.withState, hactivity, ApplicationState.setIdle]
      | unloading hactivity => simp [ApplicationRuntime.withState, hactivity, ApplicationState.setIdle]
    rw [hrest, advance_quiet hgoes]
    have hidle : Agrees ⟨_, s.submitted, []⟩ := .idle hgoes.activity rfl
    exact ⟨hidle, .of_loaded hidle nofun (.inl hgoes.loaded)⟩

theorem Agrees.loading_of_load (h : Agrees s) {ticket : CommandTicket} {k : ℕ} (hone : s.awaited = [(.load ticket, k)]) :
    s.app.state.loaded = none := by
  cases h with
  | loading _ hloaded => exact hloaded
  | idle _ hawaited => cases hawaited.symm.trans hone
  | late _ _ hawaited => cases hawaited.symm.trans hone
  | resolving _ hawaited => cases hawaited.symm.trans hone
  | unloading _ _ howed _ hawaited =>
    cases hawaited.symm.trans hone
    cases howed

/-- An unload that is awaited is one of the loaded model. -/
theorem Agrees.unloading_of_unload (h : Agrees s) {owed : Awaited} {ticket : CommandTicket} {handle : ModelHandle} {k : ℕ}
    (hone : s.awaited = [(owed, k)]) (howed : owed.unload? = some (ticket, handle)) :
    ∃ model, s.app.state.loaded = some model ∧ model.handle = handle ∧
      (owed.isLate = false → s.app.state.activity = .unloading) := by
  cases h with
  | unloading hactivity hloaded howed' _ hawaited =>
    cases hawaited.symm.trans hone
    cases howed'.symm.trans howed
    exact ⟨_, hloaded, rfl, fun _ => hactivity⟩
  | late _ hloaded hawaited =>
    cases hawaited.symm.trans hone
    cases howed
    exact ⟨_, hloaded, rfl, nofun⟩
  | idle _ hawaited => cases hawaited.symm.trans hone
  | resolving _ hawaited =>
    cases hawaited.symm.trans hone
    cases howed
  | loading _ _ hawaited =>
    cases hawaited.symm.trans hone
    cases howed

/-- The answer of the worker to the one command that is awaited. -/
theorem answered_agrees (h : Agrees s) {answer : ApplicationRuntime.PollAnswer} {event : RuntimeEvent}
    {before after : List (Awaited × ℕ)} {owed : Awaited} {rest : Option Awaited} {k : ℕ}
    (hhub : s.app.state.hubAvailable = false ∨ answer.hub = .empty)
    (havailable : s.app.state.inferenceAvailable = true) (hinference : answer.inference = .event event)
    (hawaited : s.awaited = before ++ (owed, k) :: after) (hgives : owed.Gives event rest) :
    let s' := s.advance (s.app.pollEvent debug answer).2 (before ++ rest.toList.map (·, k) ++ after)
    Agrees s' ∧ Proper s (.pollEvent answer) (some k) s' := by
  obtain ⟨rfl, rfl, rfl, hone⟩ := h.split hawaited
  rw [ApplicationRuntime.pollEvent_eq_pollInference hhub,
    ApplicationRuntime.pollInference_event havailable hinference, List.nil_append, List.append_nil]
  have hcurrent : ∀ k ∈ some s.submitted, k = s.submitted := by
    rintro _ ⟨⟩
    rfl
  cases hgives with
  | @loaded ticket result =>
    have hnone := h.loading_of_load hone
    obtain ⟨loaded, hgoes⟩ | ⟨model, ticket', hgoes⟩ :=
      ApplicationRuntime.processModelLoaded_goes s.app debug result answer.submit
    · have hidle : Agrees ⟨_, s.submitted, []⟩ := .idle hgoes.activity rfl
      have hstep := advance_quiet hgoes []
      exact hstep ▸ ⟨hidle, .of_loaded hidle hcurrent (.inr hnone)⟩
    · have hunloading : Agrees ⟨_, s.submitted + 1, [(.unload ticket' model.handle, s.submitted + 1)]⟩ :=
        .unloading hgoes.activity hgoes.loaded rfl rfl rfl
      have hstep := advance_sent hgoes
      exact hstep ▸ ⟨hunloading, .of_loaded hunloading hcurrent (.inr hnone)⟩
  | @draining ticket handle receipt hhandle hstatus =>
    obtain ⟨model, hmodel, rfl, hactivity⟩ := h.unloading_of_unload hone rfl
    have happ : (s.app.processRuntimeEvent debug (.modelUnload ticket (.ok receipt)) answer.submit).2 = s.app := by
      simp [ApplicationRuntime.processRuntimeEvent, ApplicationRuntime.processModelUnload, hstatus]
    rw [happ, advance_quiet (.refl rfl rfl rfl rfl)]
    have hunloading : Agrees ⟨s.app, s.submitted, [(.draining ticket model.handle, s.submitted)]⟩ :=
      .unloading (hactivity rfl) hmodel rfl rfl rfl
    exact ⟨hunloading, .of_loaded hunloading hcurrent (.inl rfl)⟩
  | @completed owed ticket handle receipt howed hhandle hstatus =>
    obtain ⟨model, hmodel, rfl, -⟩ := h.unloading_of_unload hone howed
    have hgoes : Goes s.app (s.app.withState .clearLoaded) .idle none [] :=
      ⟨rfl, rfl, ApplicationRuntime.sent_same rfl rfl⟩
    rw [ApplicationRuntime.processRuntimeEvent_completed s.app debug hstatus, advance_quiet hgoes]
    have hidle : Agrees ⟨s.app.withState .clearLoaded, s.submitted, []⟩ := .idle rfl rfl
    refine ⟨hidle, hidle.length_le, hcurrent, fun model' hmodel' _ => ?_⟩
    obtain rfl := Option.some.inj (hmodel.symm.trans hmodel')
    exact ⟨answer, ticket, receipt, rfl, hinference, hstatus, hhandle⟩
  | @failed owed ticket handle e howed hfirst retried =>
    obtain ⟨model, hmodel, rfl, -⟩ := h.unloading_of_unload hone howed
    have hgoes : Goes s.app (s.app.withState .setIdle) .idle s.app.state.loaded [] :=
      ⟨rfl, rfl, ApplicationRuntime.sent_same rfl rfl⟩
    have hstep := advance_quiet hgoes
    cases retried with
    | true =>
      have hlate : Agrees ⟨s.app.withState .setIdle, s.submitted, [(.late ticket model.handle, s.submitted)]⟩ :=
        .late rfl hmodel rfl
      exact hstep _ ▸ ⟨hlate, .of_loaded hlate hcurrent (.inl rfl)⟩
    | false =>
      have hidle : Agrees ⟨s.app.withState .setIdle, s.submitted, []⟩ := .idle rfl rfl
      exact hstep _ ▸ ⟨hidle, .of_loaded hidle hcurrent (.inl rfl)⟩

/-- A step of the condition keeps what is awaited in each activity, and is proper. -/
theorem Step.agrees (h : Agrees s) (hclear : s.Clear call) (hstep : Step debug s call answered s') :
    Agrees s' ∧ Proper s call answered s' := by
  cases hstep with
  | resolveModel repository revision send => exact resolveModel_agrees h repository revision send
  | loadModel repository revision submit => exact loadModel_agrees h repository revision submit
  | unloadModel submit => exact unloadModel_agrees h hclear submit
  | resolved havailable hhub hawaited => exact resolved_agrees h havailable hhub hawaited
  | hubLost havailable hhub => exact hubLost_agrees h havailable hhub
  | answered hhub havailable hinference hawaited hgives => exact answered_agrees h hhub havailable hinference hawaited hgives
  | inferenceLost hhub havailable hinference => exact inferenceLost_agrees h hhub havailable hinference
  | nothing hhub hinference =>
    rw [ApplicationRuntime.pollEvent_eq_pollInference hhub, ApplicationRuntime.pollInference_quiet hinference]
    exact same_agrees h rfl (.refl rfl rfl rfl rfl)

/-! ### Whole runs -/

/-- The systems that are reached by steps of the condition. -/
def Reaches (debug : RuntimeError → String) : ApplicationSystem → ApplicationSystem → Prop :=
  Relation.ReflTransGen fun s s' => ∃ call answered, s.Clear call ∧ Step debug s call answered s'

theorem Reaches.agrees {preferences : ApplicationPreferences} (h : Reaches debug (start preferences) s) : Agrees s := by
  induction h with
  | refl => exact .idle rfl rfl
  | tail _ hstep ih =>
    obtain ⟨call, answered, hclear, hstep⟩ := hstep
    exact (hstep.agrees ih hclear).1

/-- As long as no unload is asked for while the completion of a failed one can
still come: at most one command is awaited, each event answers the last command,
and the loaded model goes only with a completion for its handle. -/
theorem one_command_awaited {preferences : ApplicationPreferences} (h : Reaches debug (start preferences) s) :
    s.awaited.length ≤ 1 ∧
      ∀ call answered s', s.Clear call → Step debug s call answered s' → Proper s call answered s' :=
  ⟨h.agrees.length_le, fun _ _ _ hclear hstep => (hstep.agrees h.agrees hclear).2⟩

/-- A model is resolved and loaded. -/
def loadedSystem : ApplicationSystem where
  app :=
    { state := { resolved := some ⟨"repo", "main", "0", 10, some .f32⟩, loaded := some ⟨⟨1, 1⟩, 10⟩ }
      preferences := ⟨"repo", "main", 5⟩
      resolvedArtifacts := some ⟨"repo", "main", "0", some .f32, "config", "tokenizer", ["weights"]⟩
      tokenizer := some 10
      nextTicket := 2
      hubCommands := [.resolve ⟨"repo", "main"⟩]
      inferenceCommands := [.loadModel 1 modelId ⟨"config", ["weights"], .f32⟩ cpuDevice .cpu] }
  submitted := 2

theorem reaches_loadedSystem : Reaches (fun _ => "") (start ⟨"", "", 5⟩) loadedSystem := by
  let artifacts : ResolvedModelArtifacts := ⟨"repo", "main", "0", some .f32, "config", "tokenizer", ["weights"]⟩
  let resolving : ApplicationSystem :=
    ⟨{ state := { activity := .resolving }, preferences := ⟨"", "", 5⟩, hubCommands := [.resolve ⟨"repo", "main"⟩] },
      1, [(.resolve, 1)]⟩
  let resolved : ApplicationSystem :=
    ⟨{ state := { resolved := some ⟨"repo", "main", "0", 10, some .f32⟩ }
       preferences := ⟨"repo", "main", 5⟩
       resolvedArtifacts := some artifacts
       tokenizer := some 10
       hubCommands := [.resolve ⟨"repo", "main"⟩] }, 1, []⟩
  let loading : ApplicationSystem :=
    ⟨{ resolved.app with
       state := { resolved := some ⟨"repo", "main", "0", 10, some .f32⟩, activity := .loading }
       nextTicket := 2
       inferenceCommands := [.loadModel 1 modelId ⟨"config", ["weights"], .f32⟩ cpuDevice .cpu] },
      2, [(.load 1, 2)]⟩
  have hresolving : Reaches (fun _ => "") (start ⟨"", "", 5⟩) resolving := .single
    ⟨.resolveModel "repo" "main" .sent, none, trivial, .resolveModel "repo" "main" .sent⟩
  have hresolved : Reaches (fun _ => "") (start ⟨"", "", 5⟩) resolved := hresolving.tail
    ⟨.pollEvent (.ofHub ⟨.ok artifacts⟩ 10), some 1, trivial, @Step.resolved _ _ _ _ [] [] _ rfl rfl rfl⟩
  have hloading : Reaches (fun _ => "") (start ⟨"", "", 5⟩) loading := hresolved.tail
    ⟨.loadModel "repo" "main" .sent, none, trivial, .loadModel "repo" "main" .sent⟩
  exact hloading.tail ⟨.pollEvent (.ofInference (.modelLoaded 1 (.ok loadedReceipt))), some 2, trivial,
    @Step.answered _ _ _ _ [] [] _ _ _ (.inr rfl) rfl rfl rfl .loaded⟩

/-- The model of a reached system is unloaded: the completion answers the unload,
and the model goes with it. -/
theorem one_command_awaited_unloaded :
    let completion : RuntimeEvent := .modelUnload 2 (.ok ⟨⟨1, 1⟩, .unloaded, 0⟩)
    let s := loadedSystem.advance (loadedSystem.app.unloadModel .sent).2 loadedSystem.awaited
    let s' := s.advance (s.app.pollEvent (fun _ => "") (.ofInference completion)).2 []
    s.awaited = [(.unload 2 ⟨1, 1⟩, 3)] ∧ s.awaited.length ≤ 1 ∧ s.app.state.loaded = some ⟨⟨1, 1⟩, 10⟩ ∧
      s'.app.state.loaded = none ∧ Proper s (.pollEvent (.ofInference completion)) (some 3) s' := by
  intro completion s s'
  have hunloading : Reaches (fun _ => "") (start ⟨"", "", 5⟩) s := reaches_loadedSystem.tail
    ⟨.unloadModel .sent, none, fun _ howed => absurd howed List.not_mem_nil, .unloadModel .sent⟩
  obtain ⟨hone, hproper⟩ := one_command_awaited hunloading
  exact ⟨rfl, hone, rfl, rfl, hproper _ _ _ trivial (@Step.answered _ _ _ _ [] [] (.unload 2 ⟨1, 1⟩) none _ (.inr rfl)
    rfl rfl rfl (.completed rfl rfl (by decide)))⟩

/-- Without the condition: an unload is accepted while the completion of an
earlier one is still to come, and that completion ends its activity. -/
theorem completion_mistaken (h : Agrees s) {ticket : CommandTicket} {handle : ModelHandle}
    (hlate : s.awaited = [(.late ticket handle, s.submitted)]) {submit : SendResult}
    (hsubmitted : (s.app.unloadModel submit).1 = .ok ()) {answer : ApplicationRuntime.PollAnswer}
    {receipt : UnloadReceipt} (hhub : s.app.state.hubAvailable = false ∨ answer.hub = .empty)
    (havailable : s.app.state.inferenceAvailable = true)
    (hinference : answer.inference = .event (.modelUnload ticket (.ok receipt)))
    (hhandle : receipt.handle = handle) (hstatus : receipt.status ≠ .draining) :
    let second := s.advance (s.app.unloadModel submit).2 s.awaited
    let mistaken := second.advance (second.app.pollEvent debug answer).2
      [(.unload s.app.nextTicket handle, s.submitted + 1)]
    Step debug s (.unloadModel submit) none second ∧ second.awaited.length = 2 ∧
      second.app.state.activity = .unloading ∧
      Step debug second (.pollEvent answer) (some s.submitted) mistaken ∧ mistaken.app.state.activity = .idle ∧
      mistaken.awaited = [(.unload s.app.nextTicket handle, s.submitted + 1)] := by
  intro second mistaken
  obtain ⟨model, nextTicket, timeout, -, hmodel, happ⟩ := ApplicationRuntime.unloadModel_ok hsubmitted
  obtain ⟨model', hmodel', rfl, -⟩ := h.unloading_of_unload hlate rfl
  obtain rfl : model' = model := Option.some.inj (hmodel'.symm.trans hmodel)
  have hsent : s.app.sent (s.app.unloadModel submit).2 = [.unload s.app.nextTicket model'.handle] := by
    rw [happ]
    exact ApplicationRuntime.sent_inference rfl rfl rfl
  have hsecond : second = ⟨(s.app.unloadModel submit).2, s.submitted + 1,
      [(.late ticket model'.handle, s.submitted), (.unload s.app.nextTicket model'.handle, s.submitted + 1)]⟩ := by
    simp [second, advance, hsent, hlate]
  have hquiet : second.app.state.hubAvailable = false ∨ answer.hub = .empty := by
    rw [hsecond, happ]
    exact hhub
  have hthere : second.app.state.inferenceAvailable = true := by
    rw [hsecond, happ]
    exact havailable
  have hpoll : (second.app.pollEvent debug answer).2 = second.app.withState .clearLoaded := by
    rw [ApplicationRuntime.pollEvent_eq_pollInference hquiet,
      ApplicationRuntime.pollInference_event hthere hinference]
    exact ApplicationRuntime.processRuntimeEvent_completed _ _ hstatus
  have hgoes : Goes second.app (second.app.pollEvent debug answer).2 .idle none [] := by
    rw [hpoll]
    exact ⟨rfl, rfl, ApplicationRuntime.sent_same rfl rfl⟩
  have hmistaken : mistaken = ⟨(second.app.pollEvent debug answer).2, second.submitted,
      [(.unload s.app.nextTicket model'.handle, s.submitted + 1)]⟩ := advance_quiet hgoes _
  have hfirst : second.awaited =
      [] ++ (.late ticket model'.handle, s.submitted) ::
        [(.unload s.app.nextTicket model'.handle, s.submitted + 1)] := by rw [hsecond]; rfl
  refine ⟨.unloadModel submit, by rw [hsecond]; rfl, ?_, ?_, ?_, by rw [hmistaken]⟩
  · rw [hsecond, happ]
    rfl
  · exact .answered hquiet hthere hinference hfirst (.completed rfl hhandle hstatus)
  · rw [hmistaken]
    exact hgoes.activity

/-- The unload of the loaded model failed, and its cleanup is retried. -/
theorem completion_mistaken_loaded :
    let app : ApplicationRuntime :=
      { state := { loaded := some ⟨⟨1, 1⟩, 10⟩ }, preferences := ⟨"", "", 5⟩, nextTicket := 3 }
    let s : ApplicationSystem := ⟨app, 3, [(.late 2 ⟨1, 1⟩, 3)]⟩
    let second := s.advance (s.app.unloadModel .sent).2 s.awaited
    second.awaited.length = 2 ∧ second.app.state.activity = .unloading := by
  intro app s second
  have hagrees : Agrees s := @Agrees.late s 2 ⟨⟨1, 1⟩, 10⟩ rfl rfl rfl
  have hmistaken := @completion_mistaken s (fun _ => "") hagrees 2 ⟨1, 1⟩ rfl .sent rfl
    (.ofInference (.modelUnload 2 (.ok ⟨⟨1, 1⟩, .unloaded, 0⟩))) ⟨⟨1, 1⟩, .unloaded, 0⟩ (.inr rfl) rfl rfl rfl nofun
  exact ⟨hmistaken.2.1, hmistaken.2.2.1⟩

end ApplicationSystem

end LlmApp
