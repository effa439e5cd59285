/-
# Shutting down and events that still arrive

A runtime that is shutting down refuses every operation. But an event of a
worker still marked as available sets the activity that follows it, whatever
the activity is: a shutdown that could not reach a worker, or did not wait for
it long enough, is undone by the first such event (`takesSettling`).

Key definitions: `RuntimeEvent.settles`, `ApplicationRuntime.takesSettling`.
Key theorems: `stays_iff`, `shuttingDown_absorbing`.
-/
import LlmApp.Application.Shutdown

namespace LlmApp

variable (debug : RuntimeError → String)

/-- The event ends a load or an unload. -/
def RuntimeEvent.settles : RuntimeEvent → Bool
  | .modelLoaded _ _ => true
  | .modelUnload _ (.ok receipt) => receipt.status ≠ .draining
  | .modelUnload _ (.error _) => true
  | _ => false

namespace ApplicationRuntime

/-- The inference worker's half of a poll takes an event that sets the activity. -/
def inferenceSettles (app : ApplicationRuntime) (answer : PollAnswer) : Bool :=
  app.state.inferenceAvailable &&
    match answer.inference with
    | .event event => event.settles
    | .empty | .disconnected => false

/-- A poll takes an event that sets the activity. -/
def takesSettling (app : ApplicationRuntime) : ApplicationCall → Bool
  | .pollEvent answer =>
    if app.state.hubAvailable then
      match answer.hub with
      | .event _ => true
      | .empty => app.inferenceSettles answer
      | .disconnected => false
    else app.inferenceSettles answer
  | _ => false

/-- From `app` to `app'` the application goes on shutting down, and its workers
get no command. -/
structure Stays (app app' : ApplicationRuntime) : Prop where
  activity : app'.state.activity = .shuttingDown
  hub : app'.hubCommands = app.hubCommands
  inference : app'.inferenceCommands = app.inferenceCommands

/-- The call changes nothing of that, and starts no operation. -/
def Refuses (app : ApplicationRuntime) (call : ApplicationCall) : Prop :=
  Stays app (app.call debug call) ∧ app.accepts call = false

/-- `P` holds at every call of a sequence. -/
def AtEach (P : ApplicationRuntime → ApplicationCall → Prop) : List ApplicationCall → ApplicationRuntime → Prop
  | [], _ => True
  | call :: calls, app => P app call ∧ AtEach P calls (app.call debug call)

variable {app : ApplicationRuntime}

/-! ### What an event does to the activity -/

theorem processHubEvent_activity (event : HubEvent) (tokenizer : Except String ℕ) (storage : StorageAnswer) :
    (app.processHubEvent event tokenizer storage).2.state.activity = .idle := by
  unfold processHubEvent acceptResolvedArtifacts
  cases event.resolved with
  | error error => rfl
  | ok artifacts =>
    cases tokenizer with
    | error error => rfl
    | ok vocabularySize => rfl

theorem submitUnload_activity {app app' : ApplicationRuntime} {handle : ModelHandle} {submit : SendResult}
    (h : app.submitUnload handle submit = (.ok (), app')) : app'.state.activity = .unloading := by
  unfold submitUnload at h
  split_ifs at h
  · rcases hticket : app.takeTicket with ⟨_ | ticket, ticketed⟩ <;> rw [hticket] at h
    · cases h
    · cases submit with
      | sent =>
        obtain ⟨-, rfl⟩ := Prod.mk.inj h
        rfl
      | full => cases h
      | disconnected => cases h
  · cases h

theorem rejectIncompatibleModel_activity (app : ApplicationRuntime) (handle : ModelHandle) (submit : SendResult) :
    (app.rejectIncompatibleModel handle submit).2.state.activity ≠ .shuttingDown := by
  unfold rejectIncompatibleModel
  dsimp only
  split
  · exact ApplicationActivity.noConfusion
  next app' hsubmitted =>
    rw [submitUnload_activity hsubmitted]
    exact ApplicationActivity.noConfusion

/-- An event of a load leaves the application idle, or unloading what it loaded. -/
theorem processModelLoaded_activity (result : Except RuntimeError LoadReceipt) (submit : SendResult) :
    (app.processModelLoaded debug result submit).2.state.activity ≠ .shuttingDown := by
  unfold processModelLoaded
  cases result with
  | error error => exact ApplicationActivity.noConfusion
  | ok receipt =>
    dsimp only
    split_ifs
    · exact rejectIncompatibleModel_activity _ receipt.handle submit
    · exact ApplicationActivity.noConfusion

/-- An event either sets the activity or changes nothing. -/
theorem processRuntimeEvent_cases (event : RuntimeEvent) (submit : SendResult) :
    event.settles = true ∧ (app.processRuntimeEvent debug event submit).2.state.activity ≠ .shuttingDown ∨
      event.settles = false ∧ (app.processRuntimeEvent debug event submit).2 = app := by
  cases event with
  | modelLoaded ticket result => exact Or.inl ⟨rfl, processModelLoaded_activity debug result submit⟩
  | modelUnload ticket result =>
    cases result with
    | error error => exact Or.inl ⟨rfl, ApplicationActivity.noConfusion⟩
    | ok receipt =>
      obtain ⟨handle, status, cancelledRequests⟩ := receipt
      cases status with
      | draining => exact Or.inr ⟨rfl, rfl⟩
      | alreadyAbsent => exact Or.inl ⟨rfl, ApplicationActivity.noConfusion⟩
      | unloaded => exact Or.inl ⟨rfl, ApplicationActivity.noConfusion⟩
  | _ => exact Or.inr ⟨rfl, rfl⟩

/-! ### One call -/

theorem requireIdle_shuttingDown (h : app.state.activity = .shuttingDown) :
    app.requireIdle = .error (.busy .shuttingDown) := by
  rw [requireIdle, Except.failIf, if_pos (by rw [h]; exact ApplicationActivity.noConfusion), h]

theorem refuses_of_same (h : app.state.activity = .shuttingDown) {call : ApplicationCall}
    (hsame : app.call debug call = app) (haccepts : app.accepts call = false) : Refuses debug app call := by
  rw [Refuses, hsame]
  exact ⟨⟨h, rfl, rfl⟩, haccepts⟩

theorem pollInference_stays_iff (h : app.state.activity = .shuttingDown) (answer : PollAnswer) :
    Stays app (app.pollInference debug answer).2 ↔ app.inferenceSettles answer = false := by
  unfold pollInference inferenceSettles
  cases app.state.inferenceAvailable with
  | false => exact iff_of_true ⟨h, rfl, rfl⟩ rfl
  | true =>
    rw [if_pos rfl, Bool.true_and]
    obtain ⟨hub, inference, tokenizer, storage, submit⟩ := answer
    cases inference with
    | event event =>
      obtain ⟨hsettles, hactivity⟩ | ⟨hsettles, hsame⟩ := @processRuntimeEvent_cases debug app event submit
      · exact iff_of_false (fun hstays => hactivity hstays.activity) (by simp [hsettles])
      · exact iff_of_true ⟨by rw [hsame, h], by rw [hsame], by rw [hsame]⟩ hsettles
    | empty => exact iff_of_true ⟨h, rfl, rfl⟩ rfl
    | disconnected => exact iff_of_true ⟨by simp [withState, h, ApplicationState.disconnectInference], rfl, rfl⟩ rfl

/-- While shutting down, a call is refused exactly if it takes no event that
sets the activity. -/
theorem stays_iff (h : app.state.activity = .shuttingDown) (call : ApplicationCall) :
    Refuses debug app call ↔ app.takesSettling call = false := by
  have hidle := requireIdle_shuttingDown h
  cases call with
  | resolveModel repository revision send =>
    have hresult : app.resolveModel repository revision send = (.error (.busy .shuttingDown), app) := by
      simp [resolveModel, hidle]
    exact iff_of_true (refuses_of_same debug h (by simp [call, hresult])
      (by simp [accepts, hresult, Except.isOk, Except.toBool])) rfl
  | loadModel repository revision submit =>
    have hresult : app.loadModel repository revision submit = (.error (.busy .shuttingDown), app) := by
      simp [loadModel, loadSource, hidle]
    exact iff_of_true (refuses_of_same debug h (by simp [call, hresult])
      (by simp [accepts, hresult, Except.isOk, Except.toBool])) rfl
  | unloadModel submit =>
    have hresult : app.unloadModel submit = (.error (.busy .shuttingDown), app) := by
      simp [unloadModel, hidle]
    exact iff_of_true (refuses_of_same debug h (by simp [call, hresult])
      (by simp [accepts, hresult, Except.isOk, Except.toBool])) rfl
  | shutdown answer =>
    have hresult : app.shutdown debug answer = (.ok (), app) := by simp [shutdown, h]
    exact iff_of_true (refuses_of_same debug h (by simp [call, hresult]) rfl) rfl
  | pollEvent answer =>
    have hinference := pollInference_stays_iff debug h answer
    have hrefuses : Refuses debug app (.pollEvent answer) ↔ Stays app (app.pollEvent debug answer).2 :=
      ⟨fun hr => hr.1, fun hs => ⟨hs, rfl⟩⟩
    rw [hrefuses]
    unfold pollEvent takesSettling
    cases app.state.hubAvailable with
    | false => exact hinference
    | true =>
      dsimp only
      rw [if_pos rfl, if_pos rfl]
      obtain ⟨hub, inference, tokenizer, storage, submit⟩ := answer
      cases hub with
      | event event =>
        refine iff_of_false (fun hstays => ?_) Bool.noConfusion
        have hidle' : (app.processHubEvent event tokenizer storage).2.state.activity = .idle :=
          processHubEvent_activity event tokenizer storage
        exact ApplicationActivity.noConfusion (hidle'.symm.trans hstays.activity)
      | empty => exact hinference
      | disconnected => exact iff_of_true ⟨by simp [withState, h, ApplicationState.disconnectHub], rfl, rfl⟩ rfl

/-! ### The shutdown itself -/

theorem requestHubShutdown_activity (app : ApplicationRuntime) (send : SendResult) :
    (app.requestHubShutdown send).2.state.activity = app.state.activity := by
  unfold requestHubShutdown
  cases app.state.hubAvailable with
  | false => rfl
  | true => cases send <;> rfl

theorem takeTicket_state (app : ApplicationRuntime) : app.takeTicket.2.state = app.state := by
  unfold takeTicket
  split <;> rfl

theorem shutdownRuntimeWorker_state (app : ApplicationRuntime) (ticket : CommandTicket) (answer : ShutdownAnswer) :
    (app.shutdownRuntimeWorker ticket answer).2.state = app.state := by
  unfold shutdownRuntimeWorker
  split_ifs
  · rcases submitShutdown answer.submits with e | sent
    · rfl
    · cases sent <;> rfl
  · rfl

theorem shutdownRuntime_activity (app : ApplicationRuntime) (answer : ShutdownAnswer) :
    (app.shutdownRuntime debug answer).2.state.activity = app.state.activity := by
  have hticketed := takeTicket_state app
  unfold shutdownRuntime
  split_ifs
  · rcases hticket : app.takeTicket with ⟨e | ticket, ticketed⟩ <;> rw [hticket] at hticketed
    · exact congrArg (fun state => state.activity) hticketed
    · have hworker := shutdownRuntimeWorker_state ticketed ticket answer
      rcases hasked : ticketed.shutdownRuntimeWorker ticket answer with ⟨e | outcome, asked⟩ <;> rw [hasked] at hworker
      all_goals
        dsimp only
        rw [hasked]
        exact congrArg (fun state => state.activity) (hworker.trans hticketed)
  · rfl

theorem joinRuntimeWorker_state (app : ApplicationRuntime) (answer : JoinAnswer) :
    (app.joinRuntimeWorker answer).2.state = app.state := by
  unfold joinRuntimeWorker
  split_ifs <;> rfl

theorem joinHubWorker_state (app : ApplicationRuntime) (answer : JoinAnswer) :
    (app.joinHubWorker answer).2.state = app.state := by
  unfold joinHubWorker
  split_ifs <;> rfl

/-- Whatever a shutdown returns, it leaves the application shutting down. -/
theorem shutdown_activity (app : ApplicationRuntime) (answer : ShutdownAnswer) :
    (app.shutdown debug answer).2.state.activity = .shuttingDown := by
  unfold shutdown
  split_ifs with h
  · exact h
  · dsimp only
    split
    all_goals
      rw [joinHubWorker_state, joinRuntimeWorker_state, shutdownRuntime_activity, requestHubShutdown_activity]
      rfl

/-! ### Every later sequence of calls -/

theorem stays_all_iff (calls : List ApplicationCall) : ∀ {app : ApplicationRuntime}, app.state.activity = .shuttingDown →
    (AtEach debug (Refuses debug) calls app ↔
      AtEach debug (fun app call => app.takesSettling call = false) calls app) := by
  induction calls with
  | nil => exact fun _ => Iff.rfl
  | cons call calls ih =>
    intro app h
    have hhere := stays_iff debug h call
    constructor
    · rintro ⟨hrefuses, hrest⟩
      exact ⟨hhere.mp hrefuses, (ih hrefuses.1.activity).mp hrest⟩
    · rintro ⟨hsettles, hrest⟩
      have hrefuses := hhere.mpr hsettles
      exact ⟨hrefuses, (ih hrefuses.1.activity).mpr hrest⟩

/-- Without a worker marked as available there is nothing a poll could take. -/
theorem call_disconnected (h : app.state.activity = .shuttingDown) (hhub : app.state.hubAvailable = false)
    (hinference : app.state.inferenceAvailable = false) (call : ApplicationCall) :
    app.takesSettling call = false ∧ (app.call debug call).state = app.state := by
  have hidle := requireIdle_shuttingDown h
  cases call with
  | resolveModel repository revision send => exact ⟨rfl, by simp [call, resolveModel, hidle]⟩
  | loadModel repository revision submit => exact ⟨rfl, by simp [call, loadModel, loadSource, hidle]⟩
  | unloadModel submit => exact ⟨rfl, by simp [call, unloadModel, hidle]⟩
  | shutdown answer => exact ⟨rfl, by simp [call, shutdown, h]⟩
  | pollEvent answer =>
    constructor
    · simp [takesSettling, inferenceSettles, hhub, hinference]
    · simp [call, pollEvent, pollInference, hhub, hinference]

theorem disconnected_all (calls : List ApplicationCall) : ∀ {app : ApplicationRuntime},
    app.state.activity = .shuttingDown → app.state.hubAvailable = false → app.state.inferenceAvailable = false →
      AtEach debug (fun app call => app.takesSettling call = false) calls app := by
  induction calls with
  | nil => exact fun _ _ _ => trivial
  | cons call calls ih =>
    intro app h hhub hinference
    obtain ⟨hsettles, hstate⟩ := call_disconnected debug h hhub hinference call
    exact ⟨hsettles, ih (by rw [hstate, h]) (by rw [hstate, hhub]) (by rw [hstate, hinference])⟩

/-- After a shutdown, whatever it returned: the application is shutting down, and
stays so and refuses every call exactly as long as no poll takes an event that
sets the activity. If the shutdown disconnected both workers, no poll does. -/
theorem shuttingDown_absorbing (app : ApplicationRuntime) (answer : ShutdownAnswer) (calls : List ApplicationCall) :
    let left := (app.shutdown debug answer).2
    left.state.activity = .shuttingDown ∧
      (AtEach debug (Refuses debug) calls left ↔
        AtEach debug (fun app call => app.takesSettling call = false) calls left) ∧
      (left.state.hubAvailable = false → left.state.inferenceAvailable = false →
        AtEach debug (Refuses debug) calls left) := by
  have hshutting := shutdown_activity debug app answer
  refine ⟨hshutting, stays_all_iff debug calls hshutting, fun hhub hinference => ?_⟩
  exact (stays_all_iff debug calls hshutting).mpr (disconnected_all debug calls hshutting hhub hinference)

/-- A model is being loaded when the shutdown gives up on the inference worker.
The load's answer then ends the shutdown, and an unload is accepted and sent. -/
theorem shutdown_undone :
    let debug : RuntimeError → String := fun _ => ""
    let loading := (ApplicationRuntime.start ⟨"", "", 5⟩).callAll debug loadingCalls
    let answer : ShutdownAnswer := ⟨.sent, true, [(.sent, true)], [], ⟨true, false, none⟩, ⟨true, true, none⟩⟩
    let left := (loading.shutdown debug answer).2
    let poll : ApplicationCall := .pollEvent (.ofInference (.modelLoaded 1 (.ok loadedReceipt)))
    let undone := left.call debug poll
    ¬AtEach debug (Refuses debug) [poll, .unloadModel .sent] left ∧
      (loading.shutdown debug answer).1 = .error (.shutdownTimeout .inference) ∧
      left.state.activity = .shuttingDown ∧ undone.state.activity = .idle ∧
      (undone.unloadModel .sent).1 = .ok () ∧
      (undone.unloadModel .sent).2.inferenceCommands =
        undone.inferenceCommands ++ [.unloadModel 3 ⟨1, 1⟩ (.drain ⟨5, by decide⟩)] := by
  refine ⟨fun h => ?_, rfl, rfl, rfl, rfl, rfl⟩
  exact ApplicationActivity.noConfusion (h.1.1.activity : ApplicationActivity.idle = .shuttingDown)

end ApplicationRuntime

end LlmApp
