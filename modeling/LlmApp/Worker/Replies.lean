/-
# Replies of the worker

The loop's slot and queue are an outbox (`Worker.outbox`), and a running worker
does one of three things to its line: nothing, a maintenance event at its end,
or the reply to the command it takes (`Delivery`). So each dispatched command
has its one reply in the line. The replies stand in the order of their
commands as long as no command is taken while the slot is empty in front of a
queue.

Key definitions: `Worker.outbox`, `replies`, `Delivery`, `Worker.InOrder`.
Key theorems: `Worker.step_delivery`, `replies_in_order`.
-/
import LlmApp.Data.Outbox
import LlmApp.Worker.Exit

namespace LlmApp

variable {σ Source τ : Type} (b : Backend σ Source) (s : Sampling τ)

/-! ### Tickets -/

def RuntimeCommand.ticket : RuntimeCommand Source → CommandTicket
  | .loadModel ticket .. | .startRequest ticket .. | .generate ticket .. | .prefill ticket ..
  | .decode ticket .. | .completeRequest ticket .. | .cancelRequest ticket .. | .unloadModel ticket ..
  | .snapshot ticket | .shutdown ticket => ticket

def RuntimeEvent.ticket : RuntimeEvent → CommandTicket
  | .modelLoaded ticket _ | .requestStarted ticket _ | .generationAdmitted ticket _
  | .generationCancellationRequested ticket .. | .prefillCompleted ticket .. | .decodeCompleted ticket ..
  | .requestFinished ticket .. | .modelUnload ticket _ | .snapshot ticket .. | .shutdown ticket _ => ticket

def RuntimeCommand.isShutdown : RuntimeCommand Source → Bool
  | .shutdown _ => true
  | _ => false

/-- The reply to a command carries its ticket. -/
theorem dispatch_ticket (rt : InferenceRuntime σ) (sch : GenerationScheduler τ) (capacities : ℕ × ℕ)
    (allocates : CapacityResource → Bool) (now : MonotonicMillis) (command : RuntimeCommand Source) :
    (dispatch b s rt sch capacities allocates now command).event.ticket = command.ticket := by
  cases command with
  | cancelRequest =>
    unfold dispatch
    dsimp only
    split_ifs <;> rfl
  | _ => rfl

/-- Only a shutdown stops the worker. -/
theorem dispatch_stop_isSome (rt : InferenceRuntime σ) (sch : GenerationScheduler τ) (capacities : ℕ × ℕ)
    (allocates : CapacityResource → Bool) (now : MonotonicMillis) (command : RuntimeCommand Source) :
    (dispatch b s rt sch capacities allocates now command).stop.isSome = command.isShutdown := by
  cases command with
  | cancelRequest =>
    unfold dispatch
    dsimp only
    split_ifs <;> rfl
  | _ => rfl

/-! ### The outbox of the loop -/

/-- The replies among the events, in their order. -/
def replies (posts : List Post) : List RuntimeEvent := (posts.filter (·.reply)).map (·.event)

@[simp] theorem replies_append (posts posts' : List Post) :
    replies (posts ++ posts') = replies posts ++ replies posts' := by
  simp [replies]

@[simp] theorem replies_reply (event : RuntimeEvent) : replies [⟨event, true⟩] = [event] := rfl

@[simp] theorem replies_maintenance (event : RuntimeEvent) : replies [⟨event, false⟩] = [] := rfl

theorem replies_perm {posts posts' : List Post} (h : posts.Perm posts') :
    (replies posts).Perm (replies posts') := (h.filter _).map _

namespace Worker

variable (w : Worker σ τ)

def outbox : Outbox Post := ⟨w.sent, w.pendingEvent, w.queuedEvents⟩

/-- No shutdown was dispatched and no endpoint was found disconnected. -/
def Running : Prop := w.stopAfterEvent = none ∧ ∀ exit, w.location ≠ .stopped exit

/-- What a step of a running worker does to the line of its outbox. -/
inductive Delivery (input : WorkerInput Source) (w' : Worker σ τ) : Prop
  | kept (hline : w'.outbox.line = w.outbox.line) (hd : w'.dispatched = w.dispatched)
  | entered (event : RuntimeEvent) (hline : w'.outbox.line = w.outbox.line ++ [⟨event, false⟩])
      (hd : w'.dispatched = w.dispatched)
  | replied {command : RuntimeCommand Source} {allocates : CapacityResource → Bool} {now : MonotonicMillis}
      (event : RuntimeEvent) (ha : w.action b input = some (.command command allocates now))
      (hcommand : command.isShutdown = false) (ho : w'.outbox = w.outbox.post ⟨event, true⟩)
      (hd : w'.dispatched = w.dispatched ++ [event])
  | ended (h : ¬w'.Running)

theorem post_outbox (event : RuntimeEvent) : (w.post event).outbox = w.outbox.post ⟨event, true⟩ := by
  rcases hp : w.pendingEvent with _ | pending <;> simp [post, outbox, Outbox.post, hp]

theorem refill_line : w.refill.outbox.line = w.outbox.line ∨
    ∃ event, w.refill.outbox.line = w.outbox.line ++ [⟨event, false⟩] := by
  unfold refill
  split
  · exact Or.inl rfl
  · next event events hp hq =>
    refine Or.inl ?_
    have := w.outbox.line_refill
    simpa [Outbox.refill, outbox, hp, hq] using this
  · next hp hq =>
    split
    · exact Or.inl rfl
    · next event _ => exact Or.inr ⟨event, Outbox.line_enter (o := w.outbox) hp hq ⟨event, false⟩⟩

theorem refill_dispatched : w.refill.dispatched = w.dispatched := by
  unfold refill
  split
  · rfl
  · rfl
  · split <;> rfl

theorem afterPublication_outbox : w.afterPublication.outbox = w.outbox := by
  unfold afterPublication
  split_ifs <;> rfl

theorem afterPublication_dispatched : w.afterPublication.dispatched = w.dispatched := by
  unfold afterPublication
  split_ifs <;> rfl

theorem not_running {w' : Worker σ τ} {exit : WorkerExit} (h : w'.location = .stopped exit) : ¬w'.Running :=
  fun hr => hr.2 exit h

variable {w : Worker σ τ}

theorem shutdownAfterDisconnect_ended : ¬(w.shutdownAfterDisconnect b).Running := by
  unfold shutdownAfterDisconnect
  rcases w.runtime.shutdown b with ⟨result, rt⟩
  exact not_running rfl

theorem maintain_outbox (now : MonotonicMillis) :
    (w.maintain b now).outbox = w.outbox ∧ (w.maintain b now).dispatched = w.dispatched := by
  unfold maintain
  rcases maintenanceEvent b w.runtime now w.pendingUnloads with ⟨_ | _, rt, pending⟩ <;> exact ⟨rfl, rfl⟩

theorem cleanup_outbox : (w.cleanup b).outbox = w.outbox ∧ (w.cleanup b).dispatched = w.dispatched := by
  unfold cleanup
  rcases w.runtime.pollCleanup b with ⟨_ | _, rt⟩ <;> exact ⟨rfl, rfl⟩

theorem publish_delivery (h : w.Running) (input : WorkerInput Source) :
    w.Delivery b input (w.publish b input.send) := by
  unfold publish
  rw [h.1]
  rcases hp : w.pendingEvent with _ | event
  · exact .kept (congrArg _ w.afterPublication_outbox) w.afterPublication_dispatched
  dsimp only
  rcases input.send with _ | _ | _
  · refine .kept ?_ (afterPublication_dispatched _)
    rw [afterPublication_outbox]
    simpa [Outbox.send, outbox, hp] using w.outbox.line_send
  · exact .kept (congrArg _ w.afterPublication_outbox) w.afterPublication_dispatched
  · exact .ended (shutdownAfterDisconnect_ended b)

/-- A command other than a shutdown is answered in the line, a shutdown ends it. -/
theorem dispatchCommand_delivery {command : RuntimeCommand Source} {allocates : CapacityResource → Bool}
    (location : WorkerLocation) {input : WorkerInput Source}
    (ha : w.action b input = some (.command command allocates input.now)) :
    w.Delivery b input { w.dispatchCommand b s command allocates input.now with location := location } := by
  have hstop := dispatch_stop_isSome b s w.runtime w.scheduler w.output.capacities allocates input.now command
  unfold dispatchCommand
  dsimp only
  rcases hd : (dispatch b s w.runtime w.scheduler w.output.capacities allocates input.now command).stop with _ | stop
  · rw [hd] at hstop
    dsimp only
    refine .replied _ ha hstop.symm (post_outbox _ _) ?_
    unfold post
    dsimp only
    split <;> rfl
  · exact .ended fun h => by cases h.1

theorem step_delivery (h : w.Running) (input : WorkerInput Source) :
    w.Delivery b input (w.step b s input) := by
  unfold step
  rcases hl : w.location with _ | _ | _ | _ | ⟨left, handled⟩ | handled | _ | exit <;> dsimp only
  · exact .kept (congrArg _ (cleanup_outbox b).1) (cleanup_outbox b).2
  · exact .kept (congrArg _ (maintain_outbox b input.now).1) (maintain_outbox b input.now).2
  · unfold collect
    dsimp only
    rcases refill_line { w with
      pendingUnloads := _, maintenanceEvents := _, location := .publication } with hline | ⟨event, hline⟩
    · exact .kept hline (refill_dispatched _)
    · exact .entered event hline (refill_dispatched _)
  · exact publish_delivery b h input
  · rcases left with _ | left
    · exact .kept rfl rfl
    dsimp only [receive]
    split_ifs with hfull
    · exact .kept rfl rfl
    rcases hreceived : input.received with ⟨command, allocates⟩ | _ | _
    · exact dispatchCommand_delivery b s _ (by simp [action, hl, hfull, receivedAction, hreceived])
    · exact .kept rfl rfl
    · exact .ended (shutdownAfterDisconnect_ended b)
  · exact .kept rfl rfl
  · dsimp only [wait]
    rcases hreceived : input.received with ⟨command, allocates⟩ | _ | _
    · exact dispatchCommand_delivery b s _ (by simp [action, hl, receivedAction, hreceived])
    · exact .kept rfl rfl
    · exact .ended (shutdownAfterDisconnect_ended b)
  · exact absurd hl (h.2 exit)

/-! ### Runs -/

theorem dispatchCommand_stopping (h : w.stopAfterEvent ≠ none) (command : RuntimeCommand Source)
    (allocates : CapacityResource → Bool) (now : MonotonicMillis) :
    (w.dispatchCommand b s command allocates now).stopAfterEvent ≠ none := by
  unfold dispatchCommand
  dsimp only
  split
  · simp
  · unfold post
    dsimp only
    split <;> exact h

theorem publish_stopping (h : w.stopAfterEvent ≠ none) (send : SendResult) :
    (w.publish b send).stopAfterEvent ≠ none := by
  obtain ⟨stop, hs⟩ := Option.ne_none_iff_exists'.mp h
  have hafter : ∀ w : Worker σ τ, w.stopAfterEvent = some stop → w.afterPublication.stopAfterEvent ≠ none := by
    intro w hw
    unfold afterPublication
    split_ifs <;> simp [hw]
  unfold publish
  rw [hs]
  rcases w.pendingEvent with _ | event
  · dsimp only
    split_ifs
    · exact h
    · exact hafter w hs
  · rcases send with _ | _ | _
    · exact Option.some_ne_none stop
    · exact hafter w hs
    · exact Option.some_ne_none stop

/-- A worker that has ended does not run again. -/
theorem step_ended (h : ¬w.Running) (input : WorkerInput Source) : ¬(w.step b s input).Running := by
  by_cases hs : w.stopAfterEvent = none
  · obtain ⟨exit, hl⟩ : ∃ exit, w.location = .stopped exit := by simpa [Running, hs] using h
    unfold step
    rw [hl]
    exact h
  refine fun h' => ?_
  suffices (w.step b s input).stopAfterEvent ≠ none from this h'.1
  unfold step
  rcases w.location with _ | _ | _ | _ | ⟨_ | left, handled⟩ | handled | _ | exit <;> dsimp only
  · unfold cleanup
    rcases w.runtime.pollCleanup b with ⟨_ | _, rt⟩ <;> exact hs
  · unfold maintain
    rcases maintenanceEvent b w.runtime input.now w.pendingUnloads with ⟨_ | _, rt, pending⟩ <;> exact hs
  · unfold collect refill
    dsimp only
    split
    · exact hs
    · exact hs
    · split <;> exact hs
  · exact publish_stopping b hs input.send
  · exact hs
  · dsimp only [receive]
    split_ifs
    · exact hs
    rcases input.received with ⟨command, allocates⟩ | _ | _
    · exact dispatchCommand_stopping b s hs command allocates input.now
    · exact hs
    · exact hs
  · exact hs
  · dsimp only [wait]
    rcases input.received with ⟨command, allocates⟩ | _ | _
    · exact dispatchCommand_stopping b s hs command allocates input.now
    · exact hs
    · exact hs
  · exact hs

/-- No command other than a shutdown is taken while the slot is empty in front
of a queue. -/
def InOrder (w : Worker σ τ) (input : WorkerInput Source) : Prop :=
  ∀ command allocates now, w.action b input = some (.command command allocates now) →
    command.isShutdown = false → w.pendingEvent = none → w.queuedEvents = []

theorem step_replies {input : WorkerInput Source}
    (h : w.Running → (replies w.outbox.line).Perm w.dispatched) (hr : (w.step b s input).Running) :
    (replies (w.step b s input).outbox.line).Perm (w.step b s input).dispatched := by
  have hrunning : w.Running := by
    by_contra hne
    exact step_ended b s hne input hr
  have h := h hrunning
  rcases step_delivery b s hrunning input with ⟨hline, hd⟩ | ⟨event, hline, hd⟩ | ⟨event, -, -, ho, hd⟩ | hended
  · rwa [hline, hd]
  · rw [hline, hd]
    simpa using h
  · rw [ho, hd]
    refine (replies_perm (w.outbox.line_post_perm _)).trans ?_
    simpa using h.append_right [event]
  · exact absurd hr hended

theorem step_replies_inOrder {input : WorkerInput Source} (horder : w.InOrder b input)
    (h : w.Running → replies w.outbox.line = w.dispatched) (hr : (w.step b s input).Running) :
    replies (w.step b s input).outbox.line = (w.step b s input).dispatched := by
  have hrunning : w.Running := by
    by_contra hne
    exact step_ended b s hne input hr
  have h := h hrunning
  rcases step_delivery b s hrunning input with ⟨hline, hd⟩ | ⟨event, hline, hd⟩ | ⟨event, ha, hc, ho, hd⟩ | hended
  · rwa [hline, hd]
  · rw [hline, hd]
    simpa using h
  · have hpost := Outbox.line_post (o := w.outbox) (horder _ _ _ ha hc) ⟨event, true⟩
    rw [ho, hpost, hd]
    simpa using h
  · exact absurd hr hended

/-! ### The end -/

/-- A worker that is stopping, with its last event in the slot. -/
structure Parting (before : List Post) (reply : RuntimeEvent) (w : Worker σ τ) : Prop where
  stopping : w.stopAfterEvent ≠ none
  location : w.location.stopping = true
  going : ∀ exit, w.location ≠ .stopped exit
  slot : w.pendingEvent = some ⟨reply, true⟩
  sent : w.sent = before

/-- The steps before the next publication of a worker that is stopping. -/
def stepsToPublication (w : Worker σ τ) : ℕ :=
  match w.location with
  | .publication => 0
  | .collection => 1
  | .maintenance => 2
  | .cleanup => 3
  | _ => 4

/-- Until its publication the last event stays in the slot. -/
theorem Parting.step {before : List Post} {reply : RuntimeEvent} (h : Parting before reply w)
    (hl : w.location ≠ .publication) (input : WorkerInput Source) :
    Parting before reply (w.step b s input) ∧
      (w.step b s input).stepsToPublication + 1 = w.stepsToPublication := by
  have hlocation := h.location
  have hgoing := h.going
  unfold Worker.step
  rcases hw : w.location with _ | _ | _ | _ | ⟨left, handled⟩ | handled | _ | exit <;> rw [hw] at hlocation hl hgoing
  · unfold cleanup
    rcases w.runtime.pollCleanup b with ⟨_ | _, rt⟩ <;>
      exact ⟨⟨h.stopping, rfl, by simp, h.slot, h.sent⟩, by simp [stepsToPublication, hw]⟩
  · unfold maintain
    rcases maintenanceEvent b w.runtime input.now w.pendingUnloads with ⟨_ | _, rt, pending⟩ <;>
      exact ⟨⟨h.stopping, rfl, by simp, h.slot, h.sent⟩, by simp [stepsToPublication, hw]⟩
  · unfold collect refill
    simp only [h.slot]
    exact ⟨⟨h.stopping, rfl, by simp, rfl, h.sent⟩, by simp [stepsToPublication, hw]⟩
  · exact absurd rfl hl
  · cases hlocation
  · obtain rfl : handled = true := by cases handled <;> simp_all [WorkerLocation.stopping]
    exact ⟨⟨h.stopping, rfl, by simp [advance], h.slot, h.sent⟩, by simp [advance, stepsToPublication, hw]⟩
  · cases hlocation
  · exact absurd rfl (hgoing exit)

theorem Parting.publish {before : List Post} {reply : RuntimeEvent} (h : Parting before reply w)
    (hl : w.location = .publication) (input : WorkerInput Source) :
    match input.send with
    | .sent => ∃ exit, (w.step b s input).location = .stopped exit ∧
        (w.step b s input).sent = before ++ [⟨reply, true⟩]
    | .full => Parting before reply (w.step b s input)
    | .disconnected => ∃ exit, (w.step b s input).location = .stopped exit ∧ (w.step b s input).sent = before := by
  obtain ⟨stop, hs⟩ := Option.ne_none_iff_exists'.mp h.stopping
  simp only [Worker.step, hl, Worker.publish, h.slot]
  rcases input.send with _ | _ | _ <;> dsimp only
  · rw [hs]
    exact ⟨_, rfl, congrArg (· ++ _) h.sent⟩
  · rw [afterPublication, if_pos (by simp [hs])]
    exact ⟨h.stopping, rfl, by simp, h.slot, h.sent⟩
  · unfold shutdownAfterDisconnect
    rcases w.runtime.shutdown b with ⟨result, rt⟩
    exact ⟨_, rfl, h.sent⟩

/-- What becomes of the last event: it waits in the slot, was sent after the
events `before`, or was lost with the endpoint. -/
inductive Farewell (before : List Post) (reply : RuntimeEvent) (w : Worker σ τ) : Prop
  | parting (h : Parting before reply w)
  | sent (exit : WorkerExit) (hl : w.location = .stopped exit) (hsent : w.sent = before ++ [⟨reply, true⟩])
  | lost (exit : WorkerExit) (hl : w.location = .stopped exit) (hsent : w.sent = before)

theorem step_stopped {exit : WorkerExit} (hl : w.location = .stopped exit) (input : WorkerInput Source) :
    w.step b s input = w := by
  unfold Worker.step
  rw [hl]

theorem run_stopped {exit : WorkerExit} (hl : w.location = .stopped exit) :
    ∀ inputs : List (WorkerInput Source), run b s inputs w = w
  | [] => rfl
  | input :: inputs => by
    have ih := run_stopped hl inputs
    rwa [run, List.foldl_cons, step_stopped b s hl]

theorem step_farewell {before : List Post} {reply : RuntimeEvent} (input : WorkerInput Source)
    (h : Farewell before reply w) : Farewell before reply (w.step b s input) := by
  rcases h with h | ⟨exit, hl, hsent⟩ | ⟨exit, hl, hsent⟩
  · by_cases hl : w.location = .publication
    · have hp := h.publish b s hl input
      rcases hsend : input.send with _ | _ | _ <;> rw [hsend] at hp
      · obtain ⟨exit, hl', hsent⟩ := hp
        exact .sent exit hl' hsent
      · exact .parting hp
      · obtain ⟨exit, hl', hsent⟩ := hp
        exact .lost exit hl' hsent
    · exact .parting (h.step b s hl input).1
  · rw [step_stopped b s hl]
    exact .sent exit hl hsent
  · rw [step_stopped b s hl]
    exact .lost exit hl hsent

/-- The last event is sent once the channel takes events for a turn. -/
theorem Parting.sends {before : List Post} {reply : RuntimeEvent} :
    ∀ (inputs : List (WorkerInput Source)) {w : Worker σ τ}, Parting before reply w →
      (∀ input ∈ inputs, input.send = .sent) → w.stepsToPublication < inputs.length →
      (run b s inputs w).sent = before ++ [⟨reply, true⟩]
  | [], _, _, _, hn => by cases hn
  | input :: inputs, w, h, hsent, hn => by
    rw [run, List.foldl_cons]
    by_cases hl : w.location = .publication
    · have hp := h.publish b s hl input
      rw [hsent input (by simp)] at hp
      obtain ⟨exit, hl', hsent'⟩ := hp
      exact (congrArg Worker.sent (run_stopped b s hl' inputs)).trans hsent'
    · obtain ⟨h', hsteps⟩ := h.step b s hl input
      refine Parting.sends inputs h' (fun input' hi => hsent input' (by simp [hi])) ?_
      rw [List.length_cons] at hn
      omega

/-- A shutdown puts its reply in the slot. -/
theorem shutdown_parting {input : WorkerInput Source} {ticket : CommandTicket}
    {allocates : CapacityResource → Bool} {now : MonotonicMillis}
    (ha : w.action b input = some (.command (.shutdown ticket) allocates now)) :
    Parting w.sent (dispatchShutdown b w.runtime w.scheduler ticket).event (w.step b s input) := by
  have hdispatch : ∀ location : WorkerLocation, location.stopping = true →
      (∀ exit, location ≠ .stopped exit) →
      Parting w.sent (dispatchShutdown b w.runtime w.scheduler ticket).event
        { w.dispatchCommand b s (.shutdown ticket) allocates input.now with location := location } :=
    fun location hl hgoing => ⟨by simp [dispatchCommand, dispatch, dispatchShutdown], hl, hgoing, rfl, rfl⟩
  unfold action at ha
  unfold Worker.step
  rcases hl : w.location with _ | _ | _ | _ | ⟨left, handled⟩ | handled | _ | exit <;>
    simp only [hl, reduceCtorEq, Option.some.injEq, Option.ite_none_right_eq_some, and_false] at ha
  · split_ifs at ha with hfull
    rcases left with _ | left
    · simp at hfull
    have hroom : ¬w.eventBacklogCapacity ≤ w.queuedEvents.length := fun h => hfull (Or.inr h)
    simp only [receive, if_neg hroom]
    unfold receivedAction at ha
    rcases hr : input.received with ⟨command, allocates'⟩ | _ | _ <;> rw [hr] at ha <;>
      simp only [Option.some.injEq, EngineAction.command.injEq, reduceCtorEq] at ha
    obtain ⟨rfl, rfl, -⟩ := ha
    have hstop : (w.dispatchCommand b s (.shutdown ticket) allocates' input.now).stopAfterEvent.isSome = true := rfl
    dsimp only
    rw [if_pos hstop]
    exact hdispatch _ rfl (by simp)
  · simp only [wait]
    unfold receivedAction at ha
    rcases hr : input.received with ⟨command, allocates'⟩ | _ | _ <;> rw [hr] at ha <;>
      simp only [Option.some.injEq, EngineAction.command.injEq, reduceCtorEq] at ha
    obtain ⟨rfl, rfl, -⟩ := ha
    exact hdispatch _ rfl (by simp)

end Worker

/-- Over every run: each dispatched command has its one reply in the line of
the outbox, and the replies stand there in the order of their commands if no
command is taken while the slot is empty in front of a queue. After a shutdown only its reply is sent, at the next
publication that the channel takes. -/
theorem replies_in_order (loader : σ) (limits : RuntimeLimits) (output : TokenOutput GenerationOutputState)
    (eventBacklogCapacity : ℕ) (inputs : List (WorkerInput Source)) :
    let start : Worker σ τ := .start loader limits output eventBacklogCapacity
    let w := Worker.run b s inputs start
    (w.Running → (replies w.outbox.line).Perm w.dispatched) ∧
    (Worker.Along b s (Worker.InOrder b) inputs start → w.Running → replies w.outbox.line = w.dispatched) ∧
    (∀ command allocates now,
      (dispatch b s w.runtime w.scheduler w.output.capacities allocates now command).event.ticket =
        command.ticket) ∧
    ∀ input ticket allocates now, w.action b input = some (.command (.shutdown ticket) allocates now) →
      ∀ inputs' : List (WorkerInput Source),
      let reply := (dispatchShutdown b w.runtime w.scheduler ticket).event
      let w' := Worker.run b s inputs' (w.step b s input)
      w'.Farewell w.sent reply ∧
        ((∀ input ∈ inputs', input.send = .sent) → 5 ≤ inputs'.length → w'.sent = w.sent ++ [⟨reply, true⟩]) := by
  intro start w
  refine ⟨?_, fun horder => ?_, fun command allocates now => dispatch_ticket b s .., ?_⟩
  · exact Worker.run_invariant b s (I := fun w => w.Running → (replies w.outbox.line).Perm w.dispatched)
      (fun _ h hr => Worker.step_replies b s h hr) inputs fun _ => List.Perm.refl _
  · exact Worker.run_along b s (I := fun w => w.Running → replies w.outbox.line = w.dispatched)
      (fun h horder hr => Worker.step_replies_inOrder b s horder h hr) inputs horder fun _ => rfl
  · intro input ticket allocates now ha inputs' reply w'
    have hparting := Worker.shutdown_parting b s ha
    refine ⟨?_, fun hsent hlength => ?_⟩
    · exact Worker.run_invariant b s (I := Worker.Farewell w.sent reply)
        (fun input h => Worker.step_farewell b s input h) inputs' (.parting hparting)
    · refine hparting.sends b s inputs' hsent (lt_of_lt_of_le ?_ hlength)
      unfold Worker.stepsToPublication
      split <;> omega

/-- Three commands, of which the second and third wait in the queue. The fourth
is taken when the second was sent, and its reply overtakes the third's. -/
theorem reply_overtakes :
    let b := Backend.scripted ⟨1, 0, 2, 0, 0⟩ (fun _ _ => true) (fun _ _ => true)
    let s := Sampling.scripted fun _ => .ok 0
    let limits : RuntimeLimits := ⟨⟨1, by decide, by decide⟩, ⟨1, by decide, by decide⟩, ⟨100, 1000⟩,
      ⟨⟨1, by decide, by decide⟩⟩⟩
    let quiet : WorkerInput Unit := .quiet
    let w := Worker.run b s (WorkerInput.commands [.snapshot 1, .snapshot 2, .snapshot 3] ++
      List.replicate 12 quiet ++ [.command (.snapshot 4)] ++ List.replicate 18 quiet)
      (Worker.start () limits { tokenCapacity := 8, recordCapacity := 8 } 2)
    w.dispatched.map RuntimeEvent.ticket = [1, 2, 3, 4] ∧
      (replies w.sent).map RuntimeEvent.ticket = [1, 2, 4, 3] ∧ ¬replies w.sent <+: w.dispatched := by
  intro b s limits quiet w
  have hdispatched : w.dispatched.map RuntimeEvent.ticket = [1, 2, 3, 4] := by decide +kernel
  have hsent : (replies w.sent).map RuntimeEvent.ticket = [1, 2, 4, 3] := by decide +kernel
  refine ⟨hdispatched, hsent, fun h => ?_⟩
  have := h.map RuntimeEvent.ticket
  rw [hdispatched, hsent] at this
  revert this
  decide

end LlmApp
