/-
# What is resolved, and what a shutdown leaves

The shown selection, the artifacts and the tokenizer are set and cleared
together, by every call. So a load that is accepted loads the artifacts that the
shown selection was resolved to. A model that does not fit the tokenizer drops
all three before its unload is submitted. A shutdown that returns `Ok` has
disconnected both workers and seen both threads end.

Key definitions: `Coherent`, `Fits`, `Rejects`.
Key theorems: `Coherent.callAll`, `load_resolved`, `one_vocabulary`,
`shutdown_ok_final`.
-/
import LlmApp.Application.Protocol
import LlmApp.Application.ShuttingDown

namespace LlmApp

namespace ApplicationRuntime

variable {app : ApplicationRuntime} {debug : RuntimeError → String}

/-! ### The selection -/

/-- What is shown of resolved artifacts. -/
def selection (artifacts : ResolvedModelArtifacts) (vocabularySize : ℕ) : ResolvedModel :=
  ⟨artifacts.repository, artifacts.revision, artifacts.commit, vocabularySize,
    artifacts.declaredScalarType.map domainScalarType⟩

/-- All three are there, or none. -/
inductive Coherent (app : ApplicationRuntime) : Prop where
  | cleared (hresolved : app.state.resolved = none) (hartifacts : app.resolvedArtifacts = none)
      (htokenizer : app.tokenizer = none)
  | resolved {artifacts : ResolvedModelArtifacts} {vocabularySize : ℕ}
      (hresolved : app.state.resolved = some (selection artifacts vocabularySize))
      (hartifacts : app.resolvedArtifacts = some artifacts) (htokenizer : app.tokenizer = some vocabularySize)

/-- The selection is left alone. -/
structure KeepsSelection (app app' : ApplicationRuntime) : Prop where
  resolved : app'.state.resolved = app.state.resolved
  artifacts : app'.resolvedArtifacts = app.resolvedArtifacts
  tokenizer : app'.tokenizer = app.tokenizer

theorem KeepsSelection.refl (app : ApplicationRuntime) : KeepsSelection app app := ⟨rfl, rfl, rfl⟩

theorem KeepsSelection.trans {app' app'' : ApplicationRuntime} (h : KeepsSelection app app')
    (h' : KeepsSelection app' app'') : KeepsSelection app app'' :=
  ⟨h'.resolved.trans h.resolved, h'.artifacts.trans h.artifacts, h'.tokenizer.trans h.tokenizer⟩

theorem Coherent.same (h : Coherent app) {app' : ApplicationRuntime} (hkeeps : KeepsSelection app app') :
    Coherent app' := by
  obtain ⟨hresolved, hartifacts, htokenizer⟩ := hkeeps
  cases h with
  | cleared h₁ h₂ h₃ => exact .cleared (hresolved.trans h₁) (hartifacts.trans h₂) (htokenizer.trans h₃)
  | resolved h₁ h₂ h₃ => exact .resolved (hresolved.trans h₁) (hartifacts.trans h₂) (htokenizer.trans h₃)

/-! ### What keeps the selection -/

theorem takeTicket_keeps (app : ApplicationRuntime) : KeepsSelection app app.takeTicket.2 := by
  unfold takeTicket
  split <;> exact ⟨rfl, rfl, rfl⟩

theorem loadModel_keeps (app : ApplicationRuntime) (repository revision : String) (submit : SendResult) :
    KeepsSelection app (app.loadModel repository revision submit).2 := by
  unfold loadModel takeTicket
  split
  · exact .refl app
  · cases checkedAdd u64Max app.nextTicket 1 with
    | none => exact .refl app
    | some nextTicket => cases submit <;> exact ⟨rfl, rfl, rfl⟩

theorem submitUnload_keeps (app : ApplicationRuntime) (handle : ModelHandle) (submit : SendResult) :
    KeepsSelection app (app.submitUnload handle submit).2 := by
  unfold submitUnload takeTicket
  split_ifs with hpositive
  · cases checkedAdd u64Max app.nextTicket 1 with
    | none => exact .refl app
    | some nextTicket => cases submit <;> exact ⟨rfl, rfl, rfl⟩
  · exact .refl app

theorem unloadModel_keeps (app : ApplicationRuntime) (submit : SendResult) :
    KeepsSelection app (app.unloadModel submit).2 := by
  unfold unloadModel
  dsimp only
  split
  · exact .refl app
  · exact submitUnload_keeps app _ submit

theorem processModelUnload_keeps (app : ApplicationRuntime) (result : Except RuntimeError UnloadReceipt) :
    KeepsSelection app (app.processModelUnload debug result).2 := by
  unfold processModelUnload
  cases result with
  | error error => exact ⟨rfl, rfl, rfl⟩
  | ok receipt =>
    dsimp only
    split <;> exact ⟨rfl, rfl, rfl⟩

theorem requestHubShutdown_keeps (app : ApplicationRuntime) (send : SendResult) :
    KeepsSelection app (app.requestHubShutdown send).2 := by
  unfold requestHubShutdown
  split_ifs
  · cases send <;> exact ⟨rfl, rfl, rfl⟩
  · exact .refl app

theorem shutdownRuntimeWorker_keeps (app : ApplicationRuntime) (ticket : CommandTicket) (answer : ShutdownAnswer) :
    KeepsSelection app (app.shutdownRuntimeWorker ticket answer).2 := by
  unfold shutdownRuntimeWorker
  split_ifs
  · split <;> exact ⟨rfl, rfl, rfl⟩
  · exact .refl app

theorem shutdownRuntime_keeps (app : ApplicationRuntime) (debug : RuntimeError → String) (answer : ShutdownAnswer) :
    KeepsSelection app (app.shutdownRuntime debug answer).2 := by
  have hticketed := takeTicket_keeps app
  unfold shutdownRuntime
  split_ifs
  · rcases hticket : app.takeTicket with ⟨e | ticket, ticketed⟩ <;> rw [hticket] at hticketed
    · exact hticketed
    · have hasked := shutdownRuntimeWorker_keeps ticketed ticket answer
      dsimp only
      rcases hask : ticketed.shutdownRuntimeWorker ticket answer with ⟨e | outcome, asked⟩ <;> rw [hask] at hasked
      · exact hticketed.trans hasked
      · exact (hticketed.trans hasked).trans ⟨rfl, rfl, rfl⟩
  · exact .refl app

theorem joinRuntimeWorker_keeps (app : ApplicationRuntime) (answer : JoinAnswer) :
    KeepsSelection app (app.joinRuntimeWorker answer).2 := by
  unfold joinRuntimeWorker
  split_ifs <;> exact ⟨rfl, rfl, rfl⟩

theorem joinHubWorker_keeps (app : ApplicationRuntime) (answer : JoinAnswer) :
    KeepsSelection app (app.joinHubWorker answer).2 := by
  unfold joinHubWorker
  split_ifs <;> exact ⟨rfl, rfl, rfl⟩

theorem shutdown_keeps (app : ApplicationRuntime) (answer : ShutdownAnswer) :
    KeepsSelection app (app.shutdown debug answer).2 := by
  unfold shutdown
  split_ifs
  · exact .refl app
  · have hbegun : KeepsSelection app (app.withState .beginShutdown) := ⟨rfl, rfl, rfl⟩
    have hlast := ((((hbegun.trans (requestHubShutdown_keeps _ answer.hubSend)).trans
      (shutdownRuntime_keeps _ debug answer)).trans (joinRuntimeWorker_keeps _ answer.joinRuntime)).trans
      (joinHubWorker_keeps _ answer.joinHub))
    dsimp only
    split <;> exact hlast

/-! ### Every call -/

theorem Coherent.resolveModel (h : Coherent app) (repository revision : String) (send : SendResult) :
    Coherent (app.resolveModel repository revision send).2 := by
  unfold ApplicationRuntime.resolveModel
  dsimp only
  split
  · exact h
  · cases send with
    | sent => exact .cleared rfl rfl rfl
    | full => exact h
    | disconnected => exact h.same ⟨rfl, rfl, rfl⟩

theorem Coherent.processHubEvent (h : Coherent app) (event : HubEvent) (tokenizer : Except String ℕ)
    (storage : StorageAnswer) : Coherent (app.processHubEvent event tokenizer storage).2 := by
  obtain ⟨resolved⟩ := event
  cases resolved with
  | error error => exact h.same ⟨rfl, rfl, rfl⟩
  | ok artifacts =>
    cases tokenizer with
    | error error => exact h.same ⟨rfl, rfl, rfl⟩
    | ok vocabularySize => exact .resolved rfl rfl rfl

/-- A model that does not fit clears the selection before it is unloaded. -/
theorem Coherent.processModelLoaded (h : Coherent app) (result : Except RuntimeError LoadReceipt)
    (submit : SendResult) : Coherent (app.processModelLoaded debug result submit).2 := by
  unfold ApplicationRuntime.processModelLoaded
  cases result with
  | error error => exact h.same ⟨rfl, rfl, rfl⟩
  | ok receipt =>
    dsimp only
    split_ifs
    · unfold rejectIncompatibleModel
      dsimp only
      generalize hrejecting : ApplicationRuntime.mk _ _ _ _ _ _ _ _ _ = rejecting
      have hcleared : Coherent rejecting := by
        subst hrejecting
        exact .cleared rfl rfl rfl
      have hunloading := hcleared.same (submitUnload_keeps rejecting receipt.handle submit)
      rcases hsubmitted : rejecting.submitUnload receipt.handle submit with ⟨e | ⟨⟩, app'⟩ <;>
        rw [hsubmitted] at hunloading
      · exact hunloading.same ⟨rfl, rfl, rfl⟩
      · exact hunloading
    · exact h.same ⟨rfl, rfl, rfl⟩

theorem Coherent.pollInference (h : Coherent app) (answer : PollAnswer) :
    Coherent (app.pollInference debug answer).2 := by
  unfold ApplicationRuntime.pollInference
  split_ifs
  · cases answer.inference with
    | event event =>
      cases event with
      | modelLoaded ticket result => exact h.processModelLoaded result answer.submit
      | modelUnload ticket result => exact h.same (processModelUnload_keeps app result)
      | _ => exact h
    | empty => exact h
    | disconnected =>
      refine h.same ⟨?_, rfl, rfl⟩
      dsimp only [withState]
      split_ifs <;> rfl
  · exact h

theorem Coherent.pollEvent (h : Coherent app) (answer : PollAnswer) : Coherent (app.pollEvent debug answer).2 := by
  unfold ApplicationRuntime.pollEvent
  split_ifs
  · cases answer.hub with
    | event event => exact h.processHubEvent event answer.tokenizer answer.storage
    | empty => exact h.pollInference answer
    | disconnected =>
      refine h.same ⟨?_, rfl, rfl⟩
      dsimp only [withState]
      split_ifs <;> rfl
  · exact h.pollInference answer

theorem Coherent.call (h : Coherent app) (call : ApplicationCall) : Coherent (app.call debug call) := by
  cases call with
  | resolveModel repository revision send => exact h.resolveModel repository revision send
  | loadModel repository revision submit => exact h.same (loadModel_keeps app repository revision submit)
  | unloadModel submit => exact h.same (unloadModel_keeps app submit)
  | pollEvent answer => exact h.pollEvent answer
  | shutdown answer => exact h.same (shutdown_keeps app answer)

/-- In every state of a run of calls, whatever answers them. -/
theorem Coherent.callAll (calls : List ApplicationCall) :
    ∀ {app : ApplicationRuntime}, Coherent app → Coherent (app.callAll debug calls) := by
  induction calls with
  | nil => exact fun h => h
  | cons call calls ih => exact fun h => ih (h.call call)

/-! ### What a load loads -/

theorem loadSource_ok {repository revision : String} {source : CandleLlamaSource} (h : Coherent app)
    (hsource : app.loadSource repository revision = .ok source) :
    ∃ artifacts scalarType, app.resolvedArtifacts = some artifacts ∧ trimText repository = artifacts.repository ∧
      trimText revision = artifacts.revision ∧ artifacts.declaredScalarType = some scalarType ∧
      candleScalarType (domainScalarType scalarType) = some source.scalarType ∧
      source.configPath = artifacts.configPath ∧ source.weightPaths = artifacts.weightPaths ∧
      artifacts.weightPaths ≠ [] := by
  simp only [loadSource, Except.bind_eq_ok, Except.failIf_eq_ok, Except.okOr_eq_ok] at hsource
  obtain ⟨-, -, -, -, -, -, resolved, hresolved, -, hmatches, scalarType, hscalar, artifacts, hartifacts, hnew⟩ := hsource
  cases h with
  | cleared _ hnone => cases hnone.symm.trans hartifacts
  | @resolved artifacts' vocabularySize hselection hartifacts' =>
    obtain rfl : artifacts' = artifacts := Option.some.inj (hartifacts'.symm.trans hartifacts)
    obtain rfl : selection artifacts' vocabularySize = resolved := Option.some.inj (hselection.symm.trans hresolved)
    have hnames : trimText repository = artifacts'.repository ∧ trimText revision = artifacts'.revision :=
      of_decide_eq_true (Bool.eq_true_of_not_eq_false hmatches)
    have hweights : artifacts'.weightPaths ≠ [] ∧ source = ⟨artifacts'.configPath, artifacts'.weightPaths, scalarType⟩ := by
      rw [CandleLlamaSource.new] at hnew
      by_cases hempty : artifacts'.weightPaths = []
      · rw [Except.failIf, if_pos hempty] at hnew
        cases hnew
      · rw [Except.failIf, if_neg hempty] at hnew
        cases hnew
        exact ⟨hempty, rfl⟩
    obtain ⟨hnonempty, rfl⟩ := hweights
    cases hdeclared : artifacts'.declaredScalarType with
    | none => simp [selection, hdeclared] at hscalar
    | some declared =>
      have hcandle : candleScalarType (domainScalarType declared) = some scalarType := by
        simpa [selection, hdeclared] using hscalar
      exact ⟨artifacts', declared, hartifacts, hnames.1, hnames.2, hdeclared, hcandle, rfl, rfl, hnonempty⟩

/-- In every run of calls the shown selection, the artifacts and the tokenizer
are those of one resolution, or none is there; and a load that is accepted sends
the artifacts that the selection was resolved to, with the scalar type that they
declare. -/
theorem load_resolved (preferences : ApplicationPreferences) (calls : List ApplicationCall) :
    let app := (ApplicationRuntime.start preferences).callAll debug calls
    Coherent app ∧ ∀ (repository revision : String) (submit : SendResult),
      (app.loadModel repository revision submit).1 = .ok () →
        ∃ artifacts scalarType source, app.resolvedArtifacts = some artifacts ∧
          trimText repository = artifacts.repository ∧ trimText revision = artifacts.revision ∧
          artifacts.declaredScalarType = some scalarType ∧
          candleScalarType (domainScalarType scalarType) = some source.scalarType ∧
          source.configPath = artifacts.configPath ∧ source.weightPaths = artifacts.weightPaths ∧
          artifacts.weightPaths ≠ [] ∧
          (app.loadModel repository revision submit).2.inferenceCommands =
            app.inferenceCommands ++ [.loadModel app.nextTicket modelId source cpuDevice .cpu] := by
  intro app
  have hcoherent : Coherent app := Coherent.callAll calls (.cleared rfl rfl rfl)
  refine ⟨hcoherent, fun repository revision submit hloaded => ?_⟩
  unfold loadModel at hloaded ⊢
  rcases hsource : app.loadSource repository revision with e | source
  · rw [hsource] at hloaded
    cases hloaded
  obtain ⟨artifacts, scalarType, h⟩ := loadSource_ok hcoherent hsource
  refine ⟨artifacts, scalarType, source, h.1, h.2.1, h.2.2.1, h.2.2.2.1, h.2.2.2.2.1, h.2.2.2.2.2.1,
    h.2.2.2.2.2.2.1, h.2.2.2.2.2.2.2, ?_⟩
  rw [hsource] at hloaded
  unfold takeTicket at hloaded ⊢
  cases hticket : checkedAdd u64Max app.nextTicket 1 with
  | none =>
    rw [hticket] at hloaded
    cases hloaded
  | some nextTicket =>
    cases submit with
    | sent => rfl
    | full =>
      rw [hticket] at hloaded
      cases hloaded
    | disconnected =>
      rw [hticket] at hloaded
      cases hloaded

theorem load_resolved_repo :
    let app := (ApplicationRuntime.start ⟨"", "", 5⟩).callAll (fun _ => "") (loadingCalls.take 2)
    Coherent app ∧ (app.loadModel " repo" "main " .sent).1 = .ok () ∧
      ∃ artifacts, app.resolvedArtifacts = some artifacts ∧ trimText " repo" = artifacts.repository := by
  intro app
  have hresolved := @load_resolved (fun _ => "") ⟨"", "", 5⟩ (loadingCalls.take 2)
  have hok : (app.loadModel " repo" "main " .sent).1 = .ok () := rfl
  obtain ⟨artifacts, -, -, hartifacts, hrepository, -⟩ := hresolved.2 " repo" "main " .sent hok
  exact ⟨hresolved.1, hok, artifacts, hartifacts, hrepository⟩

/-! ### The tokenizer and the loaded model -/

open ApplicationSystem (Agrees Step Reaches)

variable {s s' : ApplicationSystem} {call : ApplicationCall} {answered : Option ℕ}

/-- A loaded model has the vocabulary of the tokenizer, and nothing is loaded
while a selection is resolved. -/
structure Fits (app : ApplicationRuntime) : Prop where
  resolving : app.state.activity = .resolving → app.state.loaded = none
  vocabulary : ∀ model size, app.state.loaded = some model → app.tokenizer = some size → size = model.vocabularySize

theorem Fits.same (h : Fits app) {app' : ApplicationRuntime}
    (hactivity : app'.state.activity = .resolving → app.state.activity = .resolving)
    (hloaded : app'.state.loaded = app.state.loaded) (htokenizer : app'.tokenizer = app.tokenizer) : Fits app' :=
  ⟨fun hresolving => hloaded.trans (h.resolving (hactivity hresolving)),
    fun model size hmodel hsize => h.vocabulary model size (hloaded ▸ hmodel) (htokenizer ▸ hsize)⟩

theorem Fits.of_none {app' : ApplicationRuntime} (hloaded : app'.state.loaded = none) : Fits app' :=
  ⟨fun _ => hloaded, fun _ _ hmodel => by cases hloaded.symm.trans hmodel⟩

theorem Fits.resolveModel (h : Fits app) (repository revision : String) (send : SendResult) :
    Fits (app.resolveModel repository revision send).2 := by
  obtain hgoes | ⟨-, -, hgoes⟩ := resolveModel_goes app repository revision send
  · unfold ApplicationRuntime.resolveModel
    dsimp only
    split
    · exact h
    next hchecks =>
      simp only [requireIdle, Except.bind_eq_ok, Except.failIf_eq_ok, not_not] at hchecks
      obtain ⟨-, -, -, hloaded, -⟩ := hchecks
      have hnone : app.state.loaded = none := Option.not_isSome_iff_eq_none.mp hloaded
      cases send <;> exact .of_none hnone
  · exact .of_none hgoes.loaded

theorem Fits.loadModel (h : Fits app) (repository revision : String) (submit : SendResult) :
    Fits (app.loadModel repository revision submit).2 := by
  have hkeeps := loadModel_keeps app repository revision submit
  obtain hgoes | ⟨-, -, hgoes⟩ := loadModel_goes app repository revision submit
  · exact h.same (fun hresolving => hgoes.activity ▸ hresolving) hgoes.loaded hkeeps.tokenizer
  · exact .of_none hgoes.loaded

theorem Fits.unloadModel (h : Fits app) (submit : SendResult) : Fits (app.unloadModel submit).2 := by
  have hkeeps := unloadModel_keeps app submit
  obtain hgoes | ⟨-, model, hmodel, hgoes⟩ := unloadModel_goes app submit
  · exact h.same (fun hresolving => hgoes.activity ▸ hresolving) hgoes.loaded hkeeps.tokenizer
  · refine h.same (fun hresolving => ?_) (hgoes.loaded.trans hmodel.symm) hkeeps.tokenizer
    cases hgoes.activity.symm.trans hresolving

/-- Nothing is selected. -/
structure Unselected (app : ApplicationRuntime) : Prop where
  resolved : app.state.resolved = none
  artifacts : app.resolvedArtifacts = none
  tokenizer : app.tokenizer = none

theorem Unselected.keeps {app' : ApplicationRuntime} (h : Unselected app) (hkeeps : KeepsSelection app app') :
    Unselected app' :=
  ⟨hkeeps.resolved.trans h.resolved, hkeeps.artifacts.trans h.artifacts, hkeeps.tokenizer.trans h.tokenizer⟩

/-- The model is loaded and rejected: in `dropped` the selection is gone and
nothing is sent yet, and from it the unload of the model is submitted. -/
structure Rejects (app : ApplicationRuntime) (model : ApplicationState.LoadedModel) (submit : SendResult)
    (dropped app' : ApplicationRuntime) : Prop where
  selection : Unselected dropped
  loaded : dropped.state.loaded = some model
  idle : dropped.state.activity = .idle
  unsent : dropped.inferenceCommands = app.inferenceCommands
  submitted : ∀ after, dropped.submitUnload model.handle submit = (.ok (), after) → app' = after
  failed : ∀ e after, dropped.submitUnload model.handle submit = (.error e, after) → app' = after.withState .setIdle

/-- Whether or not the submission succeeds, the selection is gone. -/
theorem Rejects.after {model : ApplicationState.LoadedModel} {submit : SendResult} {dropped app' : ApplicationRuntime}
    (h : Rejects app model submit dropped app') :
    Unselected app' ∧ app'.state.loaded = some model ∧ app'.state.activity ≠ .resolving := by
  have hkeeps := submitUnload_keeps dropped model.handle submit
  obtain ⟨e, after, hsubmit, hgoes⟩ | ⟨after, hsubmit, hgoes⟩ := submitUnload_goes dropped model.handle submit
  all_goals rw [hsubmit] at hkeeps
  · rw [h.failed e after hsubmit]
    refine ⟨h.selection.keeps ⟨hkeeps.resolved, hkeeps.artifacts, hkeeps.tokenizer⟩,
      hgoes.loaded.trans h.loaded, ApplicationActivity.noConfusion⟩
  · rw [h.submitted after hsubmit]
    refine ⟨h.selection.keeps hkeeps, hgoes.loaded.trans h.loaded, ?_⟩
    rw [hgoes.activity]
    exact ApplicationActivity.noConfusion

/-- The model of a receipt. -/
def loadedOf (receipt : LoadReceipt) : ApplicationState.LoadedModel :=
  ⟨receipt.handle, receipt.descriptor.metadata.vocabularySize⟩

/-- The two ends of a load that succeeded. -/
theorem processModelLoaded_ok (app : ApplicationRuntime) (debug : RuntimeError → String) (receipt : LoadReceipt)
    (submit : SendResult) : (app.processModelLoaded debug (.ok receipt) submit).2 =
      if app.tokenizer.any (fun size => size ≠ (loadedOf receipt).vocabularySize) then
        ((app.withState fun state => state.setLoaded (loadedOf receipt)).rejectIncompatibleModel receipt.handle
          submit).2
      else app.withState fun state => state.setLoaded (loadedOf receipt) :=
  apply_ite Prod.snd ..

/-- A model of another vocabulary size is rejected. -/
theorem processModelLoaded_rejects (app : ApplicationRuntime) (debug : RuntimeError → String) (receipt : LoadReceipt)
    (submit : SendResult) {size : ℕ} (hsize : app.tokenizer = some size)
    (hne : size ≠ (loadedOf receipt).vocabularySize) :
    ∃ dropped, Rejects app (loadedOf receipt) submit dropped (app.processModelLoaded debug (.ok receipt) submit).2 := by
  rw [processModelLoaded_ok, if_pos (by simp [hsize, hne])]
  unfold rejectIncompatibleModel
  dsimp only
  generalize hdropped : ApplicationRuntime.mk _ _ _ _ _ _ _ _ _ = dropped
  refine ⟨dropped, ⟨?_, ?_, ?_⟩, ?_, ?_, ?_, fun after hsubmit => ?_, fun e after hsubmit => ?_⟩
  iterate 6
    subst hdropped
    rfl
  all_goals
    have hsubmit' : dropped.submitUnload receipt.handle submit = _ := hsubmit
    rw [hsubmit']

/-- A model that does not fit leaves no tokenizer behind. -/
theorem fits_processModelLoaded (app : ApplicationRuntime) (debug : RuntimeError → String) (receipt : LoadReceipt)
    (submit : SendResult) :
    Fits (app.processModelLoaded debug (.ok receipt) submit).2 := by
  by_cases hfits : ∀ size, app.tokenizer = some size → size = (loadedOf receipt).vocabularySize
  · have hfit : ¬app.tokenizer.any (fun size => size ≠ (loadedOf receipt).vocabularySize) = true := by
      simpa [Option.any_eq_true] using hfits
    rw [processModelLoaded_ok, if_neg hfit]
    refine ⟨fun h => (by cases h), fun model size hmodel hsize => ?_⟩
    obtain rfl := Option.some.inj hmodel
    exact hfits size hsize
  · push Not at hfits
    obtain ⟨size, hsize, hne⟩ := hfits
    obtain ⟨dropped, hrejects⟩ := processModelLoaded_rejects app debug receipt submit hsize hne
    obtain ⟨hselection, -, hactivity⟩ := hrejects.after
    exact ⟨fun h => absurd h hactivity, fun _ _ _ htokenizer => by cases hselection.tokenizer.symm.trans htokenizer⟩

theorem Fits.pollInference (h : Fits app) (answer : PollAnswer) : Fits (app.pollInference debug answer).2 := by
  have hidle : ∀ app' : ApplicationRuntime, app'.state.activity = .idle → app'.state.loaded = app.state.loaded →
      app'.tokenizer = app.tokenizer → Fits app' := fun app' hactivity hloaded htokenizer =>
    h.same (fun hresolving => by cases hactivity.symm.trans hresolving) hloaded htokenizer
  unfold ApplicationRuntime.pollInference
  split_ifs
  · cases answer.inference with
    | event event =>
      cases event with
      | modelLoaded ticket result =>
        cases result with
        | error e => exact hidle _ rfl rfl rfl
        | ok receipt => exact fits_processModelLoaded app debug receipt answer.submit
      | modelUnload ticket result =>
        cases result with
        | error e => exact hidle _ rfl rfl rfl
        | ok receipt =>
          by_cases hstatus : receipt.status = .draining
          · simpa [processRuntimeEvent, processModelUnload, hstatus] using h
          · rw [processRuntimeEvent_completed app debug hstatus]
            exact .of_none rfl
      | _ => exact h
    | empty => exact h
    | disconnected =>
      refine h.same ?_ ?_ rfl
      all_goals
        dsimp only [withState]
        split_ifs
      · exact fun hresolving => by cases hresolving
      · exact id
      · rfl
      · rfl
  · exact h

/-- No model is loaded while a resolve is awaited. -/
theorem Fits.loaded_of_resolve (h : Fits s.app) (hagrees : Agrees s) {before after : List (Awaited × ℕ)} {k : ℕ}
    (hawaited : s.awaited = before ++ (.resolve, k) :: after) : s.app.state.loaded = none := by
  have hone := (hagrees.split hawaited).2.2.2
  cases hagrees with
  | resolving hactivity => exact h.resolving hactivity
  | idle _ hnone => cases hnone.symm.trans hone
  | late _ _ hlate => cases hlate.symm.trans hone
  | loading _ hnone => exact hnone
  | unloading _ _ howed _ hunload =>
    cases hunload.symm.trans hone
    cases howed

theorem Fits.step (h : Fits s.app) (hagrees : Agrees s) (hstep : Step debug s call answered s') : Fits s'.app := by
  cases hstep with
  | resolveModel repository revision send => exact h.resolveModel repository revision send
  | loadModel repository revision submit => exact h.loadModel repository revision submit
  | unloadModel submit => exact h.unloadModel submit
  | @resolved answer event before after k havailable hhub hawaited =>
    have hnone := h.loaded_of_resolve hagrees hawaited
    have hgoes := processHubEvent_goes s.app event answer.tokenizer answer.storage
    have hpoll : (s.app.pollEvent debug answer).2 = (s.app.processHubEvent event answer.tokenizer answer.storage).2 := by
      rw [ApplicationRuntime.pollEvent, if_pos havailable, hhub]
    exact .of_none ((congrArg (fun app => app.state.loaded) hpoll).trans (hgoes.loaded.trans hnone))
  | @hubLost answer havailable hhub =>
    show Fits (s.app.pollEvent debug answer).2
    rw [ApplicationRuntime.pollEvent, if_pos havailable, hhub]
    refine h.same ?_ ?_ rfl
    all_goals
      dsimp only [withState]
      split_ifs
    · exact fun hresolving => by cases hresolving
    · exact id
    · rfl
    · rfl
  | @answered answer _ _ _ _ _ _ hhub =>
    show Fits (s.app.pollEvent debug answer).2
    rw [pollEvent_eq_pollInference hhub]
    exact h.pollInference answer
  | @inferenceLost answer hhub =>
    show Fits (s.app.pollEvent debug answer).2
    rw [pollEvent_eq_pollInference hhub]
    exact h.pollInference answer
  | @nothing answer hhub =>
    show Fits (s.app.pollEvent debug answer).2
    rw [pollEvent_eq_pollInference hhub]
    exact h.pollInference answer

/-- A poll of the inference worker keeps the selection or drops it. -/
theorem pollInference_selects (app : ApplicationRuntime) (debug : RuntimeError → String) (answer : PollAnswer) :
    (app.pollInference debug answer).2.state.resolved = app.state.resolved ∨
      (app.pollInference debug answer).2.state.resolved = none := by
  unfold ApplicationRuntime.pollInference
  split_ifs
  · cases answer.inference with
    | event event =>
      cases event with
      | modelLoaded ticket result =>
        cases result with
        | error e => exact .inl rfl
        | ok receipt =>
          show (app.processModelLoaded debug (.ok receipt) answer.submit).2.state.resolved = _ ∨
            (app.processModelLoaded debug (.ok receipt) answer.submit).2.state.resolved = _
          by_cases hfits : ∃ size, app.tokenizer = some size ∧ size ≠ (loadedOf receipt).vocabularySize
          · obtain ⟨size, hsize, hne⟩ := hfits
            obtain ⟨dropped, hrejects⟩ := processModelLoaded_rejects app debug receipt answer.submit hsize hne
            exact .inr hrejects.after.1.resolved
          · rw [processModelLoaded_ok, if_neg (by simpa [Option.any_eq_true] using hfits)]
            exact .inl rfl
      | modelUnload ticket result => exact .inl (processModelUnload_keeps app result).resolved
      | _ => exact .inl rfl
    | empty => exact .inl rfl
    | disconnected =>
      refine .inl ?_
      dsimp only [withState]
      split_ifs <;> rfl
  · exact .inl rfl

/-- What a step does to the selection: it is resolved only while no model is
loaded, and a model that does not fit the tokenizer drops it before its unload
is submitted. -/
structure Selects (s : ApplicationSystem) (call : ApplicationCall) (s' : ApplicationSystem) : Prop where
  resolved : s'.app.state.resolved = s.app.state.resolved ∨ s'.app.state.resolved = none ∨
    (s.app.state.loaded = none ∧ s'.app.state.loaded = none)
  rejected : ∀ answer ticket receipt size, call = .pollEvent answer →
    (s.app.state.hubAvailable = false ∨ answer.hub = .empty) → s.app.state.inferenceAvailable = true →
    answer.inference = .event (.modelLoaded ticket (.ok receipt)) → s.app.tokenizer = some size →
    size ≠ (loadedOf receipt).vocabularySize →
      ∃ dropped, Rejects s.app (loadedOf receipt) answer.submit dropped s'.app ∧ Unselected s'.app

theorem step_pollEvent {answer : PollAnswer} (h : Step debug s (.pollEvent answer) answered s') :
    s'.app = (s.app.pollEvent debug answer).2 := by
  cases h <;> rfl

theorem step_rejected (h : Step debug s call answered s') (answer : PollAnswer) (ticket : CommandTicket)
    (receipt : LoadReceipt) (size : ℕ) (hcall : call = .pollEvent answer)
    (hhub : s.app.state.hubAvailable = false ∨ answer.hub = .empty) (havailable : s.app.state.inferenceAvailable = true)
    (hinference : answer.inference = .event (.modelLoaded ticket (.ok receipt))) (hsize : s.app.tokenizer = some size)
    (hne : size ≠ (loadedOf receipt).vocabularySize) :
    ∃ dropped, Rejects s.app (loadedOf receipt) answer.submit dropped s'.app ∧ Unselected s'.app := by
  subst hcall
  rw [step_pollEvent h, pollEvent_eq_pollInference hhub, pollInference_event havailable hinference]
  obtain ⟨dropped, hrejects⟩ := processModelLoaded_rejects s.app debug receipt answer.submit hsize hne
  exact ⟨dropped, hrejects, hrejects.after.1⟩

theorem Fits.selects (h : Fits s.app) (hagrees : Agrees s) (hstep : Step debug s call answered s') :
    Selects s call s' := by
  refine ⟨?_, step_rejected hstep⟩
  have hfits := h.step hagrees hstep
  cases hstep with
  | resolveModel repository revision send =>
    show (s.app.resolveModel repository revision send).2.state.resolved = _ ∨
      (s.app.resolveModel repository revision send).2.state.resolved = none ∨ _
    unfold ApplicationRuntime.resolveModel
    dsimp only
    split
    · exact .inl rfl
    · cases send with
      | sent => exact .inr (.inl rfl)
      | full => exact .inl rfl
      | disconnected => exact .inl rfl
  | loadModel repository revision submit => exact .inl (loadModel_keeps s.app repository revision submit).resolved
  | unloadModel submit => exact .inl (unloadModel_keeps s.app submit).resolved
  | @resolved answer event before after k havailable hhub hawaited =>
    have hnone := h.loaded_of_resolve hagrees hawaited
    have hgoes := processHubEvent_goes s.app event answer.tokenizer answer.storage
    have hpoll : (s.app.pollEvent debug answer).2 = (s.app.processHubEvent event answer.tokenizer answer.storage).2 := by
      rw [ApplicationRuntime.pollEvent, if_pos havailable, hhub]
    exact .inr (.inr ⟨hnone, (congrArg (fun app => app.state.loaded) hpoll).trans (hgoes.loaded.trans hnone)⟩)
  | @hubLost answer havailable hhub =>
    refine .inl ?_
    show (s.app.pollEvent debug answer).2.state.resolved = _
    rw [ApplicationRuntime.pollEvent, if_pos havailable, hhub]
    dsimp only [withState]
    split_ifs <;> rfl
  | @answered answer _ _ _ _ _ _ hhub =>
    show (s.app.pollEvent debug answer).2.state.resolved = _ ∨ (s.app.pollEvent debug answer).2.state.resolved = none ∨ _
    rw [pollEvent_eq_pollInference hhub]
    exact (pollInference_selects s.app debug answer).imp_right .inl
  | @inferenceLost answer hhub =>
    show (s.app.pollEvent debug answer).2.state.resolved = _ ∨ (s.app.pollEvent debug answer).2.state.resolved = none ∨ _
    rw [pollEvent_eq_pollInference hhub]
    exact (pollInference_selects s.app debug answer).imp_right .inl
  | @nothing answer hhub =>
    show (s.app.pollEvent debug answer).2.state.resolved = _ ∨ (s.app.pollEvent debug answer).2.state.resolved = none ∨ _
    rw [pollEvent_eq_pollInference hhub]
    exact (pollInference_selects s.app debug answer).imp_right .inl

theorem Reaches.fits {preferences : ApplicationPreferences}
    (h : Reaches debug (ApplicationSystem.start preferences) s) : Fits s.app := by
  induction h with
  | refl => exact .of_none rfl
  | tail hreached hstep ih =>
    obtain ⟨call, answered, -, hstep⟩ := hstep
    exact ih.step (Reaches.agrees hreached) hstep

/-- In every run in which no unload is asked for while the completion of a
failed one can still come: a model and a tokenizer that are both there have one
vocabulary; nothing is being resolved while a model is loaded, and no step
resolves a selection then; and a model that does not fit drops the selection
before its unload is submitted, whether or not that succeeds. -/
theorem one_vocabulary {preferences : ApplicationPreferences}
    (h : Reaches debug (ApplicationSystem.start preferences) s) :
    (∀ model size, s.app.state.loaded = some model → s.app.tokenizer = some size → size = model.vocabularySize) ∧
      (s.app.state.activity = .resolving → s.app.state.loaded = none) ∧
      ∀ call answered s', Step debug s call answered s' → Selects s call s' := by
  have hfits : Fits s.app := Reaches.fits h
  exact ⟨hfits.vocabulary, hfits.resolving, fun _ _ _ hstep => hfits.selects (Reaches.agrees h) hstep⟩

/-- A model is resolved and loaded. If it fits, it has the vocabulary of the
tokenizer; if not, the selection is dropped, and here its unload fails. -/
theorem one_vocabulary_loaded :
    let debug : RuntimeError → String := fun _ => ""
    let poll (event : RuntimeEvent) : PollAnswer := .ofInference event
    let artifacts : ResolvedModelArtifacts := ⟨"repo", "main", "0", some .f32, "config", "tokenizer", ["weights"]⟩
    let s := ApplicationSystem.start ⟨"", "", 5⟩
    let s₁ := s.advance (s.app.resolveModel "repo" "main" .sent).2 s.awaited
    let s₂ := s₁.advance (s₁.app.pollEvent debug (.ofHub ⟨.ok artifacts⟩ 10)).2 []
    let s₃ := s₂.advance (s₂.app.loadModel "repo" "main" .sent).2 s₂.awaited
    let s₄ := s₃.advance (s₃.app.pollEvent debug (poll (.modelLoaded 1 (.ok loadedReceipt)))).2 []
    let s₅ := s₁.advance (s₁.app.pollEvent debug (.ofHub ⟨.ok artifacts⟩ 11)).2 []
    let s₆ := s₅.advance (s₅.app.loadModel "repo" "main" .sent).2 s₅.awaited
    let s₇ := s₆.advance (s₆.app.pollEvent debug (poll (.modelLoaded 1 (.ok loadedReceipt)))).2 []
    s₄.app.state.loaded = some ⟨⟨1, 1⟩, 10⟩ ∧ s₄.app.tokenizer = some 10 ∧
      10 = (⟨⟨1, 1⟩, 10⟩ : ApplicationState.LoadedModel).vocabularySize ∧
      s₆.app.tokenizer = some 11 ∧ s₇.app.state.loaded = some ⟨⟨1, 1⟩, 10⟩ ∧ Unselected s₇.app := by
  intro debug poll artifacts s s₁ s₂ s₃ s₄ s₅ s₆ s₇
  have hresolving : Reaches debug s s₁ := .single ⟨.resolveModel "repo" "main" .sent, none, trivial,
    .resolveModel "repo" "main" .sent⟩
  have hloaded : Reaches debug s s₄ :=
    ((hresolving.tail
      ⟨.pollEvent (.ofHub ⟨.ok artifacts⟩ 10), some 1, trivial, @Step.resolved _ _ _ _ [] [] _ rfl rfl rfl⟩).tail
      ⟨.loadModel "repo" "main" .sent, none, trivial, .loadModel "repo" "main" .sent⟩).tail
      ⟨.pollEvent (poll (.modelLoaded 1 (.ok loadedReceipt))), some 2, trivial,
        @Step.answered _ _ _ _ [] [] _ _ _ (.inr rfl) rfl rfl rfl .loaded⟩
  have hloading : Reaches debug s s₆ :=
    (hresolving.tail
      ⟨.pollEvent (.ofHub ⟨.ok artifacts⟩ 11), some 1, trivial, @Step.resolved _ _ _ _ [] [] _ rfl rfl rfl⟩).tail
      ⟨.loadModel "repo" "main" .sent, none, trivial, .loadModel "repo" "main" .sent⟩
  have hselects : Selects s₆ (.pollEvent (poll (.modelLoaded 1 (.ok loadedReceipt)))) s₇ :=
    (one_vocabulary hloading).2.2 _ (some 2) _ (@Step.answered _ _ _ _ [] [] _ _ _ (.inr rfl) rfl rfl rfl .loaded)
  obtain ⟨-, -, hunselected⟩ := hselects.rejected _ 1 loadedReceipt 11 rfl (.inr rfl) rfl rfl rfl (by decide)
  exact ⟨rfl, rfl, (one_vocabulary hloaded).1 ⟨⟨1, 1⟩, 10⟩ 10 rfl rfl, rfl, rfl, hunselected⟩

/-! ### What a shutdown leaves -/

theorem requestHubShutdown_ok {app' : ApplicationRuntime} {send : SendResult}
    (h : app.requestHubShutdown send = (.ok (), app')) :
    app'.state.hubAvailable = false ∧ app'.hubThread = app.hubThread ∧ app'.inferenceThread = app.inferenceThread := by
  unfold requestHubShutdown at h
  cases havailable : app.state.hubAvailable with
  | false =>
    rw [havailable] at h
    obtain ⟨-, rfl⟩ := Prod.mk.inj h
    exact ⟨havailable, rfl, rfl⟩
  | true =>
    rw [havailable] at h
    cases send with
    | full => cases h
    | sent =>
      obtain ⟨-, rfl⟩ := Prod.mk.inj h
      exact ⟨rfl, rfl, rfl⟩
    | disconnected =>
      obtain ⟨-, rfl⟩ := Prod.mk.inj h
      exact ⟨rfl, rfl, rfl⟩

/-- The state and the threads are left alone. -/
def KeepsThreads (app app' : ApplicationRuntime) : Prop :=
  app'.state = app.state ∧ app'.hubThread = app.hubThread ∧ app'.inferenceThread = app.inferenceThread

theorem takeTicket_keepsThreads (app : ApplicationRuntime) : KeepsThreads app app.takeTicket.2 := by
  unfold takeTicket
  split <;> exact ⟨rfl, rfl, rfl⟩

theorem shutdownRuntimeWorker_keepsThreads (app : ApplicationRuntime) (ticket : CommandTicket)
    (answer : ShutdownAnswer) : KeepsThreads app (app.shutdownRuntimeWorker ticket answer).2 := by
  unfold shutdownRuntimeWorker
  split_ifs
  · split <;> exact ⟨rfl, rfl, rfl⟩
  · exact ⟨rfl, rfl, rfl⟩

theorem shutdownRuntime_ok {app' : ApplicationRuntime} {answer : ShutdownAnswer}
    (h : app.shutdownRuntime debug answer = (.ok (), app')) :
    app'.state.inferenceAvailable = false ∧ app'.state.hubAvailable = app.state.hubAvailable ∧
      app'.hubThread = app.hubThread ∧ app'.inferenceThread = app.inferenceThread := by
  have hticketed := takeTicket_keepsThreads app
  unfold shutdownRuntime at h
  split_ifs at h with havailable
  · rcases hticket : app.takeTicket with ⟨e | ticket, ticketed⟩ <;> rw [hticket] at h hticketed
    · cases h
    · have hasked := shutdownRuntimeWorker_keepsThreads ticketed ticket answer
      dsimp only at h
      rcases hask : ticketed.shutdownRuntimeWorker ticket answer with ⟨e | outcome, asked⟩ <;> rw [hask] at h hasked
      · cases h
      · obtain ⟨-, rfl⟩ := Prod.mk.inj h
        obtain ⟨hstate, hhub, hinference⟩ := hasked
        have hsame : asked.state = app.state := hstate.trans hticketed.1
        exact ⟨rfl, congrArg (fun state => state.hubAvailable) hsame, hhub.trans hticketed.2.1,
          hinference.trans hticketed.2.2⟩
  · obtain ⟨-, rfl⟩ := Prod.mk.inj h
    exact ⟨Bool.eq_false_of_not_eq_true havailable, rfl, rfl, rfl⟩

theorem waitForThread_ok {field : ApplicationConfigurationField} {worker : ApplicationWorker} {answer : JoinAnswer}
    (h : waitForThread field worker answer = .ok ()) : answer.finished = true ∧ answer.panic = none := by
  simp only [waitForThread, Except.bind_eq_ok, Except.failIf_eq_ok] at h
  obtain ⟨-, -, -, hfinished, hpanic⟩ := h
  refine ⟨Bool.eq_true_of_not_eq_false hfinished, ?_⟩
  cases hcase : answer.panic with
  | none => rfl
  | some text =>
    rw [hcase] at hpanic
    cases hpanic

/-- A join that succeeds has left no thread, or has seen it end. -/
theorem join_ok {field : ApplicationConfigurationField} {worker : ApplicationWorker} {answer : JoinAnswer} {thread : Bool}
    {left app' : ApplicationRuntime}
    (h : (if thread then (waitForThread field worker answer, left) else (.ok (), app)) = (.ok (), app')) :
    (thread = false ∧ app' = app) ∨ (app' = left ∧ answer.finished = true ∧ answer.panic = none) := by
  cases thread with
  | false => exact .inl ⟨rfl, (Prod.mk.inj h).2.symm⟩
  | true =>
    obtain ⟨hwait, rfl⟩ := Prod.mk.inj h
    exact .inr ⟨rfl, waitForThread_ok hwait⟩

theorem joinRuntimeWorker_ok {app' : ApplicationRuntime} {answer : JoinAnswer}
    (h : app.joinRuntimeWorker answer = (.ok (), app')) :
    app'.inferenceThread = false ∧ app'.state = app.state ∧ app'.hubThread = app.hubThread ∧
      (app.inferenceThread = true → answer.finished = true ∧ answer.panic = none) := by
  obtain ⟨hnone, rfl⟩ | ⟨rfl, hended⟩ := join_ok h
  · exact ⟨hnone, rfl, rfl, fun hthread => Bool.noConfusion (hnone.symm.trans hthread)⟩
  · exact ⟨rfl, rfl, rfl, fun _ => hended⟩

theorem joinHubWorker_ok {app' : ApplicationRuntime} {answer : JoinAnswer}
    (h : app.joinHubWorker answer = (.ok (), app')) :
    app'.hubThread = false ∧ app'.state = app.state ∧ app'.inferenceThread = app.inferenceThread ∧
      (app.hubThread = true → answer.finished = true ∧ answer.panic = none) := by
  obtain ⟨hnone, rfl⟩ | ⟨rfl, hended⟩ := join_ok h
  · exact ⟨hnone, rfl, rfl, fun hthread => Bool.noConfusion (hnone.symm.trans hthread)⟩
  · exact ⟨rfl, rfl, rfl, fun _ => hended⟩

/-- The first shutdown, part by part. -/
theorem shutdown_parts {answer : ShutdownAnswer} (hfirst : app.state.activity ≠ .shuttingDown)
    {hub runtime joinedRuntime joinedHub : Except ApplicationError Unit} {asked stopped joined left : ApplicationRuntime}
    (hhub : (app.withState .beginShutdown).requestHubShutdown answer.hubSend = (hub, asked))
    (hruntime : asked.shutdownRuntime debug answer = (runtime, stopped))
    (hjoinRuntime : stopped.joinRuntimeWorker answer.joinRuntime = (joinedRuntime, joined))
    (hjoinHub : joined.joinHubWorker answer.joinHub = (joinedHub, left)) :
    (app.shutdown debug answer).2 = left ∧ ((app.shutdown debug answer).1 = .ok () →
      hub = .ok () ∧ runtime = .ok () ∧ joinedRuntime = .ok () ∧ joinedHub = .ok ()) := by
  simp only [shutdown, if_neg hfirst, hhub, hruntime, hjoinRuntime, hjoinHub]
  cases hub with
  | error e => exact ⟨rfl, fun hok => by cases hok⟩
  | ok =>
    cases runtime with
    | error e => exact ⟨rfl, fun hok => by cases hok⟩
    | ok =>
      cases joinedRuntime with
      | error e => exact ⟨rfl, fun hok => by cases hok⟩
      | ok =>
        cases joinedHub with
        | error e => exact ⟨rfl, fun hok => by cases hok⟩
        | ok => exact ⟨rfl, fun _ => ⟨rfl, rfl, rfl, rfl⟩⟩

/-- A first shutdown that returns `Ok` is final: both threads have ended, and in
every later sequence of calls, whatever still arrives, the application goes on
shutting down, starts no operation and sends its workers nothing. -/
theorem shutdown_ok_final {answer : ShutdownAnswer} (hfirst : app.state.activity ≠ .shuttingDown)
    (hok : (app.shutdown debug answer).1 = .ok ()) :
    let left := (app.shutdown debug answer).2
    (app.inferenceThread = true → answer.joinRuntime.finished = true ∧ answer.joinRuntime.panic = none) ∧
      (app.hubThread = true → answer.joinHub.finished = true ∧ answer.joinHub.panic = none) ∧
      left.inferenceThread = false ∧ left.hubThread = false ∧ left.state.activity = .shuttingDown ∧
      ∀ calls, AtEach debug (Refuses debug) calls left := by
  have hshutting := shutdown_activity debug app answer
  rcases hhub : (app.withState .beginShutdown).requestHubShutdown answer.hubSend with ⟨hub, asked⟩
  rcases hruntime : asked.shutdownRuntime debug answer with ⟨runtime, stopped⟩
  rcases hjoinRuntime : stopped.joinRuntimeWorker answer.joinRuntime with ⟨joinedRuntime, joined⟩
  rcases hjoinHub : joined.joinHubWorker answer.joinHub with ⟨joinedHub, left⟩
  obtain ⟨hleft, hparts⟩ := shutdown_parts hfirst hhub hruntime hjoinRuntime hjoinHub
  obtain ⟨rfl, rfl, rfl, rfl⟩ := hparts hok
  obtain ⟨hnoHub, hhubThread, hinferenceThread⟩ := requestHubShutdown_ok hhub
  obtain ⟨hnoInference, hkeptHub, hhubThread', hinferenceThread'⟩ := shutdownRuntime_ok hruntime
  obtain ⟨hended, hstate, hhubThread'', hfinished⟩ := joinRuntimeWorker_ok hjoinRuntime
  obtain ⟨hendedHub, hstateHub, hkept, hfinishedHub⟩ := joinHubWorker_ok hjoinHub
  rw [hleft] at hshutting ⊢
  have hsame : left.state = stopped.state := hstateHub.trans hstate
  refine ⟨fun h => hfinished (by rw [hinferenceThread', hinferenceThread]; exact h),
    fun h => hfinishedHub (by rw [hhubThread'', hhubThread', hhubThread]; exact h), hkept.trans hended, hendedHub,
    hshutting, fun calls => ?_⟩
  have hnone : left.state.hubAvailable = false ∧ left.state.inferenceAvailable = false := by
    rw [hsame]
    exact ⟨hkeptHub.trans hnoHub, hnoInference⟩
  exact (stays_all_iff debug calls hshutting).mpr (disconnected_all debug calls hshutting hnone.1 hnone.2)

/-- A shutdown while a model is loading, with both workers answering in time. -/
theorem shutdown_ok_final_loading :
    let debug : RuntimeError → String := fun _ => ""
    let app := (ApplicationRuntime.start ⟨"", "", 5⟩).callAll debug loadingCalls
    let answer : ShutdownAnswer := ⟨.sent, true, [(.full, true), (.sent, true)],
      [(true, .event (.modelLoaded 1 (.ok loadedReceipt))), (true, .event (.shutdown 2 (.ok ⟨1, 0⟩)))],
      ⟨true, true, none⟩, ⟨true, true, none⟩⟩
    app.state.activity = .loading ∧ (app.shutdown debug answer).2.hubThread = false ∧
      ∀ calls, AtEach debug (Refuses debug) calls (app.shutdown debug answer).2 := by
  intro debug app answer
  have hfinal := @shutdown_ok_final app debug answer nofun rfl
  exact ⟨rfl, hfinal.2.2.2.1, hfinal.2.2.2.2.2⟩

end ApplicationRuntime

end LlmApp
