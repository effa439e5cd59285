/-
# Outputs are delivered once and in order

A run of an accumulator is any interleaving of pushes and pulls. Each run of
the token accumulator and of the text accumulator makes a delivery
(`Delivered`) of its successful pushes: the pulled batches and what is still
buffered are those pushes in order, the batches follow one another, and every
record resolves within its batch to what its push was given.

Key definitions: `TokenOutputRun`, `TextOutputRun`, `TokenOutputBatch.Carries`,
`OutputBatch.Carries`.
Key theorems: `TokenOutputRun.all_delivers`, `TextOutputRun.all_delivers`,
`outputs_delivered`.
-/
import LlmApp.Data.Accumulator
import LlmApp.HostRuntime.TextOutput

namespace LlmApp

/-! ### The token accumulator -/

/-- A pulled batch; `finish` is the source's `end`. -/
structure TokenOutputBatch (S : Type) where
  start : ℕ
  finish : ℕ
  tokens : List TokenId
  records : List (TokenOutputRecord S)

inductive TokenOutputInitializationError where
  | tokenStorage | recordStorage
deriving DecidableEq, Repr

/-- A record takes `recordSize` bytes, and a token four. -/
def tokenOutputAccumulator (S : Type) (allocate : ℕ → Bool) (recordSize tokenCapacity recordCapacity : ℕ) :
    Except TokenOutputInitializationError (TokenOutput S) := do
  Except.failIf (tryReserveExact allocate tokenCapacity 4 = false) .tokenStorage
  Except.failIf (tryReserveExact allocate recordCapacity recordSize = false) .recordStorage
  return { tokenCapacity := tokenCapacity, recordCapacity := recordCapacity }

/-- The tokens of an absolute range, if it lies within the batch. -/
def TokenOutputBatch.tokensFor {S : Type} (batch : TokenOutputBatch S) (range : TokenRange) : Option (List TokenId) := do
  let offset ← checkedSub range.start batch.start
  let finish ← checkedAdd u64Max offset range.length
  if finish ≤ batch.tokens.length then some ((batch.tokens.drop offset).take range.length) else none

namespace TokenOutput

variable {S : Type} (o : TokenOutput S)

/-- What a pull hands to its callback. -/
def batch : TokenOutputBatch S := ⟨o.start, o.pull.start, o.tokens, o.records⟩

/-- The accumulator as the next push finds it: free, or held by another. -/
def contended (busy : Bool) : TokenOutput S := { o with consumer := fun _ => if busy then .busy else .idle }

/-- What the accumulator holds. -/
def contents : ℕ × List TokenId × List (TokenOutputRecord S) := (o.start, o.tokens, o.records)

end TokenOutput

inductive TokenOutputEvent (S : Type) where
  | pushTokens (busy : Bool) (requestId : RequestId) (tokens : List TokenId)
  | pushState (busy : Bool) (requestId : RequestId) (payload : S)
  | pull

/-- The accumulator with its successful pushes and the batches pulled from it. -/
structure TokenOutputRun (S : Type) where
  output : TokenOutput S
  pushed : List (RequestId × Publication S)
  batches : List (TokenOutputBatch S)

/-- The push of an event, and the entry it makes if it succeeds; nothing is
made of an empty slice. -/
def TokenOutputEvent.push {S : Type} (o : TokenOutput S) :
    TokenOutputEvent S → Option ((Except OutputPushError Unit × TokenOutput S) × Option (RequestId × Publication S))
  | .pushTokens busy requestId tokens => some ((o.contended busy).tryPushTokens requestId tokens,
      if tokens.isEmpty then none else some (requestId, .tokens tokens))
  | .pushState busy requestId payload => some ((o.contended busy).tryPushState requestId payload,
      some (requestId, .state payload))
  | .pull => none

namespace TokenOutputRun

variable {S : Type}

def step (run : TokenOutputRun S) (event : TokenOutputEvent S) : TokenOutputRun S :=
  match event.push run.output with
  | none => { run with output := run.output.pull, batches := run.batches ++ [run.output.batch] }
  | some ((.ok (), o), entry) => { run with output := o, pushed := run.pushed ++ entry.toList }
  | some ((.error _, o), _) => { run with output := o }

def all (o : TokenOutput S) (events : List (TokenOutputEvent S)) : TokenOutputRun S :=
  events.foldl step ⟨o, [], []⟩

end TokenOutputRun

namespace TokenOutputBatch

variable {S : Type}

/-- A record stands for an entry: its tokens resolve to those of the push. -/
def Resolves (batch : TokenOutputBatch S) : RequestId × Publication S → TokenOutputRecord S → Prop
  | (requestId, .tokens tokens), record => record.requestId = requestId ∧
      ∃ range, record.kind = .tokens range ∧ batch.tokensFor range = some tokens
  | (requestId, .state payload), record => record = ⟨requestId, .state payload⟩

/-- The tokens of an entry. -/
def payload : RequestId × Publication S → List TokenId
  | (_, .tokens tokens) => tokens
  | (_, .state _) => []

/-- A batch carries exactly these entries. -/
structure Carries (batch : TokenOutputBatch S) (entries : List (RequestId × Publication S)) : Prop where
  tokens : batch.tokens = entries.flatMap payload
  records : List.Forall₂ batch.Resolves entries batch.records

/-- The record of an entry of the buffer that starts at `start`. -/
def recordOf (start offset : ℕ) : RequestId × Publication S → TokenOutputRecord S
  | (requestId, .tokens tokens) => ⟨requestId, .tokens ⟨start + offset, tokens.length⟩⟩
  | (requestId, .state payload) => ⟨requestId, .state payload⟩

def piece (batch : TokenOutputBatch S) : Piece TokenId (TokenOutputRecord S) :=
  ⟨batch.start, batch.finish, batch.tokens, batch.records⟩

/-- A batch written from entries carries them. -/
theorem carries {batch : TokenOutputBatch S} {entries : List (RequestId × Publication S)}
    (hlength : batch.tokens.length ≤ u64Max)
    (h : Written payload recordOf batch.start entries batch.tokens batch.records) : batch.Carries entries := by
  refine ⟨h.buffer_eq, h.forall₂ ?_⟩
  rintro offset ⟨requestId, tokens | state⟩ hroom hslice
  · refine ⟨rfl, _, rfl, ?_⟩
    have hoffset : checkedSub (batch.start + offset) batch.start = some offset :=
      checkedSub_eq_some.mpr (Nat.add_comm _ _)
    have hfinish : checkedAdd u64Max offset tokens.length = some (offset + tokens.length) :=
      checkedAdd_eq_some.mpr ⟨rfl, hroom.trans hlength⟩
    have hinside : offset + tokens.length ≤ batch.tokens.length := hroom
    simp only [tokensFor, hoffset, hfinish, Option.bind_eq_bind, Option.bind_some, if_pos hinside]
    exact congrArg some hslice
  · rfl

end TokenOutputBatch

/-! ### Its deliveries -/

namespace TokenOutput

variable {S : Type} {o o' : TokenOutput S}

/-- An accumulator made with these capacities, whose consumer has not panicked. -/
structure Sound (tokenCapacity recordCapacity : ℕ) (o : TokenOutput S) : Prop where
  tokenBound : o.tokenCapacity = tokenCapacity
  recordBound : o.recordCapacity = recordCapacity
  notPoisoned : o.poisoned = false
  tokens : o.tokens.length ≤ tokenCapacity
  records : o.records.length ≤ recordCapacity

theorem contended_tryLock (o : TokenOutput S) (busy : Bool) (h : o.poisoned = false) :
    ∃ o', (o.contended busy).tryLock = (if busy then .error .consumerBusy else .ok (), o') ∧
      o' = { o with consumer := (o.contended busy).consumer, attempts := o.attempts + 1 } := by
  cases busy <;> simp [tryLock, meetConsumer, contended, h]

theorem ensureRecordCapacity_ok {u : Unit} (hcapacity : o.recordCapacity ≤ isizeMax)
    (h : o.ensureRecordCapacity = .ok u) : o.records.length + 1 ≤ o.recordCapacity := by
  rw [ensureRecordCapacity, Except.failIf_eq_ok, saturatingAdd] at h
  unfold isizeMax at hcapacity
  unfold u64Max at h
  omega

theorem checkTokens_ok {tokens : List TokenId} {rangeStart : ℕ} (htokens : o.tokenCapacity ≤ isizeMax)
    (hrecords : o.recordCapacity ≤ isizeMax) (h : o.checkTokens tokens = .ok rangeStart) :
    o.tokens.length + tokens.length ≤ o.tokenCapacity ∧ o.records.length + 1 ≤ o.recordCapacity ∧
      rangeStart = o.start + o.tokens.length ∧ o.start + (o.tokens.length + tokens.length) ≤ u64Max := by
  simp only [checkTokens, checkedCursor, Except.bind_eq_ok, Except.failIf_eq_ok, Except.okOr_eq_ok,
    checkedAdd_eq_some, Except.pure_eq_ok] at h
  obtain ⟨_, hroom, _, hrecord, _, ⟨rfl, -⟩, _, ⟨rfl, hfits⟩, rfl⟩ := h
  have hexact : o.tokens.length + tokens.length ≤ o.tokenCapacity := by
    rw [saturatingAdd] at hroom
    unfold isizeMax at htokens
    unfold u64Max at hroom
    omega
  refine ⟨hexact, ensureRecordCapacity_ok hrecords hrecord, rfl, ?_⟩
  rw [saturatingAdd] at hfits
  unfold isizeMax at htokens
  unfold u64Max at hfits ⊢
  omega

/-- What a push does: nothing, or one entry at the end of the buffer. -/
inductive Pushes (o : TokenOutput S) : Option (RequestId × Publication S) →
    Except OutputPushError Unit × TokenOutput S → Prop
  | failed {e : OutputPushError} {o' : TokenOutput S} (entry : Option (RequestId × Publication S))
      (h : o'.contents = o.contents) : Pushes o entry (.error e, o')
  | empty {o' : TokenOutput S} (h : o'.contents = o.contents) : Pushes o none (.ok (), o')
  | written {o' : TokenOutput S} {entry : RequestId × Publication S}
      (h : o'.contents = (o.start, o.tokens ++ TokenOutputBatch.payload entry,
        o.records ++ [TokenOutputBatch.recordOf o.start o.tokens.length entry])) :
      Pushes o (some entry) (.ok (), o')

theorem contents_eq {start : ℕ} {tokens : List TokenId} {records : List (TokenOutputRecord S)} :
    o.contents = (start, tokens, records) ↔ o.start = start ∧ o.tokens = tokens ∧ o.records = records := by
  simp [contents]

section Push

variable {tokenCapacity recordCapacity : ℕ}

theorem tryPushTokens_pushes (hc : tokenCapacity ≤ isizeMax) (hr : recordCapacity ≤ isizeMax)
    (h : Sound tokenCapacity recordCapacity o) (busy : Bool) (requestId : RequestId) (tokens : List TokenId) :
    Sound tokenCapacity recordCapacity ((o.contended busy).tryPushTokens requestId tokens).2 ∧
      Pushes o (if tokens.isEmpty then none else some (requestId, .tokens tokens))
        ((o.contended busy).tryPushTokens requestId tokens) := by
  obtain ⟨o', hlock, ho'⟩ := o.contended_tryLock busy h.notPoisoned
  have hsound : Sound tokenCapacity recordCapacity o' := by
    rw [ho']
    exact ⟨h.tokenBound, h.recordBound, h.notPoisoned, h.tokens, h.records⟩
  have hcontents : o'.contents = o.contents := by rw [ho']; rfl
  obtain ⟨hstart, htokens, hrecords⟩ := contents_eq.mp hcontents
  unfold tryPushTokens
  by_cases hempty : tokens.isEmpty = true
  · rw [if_pos hempty, if_pos hempty]
    exact ⟨⟨h.tokenBound, h.recordBound, h.notPoisoned, h.tokens, h.records⟩, .empty rfl⟩
  rw [if_neg hempty, if_neg hempty, hlock]
  cases busy with
  | true => exact ⟨hsound, .failed _ hcontents⟩
  | false =>
    simp only [Bool.false_eq_true, if_false]
    split
    · exact ⟨hsound, .failed _ hcontents⟩
    next rangeStart hcheck =>
    obtain ⟨hroom, hrecord, rfl, -⟩ :=
      checkTokens_ok (hsound.tokenBound ▸ hc) (hsound.recordBound ▸ hr) hcheck
    refine ⟨⟨hsound.tokenBound, hsound.recordBound, hsound.notPoisoned, ?_, ?_⟩, .written ?_⟩
    · rw [List.length_append, ← hsound.tokenBound]
      exact hroom
    · rw [List.length_append, ← hsound.recordBound]
      exact hrecord
    · rw [contents_eq]
      exact ⟨hstart, by rw [htokens]; rfl, by rw [hrecords, hstart, htokens]; rfl⟩

theorem tryPushState_pushes (hr : recordCapacity ≤ isizeMax) (h : Sound tokenCapacity recordCapacity o)
    (busy : Bool) (requestId : RequestId) (payload : S) :
    Sound tokenCapacity recordCapacity ((o.contended busy).tryPushState requestId payload).2 ∧
      Pushes o (some (requestId, .state payload)) ((o.contended busy).tryPushState requestId payload) := by
  obtain ⟨o', hlock, ho'⟩ := o.contended_tryLock busy h.notPoisoned
  have hsound : Sound tokenCapacity recordCapacity o' := by
    rw [ho']
    exact ⟨h.tokenBound, h.recordBound, h.notPoisoned, h.tokens, h.records⟩
  have hcontents : o'.contents = o.contents := by rw [ho']; rfl
  obtain ⟨hstart, htokens, hrecords⟩ := contents_eq.mp hcontents
  unfold tryPushState
  rw [hlock]
  cases busy with
  | true => exact ⟨hsound, .failed _ hcontents⟩
  | false =>
    simp only [Bool.false_eq_true, if_false]
    split
    · exact ⟨hsound, .failed _ hcontents⟩
    next hcheck =>
    have hrecord := ensureRecordCapacity_ok (hsound.recordBound ▸ hr) hcheck
    refine ⟨⟨hsound.tokenBound, hsound.recordBound, hsound.notPoisoned, hsound.tokens, ?_⟩, .written ?_⟩
    · rw [List.length_append, ← hsound.recordBound]
      exact hrecord
    · rw [contents_eq]
      exact ⟨hstart, by simp [htokens, TokenOutputBatch.payload], by rw [hrecords]; rfl⟩

end Push

end TokenOutput

namespace TokenOutputRun

variable {S : Type} {tokenCapacity recordCapacity : ℕ} {run : TokenOutputRun S}

/-- The run so far is a delivery of its pushes. -/
structure Delivers (tokenCapacity recordCapacity : ℕ) (run : TokenOutputRun S) : Prop where
  sound : TokenOutput.Sound tokenCapacity recordCapacity run.output
  batches : ∀ batch ∈ run.batches, batch.tokens.length ≤ tokenCapacity
  delivered : Delivered TokenOutputBatch.payload TokenOutputBatch.recordOf u64Max run.pushed
    (run.batches.map TokenOutputBatch.piece) run.output.start run.output.tokens run.output.records

theorem Delivers.step (hc : tokenCapacity ≤ isizeMax) (hr : recordCapacity ≤ isizeMax)
    (h : Delivers tokenCapacity recordCapacity run) (event : TokenOutputEvent S) :
    Delivers tokenCapacity recordCapacity (run.step event) ∧
      ∀ push entry, event.push run.output = some (push, entry) → TokenOutput.Pushes run.output entry push := by
  have hpush : ∀ push entry, event.push run.output = some (push, entry) →
      TokenOutput.Sound tokenCapacity recordCapacity push.2 ∧ TokenOutput.Pushes run.output entry push := by
    intro push entry hevent
    cases event with
    | pushTokens busy requestId tokens =>
      obtain ⟨rfl, rfl⟩ := Prod.mk.inj (Option.some.inj hevent)
      exact TokenOutput.tryPushTokens_pushes hc hr h.sound busy requestId tokens
    | pushState busy requestId payload =>
      obtain ⟨rfl, rfl⟩ := Prod.mk.inj (Option.some.inj hevent)
      exact TokenOutput.tryPushState_pushes hr h.sound busy requestId payload
    | pull => cases hevent
  refine ⟨?_, fun push entry hevent => (hpush push entry hevent).2⟩
  unfold TokenOutputRun.step
  split
  · refine ⟨⟨h.sound.tokenBound, h.sound.recordBound, h.sound.notPoisoned, Nat.zero_le _, Nat.zero_le _⟩, ?_, ?_⟩
    · intro batch hbatch
      obtain hbatch | hbatch := List.mem_append.mp hbatch
      · exact h.batches batch hbatch
      · rw [List.mem_singleton.mp hbatch]
        exact h.sound.tokens
    · rw [List.map_append]
      exact h.delivered.take rfl
  · next o entry hevent =>
    obtain ⟨hsound, hpushes⟩ := hpush _ _ hevent
    refine ⟨hsound, h.batches, ?_⟩
    cases hpushes with
    | empty hcontents =>
      obtain ⟨h1, h2, h3⟩ := TokenOutput.contents_eq.mp hcontents
      rw [h1, h2, h3, Option.toList_none, List.append_nil]
      exact h.delivered
    | @written _ entry hcontents =>
      obtain ⟨h1, h2, h3⟩ := TokenOutput.contents_eq.mp hcontents
      rw [h1, h2, h3]
      exact h.delivered.write entry
  · next e o entry hevent =>
    obtain ⟨hsound, hpushes⟩ := hpush _ _ hevent
    refine ⟨hsound, h.batches, ?_⟩
    cases hpushes with
    | failed _ hcontents =>
      obtain ⟨h1, h2, h3⟩ := TokenOutput.contents_eq.mp hcontents
      rw [h1, h2, h3]
      exact h.delivered

theorem all_delivers {allocate : ℕ → Bool} {recordSize : ℕ} (hsize : 0 < recordSize) {o : TokenOutput S}
    (hmade : tokenOutputAccumulator S allocate recordSize tokenCapacity recordCapacity = .ok o)
    (events : List (TokenOutputEvent S)) :
    tokenCapacity ≤ isizeMax ∧ recordCapacity ≤ isizeMax ∧ Delivers tokenCapacity recordCapacity (all o events) := by
  simp only [tokenOutputAccumulator, Except.bind_eq_ok, Except.failIf_eq_ok, Bool.not_eq_false,
    Except.pure_eq_ok] at hmade
  obtain ⟨_, htokens, _, hrecords, rfl⟩ := hmade
  have hc := tryReserveExact_le htokens (by omega)
  have hr := tryReserveExact_le hrecords hsize
  refine ⟨hc, hr, ?_⟩
  have hrun : ∀ (events : List (TokenOutputEvent S)) {run : TokenOutputRun S},
      Delivers tokenCapacity recordCapacity run → Delivers tokenCapacity recordCapacity (events.foldl step run) := by
    intro events
    induction events with
    | nil => exact fun h => h
    | cons event events ih => exact fun h => ih (h.step hc hr event).1
  exact hrun events ⟨⟨rfl, rfl, rfl, Nat.zero_le _, Nat.zero_le _⟩, by simp, .nil⟩

end TokenOutputRun

/-! ### The text accumulator -/

inductive TextOutputEvent where
  | pushText (mutex : MutexState) (requestId : RequestId) (text : String)
  | pushRecord (mutex : MutexState) (requestId : RequestId) (kind : OutputRecordKind)
  | pull

/-- What one successful push of text or of another record published. -/
inductive TextPublication where
  | text (text : String)
  | record (kind : OutputRecordKind)

structure TextOutputRun where
  output : TextOutput
  pushed : List (RequestId × TextPublication)
  batches : List OutputBatch

/-- The push of an event, and the entry it makes if it succeeds. -/
def TextOutputEvent.push (o : TextOutput) :
    TextOutputEvent → Option ((Except OutputPushError Unit × TextOutput) × (RequestId × TextPublication))
  | .pushText mutex requestId text => some (o.tryPushText mutex requestId text, (requestId, .text text))
  | .pushRecord mutex requestId kind => some (o.tryPushRecord mutex requestId kind, (requestId, .record kind))
  | .pull => none

namespace TextOutputRun

def step (run : TextOutputRun) (event : TextOutputEvent) : TextOutputRun :=
  match event.push run.output with
  | none => { run with output := run.output.pull.2, batches := run.batches ++ [run.output.pull.1] }
  | some ((.ok (), o), entry) => { run with output := o, pushed := run.pushed ++ [entry] }
  | some ((.error _, o), _) => { run with output := o }

def all (o : TextOutput) (events : List TextOutputEvent) : TextOutputRun := events.foldl step ⟨o, [], []⟩

end TextOutputRun

namespace OutputBatch

/-- A record stands for an entry: its range holds the UTF-8 text of the push. -/
def Resolves (batch : OutputBatch) : RequestId × TextPublication → OutputRecord → Prop
  | (requestId, .text text), record => record.requestId = requestId ∧ ∃ range, record.kind = .text range ∧
      range.start + range.length ≤ batch.bytes.length ∧
      (batch.bytes.drop range.start).take range.length = utf8 text
  | (requestId, .record kind), record => record = ⟨requestId, kind⟩

/-- The bytes of an entry. -/
def payload : RequestId × TextPublication → List UInt8
  | (_, .text text) => utf8 text
  | (_, .record _) => []

/-- A batch carries exactly these entries. -/
structure Carries (batch : OutputBatch) (entries : List (RequestId × TextPublication)) : Prop where
  bytes : batch.bytes = entries.flatMap payload
  records : List.Forall₂ batch.Resolves entries batch.records

/-- The record of an entry; its range is relative to the batch. -/
def recordOf (_start offset : ℕ) : RequestId × TextPublication → OutputRecord
  | (requestId, .text text) => ⟨requestId, .text ⟨offset, (utf8 text).length⟩⟩
  | (requestId, .record kind) => ⟨requestId, kind⟩

def piece (batch : OutputBatch) : Piece UInt8 OutputRecord :=
  ⟨batch.start, batch.finish, batch.bytes, batch.records⟩

theorem carries {batch : OutputBatch} {entries : List (RequestId × TextPublication)}
    (h : Written payload recordOf batch.start entries batch.bytes batch.records) : batch.Carries entries := by
  refine ⟨h.buffer_eq, h.forall₂ ?_⟩
  rintro offset ⟨requestId, text | kind⟩ hroom hslice
  · exact ⟨rfl, _, rfl, hroom, hslice⟩
  · rfl

end OutputBatch

/-! ### Its deliveries -/

namespace TextOutput

variable {o : TextOutput} {byteCapacity recordCapacity : ℕ}

structure Sound (byteCapacity recordCapacity : ℕ) (o : TextOutput) : Prop where
  byteBound : o.byteCapacity = byteCapacity
  recordBound : o.recordCapacity = recordCapacity
  bytes : o.bytes.length ≤ byteCapacity
  records : o.records.length ≤ recordCapacity

theorem ensureRecordCapacity_ok {u : Unit} (hcapacity : o.recordCapacity ≤ isizeMax)
    (h : o.ensureRecordCapacity = .ok u) : o.records.length + 1 ≤ o.recordCapacity := by
  rw [ensureRecordCapacity, Except.failIf_eq_ok, saturatingAdd] at h
  unfold isizeMax at hcapacity
  unfold u64Max at h
  omega

/-- What a push does: nothing, or one entry at the end of the buffer. -/
inductive Pushes (o : TextOutput) (entry : RequestId × TextPublication) :
    Except OutputPushError Unit × TextOutput → Prop
  | failed (e : OutputPushError) : Pushes o entry (.error e, o)
  | written : Pushes o entry (.ok (), { o with
      bytes := o.bytes ++ OutputBatch.payload entry
      records := o.records ++ [OutputBatch.recordOf o.start o.bytes.length entry] })

theorem tryPushText_pushes (hc : byteCapacity ≤ isizeMax) (hr : recordCapacity ≤ isizeMax)
    (h : Sound byteCapacity recordCapacity o) (mutex : MutexState) (requestId : RequestId) (text : String) :
    Sound byteCapacity recordCapacity (o.tryPushText mutex requestId text).2 ∧
      Pushes o (requestId, .text text) (o.tryPushText mutex requestId text) := by
  unfold tryPushText
  split
  · exact ⟨h, .failed _⟩
  next hcheck =>
  simp only [checkText, Except.bind_eq_ok, Except.failIf_eq_ok] at hcheck
  obtain ⟨_, -, _, hroom, hrecord⟩ := hcheck
  have hrecord := ensureRecordCapacity_ok (h.recordBound ▸ hr) hrecord
  have hbound := h.byteBound
  refine ⟨⟨h.byteBound, h.recordBound, ?_, ?_⟩, .written⟩
  · rw [List.length_append]
    rw [saturatingAdd] at hroom
    unfold isizeMax at hc
    unfold u64Max at hroom
    omega
  · rw [List.length_append, ← h.recordBound]
    exact hrecord

theorem tryPushRecord_pushes (hr : recordCapacity ≤ isizeMax) (h : Sound byteCapacity recordCapacity o)
    (mutex : MutexState) (requestId : RequestId) (kind : OutputRecordKind) :
    Sound byteCapacity recordCapacity (o.tryPushRecord mutex requestId kind).2 ∧
      Pushes o (requestId, .record kind) (o.tryPushRecord mutex requestId kind) := by
  unfold tryPushRecord
  split
  · exact ⟨h, .failed _⟩
  next hcheck =>
  simp only [checkRecord, Except.bind_eq_ok] at hcheck
  obtain ⟨_, -, _, -, hrecord⟩ := hcheck
  have hrecord := ensureRecordCapacity_ok (h.recordBound ▸ hr) hrecord
  refine ⟨⟨h.byteBound, h.recordBound, h.bytes, ?_⟩, ?_⟩
  · rw [List.length_append, ← h.recordBound]
    exact hrecord
  · have hwritten : Pushes o (requestId, .record kind) _ := Pushes.written
    rwa [OutputBatch.payload, List.append_nil] at hwritten

end TextOutput

namespace TextOutputRun

variable {byteCapacity recordCapacity : ℕ} {run : TextOutputRun}

/-- The run so far is a delivery of its pushes. -/
structure Delivers (byteCapacity recordCapacity : ℕ) (run : TextOutputRun) : Prop where
  sound : TextOutput.Sound byteCapacity recordCapacity run.output
  delivered : Delivered OutputBatch.payload OutputBatch.recordOf u64Max run.pushed
    (run.batches.map OutputBatch.piece) run.output.start run.output.bytes run.output.records

theorem Delivers.step (hc : byteCapacity ≤ isizeMax) (hr : recordCapacity ≤ isizeMax)
    (h : Delivers byteCapacity recordCapacity run) (event : TextOutputEvent) :
    Delivers byteCapacity recordCapacity (run.step event) ∧
      ∀ push entry, event.push run.output = some (push, entry) → TextOutput.Pushes run.output entry push := by
  have hpush : ∀ push entry, event.push run.output = some (push, entry) →
      TextOutput.Sound byteCapacity recordCapacity push.2 ∧ TextOutput.Pushes run.output entry push := by
    intro push entry hevent
    cases event with
    | pushText mutex requestId text =>
      obtain ⟨rfl, rfl⟩ := Prod.mk.inj (Option.some.inj hevent)
      exact TextOutput.tryPushText_pushes hc hr h.sound mutex requestId text
    | pushRecord mutex requestId kind =>
      obtain ⟨rfl, rfl⟩ := Prod.mk.inj (Option.some.inj hevent)
      exact TextOutput.tryPushRecord_pushes hr h.sound mutex requestId kind
    | pull => cases hevent
  refine ⟨?_, fun push entry hevent => (hpush push entry hevent).2⟩
  unfold TextOutputRun.step
  split
  · refine ⟨⟨h.sound.byteBound, h.sound.recordBound, Nat.zero_le _, Nat.zero_le _⟩, ?_⟩
    rw [List.map_append]
    exact h.delivered.take rfl
  · next o entry hevent =>
    obtain ⟨hsound, hpushes⟩ := hpush _ _ hevent
    cases hpushes
    exact ⟨hsound, h.delivered.write entry⟩
  · next e o entry hevent =>
    obtain ⟨hsound, hpushes⟩ := hpush _ _ hevent
    cases hpushes
    exact ⟨hsound, h.delivered⟩

theorem all_delivers {allocate : ℕ → Bool} {recordSize : ℕ} (hsize : 0 < recordSize) {o : TextOutput}
    (hmade : outputAccumulator allocate recordSize byteCapacity recordCapacity = .ok o)
    (events : List TextOutputEvent) :
    byteCapacity ≤ isizeMax ∧ recordCapacity ≤ isizeMax ∧ Delivers byteCapacity recordCapacity (all o events) := by
  simp only [outputAccumulator, Except.bind_eq_ok, Except.failIf_eq_ok, Bool.not_eq_false, Except.pure_eq_ok] at hmade
  obtain ⟨_, hbytes, _, hrecords, rfl⟩ := hmade
  have hc := tryReserveExact_le hbytes one_pos
  have hr := tryReserveExact_le hrecords hsize
  refine ⟨hc, hr, ?_⟩
  have hrun : ∀ (events : List TextOutputEvent) {run : TextOutputRun},
      Delivers byteCapacity recordCapacity run → Delivers byteCapacity recordCapacity (events.foldl step run) := by
    intro events
    induction events with
    | nil => exact fun h => h
    | cons event events ih => exact fun h => ih (h.step hc hr event).1
  exact hrun events ⟨⟨rfl, rfl, Nat.zero_le _, Nat.zero_le _⟩, .nil⟩

end TextOutputRun

/-! ### Every run -/

/-- The run of a token accumulator with these capacities lost and doubled nothing. -/
structure TokenOutputRun.Faithful {S : Type} (tokenCapacity recordCapacity : ℕ) (run : TokenOutputRun S) : Prop where
  delivered : ∃ parts pending, run.pushed = parts.flatten ++ pending ∧
    List.Forall₂ TokenOutputBatch.Carries run.batches parts ∧ run.output.batch.Carries pending
  contiguous : Contiguous 0 (run.batches.map TokenOutputBatch.piece) run.output.start
  counted : (run.pushed.flatMap TokenOutputBatch.payload).length < 2 ^ 64 →
    ∀ batch ∈ run.batches, batch.finish = batch.start + batch.tokens.length
  tokens : run.output.tokens.length ≤ tokenCapacity
  records : run.output.records.length ≤ recordCapacity
  failed (event : TokenOutputEvent S) {e : OutputPushError} {o : TokenOutput S}
    {entry : Option (RequestId × Publication S)} (h : event.push run.output = some ((.error e, o), entry)) :
    o.contents = run.output.contents
  empty (busy : Bool) (requestId : RequestId) : ∃ o,
    (TokenOutputEvent.pushTokens busy requestId []).push run.output = some ((.ok (), o), none) ∧
      o.contents = run.output.contents
  /-- A pull hands over everything that was pushed, and leaves nothing. -/
  pulled : (run.step .pull).output.tokens = [] ∧ (run.step .pull).output.records = [] ∧
    ∃ parts, run.pushed = parts.flatten ∧ List.Forall₂ TokenOutputBatch.Carries (run.step .pull).batches parts

/-- The run of a text accumulator with these capacities lost and doubled nothing. -/
structure TextOutputRun.Faithful (byteCapacity recordCapacity : ℕ) (run : TextOutputRun) : Prop where
  delivered : ∃ parts pending, run.pushed = parts.flatten ++ pending ∧
    List.Forall₂ OutputBatch.Carries run.batches parts ∧ run.output.batch.Carries pending
  contiguous : Contiguous 0 (run.batches.map OutputBatch.piece) run.output.start
  counted : (run.pushed.flatMap OutputBatch.payload).length < 2 ^ 64 →
    ∀ batch ∈ run.batches, batch.finish = batch.start + batch.bytes.length
  bytes : run.output.bytes.length ≤ byteCapacity
  records : run.output.records.length ≤ recordCapacity
  failed (event : TextOutputEvent) {e : OutputPushError} {o : TextOutput} {entry : RequestId × TextPublication}
    (h : event.push run.output = some ((.error e, o), entry)) : o = run.output
  /-- A pull hands over everything that was pushed, and leaves nothing. -/
  pulled : (run.step .pull).output.bytes = [] ∧ (run.step .pull).output.records = [] ∧
    ∃ parts, run.pushed = parts.flatten ∧ List.Forall₂ OutputBatch.Carries (run.step .pull).batches parts

theorem TokenOutputRun.Delivers.faithful {S : Type} {tokenCapacity recordCapacity : ℕ} (hc : tokenCapacity ≤ isizeMax)
    (hr : recordCapacity ≤ isizeMax) {run : TokenOutputRun S} (h : Delivers tokenCapacity recordCapacity run) :
    Faithful tokenCapacity recordCapacity run := by
  have hmax : tokenCapacity ≤ u64Max := hc.trans (by decide)
  obtain ⟨parts, pending, hpushed, hparts, hpending⟩ := h.delivered.parts
  have hpending : run.output.batch.Carries pending := TokenOutputBatch.carries (h.sound.tokens.trans hmax) hpending
  have hparts : List.Forall₂ TokenOutputBatch.Carries run.batches parts := by
    rw [List.forall₂_map_left_iff] at hparts
    refine ((List.forall₂_and_left _ _).mpr ⟨h.batches, hparts⟩).imp ?_
    exact fun batch part hpart => TokenOutputBatch.carries (hpart.1.trans hmax) hpart.2
  refine ⟨⟨parts, pending, hpushed, hparts, hpending⟩, h.delivered.contiguous, fun htotal batch hbatch => ?_,
    h.sound.tokens, h.sound.records, ?_, ?_, rfl, rfl, ?_⟩
  · exact (h.delivered.exact (Nat.le_of_lt_succ htotal)).2 batch.piece (List.mem_map_of_mem hbatch)
  · intro event e o entry hevent
    cases (h.step hc hr event).2 _ _ hevent with
    | failed _ hcontents => exact hcontents
  · exact fun busy requestId => ⟨_, rfl, rfl⟩
  · refine ⟨parts ++ [pending], ?_, List.rel_append hparts (.cons hpending .nil)⟩
    rw [hpushed, List.flatten_append, List.flatten_singleton]

theorem TextOutputRun.Delivers.faithful {byteCapacity recordCapacity : ℕ} (hc : byteCapacity ≤ isizeMax)
    (hr : recordCapacity ≤ isizeMax) {run : TextOutputRun} (h : Delivers byteCapacity recordCapacity run) :
    Faithful byteCapacity recordCapacity run := by
  obtain ⟨parts, pending, hpushed, hparts, hpending⟩ := h.delivered.parts
  have hpending : run.output.batch.Carries pending := OutputBatch.carries hpending
  have hparts : List.Forall₂ OutputBatch.Carries run.batches parts := by
    rw [List.forall₂_map_left_iff] at hparts
    exact hparts.imp fun batch part hpart => OutputBatch.carries hpart
  refine ⟨⟨parts, pending, hpushed, hparts, hpending⟩, h.delivered.contiguous, fun htotal batch hbatch => ?_,
    h.sound.bytes, h.sound.records, ?_, rfl, rfl, ?_⟩
  · exact (h.delivered.exact (Nat.le_of_lt_succ htotal)).2 batch.piece (List.mem_map_of_mem hbatch)
  · intro event e o entry hevent
    cases (h.step hc hr event).2 _ _ hevent with
    | failed _ => rfl
  · refine ⟨parts ++ [pending], ?_, List.rel_append hparts (.cons hpending .nil)⟩
    rw [hpushed, List.flatten_append, List.flatten_singleton]

/-- Whatever its capacities and however pushes and pulls interleave, an
accumulator delivers its successful pushes once and in order. -/
theorem outputs_delivered (S : Type) (allocate : ℕ → Bool) (recordSize : ℕ) (hsize : 0 < recordSize)
    (capacity recordCapacity : ℕ) :
    (∀ o, tokenOutputAccumulator S allocate recordSize capacity recordCapacity = .ok o → ∀ events,
      (TokenOutputRun.all o events).Faithful capacity recordCapacity) ∧
    (∀ o, outputAccumulator allocate recordSize capacity recordCapacity = .ok o → ∀ events,
      (TextOutputRun.all o events).Faithful capacity recordCapacity) := by
  constructor
  · intro o hmade events
    obtain ⟨hc, hr, h⟩ := TokenOutputRun.all_delivers hsize hmade events
    exact h.faithful hc hr
  · intro o hmade events
    obtain ⟨hc, hr, h⟩ := TextOutputRun.all_delivers hsize hmade events
    exact h.faithful hc hr

/-- Two tokens, a pull, a third token that finds the consumer busy, and again. -/
theorem outputs_delivered_busy :
    let o : TokenOutput ℕ := { tokenCapacity := 2, recordCapacity := 4 }
    let t : TextOutput := ⟨0, [], [], 2, 4⟩
    (TokenOutputRun.all o [.pushTokens false 7 [1, 2], .pull, .pushTokens true 7 [3], .pushTokens false 7 [3]]).Faithful
      2 4 ∧
      (TextOutputRun.all t [.pushText .free 7 "a", .pushText .free 7 "bc", .pull]).Faithful 2 4 := by
  intro o t
  have h := outputs_delivered ℕ (fun _ => true) 32 (by decide) 2 4
  exact ⟨h.1 o rfl _, h.2 t rfl _⟩

end LlmApp
