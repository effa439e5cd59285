/-
# The token output accumulator

The accumulator between the worker and its consumer: a bounded vector of
tokens and a bounded vector of records, behind a mutex. A push never waits:
`try_lock` fails while the consumer holds the accumulator, and always after a
panic of the consumer's callback. A pull takes everything and moves the cursor.

The consumer runs on a thread of its own. What it does around the `n`-th
attempt to lock is `consumer n`, any function: the pushes of a run meet any
interleaving with pulls. `published` records the successful pushes; no
function of the accumulator reads it.

Key definitions: `TokenOutput`, `TokenOutput.tryPushTokens`,
`TokenOutput.tryPushState`, `TokenOutput.pull`.
Key theorems: `TokenOutput.tryPushState_ok`, `TokenOutput.tryPushState_error`.
-/
import LlmApp.Data.Except
import LlmApp.Contracts

namespace LlmApp

inductive OutputPushError where
  | consumerBusy
  | capacityExhausted (capacity : CapacityExhausted)
  | invalidRecordKind
  | poisoned
deriving DecidableEq, Repr

/-- Tokens by absolute position: `length` of them from `start`. -/
structure TokenRange where
  start : ℕ
  length : ℕ
deriving DecidableEq, Repr

inductive TokenOutputRecordKind (S : Type) where
  | tokens (range : TokenRange)
  | state (payload : S)
deriving DecidableEq, Repr

structure TokenOutputRecord (S : Type) where
  requestId : RequestId
  kind : TokenOutputRecordKind S
deriving DecidableEq, Repr

/-- What one successful push published. -/
inductive Publication (S : Type) where
  | tokens (tokens : List TokenId)
  | state (payload : S)
deriving DecidableEq, Repr

/-- What the consumer does before an attempt to lock the accumulator: nothing,
a whole pull, a pull that still runs, or a pull whose callback panics. -/
inductive ConsumerMove where
  | idle | pulled | busy | panicked
deriving DecidableEq, Repr

structure TokenOutput (S : Type) where
  start : ℕ := 0
  tokens : List TokenId := []
  records : List (TokenOutputRecord S) := []
  tokenCapacity : ℕ
  recordCapacity : ℕ
  poisoned : Bool := false
  consumer : ℕ → ConsumerMove := fun _ => .idle
  attempts : ℕ := 0
  published : List (RequestId × Publication S) := []

namespace TokenOutput

variable {S : Type} (o : TokenOutput S)

def capacities : ℕ × ℕ := (o.tokenCapacity, o.recordCapacity)

/-- The consumer takes what is there. -/
def pull : TokenOutput S :=
  { o with start := saturatingAdd u64Max o.start o.tokens.length, tokens := [], records := [] }

/-- The accumulator at the next attempt to lock it, after the consumer's move. -/
def meetConsumer : TokenOutput S :=
  let met := { o with attempts := o.attempts + 1 }
  match o.consumer o.attempts with
  | .idle | .busy => met
  | .pulled => if o.poisoned then met else met.pull
  | .panicked => { met with poisoned := true }

def tryLock : Except OutputPushError Unit × TokenOutput S :=
  let met := o.meetConsumer
  if o.consumer o.attempts = .busy then (.error .consumerBusy, met)
  else if met.poisoned then (.error .poisoned, met)
  else (.ok (), met)

def ensureRecordCapacity : Except OutputPushError Unit :=
  let required := saturatingAdd u64Max o.records.length 1
  Except.failIf (o.recordCapacity < required)
    (.capacityExhausted ⟨.outputRecords, required, o.recordCapacity⟩)

def checkedCursor (batchOffset : ℕ) : Except OutputPushError ℕ :=
  Except.okOr (checkedAdd u64Max o.start batchOffset)
    (.capacityExhausted ⟨.tokens, batchOffset, u64Max - o.start⟩)

/-- The checks of a push of `tokens`, and the cursor of the first. -/
def checkTokens (tokens : List TokenId) : Except OutputPushError ℕ := do
  let requiredTokens := saturatingAdd u64Max o.tokens.length tokens.length
  Except.failIf (o.tokenCapacity < requiredTokens)
    (.capacityExhausted ⟨.tokens, requiredTokens, o.tokenCapacity⟩)
  o.ensureRecordCapacity
  let rangeStart ← o.checkedCursor o.tokens.length
  let _ ← o.checkedCursor requiredTokens
  return rangeStart

def tryPushTokens (requestId : RequestId) (tokens : List TokenId) :
    Except OutputPushError Unit × TokenOutput S :=
  if tokens.isEmpty then (.ok (), o)
  else
  match o.tryLock with
  | (.error e, o) => (.error e, o)
  | (.ok (), o) =>
  match o.checkTokens tokens with
  | .error e => (.error e, o)
  | .ok rangeStart =>
    (.ok (), { o with
      tokens := o.tokens ++ tokens
      records := o.records ++ [⟨requestId, .tokens ⟨rangeStart, tokens.length⟩⟩]
      published := o.published ++ [(requestId, .tokens tokens)] })

def tryPushToken (requestId : RequestId) (token : TokenId) :
    Except OutputPushError Unit × TokenOutput S :=
  o.tryPushTokens requestId [token]

def tryPushState (requestId : RequestId) (payload : S) : Except OutputPushError Unit × TokenOutput S :=
  match o.tryLock with
  | (.error e, o) => (.error e, o)
  | (.ok (), o) =>
  match o.ensureRecordCapacity with
  | .error e => (.error e, o)
  | .ok () =>
    (.ok (), { o with
      records := o.records ++ [⟨requestId, .state payload⟩]
      published := o.published ++ [(requestId, .state payload)] })

/-! ### A push publishes or does not -/

@[simp] theorem pull_published : o.pull.published = o.published := rfl

@[simp] theorem meetConsumer_published : o.meetConsumer.published = o.published := by
  unfold meetConsumer
  dsimp only
  split <;> [skip; skip; split_ifs; skip] <;> rfl

theorem tryLock_published {r : Except OutputPushError Unit} {o' : TokenOutput S}
    (h : o.tryLock = (r, o')) : o'.published = o.published := by
  unfold tryLock at h
  dsimp only at h
  split_ifs at h <;> cases h <;> exact o.meetConsumer_published

/-- A successful push publishes its payload, after what was published. -/
theorem tryPushState_ok {requestId : RequestId} {payload : S} {o' : TokenOutput S}
    (h : o.tryPushState requestId payload = (.ok (), o')) :
    o'.published = o.published ++ [(requestId, .state payload)] := by
  unfold tryPushState at h
  split at h
  · cases h
  next hlock =>
  have hp := o.tryLock_published hlock
  split at h <;> cases h
  rw [← hp]

theorem tryPushState_error {requestId : RequestId} {payload : S} {e : OutputPushError} {o' : TokenOutput S}
    (h : o.tryPushState requestId payload = (.error e, o')) : o'.published = o.published := by
  unfold tryPushState at h
  split at h
  · next hlock => cases h; exact o.tryLock_published hlock
  next hlock =>
  split at h <;> cases h
  exact o.tryLock_published hlock

theorem tryPushToken_ok {requestId : RequestId} {token : TokenId} {o' : TokenOutput S}
    (h : o.tryPushToken requestId token = (.ok (), o')) :
    o'.published = o.published ++ [(requestId, .tokens [token])] := by
  unfold tryPushToken tryPushTokens at h
  rw [if_neg (by simp)] at h
  split at h
  · cases h
  next hlock =>
  have hp := o.tryLock_published hlock
  split at h <;> cases h
  rw [← hp]

theorem tryPushToken_error {requestId : RequestId} {token : TokenId} {e : OutputPushError}
    {o' : TokenOutput S} (h : o.tryPushToken requestId token = (.error e, o')) :
    o'.published = o.published := by
  unfold tryPushToken tryPushTokens at h
  rw [if_neg (by simp)] at h
  split at h
  · next hlock => cases h; exact o.tryLock_published hlock
  next hlock =>
  split at h <;> cases h
  exact o.tryLock_published hlock

end TokenOutput

end LlmApp
