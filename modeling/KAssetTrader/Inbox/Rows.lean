import KAssetTrader.Recommendation.Row

/-!
A row of the durable callback inbox and the writes of its service, and what the
webhook accepts of an update. A row carries the envelope of one approval click until
it is terminal, the attempts spent on it, and the marks of the one run of the callback
core: that it was entered, that it has completed, and the verdict not yet applied. Two
writes are conditional on the row that the database has; the others set their columns.
The identity of a delivery is the projection of the update that a row keeps.
-/

namespace KAssetTrader.Inbox

open Unicode (strip)

inductive InboxState where
  | pending
  | processing
  | succeeded
  | discarded
  | retryWait
  | deadLetter
  deriving DecidableEq

namespace InboxState

/-- `TERMINAL_STATES`. -/
def Terminal (state : InboxState) : Prop :=
  state = .succeeded ∨ state = .discarded ∨ state = .deadLetter

instance (state : InboxState) : Decidable state.Terminal :=
  inferInstanceAs (Decidable (_ ∨ _ ∨ _))

end InboxState

/-- Who claims a row: its own task, or the recovery sweep. -/
inductive Claimant where
  | worker
  | recovery
  deriving DecidableEq

/-- `WORKER_CLAIMABLE_STATES` and `RECOVERY_CLAIMABLE_STATES`. -/
def Claimant.claimable : Claimant → InboxState → Bool
  | _, .pending => true
  | _, .retryWait => true
  | .recovery, .processing => true
  | _, _ => false

inductive ErrorClass where
  | attemptBudgetInvalid
  | preCoreFailure
  | handlerAmbiguous
  | handlerException
  | chatRevoked
  | envelopeInvalid
  | attemptsExhausted
  deriving DecidableEq

inductive CallbackAction where
  | op
  | dn
  | lc
  | vc
  | ba
  deriving DecidableEq

structure CallbackEnvelope where
  action : CallbackAction
  subjectShort : String
  attemptId : ℕ
  membershipRevision : ℤ
  membershipDigest : String
  nonce : String

/-- What `build_update_digest` hashes; the kinds are separated, and the hash is
taken to be injective. -/
inductive DeliveryIdentity where
  | callbackQueryId (value : String)
  | updateId (value : ℤ)
  deriving DecidableEq

/-- The columns of `SCRUBBED_ON_TERMINAL`. The digest of the update id is injective
as well, and is written as the id. -/
structure Envelope where
  callbackQueryId : Option String := none
  updateIdentityDigest : Option ℤ := none
  chatId : Option String := none
  messageId : Option ℤ := none
  telegramUserId : Option String := none
  action : Option CallbackAction := none
  subjectShort : Option String := none
  dispatchAttemptId : Option ℕ := none
  membershipRevision : Option ℤ := none
  membershipDigest : Option String := none
  nonce : Option String := none
  deriving DecidableEq

def Envelope.scrubbed : Envelope := {}

structure Job where
  updateDigest : DeliveryIdentity
  state : InboxState := .pending
  attemptCount : ℤ := 0
  maxAttempts : ℤ := 3
  receivedAt : Instant
  availableAt : Instant
  startedAt : Option Instant := none
  handlerEnteredAt : Option Instant := none
  handlerCompletedAt : Option Instant := none
  terminalStatePending : Option InboxState := none
  finishedAt : Option Instant := none
  envelope : Envelope
  outcome : Option String := none
  errorClass : Option ErrorClass := none
  deriving DecidableEq

def maxAttempts : ℤ := 3

def isMalformedAttemptBudget (row : Job) : Bool :=
  row.maxAttempts ≠ maxAttempts ∨ row.attemptCount < 0 ∨ row.maxAttempts < row.attemptCount

def clampAttemptCount (attemptCount : ℤ) : ℤ := min (max attemptCount 0) maxAttempts

/-- `PROCESSING_STALE_AFTER_SECONDS`. -/
def processingStaleAfter : ℤ := 300 * 1000000

/-- `RETRY_BACKOFF_SECONDS` of an attempt number. -/
def retryBackoff (attemptCount : ℤ) : ℤ :=
  let seconds : ℤ :=
    if max (clampAttemptCount attemptCount) 1 = 1 then 15
    else if max (clampAttemptCount attemptCount) 1 = 2 then 60
    else 300
  seconds * 1000000

def isHex (c : Char) : Bool := c.isDigit || ('a' ≤ c && c ≤ 'f')

def isUrlSafe (c : Char) : Bool := c.isAlphanum || c = '_' || c = '-'

def decimalValue (digits : List Char) : ℕ :=
  digits.foldl (fun value c => 10 * value + (c.toNat - '0'.toNat)) 0

def parseCanonicalTelegramUserIdText (text : String) : Option ℤ :=
  let value := decimalValue text.toList
  if text.toList.head? ≠ some '0' ∧ text.toList.all Char.isDigit ∧ 1 ≤ value ∧ value ≤ 2 ^ 52 - 1
  then some value else none

/-- What `rebuild_normalized` gives the callback core. -/
structure RebuiltCallback where
  callbackQueryId : Option String
  chatIdKey : String
  messageId : Option ℤ
  telegramUserId : ℤ
  callback : CallbackEnvelope

/-- `rebuild_normalized`; none when the stored envelope is invalid. -/
def rebuildNormalized (e : Envelope) : Option RebuiltCallback := do
  let action ← e.action
  let subjectShort ← e.subjectShort
  let membershipDigest ← e.membershipDigest
  let nonce ← e.nonce
  let membershipRevision ← e.membershipRevision
  let attemptId ← e.dispatchAttemptId
  let chatIdKey ← e.chatId
  let telegramUserId ← e.telegramUserId.bind parseCanonicalTelegramUserIdText
  if subjectShort.toList.length = 8 ∧ subjectShort.toList.all isHex ∧
      membershipDigest.toList.length = 12 ∧ membershipDigest.toList.all isUrlSafe ∧
      nonce ≠ "" ∧ nonce.toList.all isUrlSafe ∧ 0 < membershipRevision ∧ strip chatIdKey ≠ "" then
    return { callbackQueryId := e.callbackQueryId, chatIdKey, messageId := e.messageId
             telegramUserId
             callback := { action, subjectShort, attemptId, membershipRevision
                           membershipDigest, nonce } }
  else none

inductive ClaimDecision where
  | malformed
  | run
  | repair
  | ambiguous
  | exhausted
  | skip
  deriving DecidableEq

namespace Job

variable (row : Job)

def classifyClaim (now : Instant) (claimant : Claimant) : ClaimDecision :=
  if ¬ claimant.claimable row.state then .skip
  else if isMalformedAttemptBudget row then .malformed
  else if row.state = .processing ∧ row.handlerEnteredAt.isSome ∧
      row.handlerCompletedAt.isSome ∧ row.terminalStatePending.isSome then .repair
  else if row.state = .processing ∧ (row.handlerEnteredAt.isSome ∨
      row.handlerCompletedAt.isSome ∨ row.terminalStatePending.isSome) then .ambiguous
  else if row.state = .processing ∧
      row.startedAt.all (fun startedAt => now - processingStaleAfter < startedAt) then .skip
  else if row.maxAttempts ≤ row.attemptCount then .exhausted
  else if row.state = .retryWait ∧ now < row.availableAt then .skip
  else .run

/-- `begin_attempt`, of the row as it was read: none when the row of the database
does not match. -/
def beginAttempt (seen : Job) (now : Instant) : Option Job :=
  if row.attemptCount = seen.attemptCount ∧ row.maxAttempts = Inbox.maxAttempts ∧
      0 ≤ row.attemptCount ∧ row.attemptCount < row.maxAttempts ∧
      row.attemptCount < Inbox.maxAttempts ∧ row.handlerEnteredAt = none ∧
      (row.state = .pending ∨ row.state = .retryWait ∨ row.state = .processing) then
    some { row with
      state := .processing
      attemptCount := clampAttemptCount seen.attemptCount + 1
      startedAt := some now }
  else none

def markHandlerEntered (now : Instant) : Job := { row with handlerEnteredAt := some now }

/-- `record_handler_verdict`; the outcome is normalized already. -/
def recordHandlerVerdict (now : Instant) (terminalState : InboxState) (outcome : Option String)
    (errorClass : Option ErrorClass) : Job :=
  { row with
    handlerCompletedAt := some now
    terminalStatePending := some terminalState
    outcome
    errorClass }

/-- `finalize` with `keep_recorded_outcome`. -/
def finalizeKept (seen : Job) (now : Instant) (terminalState : InboxState) : Job :=
  { row with
    envelope := .scrubbed
    state := terminalState
    attemptCount := clampAttemptCount seen.attemptCount
    maxAttempts := Inbox.maxAttempts
    terminalStatePending := none
    finishedAt := some now }

def finalize (seen : Job) (now : Instant) (terminalState : InboxState) (outcome : Option String)
    (errorClass : Option ErrorClass) : Job :=
  { row.finalizeKept seen now terminalState with outcome, errorClass }

/-- `schedule_retry`: none when the retry is refused. -/
def scheduleRetry (seen : Job) (now : Instant) : Option Job :=
  if row.state = .processing ∧ row.attemptCount = seen.attemptCount ∧
      row.maxAttempts = Inbox.maxAttempts ∧ 0 ≤ row.attemptCount ∧ row.handlerEnteredAt = none ∧
      row.handlerCompletedAt = none ∧ row.terminalStatePending = none ∧
      row.attemptCount < row.maxAttempts ∧ row.attemptCount < Inbox.maxAttempts then
    some { row with
      state := .retryWait
      availableAt := now + retryBackoff seen.attemptCount
      outcome := none
      errorClass := some .preCoreFailure }
  else none

end Job

/-- What the callback core returns: it may raise, return no dictionary, or a
dictionary with `handled` and a reason. -/
inductive HandlerResult where
  | raised
  | notADict
  | dict (handled : Bool) (reason : Option String)

/-- `classify_verdict`, for a result that was returned. -/
def classifyVerdict (handled : Bool) (reason : Option String) :
    InboxState × Option ErrorClass × Option String :=
  if handled then (.succeeded, none, reason)
  else if reason = some "internal_error" then (.deadLetter, some .handlerAmbiguous, reason)
  else (.discarded, none, reason)

/-- A value of the update's dictionary; a float, a list or a dictionary is `other`. -/
inductive Value where
  | null
  | bool (b : Bool)
  | int (n : ℤ)
  | text (s : String)
  | other (rendered : String)
  deriving DecidableEq

def Value.str : Value → String
  | .null => "None"
  | .bool b => if b then "True" else "False"
  | .int n => toString n
  | .text s => s
  | .other rendered => rendered

/-- An update, read at the keys that the ingress reads. `fromId` is none when the
sender is no dictionary, `data` none when the callback data is malformed. -/
structure Update where
  isCallback : Bool
  updateId : Value
  queryId : Value
  chatId : Value
  messageId : Value
  fromId : Option Value
  data : Option CallbackEnvelope

def validateTelegramUserId : Value → Option ℤ
  | .int n => if 1 ≤ n ∧ n ≤ 2 ^ 52 - 1 then some n else none
  | _ => none

def validateTelegramUpdateId : Value → Option ℤ
  | .int n => if 1 ≤ n ∧ n ≤ 2147483647 then some n else none
  | _ => none

structure NormalizedCallback where
  callbackQueryId : Value
  chatId : Value
  messageId : Value
  telegramUserId : ℤ
  callback : CallbackEnvelope
  updateId : Option ℤ

/-- `normalize_callback_update`; `allowed` is the allowlist of chats. -/
def normalizeCallbackUpdate (allowed : String → Bool) (update : Update) :
    Except String NormalizedCallback :=
  if ¬ update.isCallback then .error "not_callback"
  else if ¬ allowed update.chatId.str then .error "chat_not_allowed"
  else if update.updateId ≠ .null ∧ validateTelegramUpdateId update.updateId = none then
    .error "invalid_telegram_identifier"
  else
    match update.data with
    | none => .error "malformed_callback_data"
    | some callback =>
      match update.fromId.bind validateTelegramUserId with
      | none => .error "invalid_telegram_identifier"
      | some telegramUserId =>
        .ok { callbackQueryId := update.queryId, chatId := update.chatId
              messageId := update.messageId, telegramUserId, callback
              updateId := validateTelegramUpdateId update.updateId }

/-- The texts of `_round_trippable`: what the row stores of the chat, the message
and the query. -/
structure Stored where
  chatId : String
  messageId : Option ℤ
  callbackQueryId : Option String

def storedChatId : Value → Option String
  | .int n => some (toString n)
  | .text s => if strip s = "" then none else some s
  | _ => none

def storedMessageId : Value → Option (Option ℤ)
  | .null => some none
  | .int n => some (some n)
  | _ => none

def storedQueryId : Value → Option (Option String)
  | .null => some none
  | .text s => some (some s)
  | _ => none

/-- `_round_trippable`, with the values that it lets through. -/
def roundTrippable (n : NormalizedCallback) : Option Stored := do
  let chatId ← storedChatId n.chatId
  let messageId ← storedMessageId n.messageId
  let callbackQueryId ← storedQueryId n.callbackQueryId
  return { chatId, messageId, callbackQueryId }

def normalizedEnvelopeProjection (n : NormalizedCallback) (stored : Stored) : Envelope where
  callbackQueryId := stored.callbackQueryId
  updateIdentityDigest := n.updateId
  chatId := some stored.chatId
  messageId := stored.messageId
  telegramUserId := some (toString n.telegramUserId)
  action := some n.callback.action
  subjectShort := some n.callback.subjectShort
  dispatchAttemptId := some n.callback.attemptId
  membershipRevision := some n.callback.membershipRevision
  membershipDigest := some n.callback.membershipDigest
  nonce := some n.callback.nonce

/-- `build_update_digest`: the query id alone identifies a delivery that has one. -/
def buildUpdateDigest (updateId : Option ℤ) (callbackQueryId : Option String) :
    Option DeliveryIdentity :=
  match callbackQueryId, updateId with
  | some query, _ => some (.callbackQueryId query)
  | none, some update => some (.updateId update)
  | none, none => none

/-- What the ingress makes of an update before it opens a session. -/
structure Admitted where
  identity : DeliveryIdentity
  envelope : Envelope

/-- The checks of `ingest_callback_update` before `_persist`. -/
def admission (allowed : String → Bool) (update : Update) : Except String Admitted := do
  let normalized ← normalizeCallbackUpdate allowed update
  match roundTrippable normalized with
  | none => .error "unstorable_envelope"
  | some stored =>
    match buildUpdateDigest normalized.updateId stored.callbackQueryId with
    | none => .error "no_delivery_identity"
    | some identity =>
      .ok { identity, envelope := normalizedEnvelopeProjection normalized stored }

/-- `enqueue`: the row that a delivery inserts. -/
def enqueued (a : Admitted) (now : Instant) : Job where
  updateDigest := a.identity
  receivedAt := now
  availableAt := now
  envelope := a.envelope

def envelopeMatchesRow (row : Job) (envelope : Envelope) : Bool := row.envelope = envelope

variable {allowed : String → Bool} {update : Update} {a : Admitted}

theorem admission_query (h : admission allowed update = .ok a) {query : String}
    (hquery : a.envelope.callbackQueryId = some query) :
    a.identity = .callbackQueryId query := by
  unfold admission at h
  obtain ⟨normalized, _, h⟩ := Checked.bind_ok_iff.mp h
  split at h
  · cases h
  next stored hstored =>
    split at h
    · cases h
    next identity hidentity =>
      cases h
      have hstoredQuery : stored.callbackQueryId = some query := hquery
      rw [hstoredQuery] at hidentity
      exact (Option.some.inj hidentity).symm

end KAssetTrader.Inbox
