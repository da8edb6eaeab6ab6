import KAssetTrader.Library.Transition

/-!
The access token of NH PLUG. Tokens live for a day and every new one raises a security
alert, so the processes share one cache file, and a new token is requested only under a
file lock, after the file was read again. A call of `token()` is a sequence of steps with
other calls in between: of the same process while it waits for a lock or for the answer of
the server, of other processes anywhere. The clock counts microseconds.
-/

namespace KAssetTrader.NhPlug

open Transition

/-- `EXPIRY_MARGIN_SECONDS`. -/
def expiryMargin : ℤ := 60000000

/-- `DEFAULT_EXPIRES_IN`, in seconds. -/
def defaultExpiresIn : ℤ := 86400

/-- A `float` moment: a number, positive infinity, or a value that is above no number. -/
inductive Expiry
  | at (moment : ℤ)
  | never
  | unordered
deriving DecidableEq

def Expiry.isAfter : Expiry → ℤ → Bool
  | .at moment, limit => decide (limit < moment)
  | .never, _ => true
  | .unordered, _ => false

structure CachedToken where
  accessToken : String
  expiresAt : Expiry
  numericExpiry : Bool
deriving DecidableEq

/-- `valid_at`: `expires_at - EXPIRY_MARGIN_SECONDS > now`. -/
def CachedToken.validAt (token : CachedToken) (now : ℤ) : Bool :=
  token.expiresAt.isAfter (now + expiryMargin)

/-- The kinds of `expires_at` that `_parse_expiry` tells apart. -/
inductive ExpiryField
  | missing
  | flag
  | number (expiry : Expiry)
  | numericText (expiry : Expiry)
  | isoText (moment : ℤ)
  | isoTextWithoutZone
  | otherText
  | other
deriving DecidableEq

/-- What the cache file holds. The access token is `none` when it is not a text or blank. -/
inductive CacheText
  | notJson
  | notObject
  | object (accessToken : Option String) (expiresAt : ExpiryField)
deriving DecidableEq

/-- The ways in which `read_token_cache` raises `NhplugTokenError` on a readable file. -/
inductive TokenError
  | notJson
  | notObject
  | accessTokenMissing
  | expiryInvalid
  | expiryWithoutZone

def parseExpiry : ExpiryField → Except TokenError (Expiry × Bool)
  | .number expiry | .numericText expiry => .ok (expiry, true)
  | .isoText moment => .ok (.at moment, false)
  | .isoTextWithoutZone => .error .expiryWithoutZone
  | .missing | .flag | .otherText | .other => .error .expiryInvalid

/-- `read_token_cache`, once the file could be read. -/
def readTokenCache : Option CacheText → Except TokenError (Option CachedToken)
  | none => .ok none
  | some .notJson => .error .notJson
  | some .notObject => .error .notObject
  | some (.object none _) => .error .accessTokenMissing
  | some (.object (some accessToken) field) =>
    match parseExpiry field with
    | .error error => .error error
    | .ok (expiresAt, numeric) => .ok (some ⟨accessToken, expiresAt, numeric⟩)

/-- `write_token_cache`. An issued token ends at a number. -/
def writeTokenCache (token : CachedToken) : CacheText :=
  match token.numericExpiry, token.expiresAt with
  | false, .at moment => .object (some token.accessToken) (.isoText moment)
  | _, expiresAt => .object (some token.accessToken) (.number expiresAt)

/-- The answer of the token endpoint. The lifetime is `none` when the field is absent or
`int` rejects it. -/
inductive IssueAnswer
  | failed
  | rejected
  | notJson
  | withoutToken
  | granted (accessToken : String) (expiresIn : Option ℤ)

/-- `_issue` after the request: seconds of lifetime count from the start of the request. -/
def issuedToken (started : ℤ) (numericExpiry : Bool) (accessToken : String)
    (expiresIn : Option ℤ) : CachedToken where
  accessToken := accessToken
  expiresAt := .at (started + expiresIn.getD defaultExpiresIn * 1000000)
  numericExpiry := numericExpiry

/-- Where a call of `token()` is. -/
inductive TokenPhase
  | unstarted
  | waiting
  | looking (now : ℤ)
  | queued
  | locked
  | judging (cached : Option CachedToken)
  | issuing (numericExpiry : Bool)
  | requested (started : ℤ) (numericExpiry : Bool)
  | writing (started lifetime : ℤ) (issued : CachedToken)
  | finished
deriving DecidableEq

structure TokenCall where
  provider : ℕ
  phase : TokenPhase

/-- One `NhplugTokenProvider`: the token in memory and the holder of its lock. -/
structure TokenProvider where
  memory : Option CachedToken
  lock : Option ℕ

/-- What the calls did, for the record. A returned token is recorded with the moment for
which it was taken as valid, and with its lifetime in microseconds when the call itself had
it issued. -/
inductive TokenEvent
  | sent (call : ℕ) (lockedBy : Option ℕ) (file : Option CacheText) (moment : ℤ)
  | obtained (call : ℕ) (token : CachedToken)
  | written (call : ℕ) (replaced : Option CacheText) (moment : ℤ)
  | refused (call : ℕ)
  | returned (call : ℕ) (token : CachedToken) (checkedAt : ℤ) (lifetime : Option ℤ)
deriving DecidableEq

structure TokenWorld where
  clock : ℤ
  file : Option CacheText
  fileLock : Option ℕ
  providers : ℕ → TokenProvider
  calls : ℕ → TokenCall
  log : List TokenEvent

/-- What can happen next. `abandon` is any exception that is not a refusal of the cache
file: a cancelled wait, a file lock that cannot be opened, a write that fails. -/
inductive TokenAction
  | pass (micros : ℕ)
  | begin (call provider : ℕ)
  | enter (call : ℕ)
  | look (call : ℕ) (readable : Bool)
  | lockFile (call : ℕ)
  | reread (call : ℕ) (readable : Bool)
  | judge (call : ℕ)
  | request (call : ℕ)
  | respond (call : ℕ) (answer : IssueAnswer)
  | write (call : ℕ)
  | abandon (call : ℕ)

namespace TokenWorld

variable (w : TokenWorld)

def phase (call : ℕ) : TokenPhase := (w.calls call).phase

def setPhase (call : ℕ) (phase : TokenPhase) : TokenWorld :=
  { w with calls := Function.update w.calls call { w.calls call with phase := phase } }

def note (event : TokenEvent) : TokenWorld := { w with log := event :: w.log }

def remember (call : ℕ) (token : CachedToken) : TokenWorld :=
  let provider := (w.calls call).provider
  { w with
    providers := Function.update w.providers provider
      { w.providers provider with memory := some token } }

/-- The call ends: both locks are released where it holds them. -/
def finish (call : ℕ) : TokenWorld :=
  let provider := (w.calls call).provider
  let held := w.providers provider
  { w.setPhase call .finished with
    fileLock := if w.fileLock = some call then none else w.fileLock
    providers := Function.update w.providers provider
      { held with lock := if held.lock = some call then none else held.lock } }

/-- `NhplugTokenError` from reading the cache. -/
def refuse (call : ℕ) : TokenWorld := (w.note (.refused call)).finish call

def giveBack (call : ℕ) (token : CachedToken) (checkedAt : ℤ) (lifetime : Option ℤ) :
    TokenWorld :=
  ((w.remember call token).note (.returned call token checkedAt lifetime)).finish call

/-- Up to the wait for the lock of the provider: the token in memory may still do. -/
def begin (call provider : ℕ) : TokenWorld :=
  let w := { w with calls := Function.update w.calls call ⟨provider, .waiting⟩ }
  match (w.providers provider).memory with
  | none => w
  | some memory =>
    if memory.validAt w.clock then w.giveBack call memory w.clock none else w

/-- The first read of the file, without the file lock. -/
def look (call : ℕ) (now : ℤ) (readable : Bool) : TokenWorld :=
  match readable, readTokenCache w.file with
  | false, _ | _, .error _ => w.refuse call
  | true, .ok none => w.setPhase call .queued
  | true, .ok (some cached) =>
    if cached.validAt now then w.giveBack call cached now none
    else w.setPhase call .queued

/-- The second read of the file, under the file lock. -/
def reread (call : ℕ) (readable : Bool) : TokenWorld :=
  match readable, readTokenCache w.file with
  | false, _ | _, .error _ => w.refuse call
  | true, .ok cached => w.setPhase call (.judging cached)

def judge (call : ℕ) : Option CachedToken → TokenWorld
  | none => w.setPhase call (.issuing false)
  | some cached =>
    if cached.validAt w.clock then w.giveBack call cached w.clock none
    else w.setPhase call (.issuing cached.numericExpiry)

def request (call : ℕ) (numericExpiry : Bool) : TokenWorld :=
  (w.note (.sent call w.fileLock w.file w.clock)).setPhase call
    (.requested w.clock numericExpiry)

def respond (call : ℕ) (started : ℤ) (numericExpiry : Bool) : IssueAnswer → TokenWorld
  | .failed | .rejected | .notJson | .withoutToken => w.finish call
  | .granted accessToken expiresIn =>
    let issued := issuedToken started numericExpiry accessToken expiresIn
    let lifetime := expiresIn.getD defaultExpiresIn * 1000000
    (w.note (.obtained call issued)).setPhase call (.writing started lifetime issued)

/-- The file is replaced in one step, the locks are released, and the token is returned. -/
def write (call : ℕ) (started lifetime : ℤ) (issued : CachedToken) : TokenWorld :=
  let w := w.note (.written call w.file w.clock)
  let w := { w with file := some (writeTokenCache issued) }
  w.giveBack call issued started (some lifetime)

def step : TokenAction → Option TokenWorld
  | .pass micros => some { w with clock := w.clock + micros }
  | .begin call provider =>
    if w.phase call = .unstarted then some (w.begin call provider) else none
  | .enter call =>
    let provider := (w.calls call).provider
    if w.phase call = .waiting ∧ (w.providers provider).lock = none then
      some
        { w.setPhase call (.looking w.clock) with
          providers := Function.update w.providers provider
            { w.providers provider with lock := some call } }
    else none
  | .look call readable =>
    match w.phase call with
    | .looking now => some (w.look call now readable)
    | _ => none
  | .lockFile call =>
    if w.phase call = .queued ∧ w.fileLock = none then
      some { w.setPhase call .locked with fileLock := some call }
    else none
  | .reread call readable =>
    if w.phase call = .locked then some (w.reread call readable) else none
  | .judge call =>
    match w.phase call with
    | .judging cached => some (w.judge call cached)
    | _ => none
  | .request call =>
    match w.phase call with
    | .issuing numericExpiry => some (w.request call numericExpiry)
    | _ => none
  | .respond call answer =>
    match w.phase call with
    | .requested started numericExpiry => some (w.respond call started numericExpiry answer)
    | _ => none
  | .write call =>
    match w.phase call with
    | .writing started lifetime issued => some (w.write call started lifetime issued)
    | _ => none
  | .abandon call =>
    match w.phase call with
    | .unstarted | .finished => none
    | _ => some (w.finish call)

end TokenWorld

/-- No call has started, the providers are new and nobody holds the file lock; the file is
arbitrary. -/
def TokenStart (w : TokenWorld) : Prop :=
  w.fileLock = none ∧ (∀ provider, w.providers provider = ⟨none, none⟩) ∧
    (∀ call, w.phase call = .unstarted) ∧ w.log = []

/-- The file is absent, or it holds a token that is expired within the margin. -/
def Spent (file : Option CacheText) (moment : ℤ) : Prop :=
  file = none ∨ ∃ token, readTokenCache file = .ok (some token) ∧ token.validAt moment = false

/-- The call that an event shows to have requested a token or replaced the file. -/
def TokenEvent.issuer : TokenEvent → Option ℕ
  | .sent call _ _ _ | .written call _ _ => some call
  | _ => none

/-- A token that was obtained before a request is expired at the request. -/
def NotReissued : TokenEvent → TokenEvent → Prop
  | .sent _ _ _ moment, .obtained _ token => token.validAt moment = false
  | _, _ => True

/-- Requests and replacements happen only over an absent file or an expired token, requests
under the file lock; no token is requested while an obtained one lasts; what is returned was
valid when it was checked, where a token that the call itself had issued counts from its
request; and a call that could not read the cache neither requests nor replaces. -/
structure TokenSound (w : TokenWorld) : Prop where
  sent_spent : ∀ call lockedBy file moment, .sent call lockedBy file moment ∈ w.log →
    lockedBy = some call ∧ Spent file moment
  not_reissued : w.log.Pairwise NotReissued
  written_spent : ∀ call replaced moment, .written call replaced moment ∈ w.log →
    Spent replaced moment
  returned_valid : ∀ call token checkedAt lifetime,
    .returned call token checkedAt lifetime ∈ w.log →
    (∀ micros, lifetime = some micros → expiryMargin < micros) → token.validAt checkedAt = true
  refused_silent : ∀ call, .refused call ∈ w.log → ∀ event ∈ w.log, event.issuer ≠ some call

/-- The call does not fail between the answer of the server and the end of the write. -/
def WritesLand (w : TokenWorld) : TokenAction → Prop
  | .abandon call =>
    match w.phase call with
    | .writing _ _ _ => False
    | _ => True
  | _ => True

instance (w : TokenWorld) (action : TokenAction) : Decidable (WritesLand w action) :=
  match action with
  | .abandon call =>
    match h : w.phase call with
    | .writing _ _ _ => isFalse (by simp only [WritesLand, h, not_false_eq_true])
    | .unstarted | .waiting | .looking _ | .queued | .locked | .judging _ | .issuing _
    | .requested _ _ | .finished => isTrue (by simp only [WritesLand, h])
  | .pass _ | .begin _ _ | .enter _ | .look _ _ | .lockFile _ | .reread _ _ | .judge _
  | .request _ | .respond _ _ | .write _ => isTrue trivial

variable {token : CachedToken} {now later : ℤ}

theorem read_writeTokenCache (token : CachedToken) :
    ∃ numeric, readTokenCache (some (writeTokenCache token)) =
      .ok (some { token with numericExpiry := numeric }) := by
  obtain ⟨accessToken, expiresAt, numeric⟩ := token
  cases numeric with
  | true => exact ⟨true, rfl⟩
  | false =>
    cases expiresAt with
    | «at» moment => exact ⟨false, rfl⟩
    | never => exact ⟨true, rfl⟩
    | unordered => exact ⟨true, rfl⟩

theorem Expiry.isAfter_mono {expiry : Expiry} (hle : now ≤ later)
    (h : expiry.isAfter later = true) : expiry.isAfter now = true := by
  cases expiry with
  | «at» moment =>
    have hlater := of_decide_eq_true h
    exact decide_eq_true (lt_of_le_of_lt hle hlater)
  | never => rfl
  | unordered => exact h

theorem CachedToken.validAt_mono (hle : now ≤ later) (h : token.validAt later = true) :
    token.validAt now = true :=
  Expiry.isAfter_mono (Int.add_le_add_right hle expiryMargin) h

theorem CachedToken.expired_mono (hle : now ≤ later) (h : token.validAt now = false) :
    token.validAt later = false := by
  cases hlater : token.validAt later with
  | false => rfl
  | true =>
    rw [CachedToken.validAt_mono hle hlater] at h
    exact h

theorem Spent.mono {file : Option CacheText} (hle : now ≤ later) (h : Spent file now) :
    Spent file later := by
  rcases h with hnone | ⟨token, hread, hexpired⟩
  · exact .inl hnone
  · exact .inr ⟨token, hread, CachedToken.expired_mono hle hexpired⟩

theorem eq_none_of_read {file : Option CacheText} (h : readTokenCache file = .ok none) :
    file = none := by
  unfold readTokenCache at h
  split at h
  · rfl
  · cases h
  · cases h
  · cases h
  · split at h
    · cases h
    · cases h

theorem issuedToken_validAt {started : ℤ} {numeric : Bool} {accessToken : String}
    {expiresIn : Option ℤ} (hlong : expiryMargin < expiresIn.getD defaultExpiresIn * 1000000) :
    (issuedToken started numeric accessToken expiresIn).validAt started = true := by
  apply decide_eq_true
  linarith

end KAssetTrader.NhPlug
