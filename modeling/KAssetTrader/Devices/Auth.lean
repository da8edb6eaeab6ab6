import KAssetTrader.Library.Dict
import KAssetTrader.Library.Transition
import KAssetTrader.Recommendation.Row

/-!
Device sessions of the mobile clients. One row stands for a device of an owner; it
holds the hash of the one refresh token that can be redeemed, and the mark of its
revocation. Every sign-in of the device writes the same row again. A token is the
record of its claims, and only tokens that have been issued verify. A request first
decodes its token and reads the row later.
-/

namespace KAssetTrader.Devices

open Unicode (strip)
open Checked

abbrev UserId := ℕ

abbrev SessionId := String

/-- The claims of a token of the mobile client; `exp` is in whole seconds. -/
structure Claims where
  sub : String
  uid : UserId
  deviceId : String
  deviceName : String
  jti : String
  sessionId : SessionId
  exp : Instant
  deriving DecidableEq

/-- A token with its type. The access token names the refresh token that it was
issued with. -/
inductive Token where
  | refresh (claims : Claims)
  | access (claims sid : Claims)
  deriving DecidableEq

def Token.claims : Token → Claims
  | refresh claims | access claims _ => claims

structure User where
  username : String
  isActive : Bool

/-- `KAssetDeviceSession`; the hash of a refresh token stands as the token. -/
structure DeviceSession where
  ownerUserId : UserId
  deviceId : String
  deviceName : String
  refreshTokenHash : Claims
  expiresAt : Instant
  revokedAt : Option Instant

structure MobileSession where
  userId : UserId
  sessionId : SessionId
  deviceId : String
  deriving DecidableEq

structure Settings where
  accessTokenExpireMinutes : ℤ
  refreshTokenExpireDays : ℤ

def Settings.accessDelta (settings : Settings) : ℤ := settings.accessTokenExpireMinutes * 60000000

def Settings.refreshDelta (settings : Settings) : ℤ := settings.refreshTokenExpireDays * 86400000000

/-- The tables and the requests under way. The tokens that were redeemed, and those
that were issued before a revocation of their session, are recorded; nothing in the
code reads the records. -/
structure AuthState where
  users : Dict UserId User := Dict.empty
  sessions : Dict SessionId DeviceSession := Dict.empty
  clock : Instant
  issued : List Token := []
  decoded : List Token := []
  authenticated : List MobileSession := []
  redeemed : List Claims := []
  revoked : List Token := []

inductive AuthError where
  | unauthorized
  | invalidCredentials
  | validationError

/-- What an issue draws at random, and its readings of the clock. -/
structure Draw where
  sessionId : SessionId
  jti : String
  now : Instant
  refreshStamp : Instant
  accessStamp : Instant

/-- The claim `exp` of a token, which counts whole seconds. -/
def expiry (stamp delta : ℤ) : Instant := (stamp + delta) / 1000000 * 1000000

def AuthState.findSession (s : AuthState) (userId : UserId) (deviceId : String) :
    Option (SessionId × DeviceSession) :=
  s.sessions.entries.find? fun entry =>
    decide (entry.2.ownerUserId = userId ∧ entry.2.deviceId = deviceId)

/-- `_issue`. The identifiers of the rows are unique. -/
def AuthState.issue (s : AuthState) (settings : Settings) (userId : UserId) (user : User)
    (deviceId deviceName : String) (sessionRecord : Option (SessionId × DeviceSession))
    (draw : Draw) : Except AuthError AuthState := do
  let normalizedDeviceId := strip deviceId
  let normalizedDeviceName := strip deviceName
  raiseIf (normalizedDeviceId = "" ∨ normalizedDeviceName = "") .validationError
  let record := sessionRecord <|> s.findSession userId normalizedDeviceId
  let sessionId := (record.map Prod.fst).getD draw.sessionId
  raiseIf (record = none ∧ (s.sessions.get? sessionId).isSome = true) .unauthorized
  raiseIf ((record.any fun entry => decide (entry.2.ownerUserId ≠ userId ∨
    entry.2.deviceId ≠ normalizedDeviceId)) = true) .unauthorized
  let claims (exp : Instant) : Claims :=
    ⟨user.username, userId, normalizedDeviceId, normalizedDeviceName, draw.jti, sessionId, exp⟩
  let refreshClaims := claims (expiry draw.refreshStamp settings.refreshDelta)
  let accessClaims := claims (expiry draw.accessStamp settings.accessDelta)
  return { s with
    sessions := s.sessions.set sessionId
      { ownerUserId := userId
        deviceId := normalizedDeviceId
        deviceName := normalizedDeviceName
        refreshTokenHash := refreshClaims
        expiresAt := draw.now + settings.refreshDelta
        revokedAt := none }
    issued := .refresh refreshClaims :: .access accessClaims refreshClaims :: s.issued }

def AuthState.activeUser (s : AuthState) (userId : UserId) (username : String) : Option User :=
  (s.users.get? userId).filter fun user => decide (user.username = username) && user.isActive

/-- `login`, of the user that its identifier names. -/
def AuthState.login (s : AuthState) (settings : Settings) (userId : UserId)
    (passwordMatches : Bool) (deviceId deviceName : String) (draw : Draw) :
    Except AuthError AuthState :=
  match s.users.get? userId with
  | none => .error .invalidCredentials
  | some user => do
      raiseIf (passwordMatches = false ∨ user.isActive = false) .invalidCredentials
      s.issue settings userId user deviceId deviceName none draw

/-- `google_login`, of the user of a verified token of Google. A new user is
created first. -/
def AuthState.googleLogin (s : AuthState) (settings : Settings) (userId : UserId)
    (created : Option User) (deviceId deviceName : String) (draw : Draw) :
    Except AuthError AuthState :=
  let known :=
    match s.users.get? userId, created with
    | none, some user => { s with users := s.users.set userId { user with isActive := true } }
    | _, _ => s
  match known.users.get? userId with
  | none => .error .unauthorized
  | some user => do
      raiseIf (user.isActive = false) .unauthorized
      known.issue settings userId user deviceId deviceName none draw

def AuthState.namedSession (s : AuthState) (claims : Claims) : Option DeviceSession :=
  (s.sessions.get? claims.sessionId).filter fun row =>
    decide (row.ownerUserId = claims.uid ∧ row.deviceId = claims.deviceId)

/-- The row lets `refresh` redeem the token. -/
def DeviceSession.Redeems (row : DeviceSession) (claims : Claims) (now : Instant) : Prop :=
  row.revokedAt = none ∧ row.deviceName = claims.deviceName ∧ row.refreshTokenHash = claims ∧
    now < row.expiresAt

instance (row : DeviceSession) (claims : Claims) (now : Instant) :
    Decidable (row.Redeems claims now) :=
  inferInstanceAs (Decidable (_ ∧ _))

/-- `refresh`, after its token is decoded. -/
def AuthState.refresh (s : AuthState) (settings : Settings) (claims : Claims) (draw : Draw) :
    Except AuthError AuthState :=
  match s.activeUser claims.uid claims.sub, s.namedSession claims with
  | some user, some row => do
      raiseIf (¬ row.Redeems claims s.clock) .unauthorized
      let issued ← s.issue settings claims.uid user claims.deviceId claims.deviceName
        (some (claims.sessionId, row)) draw
      return { issued with redeemed := claims :: s.redeemed }
  | _, _ => .error .unauthorized

/-- `authenticate`, after its token is decoded. -/
def AuthState.authenticate (s : AuthState) (claims : Claims) : Except AuthError MobileSession :=
  match s.activeUser claims.uid claims.sub, s.namedSession claims with
  | some _, some row => do
      raiseIf (row.revokedAt ≠ none ∨ row.expiresAt ≤ s.clock) .unauthorized
      return ⟨claims.uid, claims.sessionId, claims.deviceId⟩
  | _, _ => .error .unauthorized

def AuthState.revoke (s : AuthState) (session : MobileSession) : Except AuthError AuthState :=
  match s.sessions.get? session.sessionId with
  | none => .error .unauthorized
  | some row => do
      raiseIf (row.ownerUserId ≠ session.userId ∨ row.deviceId ≠ session.deviceId) .unauthorized
      return { s with
        sessions := s.sessions.set session.sessionId { row with revokedAt := some s.clock }
        revoked := s.issued.filter (·.claims.sessionId = session.sessionId) ++ s.revoked }

inductive Action where
  | tick (now : Instant)
  | setUser (userId : UserId) (user : User)
  | login (userId : UserId) (passwordMatches : Bool) (deviceId deviceName : String) (draw : Draw)
  | googleLogin (userId : UserId) (created : Option User) (deviceId deviceName : String)
      (draw : Draw)
  | decode (token : Token)
  | refresh (claims : Claims) (draw : Draw)
  | authenticate (claims sid : Claims)
  | revoke (session : MobileSession)

/-- The clock has shown the readings, and no token has the identifier yet. -/
def AuthState.Fresh (s : AuthState) (draw : Draw) : Prop :=
  draw.now ≤ s.clock ∧ draw.refreshStamp ≤ s.clock ∧ draw.accessStamp ≤ s.clock ∧
    ∀ token ∈ s.issued, token.claims.jti ≠ draw.jti

instance (s : AuthState) (draw : Draw) : Decidable (s.Fresh draw) :=
  inferInstanceAs (Decidable (_ ∧ _))

/-- `_decode` accepts the token: it has been issued and has not expired. -/
def AuthState.Verifies (s : AuthState) (token : Token) : Prop :=
  token ∈ s.issued ∧ s.clock < token.claims.exp

instance (s : AuthState) (token : Token) : Decidable (s.Verifies token) :=
  inferInstanceAs (Decidable (_ ∧ _))

/-- One transaction, or the decoding of a token; `none` when it is refused. A
request that is refused after its decoding is over. -/
def step (settings : Settings) (s : AuthState) : Action → Option AuthState
  | .tick now => if s.clock ≤ now then some { s with clock := now } else none
  | .setUser userId user => some { s with users := s.users.set userId user }
  | .login userId passwordMatches deviceId deviceName draw =>
    if s.Fresh draw then
      (s.login settings userId passwordMatches deviceId deviceName draw).toOption
    else none
  | .googleLogin userId created deviceId deviceName draw =>
    if s.Fresh draw then (s.googleLogin settings userId created deviceId deviceName draw).toOption
    else none
  | .decode token =>
    if s.Verifies token then some { s with decoded := token :: s.decoded } else none
  | .refresh claims draw =>
    if Token.refresh claims ∈ s.decoded ∧ s.Fresh draw then
      let s := { s with decoded := s.decoded.erase (.refresh claims) }
      match s.refresh settings claims draw with
      | .error _ => some s
      | .ok t => some t
    else none
  | .authenticate claims sid =>
    if Token.access claims sid ∈ s.decoded then
      let s := { s with decoded := s.decoded.erase (.access claims sid) }
      match s.authenticate claims with
      | .error _ => some s
      | .ok session => some { s with authenticated := session :: s.authenticated }
    else none
  | .revoke session => if session ∈ s.authenticated then (s.revoke session).toOption else none

def Start (s : AuthState) : Prop := ∃ clock, s = { clock }

end KAssetTrader.Devices
