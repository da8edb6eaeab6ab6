import KAssetTrader.Library.Streaks
import KAssetTrader.Recommendation.Row

/-!
The shadow loss streak: the closed trades of an account that lie inside the
lookback, in the order of their execution and without duplicates, and the buy lock
that a streak of stop losses at their end would put on the market or on a symbol.
A trade that cannot be ordered or dated fails the evaluation closed. The gate looks
at the market over the lookback of the configuration and at the symbol over the
regular session; a lock of the symbol lasts until the session closes.
-/

namespace KAssetTrader.LossStreak

open Unicode (strip upper)

inductive ShadowLossStatus where
  | valid
  | insufficient
  | failClosed

inductive ShadowLockScope where
  | global
  | symbol

inductive ShadowLossReason where
  | limitReached
  | belowLimit
  | expired
  | insufficient
  | invalidScope
  | invalidTimestamp
  | orderingCollision
  deriving DecidableEq

def normalizeReason (value : String) : String := upper (strip value)

/-- `ShadowLossStreakConfig`, with the checks of its constructor; the evidence
switches do not enter the evaluation. -/
structure ShadowLossStreakConfig where
  stopLossReasons : List String
  lossLimit : ℕ
  lookback : ℤ
  lockDuration : ℤ
  reasons_nonempty : stopLossReasons ≠ [] ∧ "" ∉ stopLossReasons
  limit_pos : 1 ≤ lossLimit
  lookback_pos : 0 < lookback
  duration_pos : 0 < lockDuration

/-- The constructor of `ShadowLossStreakConfig`. -/
def ShadowLossStreakConfig.make (stopLossReasons : List String) (lossLimit : ℕ)
    (lookback lockDuration : ℤ) : Except String ShadowLossStreakConfig :=
  let normalized := ((stopLossReasons.map normalizeReason).eraseDups).insertionSort (· ≤ ·)
  if hreasons : normalized ≠ [] ∧ "" ∉ normalized then
    if hlimit : 1 ≤ lossLimit then
      if hlookback : 0 < lookback then
        if hduration : 0 < lockDuration then
          .ok ⟨normalized, lossLimit, lookback, lockDuration, hreasons, hlimit, hlookback,
            hduration⟩
        else .error "lock_duration must be positive"
      else .error "lookback must be positive"
    else .error "loss_limit must be a positive integer"
  else .error "stop_loss_reasons must contain nonempty values"

/-- `ShadowPaperTradeFact`; a profit that is not a finite number is none. -/
structure ShadowPaperTradeFact where
  id : ℤ
  transactionId : String
  tradeId : String
  ownerUserId : ℤ
  accountKey : String
  market : String
  symbol : String
  side : String
  lifecycleStatus : String
  realizedPnl : Option Decimal
  exitReason : Option String
  executedAt : Datetime
  accountMode : String := "PAPER"
  deriving DecidableEq

/-- A fact that `_prepare_facts` retains; its other fields are those of the
request. -/
structure PreparedFact where
  id : ℤ
  transactionId : String
  tradeId : String
  symbol : String
  realizedPnl : Decimal
  exitReason : Option String
  executedAt : Instant
  deriving DecidableEq

structure Request where
  ownerUserId : ℤ
  accountKey : String
  market : String
  symbol : String
  evaluatedAt : Datetime

structure ShadowLossLockObservation where
  status : ShadowLossStatus
  scope : ShadowLockScope
  symbol : Option String
  ownerUserId : ℤ
  accountKey : String
  market : String
  evaluatedAt : Datetime
  sourceTimestamps : List Instant
  streakCount : ℕ
  lossLimit : ℕ
  newestLossId : Option ℤ
  newestLossTransactionId : Option String
  newestLossTradeId : Option String
  newestLossAt : Option Instant
  expiresAt : Option Instant
  buyLocked : Bool
  reason : ShadowLossReason

structure ShadowLossStreakResult where
  status : ShadowLossStatus
  ownerUserId : ℤ
  accountKey : String
  market : String
  symbol : String
  evaluatedAt : Datetime
  sourceTimestamps : List Instant
  globalLock : ShadowLossLockObservation
  symbolLock : ShadowLossLockObservation

structure Scope where
  ownerUserId : ℤ
  accountKey : String
  market : String
  symbol : String
  evaluatedAt : Instant

def Request.scope (request : Request) : Option Scope :=
  let market := upper (strip request.market)
  let symbol := upper (strip request.symbol)
  match request.evaluatedAt with
  | .naive _ => none
  | .aware evaluatedAt =>
    if 0 < request.ownerUserId ∧ strip request.accountKey ≠ "" ∧
        (market = "KRX" ∨ market = "US") ∧ symbol ≠ "" then
      some ⟨request.ownerUserId, request.accountKey, market, symbol, evaluatedAt⟩
    else none

def PreparedFact.key (fact : PreparedFact) : ℤ ×ₗ ℤ := toLex (fact.executedAt, fact.id)

/-- The trades that an evaluation looks at: closed paper sells of the account. -/
def Scope.Looks (scope : Scope) (fact : ShadowPaperTradeFact) : Prop :=
  fact.ownerUserId = scope.ownerUserId ∧ fact.accountKey = scope.accountKey ∧
    upper (strip fact.market) = scope.market ∧ upper (strip fact.accountMode) = "PAPER" ∧
    upper (strip fact.lifecycleStatus) = "CLOSED" ∧ upper (strip fact.side) = "SELL" ∧
    strip fact.symbol ≠ ""

instance (scope : Scope) (fact : ShadowPaperTradeFact) : Decidable (scope.Looks fact) :=
  inferInstanceAs (Decidable (_ ∧ _))

/-- One turn of the loop of `_prepare_facts`: the fact is passed over, retained or
invalid. -/
def prepareFact (scope : Scope) (lookback : ℤ) (fact : ShadowPaperTradeFact) :
    Except ShadowLossReason (Option PreparedFact) :=
  if ¬ scope.Looks fact then .ok none
  else match fact.executedAt with
    | .naive _ => .error .invalidTimestamp
    | .aware executedAt =>
      if executedAt < scope.evaluatedAt - lookback ∨ scope.evaluatedAt < executedAt then .ok none
      else match fact.realizedPnl with
        | none => .ok none
        | some realizedPnl =>
          if fact.id ≤ 0 ∨ strip fact.transactionId = "" ∨ strip fact.tradeId = "" then
            .error .orderingCollision
          else .ok (some
            { id := fact.id
              transactionId := strip fact.transactionId
              tradeId := strip fact.tradeId
              symbol := upper (strip fact.symbol)
              realizedPnl
              exitReason := fact.exitReason.map strip
              executedAt })

def prepareFacts (scope : Scope) (lookback : ℤ) (facts : List ShadowPaperTradeFact) :
    Except ShadowLossReason (List PreparedFact) := do
  let retained ← facts.mapM (prepareFact scope lookback)
  return (retained.filterMap id).insertionSort fun a b => a.key ≤ b.key

/-- The loop of `_deduplicate_facts`, with the identifiers seen and the key of the
last fact kept. -/
def deduplicateFrom (seenTransactionIds seenTradeIds : List String)
    (previousKey : Option (ℤ ×ₗ ℤ)) :
    List PreparedFact → Except ShadowLossReason (List PreparedFact)
  | [] => .ok []
  | fact :: rest =>
    if fact.transactionId ∈ seenTransactionIds ∨ fact.tradeId ∈ seenTradeIds then
      deduplicateFrom seenTransactionIds seenTradeIds previousKey rest
    else if some fact.key = previousKey then .error .orderingCollision
    else do
      let later ← deduplicateFrom (fact.transactionId :: seenTransactionIds)
        (fact.tradeId :: seenTradeIds) (some fact.key) rest
      return fact :: later

def deduplicateFacts (facts : List PreparedFact) : Except ShadowLossReason (List PreparedFact) :=
  deduplicateFrom [] [] none facts

section Observation

variable (config : ShadowLossStreakConfig)

def ShadowLossStreakConfig.Qualifies (fact : PreparedFact) : Prop :=
  fact.realizedPnl < 0 ∧ normalizeReason (fact.exitReason.getD "") ∈ config.stopLossReasons

instance (fact : PreparedFact) : Decidable (config.Qualifies fact) :=
  inferInstanceAs (Decidable (_ ∧ _))

/-- The loop of `_observe_scope`: the length of the streak and its newest loss. -/
def countStreak (facts : List PreparedFact) : ℕ × Option PreparedFact :=
  facts.foldl (fun s fact => if config.Qualifies fact then (s.1 + 1, some fact) else (0, none))
    (0, none)

/-- The lock of a streak: whether it holds, until when, and why. -/
def lockOf (evaluatedAt : Instant) (streak : ℕ × Option PreparedFact) :
    Bool × Option Instant × ShadowLossReason :=
  match streak.2 with
  | none => (false, none, .belowLimit)
  | some newest =>
    let expiresAt := newest.executedAt + config.lockDuration
    if config.lossLimit ≤ streak.1 then
      if evaluatedAt < expiresAt then (true, some expiresAt, .limitReached)
      else (false, some expiresAt, .expired)
    else (false, some expiresAt, .belowLimit)

def observeScope (facts : List PreparedFact) (kind : ShadowLockScope) (symbol : Option String)
    (scope : Scope) : ShadowLossLockObservation :=
  let streak := countStreak config facts
  let newest := streak.2
  let lock := lockOf config scope.evaluatedAt streak
  { status := .valid
    scope := kind
    symbol
    ownerUserId := scope.ownerUserId
    accountKey := scope.accountKey
    market := scope.market
    evaluatedAt := .aware scope.evaluatedAt
    sourceTimestamps := facts.map (·.executedAt)
    streakCount := streak.1
    lossLimit := config.lossLimit
    newestLossId := newest.map (·.id)
    newestLossTransactionId := newest.map (·.transactionId)
    newestLossTradeId := newest.map (·.tradeId)
    newestLossAt := newest.map (·.executedAt)
    expiresAt := lock.2.1
    buyLocked := lock.1
    reason := lock.2.2 }

/-- `_non_valid_result`: both scopes are locked, without an expiry. -/
def nonValidResult (request : Request) (status : ShadowLossStatus) (reason : ShadowLossReason) :
    ShadowLossStreakResult :=
  let observation (kind : ShadowLockScope) (symbol : Option String) : ShadowLossLockObservation :=
    { status, scope := kind, symbol
      ownerUserId := request.ownerUserId
      accountKey := request.accountKey
      market := request.market
      evaluatedAt := request.evaluatedAt
      sourceTimestamps := []
      streakCount := 0
      lossLimit := config.lossLimit
      newestLossId := none
      newestLossTransactionId := none
      newestLossTradeId := none
      newestLossAt := none
      expiresAt := none
      buyLocked := true
      reason }
  { status
    ownerUserId := request.ownerUserId
    accountKey := request.accountKey
    market := request.market
    symbol := request.symbol
    evaluatedAt := request.evaluatedAt
    sourceTimestamps := []
    globalLock := observation .global none
    symbolLock := observation .symbol (some request.symbol) }

def validResult (scope : Scope) (globalFacts symbolFacts : List PreparedFact) :
    ShadowLossStreakResult where
  status := .valid
  ownerUserId := scope.ownerUserId
  accountKey := scope.accountKey
  market := scope.market
  symbol := scope.symbol
  evaluatedAt := .aware scope.evaluatedAt
  sourceTimestamps := globalFacts.map (·.executedAt)
  globalLock := observeScope config globalFacts .global none scope
  symbolLock := observeScope config symbolFacts .symbol (some scope.symbol) scope

def Request.normalized (request : Request) : Request :=
  { request with
    market := upper (strip request.market), symbol := upper (strip request.symbol) }

def factsOf (symbol : String) (facts : List PreparedFact) : List PreparedFact :=
  facts.filter (·.symbol = symbol)

def evaluateShadowLossStreak (facts : List ShadowPaperTradeFact) (request : Request) :
    ShadowLossStreakResult :=
  let reject := nonValidResult config request.normalized
  match request.scope with
  | none => reject .failClosed .invalidScope
  | some scope =>
  match prepareFacts scope config.lookback facts with
  | .error failure => reject .failClosed failure
  | .ok [] => reject .insufficient .insufficient
  | .ok prepared =>
  match deduplicateFacts prepared, deduplicateFacts (factsOf scope.symbol prepared) with
  | .ok globalFacts, .ok symbolFacts => validResult config scope globalFacts symbolFacts
  | .error failure, _ => reject .failClosed failure
  | _, .error failure => reject .failClosed failure

end Observation

/-- `STOP_LOSS_REASONS`: the values of the stop exits. -/
def stopLossReasons : List String := ["STOP", "STOP_GAP", "TRAILING_STOP", "TRAILING_STOP_GAP"]

/-- `LossStreakConfig`, with the checks of its constructor. -/
structure LossStreakConfig where
  globalLossLimit : ℕ := 3
  globalLookback : ℤ := 90 * 60 * 1000000
  globalLockDuration : ℤ := 60 * 60 * 1000000
  symbolLossLimit : ℕ := 2
  limits_pos : 1 ≤ globalLossLimit ∧ 1 ≤ symbolLossLimit
  lookback_pos : 0 < globalLookback
  duration_pos : 0 < globalLockDuration

def defaultLossStreakConfig : LossStreakConfig where
  limits_pos := by decide
  lookback_pos := by decide
  duration_pos := by decide

/-- A regular session, `[opensAt, closesAt)`. -/
structure RegularSession where
  opensAt : Instant
  closesAt : Instant

def ShadowLossStatus.value : ShadowLossStatus → String
  | .valid => "valid"
  | .insufficient => "insufficient"
  | .failClosed => "fail-closed"

def ShadowLossReason.value : ShadowLossReason → String
  | .limitReached => "LOSS_STREAK_LIMIT_REACHED"
  | .belowLimit => "LOSS_STREAK_BELOW_LIMIT"
  | .expired => "LOSS_STREAK_EXPIRED"
  | .insufficient => "INSUFFICIENT_CLOSED_PAPER_FACTS"
  | .invalidScope => "INVALID_EVALUATION_SCOPE"
  | .invalidTimestamp => "INVALID_FACT_TIMESTAMP"
  | .orderingCollision => "FACT_ORDERING_COLLISION"

def ShadowLossLockObservation.cleared (o : ShadowLossLockObservation) (reason : ShadowLossReason) :
    ShadowLossLockObservation :=
  { o with
    streakCount := 0
    newestLossId := none
    newestLossTransactionId := none
    newestLossTradeId := none
    newestLossAt := none
    expiresAt := none
    buyLocked := false
    reason }

/-- `unlocked` of `_valid_result`. -/
def ShadowLossLockObservation.unlocked (o : ShadowLossLockObservation) :
    ShadowLossLockObservation :=
  { o.cleared .belowLimit with status := .valid }

/-- `_valid_result`: an evaluation without facts locks nothing, and one that failed
closed is an error. -/
def requireValid (result : ShadowLossStreakResult) : Except String ShadowLossStreakResult :=
  match result.status with
  | .valid => .ok result
  | .insufficient => .ok
      { result with
        status := .valid
        globalLock := result.globalLock.unlocked
        symbolLock := result.symbolLock.unlocked }
  | .failClosed =>
    .error s!"shadow_evaluation_{result.status.value}:{result.globalLock.reason.value}"

/-- The facts between the opening of the session and now; a time without a zone
cannot be compared. -/
def sessionFacts (session : RegularSession) (now : Instant) :
    List ShadowPaperTradeFact → Except String (List ShadowPaperTradeFact)
  | [] => .ok []
  | fact :: rest =>
    match fact.executedAt with
    | .naive _ => .error "can't compare offset-naive and offset-aware datetimes"
    | .aware executedAt => do
        let later ← sessionFacts session now rest
        return if session.opensAt ≤ executedAt ∧ executedAt ≤ now then fact :: later else later

def evaluateSession (symbolLossLimit : ℕ) (session : RegularSession)
    (facts : List ShadowPaperTradeFact) (request : Request) :
    Except String ShadowLossLockObservation := do
  let sessionDuration := session.closesAt - session.opensAt
  let preliminaryConfig ← ShadowLossStreakConfig.make stopLossReasons symbolLossLimit
    sessionDuration sessionDuration
  let preliminary ← requireValid (evaluateShadowLossStreak preliminaryConfig facts request)
  match preliminary.symbolLock.newestLossAt with
  | none => return preliminary.symbolLock
  | some newestLossAt =>
    if session.closesAt ≤ newestLossAt then return preliminary.symbolLock.cleared .expired
    else do
      let symbolConfig ← ShadowLossStreakConfig.make stopLossReasons symbolLossLimit
        sessionDuration (session.closesAt - newestLossAt)
      let symbolResult ← requireValid (evaluateShadowLossStreak symbolConfig facts request)
      return symbolResult.symbolLock

def evaluateActiveStreaks (facts : List ShadowPaperTradeFact) (ownerUserId : ℤ)
    (accountKey market symbol : String) (now : Instant) (session : RegularSession)
    (config : LossStreakConfig) : Except String ShadowLossStreakResult := do
  let request : Request := ⟨ownerUserId, accountKey, market, symbol, .aware now⟩
  let globalConfig ← ShadowLossStreakConfig.make stopLossReasons config.globalLossLimit
    config.globalLookback config.globalLockDuration
  let globalResult ← requireValid (evaluateShadowLossStreak globalConfig facts request)
  let facts ← sessionFacts session now facts
  let symbolLock ← evaluateSession config.symbolLossLimit session facts request
  return { globalResult with symbolLock }

end KAssetTrader.LossStreak
