import KAssetTrader.Library.Dict
import KAssetTrader.Library.Numeric
import KAssetTrader.Library.Session
import KAssetTrader.Library.Unicode

/-!
The tables behind paper trading: accounts with a cash ledger for each currency,
positions by account and symbol, the trades, the lifecycle rows of managed
positions, and the orders placed from Android. A statement that breaks a
constraint, or a value too large for its column, raises and leaves the
transaction to be rolled back.
-/

namespace KAssetTrader.Paper

inductive InstrumentType where
  | equityKr
  | equityUs
  | crypto
  | forex
  | index
  deriving DecidableEq

/-- The two cash ledgers of an account. -/
inductive Currency where
  | krw
  | usd
  deriving DecidableEq

def positionCurrency : InstrumentType → Currency
  | .equityUs => .usd
  | _ => .krw

inductive OrderSide where
  | buy
  | sell
  deriving DecidableEq

def OrderSide.text : OrderSide → String
  | .buy => "buy"
  | .sell => "sell"

def OrderSide.ofText (text : String) : Option OrderSide :=
  if Unicode.lower text = "buy" then some .buy
  else if Unicode.lower text = "sell" then some .sell
  else none

inductive OrderType where
  | limit
  | market
  deriving DecidableEq

def OrderType.text : OrderType → String
  | .limit => "limit"
  | .market => "market"

def OrderType.ofText (text : String) : Option OrderType :=
  if Unicode.lower text = "limit" then some .limit
  else if Unicode.lower text = "market" then some .market
  else none

/-- The correlation id of a trade: that of the first fill of an Android order,
of a later fill after `priorFilled`, or one of another caller. -/
inductive CorrelationId where
  | order (orderId : String)
  | fill (orderId : String) (priorFilled : Decimal)
  | other (text : String)
  deriving DecidableEq

structure PaperAccount where
  isActive : Bool := true
  cashKrw : Numeric 20 4
  cashUsd : Numeric 20 4
  deriving DecidableEq

namespace PaperAccount

def cash (account : PaperAccount) : Currency → Numeric 20 4
  | .krw => account.cashKrw
  | .usd => account.cashUsd

def withCash (account : PaperAccount) (currency : Currency) (cash : Numeric 20 4) :
    PaperAccount :=
  match currency with
  | .krw => { account with cashKrw := cash }
  | .usd => { account with cashUsd := cash }

theorem withCash_cash (account : PaperAccount) (currency other : Currency) (cash : Numeric 20 4) :
    (account.withCash currency cash).cash other =
      if other = currency then cash else account.cash other := by
  cases currency <;> cases other <;> rfl

end PaperAccount

/-- `PaperPosition`, under its account and symbol. -/
structure PaperPosition where
  id : ℤ
  instrumentType : InstrumentType
  quantity : Numeric 20 8
  avgPrice : Numeric 20 8
  totalInvested : Numeric 20 4

structure PaperTrade where
  id : ℤ
  accountId : ℤ
  symbol : String
  instrumentType : InstrumentType
  side : OrderSide
  orderType : OrderType
  quantity : Numeric 20 8
  price : Numeric 20 8
  totalAmount : Numeric 20 4
  fee : Numeric 20 4
  currency : Currency
  reason : String := ""
  correlationId : Option CorrelationId := none
  realizedPnl : Option (Numeric 20 4) := none

/-- The link of `KAssetPaperPositionState` to the position it manages. -/
structure ManagedPosition where
  paperPositionId : Option ℤ
  closedAt : Option Instant := none

inductive OrderStatus where
  | pending
  | open
  | partiallyFilled
  | filled
  | cancelled
  | rejected
  deriving DecidableEq

def OrderStatus.text : OrderStatus → String
  | .pending => "PENDING"
  | .open => "OPEN"
  | .partiallyFilled => "PARTIALLY_FILLED"
  | .filled => "FILLED"
  | .cancelled => "CANCELLED"
  | .rejected => "REJECTED"

/-- `AndroidPaperOrder`, with the decimals that a session holds before it has
written them. -/
structure AndroidPaperOrder where
  id : String
  ownerUserId : ℤ
  clientOrderId : String
  paperAccountId : ℤ
  market : String
  symbol : String
  side : OrderSide
  orderType : OrderType
  quantity : Decimal
  limitPrice : Option Decimal
  status : OrderStatus
  filledQuantity : Decimal := 0
  averageFillPrice : Option Decimal := none
  paperTradeId : Option ℤ := none
  rejectReason : Option String := none
  deriving DecidableEq

structure Tables where
  accounts : Dict ℤ PaperAccount
  positions : Dict (ℤ × String) PaperPosition
  trades : List PaperTrade
  managed : List ManagedPosition
  orders : Dict String AndroidPaperOrder
  nextPositionId : ℤ := 1
  nextTradeId : ℤ := 1

/-- The `ValueError`s of the trading service. -/
inductive Refusal where
  | side
  | orderType
  | resolvedPriceForLimit
  | accountNotFound (accountId : ℤ)
  | accountInactive (accountId : ℤ)
  | unsupportedSymbol (symbol : String)
  | priceRequired
  | resolvedPriceNotPositive (price : Decimal)
  | priceUnavailable (symbol : String)
  | quantityRequired
  | quantityNotPositive (quantity : Decimal)
  | unsupportedInstrumentType
  | insufficientBalance (currency : Currency) (available needed : Decimal)
  | noPosition (symbol : String)
  | insufficientQuantity (held needed : Decimal)

/-- What a call raises: a `ValueError`, a decimal operation without a result, a
value that its column cannot hold, a broken constraint, an error of a provider, a
failed assertion, or an answer of the mobile interface. -/
inductive Failure where
  | value (reason : Refusal)
  | arithmetic
  | data
  | integrity
  | provider
  | assertion
  | mobile (status : ℕ) (code : String)

abbrev Transaction := Session Failure Tables

def storeColumn (precision scale : ℕ) (x : Decimal) : Except Failure (Numeric precision scale) :=
  match Numeric.store precision scale x with
  | some column => .ok column
  | none => .error .data

theorem storeColumn_value {precision scale : ℕ} {x : Decimal} {column : Numeric precision scale}
    (h : storeColumn precision scale x = .ok column) : column.value = x.quantizeHalfUp scale := by
  unfold storeColumn at h
  split at h
  next hstore =>
    cases h
    exact Numeric.store_value hstore
  · cases h

theorem storeColumn_exact {precision scale : ℕ} {x : Decimal} {column : Numeric precision scale}
    (hx : x.HasPlaces scale) (h : storeColumn precision scale x = .ok column) :
    column.value = x := by
  rw [storeColumn_value h, hx.quantizeHalfUp]

theorem storeColumn_column {precision scale : ℕ} (column : Numeric precision scale) :
    storeColumn precision scale column.value = .ok column := by
  unfold storeColumn
  rw [Numeric.store_self]

theorem storeColumn_raises {precision scale : ℕ} {x : Decimal} {e : Failure}
    (h : storeColumn precision scale x = .error e) : e = .data := by
  unfold storeColumn at h
  split at h
  · cases h
  · exact (Except.error.inj h).symm

def precision : ℕ := 28

/-- `getcontext()`. -/
def ctx : Decimal.Context := .digits precision

/-- `quantize_money`; a result with more digits than the working precision
raises. -/
def quantizeMoney (x : Decimal) : Except Failure Decimal :=
  if |x.quantizeHalfUp 4| * 10 ^ 4 < 10 ^ precision then .ok (x.quantizeHalfUp 4)
  else .error .arithmetic

def quantizeCryptoQty (x : Decimal) : Except Failure Decimal :=
  if |x.quantizeHalfUp 8| * 10 ^ 8 < 10 ^ precision then .ok (x.quantizeHalfUp 8)
  else .error .arithmetic

/-- A division of decimals, which raises on a zero divisor. -/
def divide (a b : Decimal) : Except Failure Decimal :=
  if b = 0 then .error .arithmetic else .ok (ctx.div a b)

end KAssetTrader.Paper
