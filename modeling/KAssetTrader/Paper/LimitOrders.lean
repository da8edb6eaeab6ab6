import KAssetTrader.Paper.Books
import KAssetTrader.Recommendation.Row

/-!
Resting limit orders of one paper account. Placing a buy takes its cost out of the cash
ledger at once; cancelling puts it back; a fill puts it back and settles the order as
any other, in one transaction. A reset of the account writes its cash anew.
-/

namespace KAssetTrader.Paper

open Unicode (strip upper)

def isCryptoMarket (symbol : String) : Bool :=
  "KRW-".toList.isPrefixOf (upper (strip symbol)).toList ||
    "USDT-".toList.isPrefixOf (upper (strip symbol)).toList

inductive EquityType where
  | kr
  | us

def EquityType.instrumentType : EquityType → InstrumentType
  | .kr => .equityKr
  | .us => .equityUs

/-- `resolve_market_type` of a symbol without a market. What it makes of the symbols of
stocks is given. -/
def resolveMarketType (resolveEquity : String → Option (EquityType × String))
    (symbol : String) : Option (InstrumentType × String) :=
  if isCryptoMarket symbol then some (.crypto, upper symbol)
  else (resolveEquity symbol).map fun found => (found.1.instrumentType, found.2)

/-- `_TICK_BANDS`: the first band whose threshold the price reaches applies. -/
def tickBands : List (Decimal × Decimal) :=
  [(2000000, 1000), (1000000, 500), (500000, 100), (100000, 50), (10000, 10), (1000, 5),
    (100, 1), (10, 1 / 10), (1, 1 / 100), (1 / 10, 1 / 1000), (1 / 100, 1 / 10000)]

def snapLimitDown (price : Decimal) : Decimal :=
  let unit := ((tickBands.find? fun band => decide (band.1 ≤ price)).map (·.2)).getD (1 / 100000)
  ctx.mul (⌊ctx.div price unit⌋ : ℤ) unit

def quantizeFillPrice (price : Decimal) : Except Failure Decimal :=
  quantizeMoney (snapLimitDown price)

structure Candle where
  timestamp : Option Instant
  low : Decimal
  high : Decimal

def limitCrossed (side : OrderSide) (limitPrice : Decimal) (bars : List Candle) : Bool :=
  bars.any fun bar =>
    match side with
    | .buy => decide (bar.low ≤ limitPrice)
    | .sell => decide (limitPrice ≤ bar.high)

def minCryptoKrw : Decimal := 5000

inductive PendingStatus where
  | pending
  | filled
  | cancelled
  deriving DecidableEq

/-- `PaperPendingOrder`, less its primary key. -/
structure PaperPendingOrder where
  symbol : String
  side : OrderSide
  limitPrice : Numeric 20 8
  quantity : Numeric 20 8
  reservedKrw : Numeric 20 4
  status : PendingStatus := .pending
  thesis : Option String := none
  correlationId : CorrelationId
  fillPrice : Option (Numeric 20 8) := none
  paperTradeId : Option ℤ := none
  placedAt : Instant
  filledAt : Option Instant := none
  cancelledAt : Option Instant := none

/-- The account with its pending orders. `resetAt` counts the trades at the last reset,
and `fills` pairs each order that was filled with the trade of its fill; nothing in the
code reads these two. -/
structure LimitDesk where
  tables : Tables
  initialCapital : Numeric 20 4
  initialCapitalUsd : Numeric 20 4
  orders : Dict ℕ PaperPendingOrder := Dict.empty
  nextOrderId : ℕ := 1
  resetAt : ℕ := 0
  fills : List (ℕ × ℤ) := []

def PaperPendingOrder.held (order : PaperPendingOrder) : Decimal :=
  if order.status = .pending ∧ order.side = .buy then order.reservedKrw.value else 0

/-- The cash held back by the pending buys. -/
def LimitDesk.reserved (desk : LimitDesk) : Decimal := desk.orders.total fun _ order => order.held

/-- The answers of the service that refuse an order, or the exception that ends the call. -/
inductive LimitRefusal where
  | side
  | accountNotFound (accountId : ℤ)
  | accountInactive (accountId : ℤ)
  | unsupportedSymbol (symbol : String)
  | notCrypto (instrumentType : InstrumentType)
  | limitPriceNotPositive
  | amountNotPositive
  | quantityRequired
  | quantityNotPositive (quantity : Decimal)
  | belowMinimum (gross : Decimal)
  | insufficientKrw (available needed : Decimal)
  | noPosition (symbol : String)
  | insufficientSellable (held pending needed : Decimal)
  | orderNotFound (orderId : ℕ)
  | notPending (orderId : ℕ) (status : PendingStatus)
  | raised (failure : Failure)

/-- A step of the service whose exceptions end the call. -/
def orRaise {α : Type} : Except Failure α → Except LimitRefusal α
  | .ok a => .ok a
  | .error failure => .error (.raised failure)

variable (resolveEquity : String → Option (EquityType × String)) (accountId : ℤ)

/-- The arguments of `place_limit_order`, the time, and the correlation id that is minted
for the order. -/
structure LimitCall where
  symbol : String
  side : String
  limitPrice : Decimal
  quantity : Option Decimal := none
  amount : Option Decimal := none
  thesis : Option String := none
  now : Instant := 0
  correlationId : CorrelationId := .other ""

def limitQuantity (call : LimitCall) (price : Decimal) : Except LimitRefusal Decimal :=
  match call.quantity, call.amount with
  | some quantity, _ => orRaise (quantizeCryptoQty quantity)
  | none, some amount =>
    if amount ≤ 0 then .error .amountNotPositive
    else orRaise (divide amount price >>= quantizeCryptoQty)
  | none, none => .error .quantityRequired

def pendingSellQty (desk : LimitDesk) (symbol : String) : Decimal :=
  desk.orders.total fun _ order =>
    if order.symbol = symbol ∧ order.side = .sell ∧ order.status = .pending then
      order.quantity.value else 0

def pendingRow (call : LimitCall) (symbol : String) (side : OrderSide)
    (price quantity reserved : Decimal) : Except Failure PaperPendingOrder :=
  if 32 < symbol.length then .error .data
  else do
    let limitPrice ← storeColumn 20 8 price
    let quantity ← storeColumn 20 8 quantity
    let reservedKrw ← storeColumn 20 4 reserved
    return { symbol, side, limitPrice, quantity, reservedKrw
             thesis := call.thesis
             correlationId := call.correlationId
             placedAt := call.now }

/-- The buy branch: the cost is taken out of the cash ledger. -/
def placeBuy (desk : LimitDesk) (account : PaperAccount) (call : LimitCall) (symbol : String)
    (price quantity : Decimal) : Except LimitRefusal LimitDesk := do
  let gross ← orRaise (quantizeMoney (ctx.mul quantity price))
  let fee ← orRaise (calculateFee .crypto .buy gross)
  let reserved ← orRaise (quantizeMoney (ctx.add gross fee))
  if gross < minCryptoKrw then .error (.belowMinimum gross)
  else if account.cashKrw.value < reserved then
    .error (.insufficientKrw account.cashKrw.value reserved)
  else do
    let cash ← orRaise (quantizeMoney (ctx.sub account.cashKrw.value reserved))
    let column ← orRaise (storeColumn 20 4 cash)
    let order ← orRaise (pendingRow call symbol .buy price quantity reserved)
    return { desk with
      tables := { desk.tables with
        accounts := desk.tables.accounts.modify accountId (·.withCash .krw column) }
      orders := desk.orders.set desk.nextOrderId order
      nextOrderId := desk.nextOrderId + 1 }

/-- The sell branch: the position has to cover every pending sell. -/
def placeSell (desk : LimitDesk) (call : LimitCall) (symbol : String)
    (price quantity : Decimal) : Except LimitRefusal LimitDesk := do
  let gross ← orRaise (quantizeMoney (ctx.mul quantity price))
  if gross < minCryptoKrw then .error (.belowMinimum gross)
  else match desk.tables.positions.get? (accountId, symbol) with
  | none => .error (.noPosition symbol)
  | some position =>
    let pending := pendingSellQty desk symbol
    if ctx.sub position.quantity.value pending < quantity then
      .error (.insufficientSellable position.quantity.value pending quantity)
    else do
      let order ← orRaise (pendingRow call symbol .sell price quantity 0)
      return { desk with
        orders := desk.orders.set desk.nextOrderId order
        nextOrderId := desk.nextOrderId + 1 }

def placeLimitOrder (desk : LimitDesk) (call : LimitCall) : Except LimitRefusal LimitDesk :=
  match OrderSide.ofText call.side with
  | none => .error .side
  | some side =>
  match desk.tables.accounts.get? accountId with
  | none => .error (.accountNotFound accountId)
  | some account =>
  if account.isActive = false then .error (.accountInactive accountId)
  else match resolveMarketType resolveEquity call.symbol with
  | none => .error (.unsupportedSymbol call.symbol)
  | some (instrumentType, symbol) =>
  if instrumentType ≠ .crypto then .error (.notCrypto instrumentType)
  else do
    let price ← orRaise (quantizeFillPrice call.limitPrice)
    if price ≤ 0 then .error .limitPriceNotPositive
    else do
      let quantity ← limitQuantity call price
      if quantity ≤ 0 then .error (.quantityNotPositive quantity)
      else match side with
        | .buy => placeBuy accountId desk account call symbol price quantity
        | .sell => placeSell accountId desk call symbol price quantity

/-- The cash ledger after the reservation of an order has been put back. -/
def releasedCash (account : PaperAccount) (order : PaperPendingOrder) :
    Except Failure (Numeric 20 4) :=
  match order.side with
  | .buy => do
      let cash ← quantizeMoney (ctx.add account.cashKrw.value order.reservedKrw.value)
      storeColumn 20 4 cash
  | .sell => .ok account.cashKrw

def released (tables : Tables) (cash : Numeric 20 4) : Tables :=
  { tables with accounts := tables.accounts.modify accountId (·.withCash .krw cash) }

def cancelPendingOrder (desk : LimitDesk) (orderId : ℕ) (now : Instant) :
    Except LimitRefusal LimitDesk :=
  match desk.orders.get? orderId with
  | none => .error (.orderNotFound orderId)
  | some order =>
  if order.status ≠ .pending then .error (.notPending orderId order.status)
  else match desk.tables.accounts.get? accountId with
  | none => .error (.raised .assertion)
  | some account => do
    let cash ← orRaise (releasedCash account order)
    return { desk with
      tables := released accountId desk.tables cash
      orders := desk.orders.modify orderId fun row =>
        { row with status := .cancelled, cancelledAt := some now } }

def restingFillCall (order : PaperPendingOrder) (now : Instant) : OrderCall where
  accountId := accountId
  symbol := order.symbol
  side := order.side.text
  orderType := "limit"
  price := some order.limitPrice.value
  quantity := some order.quantity.value
  reason := order.thesis.getD "paper resting-limit fill"
  now := now

/-- The transaction of a fill: the reservation is put back, and the order is executed.
It commits as a whole or is rolled back as a whole. -/
def fillOrder (tables : Tables) (order : PaperPendingOrder) (now : Instant) :
    Except Failure Tables :=
  match tables.accounts.get? accountId with
  | none => .error .assertion
  | some account => do
    let cash ← releasedCash account order
    match executeOrder (resolveMarketType resolveEquity) (restingFillCall accountId order now)
        { stored := tables, view := released accountId tables cash } with
    | .ok _ s => .ok s.stored
    | .error failure _ => .error failure

/-- `_latest_trade_id`; the trades are kept in the order of their execution. -/
def latestTradeId (trades : List PaperTrade) (symbol : String) (side : OrderSide) : Option ℤ :=
  ((trades.filter fun trade => decide (trade.accountId = accountId ∧ trade.symbol = symbol ∧
    trade.side = side)).getLast?).map (·.id)

def labelled (tradeId : ℤ) (correlationId : CorrelationId) (trade : PaperTrade) : PaperTrade :=
  if trade.id = tradeId then { trade with correlationId := some correlationId } else trade

/-- The link of a filled order to its trade, unless another trade of the account has its
correlation id. -/
def linkTrade (desk : LimitDesk) (orderId : ℕ) (order : PaperPendingOrder) : Option LimitDesk :=
  match latestTradeId accountId desk.tables.trades order.symbol order.side with
  | none => some desk
  | some tradeId =>
    if desk.tables.trades.any fun trade => decide (trade.accountId = accountId ∧
        trade.id ≠ tradeId ∧ trade.correlationId = some order.correlationId) then none
    else some { desk with
      tables := { desk.tables with
        trades := desk.tables.trades.map (labelled tradeId order.correlationId) }
      orders := desk.orders.modify orderId fun row =>
        { row with paperTradeId := some tradeId } }

/-- Whether a turn of the reconciliation leaves the call to go on. A failed link is
rolled back, which expires the order, and the next read of it raises. -/
inductive Turn where
  | next
  | raised

def barsSince (order : PaperPendingOrder) (candles : List Candle) : List Candle :=
  candles.filter fun c => !(c.timestamp.any fun t => decide (t < order.placedAt))

def PaperPendingOrder.fill (row : PaperPendingOrder) (now : Instant) : PaperPendingOrder :=
  { row with status := .filled, fillPrice := some row.limitPrice, filledAt := some now }

def LimitDesk.withFill (desk : LimitDesk) (orderId : ℕ) (tables : Tables) (now : Instant) :
    LimitDesk :=
  { desk with
    tables := tables
    orders := desk.orders.modify orderId (·.fill now)
    fills := (orderId, desk.tables.nextTradeId) :: desk.fills }

/-- One turn of the loop of `reconcile_pending_orders`, with what the provider answers
for the order. -/
def reconcileOrder (desk : LimitDesk) (orderId : ℕ) (candles : Option (List Candle))
    (now : Instant) : LimitDesk × Turn :=
  match desk.orders.get? orderId, candles with
  | some order, some candles =>
    if order.status = .pending ∧
        limitCrossed order.side order.limitPrice.value (barsSince order candles) = true then
      match fillOrder resolveEquity accountId desk.tables order now with
      | .error _ => (desk, .next)
      | .ok tables =>
        match linkTrade accountId (desk.withFill orderId tables now) orderId order with
        | none => (desk.withFill orderId tables now, .raised)
        | some linked => (linked, .next)
    else (desk, .next)
  | _, _ => (desk, .next)

def reconcileFrom (market : ℕ → Option (List Candle)) (now : Instant) :
    List ℕ → LimitDesk → LimitDesk
  | [], desk => desk
  | orderId :: rest, desk =>
    match reconcileOrder resolveEquity accountId desk orderId (market orderId) now with
    | (desk, .next) => reconcileFrom market now rest desk
    | (desk, .raised) => desk

def pendingIds (desk : LimitDesk) : List ℕ :=
  ((desk.orders.entries.filter fun e => e.2.status = .pending).insertionSort fun a b =>
    a.2.placedAt < b.2.placedAt ∨ (a.2.placedAt = b.2.placedAt ∧ a.1 ≤ b.1)).map (·.1)

def reconcilePendingOrders (desk : LimitDesk) (market : ℕ → Option (List Candle))
    (now : Instant) : LimitDesk :=
  reconcileFrom resolveEquity accountId market now (pendingIds desk) desk

/-- `reset_account`. The pending orders are not looked at. -/
def resetAccount (desk : LimitDesk) (now : Instant) : LimitDesk :=
  let mine := (desk.tables.positions.entries.filter fun e => e.1.1 = accountId).map (·.2.id)
  { desk with
    tables := { desk.tables with
      accounts := desk.tables.accounts.modify accountId fun account =>
        { account with cashKrw := desk.initialCapital, cashUsd := desk.initialCapitalUsd }
      positions := desk.tables.positions.filter fun key _ => decide (key.1 ≠ accountId)
      managed := mine.foldl (fun managed id => closeManaged managed id now) desk.tables.managed }
    resetAt := desk.tables.trades.length }

inductive DeskAction where
  | place (call : LimitCall)
  | cancel (orderId : ℕ) (now : Instant)
  | reconcile (market : ℕ → Option (List Candle)) (now : Instant)
  | execute (call : OrderCall)
  | reset (now : Instant)

/-- One call on the account. A call that is refused, or that raises, leaves the desk as
it was. -/
def LimitDesk.step (desk : LimitDesk) : DeskAction → Option LimitDesk
  | .place call => some ((placeLimitOrder resolveEquity accountId desk call).toOption.getD desk)
  | .cancel orderId now => some ((cancelPendingOrder accountId desk orderId now).toOption.getD desk)
  | .reconcile market now => some (reconcilePendingOrders resolveEquity accountId desk market now)
  | .execute call => some
      { desk with
        tables := (placeOrder (resolveMarketType resolveEquity)
          { call with accountId := accountId }).after desk.tables }
  | .reset now => some (resetAccount accountId desk now)

def LimitDesk.holdsBuy (desk : LimitDesk) : Bool :=
  desk.orders.entries.any fun e => decide (e.2.status = .pending ∧ e.2.side = .buy)

def sellsBelowZero (call : OrderCall) : Bool :=
  match OrderSide.ofText call.side, OrderType.ofText call.orderType with
  | some .sell, some orderType =>
    match fillPrice call orderType with
    | .ok price => decide (price < 0)
    | .error _ => false
  | _, _ => false

/-- The calls that do not overdraw the ledger behind a pending buy: while one is pending
there is no reset, and no sell at a price below zero. -/
def deskSafe (desk : LimitDesk) : DeskAction → Prop
  | .reset _ => desk.holdsBuy = false
  | .execute call => desk.holdsBuy = false ∨ sellsBelowZero call = false
  | _ => True

/-- A fresh account: its cash is its initial capital, and it has no orders. -/
structure DeskStart (desk : LimitDesk) : Prop where
  cash : ∃ account, desk.tables.accounts.get? accountId = some account ∧
    account.cashKrw = desk.initialCapital
  orders : desk.orders = Dict.empty
  fills : desk.fills = []
  resetAt : desk.resetAt = desk.tables.trades.length
  ids : ∀ trade ∈ desk.tables.trades, trade.id < desk.tables.nextTradeId
  idsNodup : (desk.tables.trades.map (·.id)).Nodup

end KAssetTrader.Paper
