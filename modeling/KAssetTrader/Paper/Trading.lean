import KAssetTrader.Library.Checked
import KAssetTrader.Paper.Tables

/-!
The paper trading service. An order is priced and sized against the stored
account, then settled in one transaction: the cash of its currency, the position
of its symbol and the trade row are written together and committed once.
-/

namespace KAssetTrader.Paper

/-- The arguments of an order, with what the price provider answers when the
order has to ask it. -/
structure OrderCall where
  accountId : ℤ
  symbol : String
  side : String
  orderType : String
  quantity : Option Decimal := none
  price : Option Decimal := none
  amount : Option Decimal := none
  resolvedMarketPrice : Option Decimal := none
  reason : String := ""
  correlationId : Option CorrelationId := none
  currentPrice : Except Failure Decimal := .error .provider
  now : Instant := 0

structure Preview where
  symbol : String
  instrumentType : InstrumentType
  side : OrderSide
  orderType : OrderType
  quantity : Decimal
  price : Decimal
  gross : Decimal
  fee : Decimal
  totalCost : Decimal
  currency : Currency

structure Execution where
  preview : Preview
  realizedPnl : Option Decimal

def executionQuantityLot : InstrumentType → Decimal
  | .equityUs => 1 / 10000
  | _ => 1

/-- `quantize_execution_quantity`. A product with the lot has the digits of its
whole number of lots, so it is not rounded. -/
def quantizeExecutionQuantity (quantity : Decimal) (instrumentType : InstrumentType) : Decimal :=
  Decimal.truncate (ctx.div quantity (executionQuantityLot instrumentType)) *
    executionQuantityLot instrumentType

/-- `calculate_fee`, at the rates of `FEE_RATES`. -/
def calculateFee (instrumentType : InstrumentType) (side : OrderSide) (amount : Decimal) :
    Except Failure Decimal :=
  match instrumentType with
  | .equityKr =>
    let fee := ctx.mul amount (15 / 100000)
    match side with
    | .buy => quantizeMoney fee
    | .sell => quantizeMoney (ctx.add fee (ctx.mul amount (18 / 10000)))
  | .equityUs => quantizeMoney (max (ctx.mul amount (7 / 10000)) 1)
  | .crypto => quantizeMoney (ctx.mul amount (5 / 10000))
  | .forex | .index => .error (.value .unsupportedInstrumentType)

def validateResolvedMarketPrice (price : Decimal) : Except Failure Decimal :=
  if price ≤ 0 then .error (.value (.resolvedPriceNotPositive price)) else .ok price

-- `resolve_market_type`: the instrument type of a symbol and its stored form, or
-- none for a symbol in no known format.
variable (resolveMarketType : String → Option (InstrumentType × String))

def fillPrice (o : OrderCall) : OrderType → Except Failure Decimal
  | .limit =>
    match o.price with
    | none => .error (.value .priceRequired)
    | some price => .ok price
  | .market =>
    match o.resolvedMarketPrice with
    | some price => validateResolvedMarketPrice price
    | none => o.currentPrice

/-- The quantity an order asks for, before it is cut to whole lots. -/
def askedQuantity (o : OrderCall) (price : Decimal) : Except Failure Decimal :=
  match o.quantity, o.amount with
  | some quantity, _ => .ok quantity
  | none, some amount => divide amount price
  | none, none => .error (.value .quantityRequired)

def settledQuantity (instrumentType : InstrumentType) (asked : Decimal) :
    Except Failure Decimal :=
  match instrumentType with
  | .crypto => quantizeCryptoQty asked
  | _ => .ok (quantizeExecutionQuantity asked instrumentType)

def settledTotal (side : OrderSide) (gross fee : Decimal) : Except Failure Decimal :=
  match side with
  | .buy => quantizeMoney (ctx.add gross fee)
  | .sell => quantizeMoney (ctx.sub gross fee)

def previewAmounts (symbol : String) (instrumentType : InstrumentType) (side : OrderSide)
    (orderType : OrderType) (quantity price : Decimal) : Except Failure Preview := do
  let gross ← quantizeMoney (ctx.mul quantity price)
  let fee ← calculateFee instrumentType side gross
  let totalCost ← settledTotal side gross fee
  return { symbol, instrumentType, side, orderType, quantity, price, gross, fee, totalCost,
           currency := positionCurrency instrumentType }

def previewOrder (db : Tables) (o : OrderCall) : Except Failure Preview :=
  match OrderSide.ofText o.side with
  | none => .error (.value .side)
  | some side =>
  match OrderType.ofText o.orderType with
  | none => .error (.value .orderType)
  | some orderType =>
  if orderType = .limit ∧ o.resolvedMarketPrice.isSome then
    .error (.value .resolvedPriceForLimit)
  else match db.accounts.get? o.accountId with
  | none => .error (.value (.accountNotFound o.accountId))
  | some account =>
  if account.isActive = false then .error (.value (.accountInactive o.accountId))
  else match resolveMarketType o.symbol with
  | none => .error (.value (.unsupportedSymbol o.symbol))
  | some (instrumentType, symbol) => do
    let price ← fillPrice o orderType
    let asked ← askedQuantity o price
    let quantity ← settledQuantity instrumentType asked
    if quantity ≤ 0 then .error (.value (.quantityNotPositive quantity))
    else previewAmounts symbol instrumentType side orderType quantity price

/-- The position row after a buy: the averaged row, or a new one. -/
def boughtPosition (db : Tables) (p : Preview) (existing : Option PaperPosition) :
    Except Failure PaperPosition :=
  match existing with
  | some position => do
      let total := ctx.add position.totalInvested.value p.gross
      let quantity := ctx.add position.quantity.value p.quantity
      let average ← divide total quantity
      let average ← quantizeMoney average
      return { position with
        avgPrice := ← storeColumn 20 8 average
        quantity := ← storeColumn 20 8 quantity
        totalInvested := ← storeColumn 20 4 total }
  | none => do
      return {
        id := db.nextPositionId
        instrumentType := p.instrumentType
        quantity := ← storeColumn 20 8 p.quantity
        avgPrice := ← storeColumn 20 8 p.price
        totalInvested := ← storeColumn 20 4 p.gross }

/-- The position row that a partial sell leaves. -/
def reducedPosition (position : PaperPosition) (p : Preview) (costBasis : Decimal) :
    Except Failure PaperPosition := do
  let invested ← quantizeMoney (ctx.sub position.totalInvested.value costBasis)
  return { position with
    quantity := ← storeColumn 20 8 (ctx.sub position.quantity.value p.quantity)
    totalInvested := ← storeColumn 20 4 invested }

def setCash (accountId : ℤ) (currency : Currency) (cash : Decimal) : Transaction PUnit := do
  let column ← Session.lift (storeColumn 20 4 cash)
  Session.modify fun db =>
    { db with accounts := db.accounts.modify accountId (·.withCash currency column) }

/-- The buy branch of `execute_order`. -/
def settleBuy (accountId : ℤ) (account : PaperAccount) (p : Preview) :
    Transaction (Option Decimal) := do
  let available := (account.cash p.currency).value
  if available < p.totalCost then
    throw (.value (.insufficientBalance p.currency available p.totalCost))
  else do
    let cash ← Session.lift (quantizeMoney (ctx.sub available p.totalCost))
    setCash accountId p.currency cash
    let db ← Session.read
    let position ← Session.lift
      (boughtPosition db p (db.positions.get? (accountId, p.symbol)))
    Session.modify fun db =>
      { db with
        positions := db.positions.set (accountId, p.symbol) position
        nextPositionId := max db.nextPositionId (position.id + 1) }
    return none

def closeManaged (managed : List ManagedPosition) (positionId : ℤ) (now : Instant) :
    List ManagedPosition :=
  managed.map fun link =>
    if link.paperPositionId = some positionId ∧ link.closedAt = none then
      { paperPositionId := none, closedAt := some now }
    else link

/-- A position sold as a whole is deleted, else reduced. -/
def releasePosition (accountId : ℤ) (position : PaperPosition) (p : Preview)
    (costBasis : Decimal) (now : Instant) : Transaction PUnit :=
  if position.quantity.value = p.quantity then
    Session.modify fun db =>
      { db with
        managed := closeManaged db.managed position.id now
        positions := db.positions.erase (accountId, p.symbol) }
  else do
    let reduced ← Session.lift (reducedPosition position p costBasis)
    Session.modify fun db =>
      { db with positions := db.positions.set (accountId, p.symbol) reduced }

/-- The sell branch of `execute_order`. -/
def settleSell (accountId : ℤ) (account : PaperAccount) (p : Preview) (now : Instant) :
    Transaction (Option Decimal) := do
  let db ← Session.read
  match db.positions.get? (accountId, p.symbol) with
  | none => throw (.value (.noPosition p.symbol))
  | some position =>
    if position.quantity.value < p.quantity then
      throw (.value (.insufficientQuantity position.quantity.value p.quantity))
    else do
      let cash ← Session.lift
        (quantizeMoney (ctx.add (account.cash p.currency).value p.totalCost))
      setCash accountId p.currency cash
      let costBasis := ctx.mul position.avgPrice.value p.quantity
      let realizedPnl ← Session.lift
        (quantizeMoney (ctx.sub (ctx.sub p.gross costBasis) p.fee))
      releasePosition accountId position p costBasis now
      return some realizedPnl

def settle (accountId : ℤ) (account : PaperAccount) (p : Preview) (now : Instant) :
    Transaction (Option Decimal) :=
  match p.side with
  | .buy => settleBuy accountId account p
  | .sell => settleSell accountId account p now

/-- The trade row of an order, when the constraints of the table accept it: the
texts as the caller spelled them, and one trade for each correlation id of an
account. -/
def tradeRow (db : Tables) (o : OrderCall) (p : Preview) (realizedPnl : Option Decimal) :
    Except Failure PaperTrade :=
  if 32 < p.symbol.length then .error .data
  else if o.side ≠ p.side.text ∨ o.orderType ≠ p.orderType.text ∨
      (o.correlationId.isSome ∧
        ∃ trade ∈ db.trades, trade.accountId = o.accountId ∧
          trade.correlationId = o.correlationId) then
    .error .integrity
  else return {
    id := db.nextTradeId
    accountId := o.accountId
    symbol := p.symbol
    instrumentType := p.instrumentType
    side := p.side
    orderType := p.orderType
    quantity := ← storeColumn 20 8 p.quantity
    price := ← storeColumn 20 8 p.price
    totalAmount := ← storeColumn 20 4 p.gross
    fee := ← storeColumn 20 4 p.fee
    currency := p.currency
    reason := o.reason
    correlationId := o.correlationId
    realizedPnl := ← realizedPnl.mapM (storeColumn 20 4) }

def executeOrder (o : OrderCall) : Transaction Execution := do
  let db ← Session.read
  let p ← Session.lift (previewOrder resolveMarketType db o)
  match db.accounts.get? o.accountId with
  | none => throw .assertion
  | some account => do
    let realizedPnl ← settle o.accountId account p o.now
    let settled ← Session.read
    let trade ← Session.lift (tradeRow settled o p realizedPnl)
    Session.modify fun db =>
      { db with trades := db.trades ++ [trade], nextTradeId := db.nextTradeId + 1 }
    Session.commit
    return { preview := p, realizedPnl }

/-- A caller that commits after a `ValueError`, as the order service does, and
ends its session after any other failure. -/
def placeOrder (o : OrderCall) : Transaction Execution := do
  try executeOrder resolveMarketType o
  catch failure =>
    match failure with
    | .value _ => Session.commit
    | _ => Session.rollback
    throw failure

def runOrders (db : Tables) (orders : List OrderCall) : Tables :=
  orders.foldl (fun db o => (placeOrder resolveMarketType o).after db) db

end KAssetTrader.Paper
