import KAssetTrader.Paper.Ledger

/-!
The orders placed from Android. Each call runs in a session of its own and
commits in several steps: the order row first, then the trade that fills it,
then what the trade filled. What the call reads elsewhere (the risk verdict, the
account, the quotes) is given with it.
-/

namespace KAssetTrader.Paper

structure Quote where
  market : String
  symbol : String
  currency : Currency
  price : Decimal

/-- `OrderRequest`, as its model admits it. -/
structure OrderRequest where
  clientOrderId : Option String
  broker : String
  side : OrderSide
  orderType : OrderType
  quantity : Decimal
  limitPrice : Option Decimal := none
  quantity_pos : 0 < quantity

structure AmendRequest where
  quantity : Option Decimal := none
  limitPrice : Option Decimal := none
  quantity_pos : ∀ q ∈ quantity, 0 < q

/-- What a call reads outside the order and trade tables. `approved` is the
verdict of the risk check on an order of whole lots. -/
structure Answers where
  orderAllowed : Except Failure PUnit := .ok ⟨⟩
  riskQuote : Except Failure Quote
  approved : Except Failure Bool := .ok true
  account : Except Failure ℤ
  quote : Except Failure Quote
  orderId : String := ""

def quotedInstrumentType (quote : Quote) : InstrumentType :=
  match quote.currency with
  | .usd => .equityUs
  | .krw => .equityKr

/-- `preview`: the quantity has to be in whole lots of the quoted instrument. -/
def assessRisk (quantity : Decimal) (answers : Answers) : Except Failure Bool := do
  let quote ← answers.riskQuote
  if quantizeExecutionQuantity quantity (quotedInstrumentType quote) ≠ quantity then
    .error (.mobile 400 "INVALID_QUANTITY")
  else answers.approved

def crosses (side : OrderSide) (limitPrice : Option Decimal) (marketPrice : Decimal) : Bool :=
  match limitPrice with
  | none => false
  | some limit =>
    match side with
    | .buy => marketPrice ≤ limit
    | .sell => limit ≤ marketPrice

namespace AndroidPaperOrder

def row (order : AndroidPaperOrder) : Except Failure AndroidPaperOrder := do
  let quantity ← storeColumn 20 8 order.quantity
  let limitPrice ← order.limitPrice.mapM (storeColumn 20 8)
  let filledQuantity ← storeColumn 20 8 order.filledQuantity
  let averageFillPrice ← order.averageFillPrice.mapM (storeColumn 20 8)
  return { order with
    quantity := quantity.value
    limitPrice := limitPrice.map (·.value)
    filledQuantity := filledQuantity.value
    averageFillPrice := averageFillPrice.map (·.value) }

def correlationId (order : AndroidPaperOrder) : CorrelationId :=
  if order.filledQuantity = 0 then .order order.id else .fill order.id order.filledQuantity

/-- An order that has not been filled as a whole, and can be cancelled. -/
def Working (order : AndroidPaperOrder) : Prop :=
  order.status = .open ∨ order.status = .partiallyFilled

instance (order : AndroidPaperOrder) : Decidable order.Working :=
  inferInstanceAs (Decidable (_ ∨ _))

end AndroidPaperOrder

def Tables.tradeByCorrelation (db : Tables) (accountId : ℤ) (correlationId : CorrelationId) :
    Option PaperTrade :=
  db.trades.find? fun trade =>
    trade.accountId = accountId ∧ trade.correlationId = some correlationId

/-- `get_by_client_order_id`. -/
def Tables.orderOfClient (db : Tables) (ownerUserId : ℤ) (clientOrderId : String) :
    Option AndroidPaperOrder :=
  db.orders.values.find? fun order =>
    order.ownerUserId = ownerUserId ∧ order.clientOrderId = clientOrderId

def saveOrder (order : AndroidPaperOrder) : Transaction PUnit := do
  let row ← Session.lift order.row
  Session.modify fun db => { db with orders := db.orders.set order.id row }

/-- `db.refresh(order)`. -/
def refresh (order : AndroidPaperOrder) : Transaction AndroidPaperOrder := do
  let db ← Session.read
  match db.orders.get? order.id with
  | none => throw .assertion
  | some row => return row

/-- A change of an order, committed and read back. -/
def storeOrder (order : AndroidPaperOrder) : Transaction AndroidPaperOrder := do
  saveOrder order
  Session.commit
  refresh order

def averagePrice (order : AndroidPaperOrder) (trade : PaperTrade) (total : Decimal) :
    Except Failure Decimal :=
  match order.averageFillPrice with
  | some previous =>
    if 0 < order.filledQuantity then
      divide (ctx.add (ctx.mul previous order.filledQuantity)
        (ctx.mul trade.price.value trade.quantity.value)) total
    else .ok trade.price.value
  | none => .ok trade.price.value

def applyTradeMetadata (order : AndroidPaperOrder) (trade : PaperTrade) :
    Transaction AndroidPaperOrder :=
  if order.paperTradeId = some trade.id ∧
      (order.status = .filled ∨ order.status = .partiallyFilled) then
    return order
  else
    let total := ctx.add order.filledQuantity trade.quantity.value
    if order.quantity < total then throw (.mobile 500 "BROKER_ERROR")
    else do
      let average ← Session.lift (averagePrice order trade total)
      storeOrder { order with
        status := if total = order.quantity then .filled else .partiallyFilled
        filledQuantity := total
        averageFillPrice := some average
        paperTradeId := some trade.id
        rejectReason := none }

variable (resolveMarketType : String → Option (InstrumentType × String))

def getOrder (ownerUserId : ℤ) (orderId : String) : Transaction AndroidPaperOrder := do
  let db ← Session.read
  match db.orders.get? orderId with
  | none => throw (.mobile 404 "NOT_FOUND")
  | some order =>
    if order.ownerUserId = ownerUserId then return order
    else throw (.mobile 404 "NOT_FOUND")

def fillCall (order : AndroidPaperOrder) (marketPrice quantity : Decimal) : OrderCall where
  accountId := order.paperAccountId
  symbol := order.symbol
  side := order.side.text
  orderType := order.orderType.text
  quantity := some quantity
  price := if order.orderType = .limit then some marketPrice else none
  resolvedMarketPrice := if order.orderType = .limit then none else some marketPrice
  reason := "KAsset Android PAPER"
  correlationId := some order.correlationId

/-- The trade of a fill, read back and applied. -/
def applyFill (order : AndroidPaperOrder) : Transaction AndroidPaperOrder := do
  let db ← Session.read
  match db.tradeByCorrelation order.paperAccountId order.correlationId with
  | none => throw (.mobile 500 "BROKER_ERROR")
  | some trade => applyTradeMetadata order trade

/-- What a fill does when the execution raises: a `ValueError` rejects the
order; a constraint broken by another fill is looked up again. -/
def handleUnfilled (ownerUserId : ℤ) (order : AndroidPaperOrder) :
    Failure → Transaction AndroidPaperOrder
  | .value _ => do
      let _ ← storeOrder { order with
        status := .rejected
        rejectReason := some "PAPER 주문 조건을 충족하지 못했습니다." }
      throw (.mobile 409 "BROKER_ERROR")
  | .integrity => do
      Session.rollback
      let db ← Session.read
      match db.tradeByCorrelation order.paperAccountId order.correlationId with
      | none => throw .integrity
      | some trade => do
          let current ← getOrder ownerUserId order.id
          applyTradeMetadata current trade
  | failure => throw failure

def fill (ownerUserId : ℤ) (order : AndroidPaperOrder) (marketPrice : Decimal)
    (fillQuantity : Option Decimal) : Transaction AndroidPaperOrder :=
  if order.ownerUserId ≠ ownerUserId then throw (.mobile 404 "NOT_FOUND")
  else do
    let db ← Session.read
    match db.tradeByCorrelation order.paperAccountId order.correlationId with
    | some trade => applyTradeMetadata order trade
    | none =>
      let quantity := fillQuantity.getD (ctx.sub order.quantity order.filledQuantity)
      let executed ← tryCatch
        (do
          let _ ← executeOrder resolveMarketType (fillCall order marketPrice quantity)
          return none)
        (fun failure => do
          let recovered ← handleUnfilled ownerUserId order failure
          return some recovered)
      match executed with
      | some recovered => return recovered
      | none => applyFill order

/-- An order is filled at a price it crosses, else it stays open. -/
def place (ownerUserId : ℤ) (order : AndroidPaperOrder) (marketPrice : Decimal) :
    Transaction AndroidPaperOrder :=
  if order.orderType = .market ∨ crosses order.side order.limitPrice marketPrice then
    fill resolveMarketType ownerUserId order marketPrice none
  else storeOrder { order with status := .open }

def reconcileExisting (ownerUserId : ℤ) (order : AndroidPaperOrder) (answers : Answers) :
    Transaction AndroidPaperOrder :=
  if order.ownerUserId ≠ ownerUserId then throw (.mobile 404 "NOT_FOUND")
  else if order.status = .pending then do
    let db ← Session.read
    match db.tradeByCorrelation order.paperAccountId (.order order.id) with
    | some trade => applyTradeMetadata order trade
    | none => do
        let quote ← Session.lift answers.quote
        place resolveMarketType ownerUserId order quote.price
  else return order

/-- The insertion of an order breaks a constraint when its id or its client
order id is taken. -/
def Tables.Conflicts (db : Tables) (order : AndroidPaperOrder) : Prop :=
  (db.orders.get? order.id).isSome ∨
    (db.orderOfClient order.ownerUserId order.clientOrderId).isSome

instance (db : Tables) (order : AndroidPaperOrder) : Decidable (db.Conflicts order) :=
  inferInstanceAs (Decidable (_ ∨ _))

def newOrder (ownerUserId : ℤ) (clientOrderId : String) (request : OrderRequest)
    (accountId : ℤ) (quote : Quote) (orderId : String) : AndroidPaperOrder where
  id := orderId
  ownerUserId := ownerUserId
  clientOrderId := clientOrderId
  paperAccountId := accountId
  market := quote.market
  symbol := quote.symbol
  side := request.side
  orderType := request.orderType
  quantity := request.quantity
  limitPrice := request.limitPrice
  status := .pending

/-- The part of `submit` for an order that is new and approved. -/
def submitNew (ownerUserId : ℤ) (order : AndroidPaperOrder) (answers : Answers)
    (marketPrice : Decimal) : Transaction AndroidPaperOrder := do
  let db ← Session.read
  if db.Conflicts order then do
    Session.rollback
    let db ← Session.read
    match db.orderOfClient ownerUserId order.clientOrderId with
    | none => throw .integrity
    | some existing => reconcileExisting resolveMarketType ownerUserId existing answers
  else do
    let stored ← storeOrder order
    place resolveMarketType ownerUserId stored marketPrice

def submit (ownerUserId : ℤ) (request : OrderRequest) (answers : Answers) :
    Transaction AndroidPaperOrder :=
  if request.broker ≠ "PAPER" then throw (.mobile 409 "BROKER_NOT_CONNECTED")
  else match request.clientOrderId with
  | none => throw (.mobile 422 "VALIDATION_ERROR")
  | some clientOrderId => do
    let db ← Session.read
    match db.orderOfClient ownerUserId clientOrderId with
    | some existing => reconcileExisting resolveMarketType ownerUserId existing answers
    | none => do
      let _ ← Session.lift answers.orderAllowed
      let approved ← Session.lift (assessRisk request.quantity answers)
      if approved = false then throw (.mobile 409 "RISK_REJECTED")
      else do
        let accountId ← Session.lift answers.account
        let quote ← Session.lift answers.quote
        submitNew resolveMarketType ownerUserId
          (newOrder ownerUserId clientOrderId request accountId quote answers.orderId)
          answers quote.price

def cancel (ownerUserId : ℤ) (orderId : String) : Transaction AndroidPaperOrder := do
  let order ← getOrder ownerUserId orderId
  if order.Working then storeOrder { order with status := .cancelled }
  else throw (.mobile 409 "ORDER_STATE_CONFLICT")

/-- The part of `amend` after its checks, on the amended order. -/
def applyAmendment (ownerUserId : ℤ) (order : AndroidPaperOrder) (quote : Quote) :
    Transaction AndroidPaperOrder :=
  if crosses order.side order.limitPrice quote.price then
    let remaining := ctx.sub order.quantity order.filledQuantity
    if remaining = 0 then storeOrder { order with status := .filled }
    else do
      saveOrder order
      Session.commit
      fill resolveMarketType ownerUserId order quote.price (some remaining)
  else storeOrder order

def amend (ownerUserId : ℤ) (orderId : String) (amendment : AmendRequest)
    (answers : Answers) : Transaction AndroidPaperOrder := do
  let order ← getOrder ownerUserId orderId
  if order.orderType ≠ .limit ∨ ¬ order.Working then
    throw (.mobile 409 "ORDER_STATE_CONFLICT")
  else
    let quantity := amendment.quantity.getD order.quantity
    if quantity < order.filledQuantity then throw (.mobile 409 "ORDER_STATE_CONFLICT")
    else match amendment.limitPrice <|> order.limitPrice with
    | none => throw (.mobile 422 "VALIDATION_ERROR")
    | some limitPrice => do
      let _ ← Session.lift answers.account
      let _ ← Session.lift answers.orderAllowed
      let approved ← Session.lift (assessRisk quantity answers)
      if approved = false then throw (.mobile 409 "RISK_REJECTED")
      else do
        let quote ← Session.lift answers.quote
        applyAmendment resolveMarketType ownerUserId
          { order with quantity, limitPrice := some limitPrice } quote

/-- `reconcile` of an order its caller has read. -/
def reconcile (ownerUserId : ℤ) (orderId : String) (answers : Answers) :
    Transaction AndroidPaperOrder := do
  let order ← getOrder ownerUserId orderId
  reconcileExisting resolveMarketType ownerUserId order answers

end KAssetTrader.Paper
