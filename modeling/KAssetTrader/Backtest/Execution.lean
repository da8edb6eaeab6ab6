import KAssetTrader.Backtest.Decisions
import KAssetTrader.Position.Evaluate

/-!
The state of a backtest and the execution of its pending orders. Trades are
kept before the rounding of their record, and every execution of an entry is
kept as well, so that the books of a run can be stated without the rounding.
-/

namespace KAssetTrader.Backtest

open Position Sizing

inductive SignalStatus where
  | pending
  | executed
  | skipped
  | unfilledEndOfData
  deriving DecidableEq

structure PortfolioSignal where
  key : CandidateKey
  action : SignalAction
  signalAt : Instant
  observedBarCount : ℕ
  rankPosition : Option ℤ
  reason : String
  regime : Option MarketRegime := none
  status : SignalStatus := .pending
  executionAt : Option Instant := none
  referenceOpen : Option Decimal := none
  fillPrice : Option Decimal := none
  fee : Decimal := 0
  deriving DecidableEq

/-- `_OpenPrice`: the price that an order can be executed at. -/
structure OpenPrice where
  timestamp : Instant
  price : Decimal
  observedBarCount : ℕ

structure PendingEntry where
  key : CandidateKey
  signalIndex : ℕ
  stop : Decimal
  atr : Decimal
  regime : MarketRegime
  averageVolume : Option Decimal
  averageTurnover : Option Decimal
  rankPosition : ℤ

structure PendingExit where
  key : CandidateKey
  signalIndex : ℕ
  quantityFraction : Decimal
  reason : ExitKind

/-- `_Position`. -/
structure PortfolioPosition where
  entrySignalAt : Instant
  entryAt : Instant
  entryPrice : Decimal
  quantity : Decimal
  entryFeeRemaining : Decimal
  entrySlippageRemaining : Decimal
  managerState : ManagedPositionState
  barsHeld : ℤ
  lastClose : Decimal

structure EntryFill where
  key : CandidateKey
  signalIndex : ℕ
  entryAt : Instant
  price : Decimal
  quantity : Decimal
  fee : Decimal
  slippage : Decimal

/-- The execution of an exit, before its record is rounded. -/
structure ExitFill where
  key : CandidateKey
  entrySignalAt : Instant
  entryAt : Instant
  exitSignalAt : Instant
  exitAt : Instant
  entryPrice : Decimal
  exitPrice : Decimal
  quantity : Decimal
  grossPnl : Decimal
  entryFee : Decimal
  exitFee : Decimal
  exitTax : Decimal
  entrySlippage : Decimal
  exitSlippage : Decimal
  netPnl : Decimal
  exitReason : ExitKind

structure PortfolioTrade where
  key : CandidateKey
  entrySignalAt : Instant
  entryAt : Instant
  exitSignalAt : Instant
  exitAt : Instant
  entryPrice : Decimal
  exitPrice : Decimal
  quantity : Decimal
  grossPnl : Decimal
  entryFee : Decimal
  exitFee : Decimal
  slippageCost : Decimal
  netPnl : Decimal
  exitReason : ExitKind

structure EquityPoint where
  timestamp : Instant
  cash : Decimal
  marketValue : Decimal
  equity : Decimal
  drawdown : Decimal
  deriving DecidableEq

/-- `_RunState`; `exits` are its trades before they are rounded. -/
structure RunState where
  cash : Decimal
  positions : Dict CandidateKey PortfolioPosition := .empty
  pendingEntries : Dict CandidateKey PendingEntry := .empty
  pendingExits : Dict CandidateKey PendingExit := .empty
  signals : List PortfolioSignal := []
  entries : List EntryFill := []
  exits : List ExitFill := []
  equityCurve : List EquityPoint := []
  feesPaid : Decimal := 0
  slippageCost : Decimal := 0
  taxesPaid : Decimal := 0
  peakEquity : Decimal

def q (value : Decimal) : Decimal := Decimal.quantize 8 value

def ExitFill.trade (ctx : Decimal.Context) (fill : ExitFill) : PortfolioTrade where
  key := fill.key
  entrySignalAt := fill.entrySignalAt
  entryAt := fill.entryAt
  exitSignalAt := fill.exitSignalAt
  exitAt := fill.exitAt
  entryPrice := q fill.entryPrice
  exitPrice := q fill.exitPrice
  quantity := q fill.quantity
  grossPnl := q fill.grossPnl
  entryFee := q fill.entryFee
  exitFee := q fill.exitFee
  slippageCost := q (ctx.add fill.entrySlippage fill.exitSlippage)
  netPnl := q fill.netPnl
  exitReason := fill.exitReason

def RunState.trades (ctx : Decimal.Context) (s : RunState) : List PortfolioTrade :=
  s.exits.map (·.trade ctx)

def PortfolioSignal.skip (signal : PortfolioSignal) (reference : OpenPrice) (reason : String) :
    PortfolioSignal :=
  { signal with
    status := .skipped
    executionAt := some reference.timestamp
    referenceOpen := some (q reference.price)
    reason }

def PortfolioSignal.execute (signal : PortfolioSignal) (reference : OpenPrice)
    (fillPrice fee : Decimal) : PortfolioSignal :=
  { signal with
    status := .executed
    executionAt := some reference.timestamp
    referenceOpen := some (q reference.price)
    fillPrice := some (q fillPrice)
    fee := q fee }

def RunState.resolveEntry (s : RunState) (order : PendingEntry) (signal : PortfolioSignal) :
    RunState :=
  { s with
    pendingEntries := s.pendingEntries.erase order.key
    signals := s.signals.set order.signalIndex signal }

def RunState.resolveExit (s : RunState) (order : PendingExit) (signal : PortfolioSignal) :
    RunState :=
  { s with
    pendingExits := s.pendingExits.erase order.key
    signals := s.signals.set order.signalIndex signal }

variable (engine : Engine) (config : PortfolioBacktestConfig)

def executionIsDue (reference : OpenPrice) (signal : PortfolioSignal) : Bool :=
  match config.entryFill with
  | .signalClose =>
    reference.timestamp = signal.signalAt &&
      signal.observedBarCount ≤ reference.observedBarCount
  | .nextOpen =>
    signal.signalAt < reference.timestamp &&
      signal.observedBarCount + config.executionDelayBars - 1 ≤ reference.observedBarCount

/-- The order of a key and a signal can be executed at the prices of the day.
The signal of a pending order always exists. -/
def isDue (opens : List (CandidateKey × OpenPrice)) (signals : List PortfolioSignal)
    (key : CandidateKey) (signalIndex : ℕ) : Bool :=
  (opens.lookup key).any fun reference =>
    signals[signalIndex]?.any (executionIsDue config reference)

def dueEntries (opens : List (CandidateKey × OpenPrice)) (s : RunState) : List PendingEntry :=
  ((s.pendingEntries.entries.filter fun e =>
      isDue config opens s.signals e.1 e.2.signalIndex).map Prod.snd).insertionSort fun a b =>
    a.rankPosition < b.rankPosition ∨ (a.rankPosition = b.rankPosition ∧ a.key.le b.key)

def dueExits (opens : List (CandidateKey × OpenPrice)) (s : RunState) : List PendingExit :=
  ((s.pendingExits.entries.filter fun e =>
      isDue config opens s.signals e.1 e.2.signalIndex).map Prod.snd).insertionSort fun a b =>
    a.key.le b.key

def entrySizing (s : RunState) (order : PendingEntry) (reference : OpenPrice)
    (fillPrice : Decimal) : PositionSizingResult :=
  let budgetUsed := engine.ctx.sum (s.positions.values.map fun position =>
    engine.ctx.mul position.entryPrice position.quantity)
  calculatePositionSize engine.ctx config.positionSizing
    { action := .buy
      market := executionMarket order.key.market
      entryPrice := fillPrice
      priceAsOf := some reference.timestamp
      evaluatedAt := some reference.timestamp
      operatingBudget := config.initialCash
      budgetUsed
      maxSymbolAllocation := config.maxSymbolAllocation
      riskPerTradeRate := config.riskPerTradeRate
      regime := order.regime
      strategyStop := some order.stop
      strategyAtr := some order.atr
      averageVolume := order.averageVolume
      averageTurnover := order.averageTurnover }
    engine.sessionsOpenedSince

def affordableQuantity (cost : MarketExecutionCost) (cash fillPrice : Decimal) : Decimal :=
  let ctx := engine.ctx
  if cost.minFeeAbsolute = 0 then ctx.div cash (ctx.mul fillPrice (ctx.add 1 cost.feeRate))
  else ctx.div (min (ctx.div cash (ctx.add 1 cost.feeRate))
    (max (ctx.sub cash cost.minFeeAbsolute) 0)) fillPrice

def feeOn (cost : MarketExecutionCost) (notional : Decimal) : Decimal :=
  max (engine.ctx.mul notional cost.feeRate) cost.minFeeAbsolute

def fillEntry (s : RunState) (order : PendingEntry) (signal : PortfolioSignal)
    (reference : OpenPrice) (fillPrice quantity : Decimal) (managerState : ManagedPositionState) :
    RunState :=
  let ctx := engine.ctx
  let cost := config.costFor order.key.market
  let notional := ctx.mul fillPrice quantity
  let fee := feeOn engine cost notional
  let slippage :=
    ctx.mul (ctx.mul reference.price (config.slippageRate order.key.market)) quantity
  { s.resolveEntry order (signal.execute reference fillPrice fee) with
    cash := ctx.sub s.cash (ctx.add notional fee)
    feesPaid := ctx.add s.feesPaid fee
    slippageCost := ctx.add s.slippageCost slippage
    positions := s.positions.set order.key
      { entrySignalAt := signal.signalAt
        entryAt := reference.timestamp
        entryPrice := fillPrice
        quantity
        entryFeeRemaining := fee
        entrySlippageRemaining := slippage
        managerState
        barsHeld := 0
        lastClose := reference.price }
    entries := s.entries ++
      [{ key := order.key, signalIndex := order.signalIndex, entryAt := reference.timestamp
         price := fillPrice, quantity, fee, slippage }] }

/-- `_execute_pending_entries`, for one order that is due. -/
def executeEntry (opens : List (CandidateKey × OpenPrice)) (s : RunState) (order : PendingEntry) :
    Except String RunState :=
  match opens.lookup order.key, s.signals[order.signalIndex]? with
  | some reference, some signal =>
    let ctx := engine.ctx
    let market := order.key.market
    let cost := config.costFor market
    let skipped (reason : String) := s.resolveEntry order (signal.skip reference reason)
    if config.maxPositions ≤ s.positions.size then .ok (skipped "max_positions_reached")
    else
      let fillPrice := ctx.mul reference.price (ctx.add 1 (config.slippageRate market))
      let sizing := entrySizing engine config s order reference fillPrice
      if ¬ sizing.actionable then
        .ok (skipped ("position_sizing:" ++
          ",".intercalate (sizing.zeroReasons.map (·.code.text))))
      else
        let affordable := affordableQuantity engine cost s.cash fillPrice
        let quantity := roundToLot ctx (min sizing.quantity affordable) sizing.lotSize
        if quantity ≤ 0 then .ok (skipped "insufficient_cash_after_costs")
        else match initializePosition ctx config.positionManager (executionMarket market)
            order.key.symbol fillPrice order.atr reference.timestamp config.strategyVersion
            none none none with
          | .error _ => .ok (skipped "position_manager:ValueError")
          | .ok managerState =>
            .ok (fillEntry engine config s order signal reference fillPrice quantity
              managerState)
  | _, _ => .error "KeyError"

def exitQuantity (order : PendingExit) (position : PortfolioPosition) : Decimal :=
  if 1 ≤ order.quantityFraction then position.quantity
  else roundToLot engine.ctx (engine.ctx.mul position.quantity order.quantityFraction)
    (config.positionSizing.lotSize (executionMarket order.key.market))

def fillExit (s : RunState) (order : PendingExit) (signal : PortfolioSignal)
    (reference : OpenPrice) (position : PortfolioPosition) (quantity : Decimal) : RunState :=
  let ctx := engine.ctx
  let cost := config.costFor order.key.market
  let slippageRate := config.slippageRate order.key.market
  let fillPrice := ctx.mul reference.price (ctx.sub 1 slippageRate)
  let exitNotional := ctx.mul fillPrice quantity
  let exitFee := feeOn engine cost exitNotional
  let exitTax := ctx.mul exitNotional cost.sellTaxRate
  let ratio := ctx.div quantity position.quantity
  let entryFee := if quantity = position.quantity then position.entryFeeRemaining
    else ctx.mul position.entryFeeRemaining ratio
  let entrySlippage := if quantity = position.quantity then position.entrySlippageRemaining
    else ctx.mul position.entrySlippageRemaining ratio
  let exitSlippage := ctx.mul (ctx.mul reference.price slippageRate) quantity
  let grossPnl := ctx.mul (ctx.sub fillPrice position.entryPrice) quantity
  let netPnl := ctx.sub (ctx.sub (ctx.sub grossPnl entryFee) exitFee) exitTax
  let remaining := ctx.sub position.quantity quantity
  { s.resolveExit order (signal.execute reference fillPrice exitFee) with
    cash := ctx.add s.cash (ctx.sub (ctx.sub exitNotional exitFee) exitTax)
    feesPaid := ctx.add s.feesPaid exitFee
    taxesPaid := ctx.add s.taxesPaid exitTax
    slippageCost := ctx.add s.slippageCost exitSlippage
    exits := s.exits ++
      [{ key := order.key
         entrySignalAt := position.entrySignalAt
         entryAt := position.entryAt
         exitSignalAt := signal.signalAt
         exitAt := reference.timestamp
         entryPrice := position.entryPrice
         exitPrice := fillPrice
         quantity, grossPnl, entryFee, exitFee, exitTax, entrySlippage, exitSlippage, netPnl
         exitReason := order.reason }]
    positions :=
      if remaining ≤ 0 then s.positions.erase order.key
      else s.positions.modify order.key fun position => { position with
        quantity := remaining
        entryFeeRemaining := ctx.sub position.entryFeeRemaining entryFee
        entrySlippageRemaining := ctx.sub position.entrySlippageRemaining entrySlippage } }

/-- `_execute_pending_exits`, for one order that is due. -/
def executeExit (opens : List (CandidateKey × OpenPrice)) (s : RunState) (order : PendingExit) :
    Except String RunState :=
  match opens.lookup order.key, s.signals[order.signalIndex]? with
  | some reference, some signal =>
    let skipped (reason : String) := s.resolveExit order (signal.skip reference reason)
    match s.positions.get? order.key with
    | none => .ok (skipped "position_already_closed")
    | some position =>
      let quantity := exitQuantity engine config order position
      if quantity ≤ 0 then .ok (skipped "partial_exit_below_market_lot")
      else .ok (fillExit engine config s order signal reference position quantity)
  | _, _ => .error "KeyError"

def recordEquity (s : RunState) (timestamp : Instant) : RunState :=
  let ctx := engine.ctx
  let marketValue := ctx.sum (s.positions.values.map fun position =>
    ctx.mul position.quantity position.lastClose)
  let equity := ctx.add s.cash marketValue
  let peakEquity := max s.peakEquity equity
  let drawdown := if 0 < peakEquity then ctx.div (ctx.sub peakEquity equity) peakEquity else 0
  { s with
    peakEquity
    equityCurve := s.equityCurve ++
      [{ timestamp, cash := q s.cash, marketValue := q marketValue, equity := q equity
         drawdown := q drawdown }] }

end KAssetTrader.Backtest
