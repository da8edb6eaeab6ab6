import KAssetTrader.Position.State

/-!
The ATR-risk sizer. A request is checked field by field, and every failed check
is a reason for a zero quantity; a request without reasons is capped five ways
and rounded down to the lot of its market. Decimals are finite, and actions,
markets and regimes are enumerations, so the checks of these are the types.
-/

namespace KAssetTrader.Sizing

open Position

inductive MarketRegime where
  | bull
  | bear
  | sideways
  | volatile
  deriving DecidableEq

def MarketRegime.name : MarketRegime → String
  | .bull => "BULL"
  | .bear => "BEAR"
  | .sideways => "SIDEWAYS"
  | .volatile => "VOLATILE"

inductive SizingAction where
  | buy
  | sell

inductive PositionSizingZeroCode where
  | invalidPrice
  | invalidPriceTimestamp
  | futurePrice
  | stalePrice
  | missingStop
  | invalidStop
  | invertedStop
  | missingAtr
  | nonpositiveAtr
  | regimeBlocked
  | invalidRiskPolicy
  | zeroRiskBudget
  | zeroBudget
  | invalidPortfolioState
  | zeroSymbolAllocation
  | missingLiquidity
  | invalidLiquidity
  | invalidSellQuantity
  | zeroHolding
  | belowMarketLot

def PositionSizingZeroCode.text : PositionSizingZeroCode → String
  | .invalidPrice => "INVALID_PRICE"
  | .invalidPriceTimestamp => "INVALID_PRICE_TIMESTAMP"
  | .futurePrice => "FUTURE_PRICE"
  | .stalePrice => "STALE_PRICE"
  | .missingStop => "MISSING_STOP"
  | .invalidStop => "INVALID_STOP"
  | .invertedStop => "INVERTED_STOP"
  | .missingAtr => "MISSING_ATR"
  | .nonpositiveAtr => "NONPOSITIVE_ATR"
  | .regimeBlocked => "REGIME_BLOCKED"
  | .invalidRiskPolicy => "INVALID_RISK_POLICY"
  | .zeroRiskBudget => "ZERO_RISK_BUDGET"
  | .zeroBudget => "ZERO_BUDGET"
  | .invalidPortfolioState => "INVALID_PORTFOLIO_STATE"
  | .zeroSymbolAllocation => "ZERO_SYMBOL_ALLOCATION"
  | .missingLiquidity => "MISSING_LIQUIDITY"
  | .invalidLiquidity => "INVALID_LIQUIDITY"
  | .invalidSellQuantity => "INVALID_SELL_QUANTITY"
  | .zeroHolding => "ZERO_HOLDING"
  | .belowMarketLot => "BELOW_MARKET_LOT"

inductive PositionSizeCapCode where
  | riskBudget
  | symbolAllocation
  | ownerBudget
  | averageVolume
  | averageTurnover
  | paperHolding
  | strategySell

/-- `PositionSizingConfig`; the last fields are the checks of its constructor. -/
structure PositionSizingConfig where
  maxPriceAgeSessions : ℤ := 3
  krxLotSize : Decimal := 1
  usLotSize : Decimal := 1 / 10000
  maxAverageVolumeParticipation : Decimal := 1 / 100
  maxAverageTurnoverParticipation : Decimal := 1 / 100
  bullRiskMultiplier : Decimal := 1
  bearRiskMultiplier : Decimal := 0
  sidewaysRiskMultiplier : Decimal := 3 / 4
  volatileRiskMultiplier : Decimal := 1 / 2
  sessions_positive : 1 ≤ maxPriceAgeSessions := by norm_num
  lots_positive : 0 < krxLotSize ∧ 0 < usLotSize := by norm_num
  participation_bounded : (0 < maxAverageVolumeParticipation ∧ maxAverageVolumeParticipation ≤ 1) ∧
    0 < maxAverageTurnoverParticipation ∧ maxAverageTurnoverParticipation ≤ 1 := by norm_num
  multipliers_nonneg : 0 ≤ bullRiskMultiplier ∧ 0 ≤ bearRiskMultiplier ∧
    0 ≤ sidewaysRiskMultiplier ∧ 0 ≤ volatileRiskMultiplier := by norm_num

instance : Inhabited PositionSizingConfig := ⟨{}⟩

namespace PositionSizingConfig

variable (config : PositionSizingConfig)

def lotSize : Market → Decimal
  | .krx => config.krxLotSize
  | .us => config.usLotSize

def regimeMultiplier : MarketRegime → Decimal
  | .bull => config.bullRiskMultiplier
  | .bear => config.bearRiskMultiplier
  | .volatile => config.volatileRiskMultiplier
  | .sideways => config.sidewaysRiskMultiplier

theorem lotSize_pos (market : Market) : 0 < config.lotSize market := by
  cases market with
  | krx => exact config.lots_positive.1
  | us => exact config.lots_positive.2

end PositionSizingConfig

/-- `PositionSizingInput`; the last field is the check of its constructor. -/
structure PositionSizingInput where
  action : SizingAction
  market : Market
  entryPrice : Decimal
  priceAsOf : Option Instant
  evaluatedAt : Option Instant
  operatingBudget : Decimal := 0
  budgetUsed : Decimal := 0
  maxSymbolAllocation : Decimal := 0
  currentSymbolInvested : Decimal := 0
  currentHoldingQuantity : Decimal := 0
  riskPerTradeRate : Decimal := 0
  regime : MarketRegime := .sideways
  strategyStop : Option Decimal := none
  strategyAtr : Option Decimal := none
  strategyQuantity : Option Decimal := none
  averageVolume : Option Decimal := none
  averageTurnover : Option Decimal := none
  accountStateMultiplier : Decimal := 1
  multiplier_between : 0 ≤ accountStateMultiplier ∧ accountStateMultiplier ≤ 1 := by norm_num

structure PositionSizingReason where
  code : PositionSizingZeroCode
  field : String
  detail : String

structure PositionSizeCap where
  code : PositionSizeCapCode
  quantity : Decimal

structure PositionSizingResult where
  action : SizingAction
  market : Market
  quantity : Decimal := 0
  unroundedQuantity : Decimal := 0
  lotSize : Decimal
  riskBudget : Decimal := 0
  riskPerUnit : Decimal := 0
  riskPerTradeRate : Decimal := 0
  regime : Option String := none
  regimeMultiplier : Decimal := 0
  caps : List PositionSizeCap := []
  limitingCaps : List PositionSizeCapCode := []
  zeroReasons : List PositionSizingReason
  entryPrice : Option Decimal := none
  strategyStop : Option Decimal := none
  strategyAtr : Option Decimal := none
  accountStateMultiplier : Decimal := 1

def PositionSizingResult.actionable (result : PositionSizingResult) : Bool :=
  0 < result.quantity && result.zeroReasons.isEmpty

section Reasons

def reasonWhen (failed : Bool) (code : PositionSizingZeroCode) (field detail : String) :
    List PositionSizingReason :=
  if failed then [⟨code, field, detail⟩] else []

variable (sessionsOpenedSince : Market → Instant → Instant → Option ℤ)
  (config : PositionSizingConfig) (request : PositionSizingInput)

/-- `_stale_price_reason`; `sessionsOpenedSince` counts the regular sessions of
the exchange calendar, `none` when it cannot confirm the session of the price. -/
def stalePriceReason (priceTime evaluationTime : Instant) : List PositionSizingReason :=
  match sessionsOpenedSince request.market priceTime evaluationTime with
  | none => [⟨.stalePrice, "price_as_of", "trading calendar could not confirm the price session"⟩]
  | some elapsed =>
    reasonWhen (config.maxPriceAgeSessions < elapsed) .stalePrice "price_as_of"
      ("price is " ++ toString elapsed ++ " regular sessions old; limit " ++
        toString config.maxPriceAgeSessions)

def baseReasons : List PositionSizingReason :=
  reasonWhen (request.entryPrice ≤ 0) .invalidPrice "entry_price"
      "entry price must be a positive finite Decimal" ++
    match request.priceAsOf, request.evaluatedAt with
    | some priceTime, some evaluationTime =>
      if evaluationTime < priceTime then
        [⟨.futurePrice, "price_as_of", "price timestamp is later than evaluation time"⟩]
      else stalePriceReason sessionsOpenedSince config request priceTime evaluationTime
    | _, _ =>
      [⟨.invalidPriceTimestamp, "price_as_of",
        "price_as_of and evaluated_at must be timezone-aware datetimes"⟩]

/-- The check of `average_volume` and of `average_turnover`. -/
def liquidityReasons (field : String) : Option Decimal → List PositionSizingReason
  | none =>
    [⟨.missingLiquidity, field, field ++ " is required to enforce participation ceilings"⟩]
  | some value =>
    reasonWhen (value ≤ 0) .invalidLiquidity field
      (field ++ " must be a positive finite Decimal")

def stopReasons : List PositionSizingReason :=
  match request.strategyStop with
  | none =>
    [⟨.missingStop, "strategy_stop", "deterministic strategy stop is required for BUY"⟩]
  | some stop =>
    if stop ≤ 0 then
      [⟨.invalidStop, "strategy_stop", "strategy stop must be a positive finite Decimal"⟩]
    else reasonWhen (request.entryPrice ≤ stop) .invertedStop "strategy_stop"
      "BUY stop must be below entry price"

def atrReasons : List PositionSizingReason :=
  match request.strategyAtr with
  | none => [⟨.missingAtr, "strategy_atr", "deterministic strategy ATR is required for BUY"⟩]
  | some atr =>
    reasonWhen (atr ≤ 0) .nonpositiveAtr "strategy_atr"
      "strategy ATR must be a positive finite Decimal"

def buyReasons : List PositionSizingReason :=
  stopReasons request ++ atrReasons request ++
    reasonWhen (request.operatingBudget ≤ 0) .zeroBudget "operating_budget"
      "operating budget must be positive" ++
    reasonWhen (request.budgetUsed < 0) .invalidPortfolioState "budget_used"
      "budget used must be a nonnegative finite Decimal" ++
    (if request.maxSymbolAllocation < 0 ∨ 1 < request.maxSymbolAllocation then
      [⟨.invalidRiskPolicy, "max_symbol_allocation",
        "symbol allocation must be a finite Decimal between 0 and 1"⟩]
    else reasonWhen (request.maxSymbolAllocation = 0) .zeroSymbolAllocation
      "max_symbol_allocation" "symbol allocation is zero") ++
    reasonWhen (request.currentSymbolInvested < 0) .invalidPortfolioState
      "current_symbol_invested"
      "current symbol investment must be a nonnegative finite Decimal" ++
    reasonWhen (request.riskPerTradeRate ≤ 0 ∨ 1 < request.riskPerTradeRate) .invalidRiskPolicy
      "risk_per_trade_rate" "risk per trade rate must be a finite Decimal between 0 and 1" ++
    reasonWhen (config.regimeMultiplier request.regime = 0) .regimeBlocked "regime"
      "new BUY positions are blocked by the regime risk policy" ++
    liquidityReasons "average_volume" request.averageVolume ++
    liquidityReasons "average_turnover" request.averageTurnover

def sellReasons : List PositionSizingReason :=
  reasonWhen (request.currentHoldingQuantity ≤ 0) .zeroHolding "current_holding_quantity"
      "there is no positive PAPER holding to sell" ++
    match request.strategyQuantity with
    | none => []
    | some requested =>
      reasonWhen (requested ≤ 0) .invalidSellQuantity "strategy_quantity"
        "strategy SELL quantity must be positive"

end Reasons

variable (ctx : Decimal.Context) (config : PositionSizingConfig) (request : PositionSizingInput)

/-- `_round_to_lot`, and `_round_down` of the backtest. -/
def roundToLot (quantity lotSize : Decimal) : Decimal :=
  ctx.mul (Decimal.truncate (ctx.div quantity lotSize)) lotSize

def smallestCap (caps : List PositionSizeCap) : Decimal :=
  ((caps.map (·.quantity)).min?).getD 0

def limiting (caps : List PositionSizeCap) (quantity : Decimal) : List PositionSizeCapCode :=
  (caps.filter (·.quantity = quantity)).map (·.code)

/-- `_calculate_buy`; a request without reasons has its stop and its averages. -/
def calculateBuy (stop averageVolume averageTurnover : Decimal) : PositionSizingResult :=
  let entry := request.entryPrice
  let multiplier := config.regimeMultiplier request.regime
  let riskPerUnit := ctx.sub entry stop
  let riskBudget := ctx.mul (ctx.mul request.operatingBudget request.riskPerTradeRate) multiplier
  let remainingSymbol := max 0 (ctx.sub
    (ctx.mul request.operatingBudget request.maxSymbolAllocation) request.currentSymbolInvested)
  let remainingOwner := max 0 (ctx.sub request.operatingBudget request.budgetUsed)
  let caps : List PositionSizeCap :=
    [⟨.riskBudget, ctx.div riskBudget riskPerUnit⟩,
     ⟨.symbolAllocation, ctx.div remainingSymbol entry⟩,
     ⟨.ownerBudget, ctx.div remainingOwner entry⟩,
     ⟨.averageVolume, ctx.mul averageVolume config.maxAverageVolumeParticipation⟩,
     ⟨.averageTurnover,
      ctx.div (ctx.mul averageTurnover config.maxAverageTurnoverParticipation) entry⟩]
  let baseUnrounded := smallestCap caps
  let unrounded := ctx.mul baseUnrounded request.accountStateMultiplier
  let result : PositionSizingResult :=
    { action := .buy
      market := request.market
      unroundedQuantity := unrounded
      lotSize := config.lotSize request.market
      riskBudget, riskPerUnit
      riskPerTradeRate := request.riskPerTradeRate
      regime := some request.regime.name
      regimeMultiplier := multiplier
      caps
      limitingCaps := limiting caps unrounded
      zeroReasons := []
      accountStateMultiplier := request.accountStateMultiplier }
  if riskBudget ≤ 0 then
    { result with zeroReasons := [⟨.zeroRiskBudget, "risk_budget", "risk budget is zero"⟩] }
  else if remainingOwner ≤ 0 then
    { result with zeroReasons :=
        [⟨.zeroBudget, "budget_used", "owner operating budget is fully used"⟩] }
  else if remainingSymbol ≤ 0 then
    { result with zeroReasons :=
        [⟨.zeroSymbolAllocation, "current_symbol_invested",
          "symbol allocation is fully used"⟩] }
  else
    let quantity := roundToLot ctx unrounded (config.lotSize request.market)
    let sized : PositionSizingResult :=
      { result with
        limitingCaps := limiting caps baseUnrounded
        entryPrice := some entry
        strategyStop := some stop
        strategyAtr := request.strategyAtr }
    if quantity ≤ 0 then
      { sized with zeroReasons :=
          [⟨.belowMarketLot, "quantity", "capped quantity is below the market lot size"⟩] }
    else { sized with quantity }

/-- `_calculate_sell`; a requested quantity of zero does not count. -/
def calculateSell : PositionSizingResult :=
  let requested := (request.strategyQuantity.filter (· ≠ 0)).getD request.currentHoldingQuantity
  let caps : List PositionSizeCap :=
    [⟨.paperHolding, request.currentHoldingQuantity⟩, ⟨.strategySell, requested⟩]
  let unrounded := smallestCap caps
  let quantity := roundToLot ctx unrounded (config.lotSize request.market)
  let result : PositionSizingResult :=
    { action := .sell
      market := request.market
      unroundedQuantity := unrounded
      lotSize := config.lotSize request.market
      caps
      limitingCaps := limiting caps unrounded
      zeroReasons := []
      entryPrice := some request.entryPrice }
  if quantity ≤ 0 then
    { result with zeroReasons :=
        [⟨.belowMarketLot, "quantity", "capped quantity is below the market lot size"⟩] }
  else { result with quantity }

/-- `_zero_result` of a request that has failed a check. -/
def zeroResult (reasons : List PositionSizingReason) : PositionSizingResult where
  action := request.action
  market := request.market
  lotSize := config.lotSize request.market
  riskPerTradeRate := request.riskPerTradeRate
  regime := some request.regime.name
  regimeMultiplier := config.regimeMultiplier request.regime
  zeroReasons := reasons
  entryPrice := some request.entryPrice
  strategyStop := request.strategyStop
  strategyAtr := request.strategyAtr
  accountStateMultiplier := request.accountStateMultiplier

def calculatePositionSize (sessionsOpenedSince : Market → Instant → Instant → Option ℤ) :
    PositionSizingResult :=
  let reasons := baseReasons sessionsOpenedSince config request ++
    match request.action with
    | .buy => buyReasons config request
    | .sell => sellReasons request
  if reasons ≠ [] then zeroResult config request reasons
  else match request.action with
    | .sell => calculateSell ctx config request
    | .buy => calculateBuy ctx config request (request.strategyStop.getD 0)
        (request.averageVolume.getD 0) (request.averageTurnover.getD 0)

theorem calculatePositionSize_lotSize
    (sessionsOpenedSince : Market → Instant → Instant → Option ℤ) :
    (calculatePositionSize ctx config request sessionsOpenedSince).lotSize =
      config.lotSize request.market := by
  unfold calculatePositionSize calculateBuy calculateSell zeroResult
  simp only
  repeat' split
  all_goals rfl

end KAssetTrader.Sizing
