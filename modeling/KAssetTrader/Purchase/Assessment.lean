import KAssetTrader.Issuer.HardRisk
import KAssetTrader.Library.Precision
import KAssetTrader.Paper.Recovery

/-!
The assessment of an automatic paper order: the preview of the facade, the hard risk policy,
and the fit of a purchase that fails for its budget alone. What the two read (the quote, the
account, the settings, the snapshot of the policy) is given for each attempt, since the
fitted order is judged on reads of its own.
-/

namespace KAssetTrader.Purchase

open Decimal Paper Issuer
open Watermark (AccountStateEvaluation)

/-- `OrderRequest` of a market order, as the consumer builds it. -/
structure MarketOrderRequest extends Paper.OrderRequest where
  market : String
  symbol : String

/-- `model_copy(update={"quantity": quantity})`. -/
def MarketOrderRequest.withQuantity (request : MarketOrderRequest) (quantity : Decimal)
    (hpos : 0 < quantity) : MarketOrderRequest :=
  { request with
    quantity := quantity
    quantity_pos := hpos }

def marketCurrency (market : String) : Currency := if market = "US" then .usd else .krw

/-- `quote_for_market`, once the price is known. -/
def quoteForMarket (market symbol : String) (price : Decimal) : Quote :=
  { market, symbol, currency := marketCurrency market, price }

def marketLot (market : String) : Decimal := if market = "US" then 1 / 10000 else 1

theorem marketLot_pos (market : String) : 0 < marketLot market := by
  unfold marketLot
  split <;> norm_num

theorem executionQuantityLot_quoted (market symbol : String) (price : Decimal) :
    executionQuantityLot (quotedInstrumentType (quoteForMarket market symbol price)) =
      marketLot market := by
  unfold marketLot
  split
  next hmarket => simp [quoteForMarket, marketCurrency, hmarket, quotedInstrumentType,
    executionQuantityLot]
  next hmarket => simp [quoteForMarket, marketCurrency, hmarket, quotedInstrumentType,
    executionQuantityLot]

structure RiskReason where
  code : String
  message : String

/-- What the facade and the consumer read of a `RiskAssessment`. -/
structure RiskAssessment where
  reasons : List RiskReason
  referencePrice : Option Decimal

/-- A position of the account in the instruments of the quoted currency. -/
structure HeldPosition where
  symbol : String
  quantity : Decimal
  avgPrice : Decimal

/-- What `preview` reads: the price of the quote, the settings of the server and of the
owner, and the account. -/
structure PreviewReads where
  price : Decimal
  tradingEnabled : Bool := true
  killSwitchEnabled : Bool := false
  maxOrderRatio : Decimal := 1
  maxSymbolRatio : Decimal := 1
  cash : Decimal
  positions : List HeldPosition := []

section Preview

variable (ctx : Context)

def costBasis (positions : List HeldPosition) : Decimal :=
  ctx.sum (positions.map fun position => ctx.mul position.quantity position.avgPrice)

def symbolRatioReasons (request : MarketOrderRequest) (reads : PreviewReads)
    (amount fee : Decimal) : List RiskReason :=
  if 1 ≤ reads.maxSymbolRatio then []
  else
    let symbolBasis := costBasis ctx (reads.positions.filter (·.symbol = request.symbol))
    let projectedSymbol := ctx.add symbolBasis amount
    let projectedAssets :=
      ctx.sub (ctx.add (costBasis ctx reads.positions) reads.cash) fee
    if 0 < projectedAssets ∧ ctx.mul projectedAssets reads.maxSymbolRatio < projectedSymbol then
      [⟨"MAX_SYMBOL_RATIO",
        "주문 후 해당 종목 원가가 같은 통화 PAPER 자산의 비중 한도를 초과했습니다."⟩]
    else []

def buyReasons (request : MarketOrderRequest) (reads : PreviewReads) (amount fee : Decimal) :
    List RiskReason :=
  (if reads.cash < ctx.add amount fee then
    [⟨"INSUFFICIENT_CASH", "주문 가능 금액이 부족합니다."⟩] else []) ++
  (if reads.maxOrderRatio < 1 ∧ 0 < reads.cash ∧
      ctx.mul reads.cash reads.maxOrderRatio < amount then
    [⟨"MAX_ORDER_RATIO", "한 주문 금액이 주문가능 현금 비율 한도를 초과했습니다."⟩] else []) ++
  symbolRatioReasons ctx request reads amount fee

/-- `preview` of the facade, for a market order. -/
def preview (request : MarketOrderRequest) (reads : Except Failure PreviewReads) :
    Except Failure RiskAssessment := do
  let reads ← reads
  let quote := quoteForMarket request.market request.symbol reads.price
  let instrumentType := quotedInstrumentType quote
  if quantizeExecutionQuantity request.quantity instrumentType ≠ request.quantity then
    .error (.mobile 400 "INVALID_QUANTITY")
  else do
    let amount := ctx.mul request.quantity quote.price
    let fee ← calculateFee instrumentType request.side amount
    return {
      reasons :=
        (if reads.tradingEnabled = false then
          [⟨"TRADING_DISABLED", "서버에서 거래가 꺼져 있습니다."⟩] else []) ++
        (if reads.killSwitchEnabled then
          [⟨"KILL_SWITCH_ON", "거래 중지 상태입니다."⟩] else []) ++
        match request.side with
        | .buy => buyReasons ctx request reads amount fee
        | .sell => []
      referencePrice := some quote.price }

end Preview

/-- What `_hard_risk` reads; `promoted` tells whether the strategy is approved, or needs no
approval. -/
structure HardRiskReads where
  promoted : Bool := true
  recommendationPrice : Decimal
  snapshot : AITradingSnapshot
  account : AccountReads
  accountState : Option AccountStateEvaluation := none

def hardRisk (request : MarketOrderRequest) (base : RiskAssessment)
    (reads : Except Failure HardRiskReads) : Except Failure HardRiskResult := do
  let reads ← reads
  if reads.promoted = false then .error (.mobile 409 "STRATEGY_PROMOTION_REQUIRED")
  else
    return evaluateHardRisk
      { action := request.side
        market := request.market
        quantity := request.quantity
        referencePrice := base.referencePrice.getD reads.recommendationPrice
        baseRiskReasons := base.reasons.map (·.message)
        accountState := reads.accountState }
      reads.snapshot reads.account

def failedRules (risk : HardRiskResult) : List Rule :=
  (risk.checks.filter fun check => !check.passed).map (·.rule)

/-- The largest purchase that the budget may still take, where the budget alone is short. -/
def shortBudget (request : MarketOrderRequest) (risk : HardRiskResult) : Option Decimal :=
  if risk.passed ∨ request.side ≠ .buy ∨ (request.market ≠ "KRX" ∧ request.market ≠ "US") then
    none
  else if failedRules risk ≠ [] ∧ ∀ rule ∈ failedRules risk, rule = .budget then
    risk.maxBuyNotional
  else none

/-- `_budget_fitted_quantity`. The product with the lot has the digits of the number of lots,
so it is not rounded. -/
def budgetFittedQuantity (ctx : Context) (request : MarketOrderRequest) (base : RiskAssessment)
    (risk : HardRiskResult) : Option Decimal :=
  match shortBudget request risk, base.referencePrice with
  | some maxBuyNotional, some price =>
    if price ≤ 0 then none
    else
      let lot := marketLot request.market
      let fitted := ctx.lotsFor maxBuyNotional price lot * lot
      if fitted ≤ 0 ∨ request.quantity ≤ fitted then none else some fitted
  | _, _ => none

structure AssessReads where
  preview : Except Failure PreviewReads
  hardRisk : Except Failure HardRiskReads

structure Assessed where
  request : MarketOrderRequest
  base : RiskAssessment
  risk : HardRiskResult

/-- One attempt of `_assess`. -/
def judge (ctx : Context) (request : MarketOrderRequest) (reads : AssessReads) :
    Except Failure Assessed := do
  let base ← preview ctx request reads.preview
  let risk ← hardRisk request base reads.hardRisk
  return ⟨request, base, risk⟩

/-- `_assess`: a purchase that fails for its budget alone is fitted to it and judged again. -/
def assess (ctx : Context) (request : MarketOrderRequest) (reads refitReads : AssessReads) :
    Except Failure Assessed := do
  let first ← judge ctx request reads
  match budgetFittedQuantity ctx request first.base first.risk with
  | none => return first
  | some fitted =>
    if hpos : 0 < fitted then do
      let second ← judge ctx (request.withQuantity fitted hpos) refitReads
      return if second.risk.passed then second else first
    else return first

variable {ctx : Context} {u fitted notional price : Decimal} {request : MarketOrderRequest}
  {base : RiskAssessment} {risk : HardRiskResult}

/-- A fitted quantity is the most lots, short of the request, that the budget pays for, up to
a relative tolerance. -/
structure BudgetFit (tolerance notional price lot quantity fitted : Decimal) : Prop where
  positive : 0 < fitted
  fewer : fitted < quantity
  lots : ∃ n : ℕ, fitted = n * lot
  affordable : fitted * price ≤ (1 + tolerance) * notional
  largest : ∀ n : ℕ, (1 + tolerance) * (n * lot * price) ≤ notional → n * lot ≤ fitted

theorem one_le_tolerance (hnonneg : 0 ≤ u) (hsmall : u ≤ 1 / 100) :
    1 ≤ (1 - u) ^ 2 * (1 + 10 * u) := by
  nlinarith [mul_nonneg hnonneg hnonneg, mul_nonneg hnonneg (sub_nonneg.mpr hsmall),
    mul_nonneg (mul_nonneg hnonneg hnonneg) hnonneg]

theorem square_le_one_add (hnonneg : 0 ≤ u) (hsmall : u ≤ 1 / 100) :
    (1 + u) ^ 2 ≤ 1 + 10 * u := by
  nlinarith [mul_nonneg hnonneg (sub_nonneg.mpr hsmall)]

/-- What costs clearly less than an amount costs less after two roundings. -/
theorem cost_le_of_tolerance {cost : Decimal} (h : ctx.Within u) (hcost : 0 ≤ cost)
    (hle : (1 + 10 * u) * cost ≤ notional) : cost ≤ (1 - u) ^ 2 * notional :=
  calc
    cost = 1 * cost := (one_mul cost).symm
    _ ≤ (1 - u) ^ 2 * (1 + 10 * u) * cost := by
      have htolerance := one_le_tolerance h.nonneg h.small
      gcongr
    _ = (1 - u) ^ 2 * ((1 + 10 * u) * cost) := by ring
    _ ≤ (1 - u) ^ 2 * notional := by gcongr

theorem lots_largest (h : ctx.Within u) {lot : Decimal} (hprice : 0 < price) (hlot : 0 < lot)
    {n : ℕ} (hpos : 0 < n) (hn : (1 + 10 * u) * (n * lot * price) ≤ notional) :
    n * lot ≤ ctx.lotsFor notional price lot * lot := by
  have hu := h.nonneg
  have hcost : 0 < n * lot * price := by positivity
  have hnotional : 0 ≤ notional := le_trans (by positivity) hn
  have hle := h.natCast_le_lotsFor hnotional hprice hlot (cost_le_of_tolerance h hcost.le hn)
  gcongr

theorem budgetFittedQuantity_some (h : ctx.Within u)
    (hfit : budgetFittedQuantity ctx request base risk = some fitted) :
    ∃ notional price, risk.maxBuyNotional = some notional ∧ base.referencePrice = some price ∧
      BudgetFit (10 * u) notional price (marketLot request.market) request.quantity fitted := by
  unfold budgetFittedQuantity at hfit
  split at hfit
  next notional price hshort hprice =>
    split at hfit
    · cases hfit
    next hpositive =>
    simp only at hfit
    split at hfit
    · cases hfit
    next hbounds =>
    cases hfit
    rw [not_or, not_le, not_le] at hbounds
    rw [not_le] at hpositive
    have hlot := marketLot_pos request.market
    have hlots : 0 < ctx.lotsFor notional price (marketLot request.market) :=
      (mul_pos_iff_of_pos_right hlot).mp hbounds.1
    have hnotional := h.amount_pos hpositive hlot hlots
    obtain ⟨n, hn⟩ : ∃ n : ℕ, ctx.lotsFor notional price (marketLot request.market) = n :=
      truncate_eq_natCast (h.round_nonneg
        (div_nonneg (h.round_nonneg (div_nonneg hnotional.le hpositive.le)) hlot.le))
    have hmax : risk.maxBuyNotional = some notional := by
      unfold shortBudget at hshort
      split at hshort
      · cases hshort
      · split at hshort
        · exact hshort
        · cases hshort
    refine ⟨notional, price, hmax, hprice, ?_⟩
    constructor
    · exact hbounds.1
    · exact hbounds.2
    · exact ⟨n, by rw [hn]⟩
    · calc
        _ ≤ (1 + u) ^ 2 * notional := h.lotsFor_cost hnotional.le hpositive hlot
        _ ≤ (1 + 10 * u) * notional := by
          have hsquare := square_le_one_add h.nonneg h.small
          gcongr
    · intro k hk
      rcases Nat.eq_zero_or_pos k with rfl | hkpos
      · simpa using hbounds.1.le
      · exact lots_largest h hpositive hlot hkpos hk
  · cases hfit

theorem budgetFittedQuantity_none (h : ctx.Within u)
    (hshort : shortBudget request risk = some notional)
    (hprice : base.referencePrice = some price) (hpositive : 0 < price)
    (hfit : budgetFittedQuantity ctx request base risk = none) :
    (∀ n : ℕ, 0 < n → notional < (1 + 10 * u) * (n * marketLot request.market * price)) ∨
      request.quantity ≤ ctx.lotsFor notional price (marketLot request.market) *
        marketLot request.market := by
  simp only [budgetFittedQuantity, hshort, hprice, if_neg (not_le.mpr hpositive)] at hfit
  have hlot := marketLot_pos request.market
  split at hfit
  next hbounds =>
    rcases hbounds with hnothing | hfull
    · left
      intro n hn
      by_contra hnot
      have hle := lots_largest h hpositive hlot hn (not_lt.mp hnot)
      have hpos : 0 < (n : Decimal) * marketLot request.market := by positivity
      linarith
    · exact .inr hfull
  · cases hfit

end KAssetTrader.Purchase
