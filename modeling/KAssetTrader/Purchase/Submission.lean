import KAssetTrader.Purchase.Assessment
import KAssetTrader.Purchase.ChaseGuard

/-!
From the quantity that a recommendation suggests to the order that is stored. The consumer
asks for the suggested quantity; the chase guard may cut it to the planned risk at the price
of the preview; the submission judges it once more at a fresh price and may fit it to the
budget; and the facade takes whole lots only. No step enlarges the quantity, so the promise
of the guard holds of what is stored.
-/

namespace KAssetTrader.Purchase

open Checked Decimal Paper Issuer

/-- A claimed recommendation, its texts stripped and in upper case. -/
structure ClaimedRecommendation where
  id : String
  market : String
  symbol : String
  action : String
  approved : Bool := true
  suggestedQuantity : Option Decimal
  validUntil : Instant
  evidence : List EvidenceItem

def ClaimedRecommendation.side (claim : ClaimedRecommendation) : Option Paper.OrderSide :=
  if claim.action = "BUY" then some .buy
  else if claim.action = "SELL" then some .sell
  else none

def ClaimedRecommendation.clientOrderId (claim : ClaimedRecommendation) : String :=
  "ai-rec:" ++ claim.id

def buildOrderRequest (claim : ClaimedRecommendation) : Option MarketOrderRequest :=
  match claim.suggestedQuantity, claim.side with
  | some quantity, some side =>
    if hpos : 0 < quantity then
      if (claim.market = "KRX" ∨ claim.market = "US") ∧ claim.symbol ≠ "" ∧
          claim.symbol.length ≤ 32 ∧ claim.clientOrderId.length ≤ 200 then
        some
          { clientOrderId := some claim.clientOrderId
            broker := "PAPER"
            side
            orderType := .market
            quantity
            quantity_pos := hpos
            market := claim.market
            symbol := claim.symbol }
      else none
    else none
  | _, _ => none

def claimBlockReason (claim : ClaimedRecommendation) (now : Instant) : Option String :=
  if claim.approved = false then some "recommendation_not_approved"
  else if claim.action ≠ "BUY" ∧ claim.action ≠ "SELL" then some "recommendation_not_actionable"
  else if claim.validUntil ≤ now then some "recommendation_expired"
  else none

/-- How a run ends without an order: with the recommendation failed or blocked for a reason,
or with an exception. -/
inductive Stop where
  | finished (reason : String)
  | raised (failure : Failure)

/-- What the submission reads: the assessment again, the realtime gate, and the facade. -/
structure SubmitReads where
  assessment : AssessReads
  refit : AssessReads
  realtimeEntry : Except Failure Unit := .ok ()
  orderAllowed : Except Failure Unit := .ok ()
  preview : Except Failure PreviewReads
  account : Except Failure ℤ
  quotePrice : Except Failure Decimal
  ownerUserId : ℤ
  orderId : String

/-- What a run reads after its claim, when it finds no order of the recommendation.
`policyBlock` is the verdict of the policy as it is read again after the preview. -/
structure RunReads where
  now : Instant
  assessment : AssessReads
  refit : AssessReads
  policyBlock : Except Failure (Option String) := .ok none
  submit : SubmitReads

section Chain

variable (ctx : Context)

/-- `submit` of the facade up to the insertion of the order, which no order precedes. -/
def placeOrder (request : MarketOrderRequest) (reads : SubmitReads) :
    Except Failure AndroidPaperOrder := do
  let _ ← reads.orderAllowed
  let risk ← preview ctx request reads.preview
  if risk.reasons ≠ [] then .error (.mobile 409 "RISK_REJECTED")
  else do
    let accountId ← reads.account
    let price ← reads.quotePrice
    return newOrder reads.ownerUserId (request.clientOrderId.getD "") request.toOrderRequest
      accountId (quoteForMarket request.market request.symbol price) reads.orderId

def submit (request : MarketOrderRequest) (reads : SubmitReads) :
    Except Failure AndroidPaperOrder := do
  let assessed ← assess ctx request reads.assessment reads.refit
  if assessed.risk.passed = false then .error (.mobile 409 "HARD_RISK_REJECTED")
  else do
    if request.side = .buy then reads.realtimeEntry
    placeOrder ctx assessed.request reads

/-- The chase guard of `run_once`, at the reference price of the preview. -/
def guardRequest (chaseGuard : Bool) (claim : ClaimedRecommendation)
    (request : MarketOrderRequest) (referencePrice : Option Decimal) :
    Except ChaseBlock MarketOrderRequest :=
  if chaseGuard ∧ request.side = .buy then do
    let quantity ← evaluateChaseGuard ctx (entrySizingFromEvidence claim.evidence) referencePrice
      request.quantity
    if hpos : 0 < quantity then return request.withQuantity quantity hpos
    else .error .limitExceeded
  else .ok request

/-- `run_once` on a claim whose recommendation has no order. -/
def runOnce (chaseGuard : Bool) (claim : ClaimedRecommendation) (reads : RunReads) :
    Except Stop AndroidPaperOrder :=
  match buildOrderRequest claim with
  | none => .error (.finished "invalid_order_intent")
  | some request =>
  match claimBlockReason claim reads.now with
  | some reason => .error (.finished reason)
  | none =>
  match assess ctx request reads.assessment reads.refit with
  | .error failure => .error (.raised failure)
  | .ok assessed =>
  if assessed.risk.passed = false then .error (.finished "risk_preview_rejected")
  else match reads.policyBlock with
  | .error failure => .error (.raised failure)
  | .ok (some reason) => .error (.finished reason)
  | .ok none =>
  match guardRequest ctx chaseGuard claim request assessed.base.referencePrice with
  | .error block => .error (.finished block.text)
  | .ok guarded =>
  match submit ctx guarded reads.submit with
  | .error failure => .error (.raised failure)
  | .ok order => .ok order

end Chain

variable {ctx : Context} {u : Decimal}

section Quantities

variable {request guarded : MarketOrderRequest}

theorem ctx_within : Paper.ctx.Within (10 ^ (1 - 28 : ℤ) / 2) :=
  Context.digits_within (by decide)

theorem preview_lots {reads : Except Failure PreviewReads} {base : RiskAssessment}
    (hok : preview ctx request reads = .ok base) :
    ∃ n : ℕ, request.quantity = n * marketLot request.market := by
  obtain ⟨answers, -, hok⟩ := Checked.bind_ok_iff.mp hok
  simp only at hok
  split at hok
  · cases hok
  next hwhole =>
  rw [not_not] at hwhole
  have hlot := executionQuantityLot_quoted request.market request.symbol answers.price
  have hlotPos := marketLot_pos request.market
  have hratio : 0 ≤ Paper.ctx.div request.quantity (marketLot request.market) :=
    ctx_within.round_nonneg (div_nonneg request.quantity_pos.le hlotPos.le)
  obtain ⟨n, hn⟩ := truncate_eq_natCast hratio
  refine ⟨n, ?_⟩
  rw [← hn, ← hlot]
  exact hwhole.symm

theorem judge_ok {reads : AssessReads} {assessed : Assessed}
    (hok : judge ctx request reads = .ok assessed) : assessed.request = request := by
  obtain ⟨base, -, hok⟩ := bind_ok_iff.mp hok
  obtain ⟨risk, -, hok⟩ := bind_ok_iff.mp hok
  rw [← Except.ok.inj hok]

theorem assess_ok (h : ctx.Within u) {reads refitReads : AssessReads} {assessed : Assessed}
    (hok : assess ctx request reads refitReads = .ok assessed) :
    assessed.request.market = request.market ∧
      assessed.request.quantity ≤ request.quantity := by
  obtain ⟨first, hfirst, hok⟩ := bind_ok_iff.mp hok
  have hsame := judge_ok hfirst
  have hkept : first.request.market = request.market ∧
      first.request.quantity ≤ request.quantity := by
    rw [hsame]
    exact ⟨rfl, le_rfl⟩
  split at hok
  · rw [← Except.ok.inj hok]
    exact hkept
  next fitted hfit =>
  split at hok
  next hpos =>
    obtain ⟨second, hsecond, hok⟩ := bind_ok_iff.mp hok
    rw [← Except.ok.inj hok]
    split
    · rw [judge_ok hsecond]
      obtain ⟨_, _, _, _, hbest⟩ := budgetFittedQuantity_some h hfit
      exact ⟨rfl, hbest.fewer.le⟩
    · exact hkept
  · rw [← Except.ok.inj hok]
    exact hkept

variable {reads : SubmitReads} {order : AndroidPaperOrder} {claim : ClaimedRecommendation}

theorem placeOrder_ok (hok : placeOrder ctx request reads = .ok order) :
    order.quantity = request.quantity ∧
      ∃ n : ℕ, order.quantity = n * marketLot request.market := by
  obtain ⟨_, -, hok⟩ := bind_ok_iff.mp hok
  obtain ⟨risk, hrisk, hok⟩ := bind_ok_iff.mp hok
  split at hok
  · cases hok
  obtain ⟨accountId, -, hok⟩ := bind_ok_iff.mp hok
  obtain ⟨price, -, hok⟩ := bind_ok_iff.mp hok
  rw [← Except.ok.inj hok]
  exact ⟨rfl, preview_lots hrisk⟩

theorem submit_ok (h : ctx.Within u) (hok : submit ctx request reads = .ok order) :
    order.quantity ≤ request.quantity ∧
      ∃ n : ℕ, order.quantity = n * marketLot request.market := by
  obtain ⟨assessed, hassessed, hok⟩ := bind_ok_iff.mp hok
  obtain ⟨hmarket, hle⟩ := assess_ok h hassessed
  split at hok
  · cases hok
  have hplaced : placeOrder ctx assessed.request reads = .ok order := by
    split at hok
    · obtain ⟨_, -, hok⟩ := bind_ok_iff.mp hok
      exact hok
    · exact hok
  obtain ⟨hquantity, hlots⟩ := placeOrder_ok hplaced
  rw [hmarket] at hlots
  exact ⟨hquantity.trans_le hle, hlots⟩

theorem guardRequest_ok (h : ctx.Within u) {price : Option Decimal} (hbuy : request.side = .buy)
    (hok : guardRequest ctx true claim request price = .ok guarded) :
    guarded.market = request.market ∧ guarded.quantity ≤ request.quantity ∧
      ∃ plan executable, entrySizingFromEvidence claim.evidence = some plan ∧
        price = some executable ∧ WithinPlan (10 * u) plan executable guarded.quantity := by
  unfold guardRequest at hok
  rw [if_pos ⟨rfl, hbuy⟩] at hok
  obtain ⟨quantity, hguard, hok⟩ := bind_ok_iff.mp hok
  obtain ⟨hpos, hle, hplan⟩ := evaluateChaseGuard_ok h hguard
  rw [dif_pos hpos] at hok
  rw [← Except.ok.inj hok]
  exact ⟨rfl, hle, hplan⟩

theorem buildOrderRequest_some (hrequest : buildOrderRequest claim = some request) :
    claim.suggestedQuantity = some request.quantity ∧ claim.side = some request.side ∧
      request.market = claim.market := by
  unfold buildOrderRequest at hrequest
  split at hrequest
  next quantity side hquantity hside =>
    split at hrequest
    · split at hrequest
      · rw [← Option.some.inj hrequest]
        exact ⟨hquantity, hside, rfl⟩
      · cases hrequest
    · cases hrequest
  · cases hrequest

end Quantities

def previewPrice (ctx : Context) (claim : ClaimedRecommendation) (reads : RunReads) :
    Option Decimal := do
  let request ← buildOrderRequest claim
  let assessed ← (assess ctx request reads.assessment reads.refit).toOption
  assessed.base.referencePrice

/-- The order of a purchase: no more than was suggested, in whole lots, and within the plan
at the price that the guard judged. -/
structure PurchaseSound (ctx : Context) (tolerance : Decimal) (claim : ClaimedRecommendation)
    (reads : RunReads) (order : AndroidPaperOrder) : Prop where
  suggested : ∃ suggested, claim.suggestedQuantity = some suggested ∧ order.quantity ≤ suggested
  lots : ∃ n : ℕ, order.quantity = n * marketLot claim.market
  plan : ∃ sizing price, entrySizingFromEvidence claim.evidence = some sizing ∧
    previewPrice ctx claim reads = some price ∧ WithinPlan tolerance sizing price order.quantity

/-- The fit of a purchase that is short of its budget alone: the most lots that the budget
pays for, and nothing where no lot is affordable or the request is. -/
structure FitSound (ctx : Context) (tolerance : Decimal) (request : MarketOrderRequest)
    (base : RiskAssessment) (risk : HardRiskResult) : Prop where
  fitted : ∀ fitted, budgetFittedQuantity ctx request base risk = some fitted →
    ∃ notional price, risk.maxBuyNotional = some notional ∧ base.referencePrice = some price ∧
      BudgetFit tolerance notional price (marketLot request.market) request.quantity fitted
  unfitted : ∀ notional price, shortBudget request risk = some notional →
    base.referencePrice = some price → 0 < price →
    budgetFittedQuantity ctx request base risk = none →
    (∀ n : ℕ, 0 < n → notional < (1 + tolerance) * (n * marketLot request.market * price)) ∨
      request.quantity * price ≤ (1 + tolerance) * notional

theorem fit_sound (h : ctx.Within u) (request : MarketOrderRequest) (base : RiskAssessment)
    (risk : HardRiskResult) : FitSound ctx (10 * u) request base risk where
  fitted _ := budgetFittedQuantity_some h
  unfitted notional price hshort hprice hpositive hnone := by
    rcases budgetFittedQuantity_none h hshort hprice hpositive hnone with hnothing | hfull
    · exact .inl hnothing
    right
    have hlot := marketLot_pos request.market
    have hlots : 0 < ctx.lotsFor notional price (marketLot request.market) :=
      (mul_pos_iff_of_pos_right hlot).mp (request.quantity_pos.trans_le hfull)
    have hnotional := h.amount_pos hpositive hlot hlots
    calc
      request.quantity * price ≤ ctx.lotsFor notional price (marketLot request.market) *
          marketLot request.market * price := by gcongr
      _ ≤ (1 + u) ^ 2 * notional := h.lotsFor_cost hnotional.le hpositive hlot
      _ ≤ (1 + 10 * u) * notional := by
        have hsquare := square_le_one_add h.nonneg h.small
        gcongr

/-- A purchase that the consumer executes keeps its plan. The context may round every result
by the fraction `u` of it, and the bounds on prices and amounts hold up to ten such errors:
as they stand over exact arithmetic, and up to `5E-27` at the working precision. -/
theorem purchase_keeps_its_plan {claim : ClaimedRecommendation} {reads : RunReads}
    {order : AndroidPaperOrder} (hctx : ctx.Within u) (hbuy : claim.action = "BUY")
    (hrun : runOnce ctx true claim reads = .ok order) :
    PurchaseSound ctx (10 * u) claim reads order ∧
      ∀ request base risk, FitSound ctx (10 * u) request base risk := by
  refine ⟨?_, fit_sound hctx⟩
  unfold runOnce at hrun
  split at hrun
  · cases hrun
  next request hrequest =>
  split at hrun
  · cases hrun
  split at hrun
  · cases hrun
  next assessed hassessed =>
  split at hrun
  · cases hrun
  split at hrun
  · cases hrun
  · cases hrun
  split at hrun
  · cases hrun
  next guarded hguarded =>
  split at hrun
  · cases hrun
  next placed hplaced =>
  cases hrun
  obtain ⟨hsuggested, hside, hmarket⟩ := buildOrderRequest_some hrequest
  have hrequestBuy : request.side = .buy := by
    simp only [ClaimedRecommendation.side, hbuy, if_true] at hside
    exact (Option.some.inj hside).symm
  obtain ⟨hguardedMarket, hguardedLe, plan, price, hplan, hprice, hwithin⟩ :=
    guardRequest_ok hctx hrequestBuy hguarded
  obtain ⟨hle, hlots⟩ := submit_ok hctx hplaced
  rw [hguardedMarket, hmarket] at hlots
  constructor
  · exact ⟨request.quantity, hsuggested, hle.trans hguardedLe⟩
  · exact hlots
  · refine ⟨plan, price, hplan, ?_, hwithin.mono hle⟩
    simp [previewPrice, hrequest, hassessed, Except.toOption, hprice]

/-- An operating budget of 28 digits: one unit of the last place less than sixty million. -/
def trimmedBudget : Decimal := 60000000 - 1 / 10 ^ 20

/-- A plan that risks the rate 0.015 of `trimmedBudget`, 75000 a share. -/
def trimmedClaim : ClaimedRecommendation where
  id := "1"
  market := "KRX"
  symbol := "005930"
  action := "BUY"
  suggestedQuantity := some 12
  validUntil := 100
  evidence := [
    { positionSizing := some
        { entryPrice := some 500000
          strategyStop := some 425000
          riskBudget := some (Paper.ctx.mul trimmedBudget (15 / 1000))
          lotSize := some 1 } }]

def entryQuote : PreviewReads where
  price := 500000
  cash := 10000000

def openPolicy : HardRiskReads where
  recommendationPrice := 500000
  snapshot :=
    { limits :=
        { operatingBudgetKrw := trimmedBudget
          operatingBudgetUsd := 10000
          maxSymbolAllocation := 1 / 2
          maxConcurrentHoldings := none
          maxBuysPerDay := none
          maxSellsPerDay := none
          maxOrdersPerDay := none
          sameSymbolReentryLimit := none }
      usageByCurrency := Dict.empty
      killSwitch := false }
  account :=
    { position := none
      sameSymbolBuys := 0
      sameIssuerHeld := 0
      sameIssuerBuys := 0 }

def openAssessment : AssessReads where
  preview := .ok entryQuote
  hardRisk := .ok openPolicy

def trimmedReads : RunReads where
  now := 0
  assessment := openAssessment
  refit := openAssessment
  submit :=
    { assessment := openAssessment
      refit := openAssessment
      preview := .ok entryQuote
      account := .ok 1
      quotePrice := .ok 500000
      ownerUserId := 1
      orderId := "order-1" }

def twelveShares : AndroidPaperOrder where
  id := "order-1"
  ownerUserId := 1
  clientOrderId := "ai-rec:1"
  paperAccountId := 1
  market := "KRX"
  symbol := "005930"
  side := .buy
  orderType := .market
  quantity := 12
  limitPrice := none
  status := .pending

theorem runOnce_trimmed :
    (runOnce Paper.ctx true trimmedClaim trimmedReads).toOption = some twelveShares := by
  decide +kernel

/-- A budget that is rounded up admits twelve shares. -/
theorem purchase_keeps_its_plan_of_twelve :
    PurchaseSound Paper.ctx (10 * (10 ^ (1 - 28 : ℤ) / 2)) trimmedClaim trimmedReads twelveShares ∧
      ∀ request base risk,
        FitSound Paper.ctx (10 * (10 ^ (1 - 28 : ℤ) / 2)) request base risk :=
  purchase_keeps_its_plan ctx_within rfl (eq_ok_of_toOption runOnce_trimmed)

/-- The quotient `899999.9999999999999999999998 / 75000` is rounded up to twelve shares, which
risk `2E-22` more than the budget. -/
theorem rounded_quotient_exceeds_budget :
    ∃ claim reads order, claim.action = "BUY" ∧ runOnce Paper.ctx true claim reads = .ok order ∧
      ¬ PurchaseSound Paper.ctx 0 claim reads order := by
  refine ⟨trimmedClaim, trimmedReads, twelveShares, rfl,
    eq_ok_of_toOption runOnce_trimmed, ?_⟩
  rintro ⟨-, -, plan, price, hplan, hprice, hwithin⟩
  have hprices : previewPrice ctx trimmedClaim trimmedReads = some 500000 := by
    decide +kernel
  cases hprices.symm.trans hprice
  have hplanned : (entrySizingFromEvidence trimmedClaim.evidence).map
      (fun sizing => (sizing.strategyStop, sizing.riskBudget)) =
        some (425000, 900000 - 2 / 10 ^ 22) := by
    decide +kernel
  rw [hplan, Option.map_some, Option.some.injEq, Prod.mk.injEq] at hplanned
  have hrisk := hwithin.risk
  rw [hplanned.1, hplanned.2] at hrisk
  norm_num [twelveShares] at hrisk

end KAssetTrader.Purchase
