import KAssetTrader.Watermark.AccountState

/-!
The hard risk policy of an order. KRX codes share an issuer when they share
their first five characters; a buy is refused while the account holds a symbol
of the issuer, and when the issuer has a buy order of the settlement day. The
texts of the details are left out, so a blocked result names its rule.
-/

namespace KAssetTrader.Issuer

open Paper Decimal
open Watermark (AccountStateEvaluation)

/-- `settlement_book` of a market; none where it raises. -/
def settlementBook (market : String) : Option (Currency × InstrumentType) :=
  if market = "KRX" then some (.krw, .equityKr)
  else if market = "US" then some (.usd, .equityUs)
  else none

/-- `symbol[:5]`. -/
def firstFive (symbol : String) : String := String.ofList (symbol.toList.take 5)

def issuerGroupKey (market symbol : String) : String :=
  if market = "KRX" ∧ symbol.length = 6 then firstFive symbol else symbol

/-- `_issuer_symbol_filter`, on the value of the column. -/
def issuerSymbolFilter (column market symbol : String) : Prop :=
  if issuerGroupKey market symbol = symbol then column = symbol
  else column.length = 6 ∧ firstFive column = issuerGroupKey market symbol

instance (column market symbol : String) : Decidable (issuerSymbolFilter column market symbol) := by
  unfold issuerSymbolFilter
  infer_instance

section Groups

variable {market a b c : String}

theorem firstFive_ne (h : a.length = 6) : firstFive a ≠ a := by
  intro hsame
  have hlong : a.toList.length = 6 := by
    rw [String.length_toList, h]
  have hlength : (firstFive a).length = 5 := by
    simp [firstFive, hlong]
  rw [hsame, h] at hlength
  cases hlength

/-- Symbols count together when they are the same, or KRX codes of six
characters that share the first five. -/
theorem issuerSymbolFilter_iff :
    issuerSymbolFilter a market b ↔
      a = b ∨ market = "KRX" ∧ a.length = 6 ∧ b.length = 6 ∧ firstFive a = firstFive b := by
  unfold issuerSymbolFilter issuerGroupKey
  by_cases hcode : market = "KRX" ∧ b.length = 6
  · obtain ⟨hmarket, hlength⟩ := hcode
    simp only [hmarket, hlength, and_self, if_true, firstFive_ne hlength, if_false, true_and]
    constructor
    · exact Or.inr
    · rintro (rfl | h)
      · exact ⟨hlength, rfl⟩
      · exact h
  · rw [if_neg hcode, if_pos rfl]
    constructor
    · exact Or.inl
    · rintro (h | ⟨hmarket, -, hlength, -⟩)
      · exact h
      · exact absurd ⟨hmarket, hlength⟩ hcode

theorem issuerSymbolFilter_symm (h : issuerSymbolFilter a market b) :
    issuerSymbolFilter b market a := by
  rw [issuerSymbolFilter_iff] at h ⊢
  rcases h with rfl | ⟨hmarket, ha, hb, hsame⟩
  · exact .inl rfl
  · exact .inr ⟨hmarket, hb, ha, hsame.symm⟩

end Groups

/-- The limits that the policy compares with; none where a count is not limited. -/
structure AITradingLimits where
  operatingBudgetKrw : Decimal
  operatingBudgetUsd : Decimal
  maxSymbolAllocation : Decimal
  maxConcurrentHoldings : Option ℕ
  maxBuysPerDay : Option ℕ
  maxSellsPerDay : Option ℕ
  maxOrdersPerDay : Option ℕ
  sameSymbolReentryLimit : Option ℕ

def AITradingLimits.operatingBudgetFor (limits : AITradingLimits) : Currency → Decimal
  | .krw => limits.operatingBudgetKrw
  | .usd => limits.operatingBudgetUsd

structure AITradingUsage where
  buysToday : ℕ := 0
  sellsToday : ℕ := 0
  ordersToday : ℕ := 0
  concurrentHoldings : ℕ := 0
  budgetUsed : Decimal := 0

structure AITradingSnapshot where
  limits : AITradingLimits
  usageByCurrency : Dict Currency AITradingUsage
  killSwitch : Bool

/-- Whether `evaluate_account_state_gate` passes. -/
def accountStatePasses (action : OrderSide) : Option AccountStateEvaluation → Bool
  | none => true
  | some evaluation =>
    action = .sell || evaluation.unavailable.isSome || evaluation.state ≠ .exitOnly

inductive Rule where
  | dailyMaxLoss
  | accountState
  | lossStreak
  | budget
  | position
  | orderCount
  | sameIssuerHeld
  | sameIssuerDailyBuyLimit
  | aiShadow
  | dailyGoal
  deriving DecidableEq

structure HardRiskCheck where
  rule : Rule
  passed : Bool

/-- Why an order is blocked: the kill switch, or the first rule that failed. -/
inductive BlockedReason where
  | killSwitch
  | failed (rule : Rule)

structure HardRiskResult where
  passed : Bool
  checks : List HardRiskCheck
  blockedReason : Option BlockedReason
  maxBuyNotional : Option Decimal

structure PositionView where
  quantity : Decimal
  totalInvested : Decimal

/-- What the policy reads of the positions and orders of the owner. -/
structure AccountReads where
  position : Option PositionView
  sameSymbolBuys : ℕ
  sameIssuerHeld : ℕ
  sameIssuerBuys : ℕ

/-- An order to be judged, at its reference price, with the reasons that the
base risk check found. -/
structure HardRiskOrder where
  action : OrderSide
  market : String
  quantity : Decimal
  referencePrice : Decimal
  baseRiskReasons : List String := []
  accountState : Option AccountStateEvaluation := none

def belowLimit (used : ℕ) : Option ℕ → Bool
  | none => true
  | some limit => used < limit

def sameIssuerDailyBuyLimit : ℕ := 1

section Checks

variable (o : HardRiskOrder) (limits : AITradingLimits) (usage : AITradingUsage)
  (reads : AccountReads)

def orderNotional : Decimal := ctx.mul o.quantity o.referencePrice

def currentInvested : Decimal := (reads.position.map (·.totalInvested)).getD 0

def currentQuantity : Decimal := (reads.position.map (·.quantity)).getD 0

def validShape : Bool :=
  (settlementBook o.market).isSome && 0 < o.quantity && 0 < o.referencePrice

def symbolBudget (currency : Currency) : Decimal :=
  ctx.mul (limits.operatingBudgetFor currency) limits.maxSymbolAllocation

def budgetPassed : Bool :=
  match o.action, settlementBook o.market with
  | .sell, _ => true
  | .buy, none => false
  | .buy, some (currency, _) =>
    validShape o &&
      ctx.add usage.budgetUsed (orderNotional o) ≤ limits.operatingBudgetFor currency &&
      ctx.add (currentInvested reads) (orderNotional o) ≤ symbolBudget limits currency

def maxBuyNotional : Option Decimal :=
  match o.action, settlementBook o.market with
  | .buy, some (currency, _) =>
    some (max 0 (min (ctx.sub (limits.operatingBudgetFor currency) usage.budgetUsed)
      (ctx.sub (symbolBudget limits currency) (currentInvested reads))))
  | _, _ => none

def positionPassed : Bool :=
  validShape o && o.baseRiskReasons.isEmpty &&
    match o.action with
    | .buy => reads.position.isSome ||
        belowLimit usage.concurrentHoldings limits.maxConcurrentHoldings
    | .sell => o.quantity ≤ currentQuantity reads

def sideCountPassed : Bool :=
  match o.action with
  | .buy => belowLimit usage.buysToday limits.maxBuysPerDay &&
      belowLimit reads.sameSymbolBuys limits.sameSymbolReentryLimit
  | .sell => belowLimit usage.sellsToday limits.maxSellsPerDay

def orderCountPassed : Bool :=
  validShape o && belowLimit usage.ordersToday limits.maxOrdersPerDay &&
    sideCountPassed o limits usage reads

/-- The checks in order. Losses, streaks, goals and the view of the model are
recorded, and never block. -/
def hardRiskChecks : List HardRiskCheck :=
  [⟨.dailyMaxLoss, true⟩,
   ⟨.accountState, accountStatePasses o.action o.accountState⟩,
   ⟨.lossStreak, true⟩,
   ⟨.budget, budgetPassed o limits usage reads⟩,
   ⟨.position, positionPassed o limits usage reads⟩,
   ⟨.orderCount, orderCountPassed o limits usage reads⟩,
   ⟨.sameIssuerHeld, o.action = .sell || reads.sameIssuerHeld = 0⟩,
   ⟨.sameIssuerDailyBuyLimit,
     o.action = .sell || reads.sameIssuerBuys < sameIssuerDailyBuyLimit⟩,
   ⟨.aiShadow, true⟩,
   ⟨.dailyGoal, true⟩]

end Checks

/-- `evaluate_hard_risk`, on what it has read. -/
def evaluateHardRisk (o : HardRiskOrder) (snapshot : AITradingSnapshot) (reads : AccountReads) :
    HardRiskResult :=
  let usage := ((settlementBook o.market).bind fun book =>
    snapshot.usageByCurrency.get? book.1).getD {}
  let checks := hardRiskChecks o snapshot.limits usage reads
  let firstFailed := checks.find? fun check => !check.passed
  { passed := !snapshot.killSwitch && firstFailed.isNone
    checks
    blockedReason :=
      if snapshot.killSwitch then some .killSwitch
      else firstFailed.map fun check => .failed check.rule
    maxBuyNotional := maxBuyNotional o snapshot.limits usage reads }

variable {o : HardRiskOrder} {snapshot : AITradingSnapshot} {reads : AccountReads}

theorem evaluateHardRisk_passed :
    (evaluateHardRisk o snapshot reads).passed = true ↔
      snapshot.killSwitch = false ∧
        ∀ check ∈ (evaluateHardRisk o snapshot reads).checks, check.passed = true := by
  simp [evaluateHardRisk, List.find?_eq_none]

theorem evaluateHardRisk_buy (h : (evaluateHardRisk o snapshot reads).passed = true)
    (hbuy : o.action = .buy) :
    (settlementBook o.market).isSome ∧ reads.sameIssuerHeld = 0 ∧ reads.sameIssuerBuys = 0 := by
  obtain ⟨-, hchecks⟩ := evaluateHardRisk_passed.mp h
  simp only [evaluateHardRisk, hardRiskChecks, List.forall_mem_cons, positionPassed, validShape,
    hbuy, reduceCtorEq, decide_false, Bool.false_or, decide_eq_true_eq, Bool.and_eq_true,
    sameIssuerDailyBuyLimit] at hchecks
  obtain ⟨-, -, -, -, ⟨⟨⟨⟨hbook, -⟩, -⟩, -⟩, -⟩, -, hheld, hbuys, -⟩ := hchecks
  exact ⟨hbook, hheld, Nat.lt_one_iff.mp (of_decide_eq_true hbuys)⟩

end KAssetTrader.Issuer
