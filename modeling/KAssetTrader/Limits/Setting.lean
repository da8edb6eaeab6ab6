import KAssetTrader.Storage.Json

/-!
The trading limits of an owner, and the setting they are stored in. The constructor
checks its arguments and takes what depends on the risk level from a preset. A stored
setting may still hold the one budget and the amounts of an older form; its rates and
its risk level are then computed from them. The arithmetic of that computation is a
parameter, of which nothing is assumed.
-/

namespace KAssetTrader.Limits

open Decimal
open Storage
open Checked

def literal (coefficient places : ℕ) : Numeral := ⟨false, coefficient, -places⟩

/-- `Decimal(n)` for an integer. -/
def integral (n : ℤ) : Numeral := ⟨decide (n < 0), n.natAbs, 0⟩

structure Arithmetic where
  add : Numeral → Numeral → Numeral
  sub : Numeral → Numeral → Numeral
  mul : Numeral → Numeral → Numeral
  div : Numeral → Numeral → Numeral
  abs : Numeral → Numeral

inductive Currency where
  | krw
  | usd
  deriving DecidableEq

namespace Currency

def value : Currency → String
  | .krw => "KRW"
  | .usd => "USD"

def other : Currency → Currency
  | .krw => .usd
  | .usd => .krw

end Currency

/-- `settlement_book` of a currency. -/
def settlementBook (currency : String) : Except String Currency :=
  if currency = "KRW" then .ok .krw
  else if currency = "USD" then .ok .usd
  else .error "market/currency does not map to a settlement book"

inductive OperatingMode where
  | approval
  | autoPaper

namespace OperatingMode

def value : OperatingMode → String
  | .approval => "APPROVAL"
  | .autoPaper => "AUTO_PAPER"

/-- `OperatingMode(text)`. -/
def ofText (text : String) : Except String OperatingMode :=
  if text = "APPROVAL" then .ok .approval
  else if text = "AUTO_PAPER" then .ok .autoPaper
  else .error s!"'{text}' is not a valid OperatingMode"

end OperatingMode

structure RiskPreset where
  dailyTargetRatePct : Numeral
  maxDailyLossRatePct : Numeral
  riskPerTradeRate : Numeral
  maxSymbolAllocation : Numeral
  maxConcurrentHoldings : Option ℤ
  maxBuysPerDay : Option ℤ
  maxSellsPerDay : Option ℤ
  sameSymbolReentryLimit : Option ℤ

def riskPresets : List (ℤ × RiskPreset) :=
  [(1, ⟨literal 3 1, literal 5 1, literal 25 4, literal 10 2, some 3, some 1, some 1, some 1⟩),
    (2, ⟨literal 5 1, literal 10 1, literal 5 3, literal 15 2, some 4, some 2, some 1, some 1⟩),
    (3, ⟨literal 8 1, literal 15 1, literal 75 4, literal 20 2, none, none, none, none⟩),
    (4, ⟨literal 12 1, literal 25 1, literal 1 2, literal 25 2, none, none, none, none⟩),
    (5, ⟨literal 20 1, literal 40 1, literal 15 3, literal 30 2, none, none, none, none⟩)]

/-- What a stored limit of the older form is compared with. -/
inductive Component where
  | maxSymbolAllocation
  | maxConcurrentHoldings
  | maxBuysPerDay
  | maxOrdersPerDay
  | sameSymbolReentryLimit
  | dailyTargetRatePct
  | maxDailyLossRatePct
  deriving DecidableEq

def Component.key : Component → String
  | .maxSymbolAllocation => "max_symbol_allocation"
  | .maxConcurrentHoldings => "max_concurrent_holdings"
  | .maxBuysPerDay => "max_buys_per_day"
  | .maxOrdersPerDay => "max_orders_per_day"
  | .sameSymbolReentryLimit => "same_symbol_reentry_limit"
  | .dailyTargetRatePct => "daily_target_rate_pct"
  | .maxDailyLossRatePct => "max_daily_loss_rate_pct"

def legacyPresetLimits : List (ℤ × List (Component × ℤ)) :=
  [(1, [(.maxBuysPerDay, 1), (.maxOrdersPerDay, 2)]),
    (2, [(.maxBuysPerDay, 2), (.maxOrdersPerDay, 3)]),
    (3, [(.maxBuysPerDay, 3), (.maxOrdersPerDay, 5), (.sameSymbolReentryLimit, 1),
      (.maxConcurrentHoldings, 5)]),
    (4, [(.maxBuysPerDay, 5), (.maxOrdersPerDay, 8), (.sameSymbolReentryLimit, 1),
      (.maxConcurrentHoldings, 5)]),
    (5, [(.maxBuysPerDay, 8), (.maxOrdersPerDay, 12), (.sameSymbolReentryLimit, 2),
      (.maxConcurrentHoldings, 6)])]

/-- `getattr(preset, field_name)`; a limit that is not set is `none`. -/
def RiskPreset.component (preset : RiskPreset) : Component → Option Numeral
  | .maxSymbolAllocation => some preset.maxSymbolAllocation
  | .maxConcurrentHoldings => preset.maxConcurrentHoldings.map integral
  | .maxBuysPerDay => preset.maxBuysPerDay.map integral
  | .maxOrdersPerDay => none
  | .sameSymbolReentryLimit => preset.sameSymbolReentryLimit.map integral
  | .dailyTargetRatePct => some preset.dailyTargetRatePct
  | .maxDailyLossRatePct => some preset.maxDailyLossRatePct

def defaultRiskLevel : ℤ := 2

def defaultOperatingBudgetKrw : Numeral := literal 10000000 0

def defaultOperatingBudgetUsd : Numeral := literal 10000 0

/-- A value that a check is given: a decimal, or what was stored. -/
inductive Argument where
  | decimal (d : DecimalValue)
  | stored (value : Json)

/-- `value if isinstance(value, Decimal) else Decimal(str(value))`. -/
def Argument.toDecimal : Argument → Except String DecimalValue
  | .decimal d => .ok d
  | .stored value =>
    match decimalOf value.text with
    | some d => .ok d
    | none => .error "decimal.InvalidOperation"

def decimalOrZero (value : Argument) : Except String Numeral := do
  match value with
  | .stored .null => return integral 0
  | _ =>
    match ← value.toDecimal with
    | .finite n => return n
    | _ => return integral 0

def positiveDecimal (value : Argument) (field : String) :
    Except String { n : Numeral // 0 < n.value } := do
  let result ← decimalOrZero value
  if h : 0 < result.value then return ⟨result, h⟩
  else throw s!"{field} must be positive"

/-- `_risk_level`, with the preset of the level. -/
def riskLevelOf (value : Json) (field : String) : Except String (ℤ × RiskPreset) :=
  match value.int? with
  | none => .error s!"{field} must be an integer"
  | some level =>
    match riskPresets.lookup level with
    | some preset => .ok (level, preset)
    | none => .error s!"{field} must be between 1 and 5"

def AtMost (n : Numeral) : DecimalValue → Prop
  | .finite m => n.value ≤ m.value
  | .infinite negative => negative = false
  | .nan => False

instance (n : Numeral) : (d : DecimalValue) → Decidable (AtMost n d)
  | .finite m => inferInstanceAs (Decidable (n.value ≤ m.value))
  | .infinite negative => inferInstanceAs (Decidable (negative = false))
  | .nan => isFalse id

def percentage (value : Argument) (field : String) (minimum : Numeral) (maximum : DecimalValue) :
    Except String { n : Numeral // minimum.value ≤ n.value ∧ AtMost n maximum } := do
  match ← value.toDecimal with
  | .finite n =>
    if h : minimum.value ≤ n.value ∧ AtMost n maximum then return ⟨n, h⟩
    else throw (s!"{field} must be between {decimalText (.finite minimum)} and " ++
      decimalText maximum)
  | _ => throw s!"{field} must be finite"

def nonnegativeInt (value : Json) (field : String) : Except String ℤ :=
  match value.int? with
  | none => .error s!"{field} must be an integer"
  | some n => if n < 0 then .error s!"{field} must not be negative" else .ok n

def optionalDailyLimit (value : Json) (field : String) (maximum default : ℤ) :
    Except String ℤ :=
  match value with
  | .null =>
    if maximum < default then .error s!"default {field} exceeds hard maximum {maximum}"
    else .ok default
  | .int n =>
    if n < 1 ∨ maximum < n then .error s!"{field} must be between 1 and {maximum}" else .ok n
  | _ => .error s!"{field} must be an integer"

def strictBool (value : Json) (field : String) : Except String Bool :=
  match value.bool? with
  | some flag => .ok flag
  | none => .error s!"{field} must be a boolean"

/-- The daily numbers of orders; `none` is no limit. -/
structure DailyLimits where
  customMaxBuysPerDay : Option ℤ
  customMaxSellsPerDay : Option ℤ
  maxBuysPerDay : Option ℤ
  maxSellsPerDay : Option ℤ
  maxOrdersPerDay : Option ℤ
  maxCustomBuysPerDay : Option ℤ
  maxCustomSellsPerDay : Option ℤ
  maxCustomOrdersPerDay : Option ℤ

/-- The part of the constructor for the daily limits: the presets without numbers of
orders drop those of the owner. -/
def dailyLimits (preset : RiskPreset) (customMaxBuysPerDay customMaxSellsPerDay : Json) :
    Except String DailyLimits :=
  match preset.maxBuysPerDay, preset.maxSellsPerDay with
  | some buys, some sells =>
    match preset.sameSymbolReentryLimit, preset.maxConcurrentHoldings with
    | some reentry, some holdings => do
        let maxCustomBuys := holdings * max 2 (reentry * 2)
        let maxCustomSells := holdings * (reentry + 3)
        let effectiveBuys ← optionalDailyLimit customMaxBuysPerDay "custom_max_buys_per_day"
          maxCustomBuys buys
        let effectiveSells ← optionalDailyLimit customMaxSellsPerDay "custom_max_sells_per_day"
          maxCustomSells sells
        return ⟨customMaxBuysPerDay.int?, customMaxSellsPerDay.int?, some effectiveBuys,
          some effectiveSells, some (effectiveBuys + effectiveSells), some maxCustomBuys,
          some maxCustomSells, some (maxCustomBuys + maxCustomSells)⟩
    | _, _ => .error "bounded daily limits require re-entry and holdings limits"
  | _, _ => .ok ⟨none, none, none, none, none, none, none, none⟩

structure AITradingLimits where
  riskLevel : ℤ
  operatingBudgetKrw : Numeral
  operatingBudgetUsd : Numeral
  dailyTargetRatePct : Numeral
  maxDailyLossRatePct : Numeral
  riskPerTradeRate : Numeral
  daily : DailyLimits
  maxSymbolAllocation : Numeral
  maxConcurrentHoldings : Option ℤ
  sameSymbolReentryLimit : Option ℤ
  killSwitch : Bool
  currency : Currency
  budgets_pos : 0 < operatingBudgetKrw.value ∧ 0 < operatingBudgetUsd.value

structure LimitsArguments where
  riskLevel : ℤ := defaultRiskLevel
  operatingBudgetKrw : DecimalValue := .finite defaultOperatingBudgetKrw
  operatingBudgetUsd : DecimalValue := .finite defaultOperatingBudgetUsd
  dailyTargetRatePct : Option DecimalValue := none
  maxDailyLossRatePct : Option DecimalValue := none
  customMaxBuysPerDay : Json := .null
  customMaxSellsPerDay : Json := .null
  killSwitch : Bool := false
  currency : String := "KRW"

def maximumTargetRate : Numeral := literal 10 0

def maximumLossRate : Numeral := literal 20 0

def rateOr (value : Option DecimalValue) (field : String) (maximum default : Numeral) :
    Except String Numeral :=
  match value with
  | none => .ok default
  | some d => (·.1) <$> percentage (.decimal d) field (integral 0) (.finite maximum)

/-- The constructor of `AITradingLimits`. -/
def AITradingLimits.make (a : LimitsArguments) : Except String AITradingLimits := do
  let (level, preset) ← riskLevelOf (.int a.riskLevel) "risk_level"
  let currency ← settlementBook (Unicode.upper a.currency)
  let budgetKrw ← positiveDecimal (.decimal a.operatingBudgetKrw) "operating_budget_krw"
  let budgetUsd ← positiveDecimal (.decimal a.operatingBudgetUsd) "operating_budget_usd"
  let targetRate ← rateOr a.dailyTargetRatePct "daily_target_rate_pct" maximumTargetRate
    preset.dailyTargetRatePct
  let lossRate ← rateOr a.maxDailyLossRatePct "max_daily_loss_rate_pct" maximumLossRate
    preset.maxDailyLossRatePct
  let daily ← dailyLimits preset a.customMaxBuysPerDay a.customMaxSellsPerDay
  return {
    riskLevel := level
    operatingBudgetKrw := budgetKrw.1
    operatingBudgetUsd := budgetUsd.1
    dailyTargetRatePct := targetRate
    maxDailyLossRatePct := lossRate
    riskPerTradeRate := preset.riskPerTradeRate
    daily
    maxSymbolAllocation := preset.maxSymbolAllocation
    maxConcurrentHoldings := preset.maxConcurrentHoldings
    sameSymbolReentryLimit := preset.sameSymbolReentryLimit
    killSwitch := a.killSwitch
    currency
    budgets_pos := ⟨budgetKrw.2, budgetUsd.2⟩ }

def AITradingLimits.operatingBudgetFor (limits : AITradingLimits) : Currency → Numeral
  | .krw => limits.operatingBudgetKrw
  | .usd => limits.operatingBudgetUsd

/-- `to_storage`: a daily number of the owner is stored when there is one. -/
def AITradingLimits.toStorage (limits : AITradingLimits) : Json :=
  .obj ([("risk_level", .int limits.riskLevel),
    ("operating_budget_krw", .str (decimalText (.finite limits.operatingBudgetKrw))),
    ("operating_budget_usd", .str (decimalText (.finite limits.operatingBudgetUsd))),
    ("daily_target_rate_pct", .str (decimalText (.finite limits.dailyTargetRatePct))),
    ("max_daily_loss_rate_pct", .str (decimalText (.finite limits.maxDailyLossRatePct))),
    ("kill_switch", .bool limits.killSwitch),
    ("currency", .str limits.currency.value)] ++
    (limits.daily.customMaxBuysPerDay.map fun n => ("custom_max_buys_per_day", .int n)).toList ++
    (limits.daily.customMaxSellsPerDay.map fun n => ("custom_max_sells_per_day", .int n)).toList)

variable (arithmetic : Arithmetic)

/-- `raw.get(key, default)` for a decimal. -/
def storedOr (raw : Json) (key : String) (default : Numeral) : Argument :=
  match raw.get? key with
  | some value => .stored value
  | none => .decimal (.finite default)

/-- The budgets of both currencies; the older form has the one of its own currency. -/
def storedBudgets (raw : Json) (currency : Currency) : Except String (Numeral × Numeral) :=
  if (raw.get? "operating_budget_krw").isSome ∨ (raw.get? "operating_budget_usd").isSome then do
    let krw ← positiveDecimal (storedOr raw "operating_budget_krw" defaultOperatingBudgetKrw)
      "operating_budget_krw"
    let usd ← positiveDecimal (storedOr raw "operating_budget_usd" defaultOperatingBudgetUsd)
      "operating_budget_usd"
    return (krw.1, usd.1)
  else do
    let legacyDefault :=
      match currency with
      | .krw => defaultOperatingBudgetKrw
      | .usd => defaultOperatingBudgetUsd
    let legacy ← positiveDecimal (storedOr raw "operating_budget" legacyDefault) "operating_budget"
    match currency with
    | .krw => return (legacy.1, defaultOperatingBudgetUsd)
    | .usd => return (defaultOperatingBudgetKrw, legacy.1)

def storedAmount (value : Json) (key : String) : Except String Numeral :=
  (·.1) <$> percentage (.stored value) key (integral 0) (.infinite false)

def rateOfBudget (amount budget : Numeral) : Numeral :=
  arithmetic.div (arithmetic.mul amount (integral 100)) budget

def storedPercentage (raw : Json) (canonicalKey legacyAmountKey : String)
    (budget default maximum : Numeral) : Except String Numeral :=
  match raw.get? canonicalKey with
  | some value =>
    (·.1) <$> percentage (.stored value) canonicalKey (integral 0) (.finite maximum)
  | none =>
    match raw.get? legacyAmountKey with
    | none => .ok default
    | some value => do
        let amount ← storedAmount value legacyAmountKey
        let rate := rateOfBudget arithmetic amount budget
        return if rate.value < maximum.value then rate else maximum

/-- The stored limits that a risk level can be compared with, each with its scale. -/
def storedComponents (raw : Json) : Except String (List (Numeral × Component × Numeral)) := do
  let allocation ←
    match raw.get? "max_symbol_allocation" with
    | none => pure []
    | some value => do
        let actual ← percentage (.stored value) "max_symbol_allocation" (literal 1 7)
          (.finite (integral 1))
        pure [(actual.1, Component.maxSymbolAllocation, literal 5 2)]
  let numbers ← [Component.maxConcurrentHoldings, .maxBuysPerDay, .maxOrdersPerDay,
      .sameSymbolReentryLimit].mapM fun component =>
    match raw.get? component.key with
    | none => pure []
    | some value => do
        let actual ← nonnegativeInt value component.key
        pure [(integral actual, component, integral 1)]
  return allocation ++ numbers.flatten

def storedRates (raw : Json) (budget : Numeral) :
    Except String (List (Numeral × Component × Numeral)) := do
  let target ←
    match raw.get? "conservative_daily_goal" with
    | none => pure []
    | some value => do
        let amount ← storedAmount value "conservative_daily_goal"
        pure [(rateOfBudget arithmetic amount budget, Component.dailyTargetRatePct, literal 1 1)]
  let loss ←
    match raw.get? "daily_max_loss" with
    | none => pure []
    | some value => do
        let amount ← storedAmount value "daily_max_loss"
        pure [(rateOfBudget arithmetic amount budget, Component.maxDailyLossRatePct, literal 5 1)]
  return target ++ loss

def expected (level : ℤ) (preset : RiskPreset) (component : Component) : Except String Numeral :=
  match ((legacyPresetLimits.lookup level).getD []).lookup component with
  | some n => .ok (integral n)
  | none =>
    match preset.component component with
    | some n => .ok n
    | none => .error "decimal.InvalidOperation"

/-- `score` of `_nearest_risk_level`. -/
def score (components : List (Numeral × Component × Numeral)) (level : ℤ) (preset : RiskPreset) :
    Except String Numeral :=
  components.foldlM (fun total (actual, component, scale) => do
    let wanted ← expected level preset component
    return arithmetic.add total
      (arithmetic.div (arithmetic.abs (arithmetic.sub actual wanted)) scale)) (integral 0)

/-- `_nearest_risk_level`: of the levels with the least score the first. -/
def nearestRiskLevel (raw : Json) (budget : Numeral) : Except String ℤ := do
  let limits ← storedComponents raw
  let components ← if limits = [] then storedRates arithmetic raw budget else pure limits
  if components = [] then return defaultRiskLevel
  else do
    let scores ← riskPresets.mapM fun (level, preset) => do
      return (level, ← score arithmetic components level preset)
    let best := scores.foldl (fun best entry =>
      match best with
      | none => some entry
      | some (level, least) =>
        if entry.2.value < least.value then some entry else some (level, least))
      none
    return (best.map Prod.fst).getD defaultRiskLevel

def decodeLimits (raw : Json) : Except String AITradingLimits := do
  let currency ← settlementBook (Unicode.upper ((raw.get? "currency").getD (.str "KRW")).text)
  let (budgetKrw, budgetUsd) ← storedBudgets raw currency
  let displayBudget :=
    match currency with
    | .krw => budgetKrw
    | .usd => budgetUsd
  let riskLevel ←
    match raw.get? "risk_level" with
    | some value => Prod.fst <$> riskLevelOf value "risk_level"
    | none => nearestRiskLevel arithmetic raw displayBudget
  let (level, preset) ← riskLevelOf (.int riskLevel) "risk_level"
  let targetRate ← storedPercentage arithmetic raw "daily_target_rate_pct"
    "conservative_daily_goal" displayBudget preset.dailyTargetRatePct maximumTargetRate
  let lossRate ← storedPercentage arithmetic raw "max_daily_loss_rate_pct"
    "daily_max_loss" displayBudget preset.maxDailyLossRatePct maximumLossRate
  let killSwitch ← strictBool ((raw.get? "kill_switch").getD (.bool false)) "kill_switch"
  AITradingLimits.make {
    riskLevel := level
    operatingBudgetKrw := .finite budgetKrw
    operatingBudgetUsd := .finite budgetUsd
    dailyTargetRatePct := some (.finite targetRate)
    maxDailyLossRatePct := some (.finite lossRate)
    customMaxBuysPerDay := (raw.get? "custom_max_buys_per_day").getD .null
    customMaxSellsPerDay := (raw.get? "custom_max_sells_per_day").getD .null
    killSwitch
    currency := currency.value }

def decodeSetting (value : Json) : Except String (OperatingMode × AITradingLimits) :=
  match value with
  | .null => do
      let limits ← AITradingLimits.make {}
      return (.approval, limits)
  | .obj entries => do
      let mode ← OperatingMode.ofText (((Json.obj entries).get? "mode").getD
        (.str OperatingMode.approval.value)).text
      match ((Json.obj entries).get? "settings").getD (.obj []) with
      | .obj raw => do
          let limits ← decodeLimits arithmetic (.obj raw)
          return (mode, limits)
      | _ => throw "stored AI trading limits must be an object"
  | _ => .error "stored AI trading setting must be an object"

/-- The payload that `put_snapshot` stores. -/
def settingPayload (mode : OperatingMode) (limits : AITradingLimits) : Json :=
  .obj [("mode", .str mode.value), ("settings", limits.toStorage)]

end KAssetTrader.Limits
