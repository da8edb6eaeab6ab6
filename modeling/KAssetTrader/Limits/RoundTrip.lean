import KAssetTrader.Limits.Setting

/-!
Limits that the constructor accepts are stored and read back as they were. The
constructor accepts them again with any positive budgets, and then changes nothing
else.
-/

namespace KAssetTrader.Limits

open Decimal
open Storage
open Checked

variable {a : LimitsArguments} {limits : AITradingLimits} {preset : RiskPreset}
  {arithmetic : Arithmetic}

def storedNumber : Option ℤ → Json
  | none => .null
  | some n => .int n

structure Accepted (limits : AITradingLimits) (preset : RiskPreset) : Prop where
  preset_eq : riskPresets.lookup limits.riskLevel = some preset
  target_mem : 0 ≤ limits.dailyTargetRatePct.value ∧
    limits.dailyTargetRatePct.value ≤ maximumTargetRate.value
  loss_mem : 0 ≤ limits.maxDailyLossRatePct.value ∧
    limits.maxDailyLossRatePct.value ≤ maximumLossRate.value
  risk_eq : limits.riskPerTradeRate = preset.riskPerTradeRate
  allocation_eq : limits.maxSymbolAllocation = preset.maxSymbolAllocation
  holdings_eq : limits.maxConcurrentHoldings = preset.maxConcurrentHoldings
  reentry_eq : limits.sameSymbolReentryLimit = preset.sameSymbolReentryLimit
  daily_eq : dailyLimits preset (storedNumber limits.daily.customMaxBuysPerDay)
    (storedNumber limits.daily.customMaxSellsPerDay) = .ok limits.daily

theorem value_integral_zero : (integral 0).value = 0 := by simp [integral, Numeral.value]

theorem optionalDailyLimit_ok {value : Json} {field : String} {maximum default n : ℤ}
    (h : optionalDailyLimit value field maximum default = .ok n) :
    storedNumber value.int? = value := by
  unfold optionalDailyLimit at h
  split at h
  · rfl
  · rfl
  · cases h

theorem dailyLimits_again {buys sells : Json} {daily : DailyLimits}
    (h : dailyLimits preset buys sells = .ok daily) :
    dailyLimits preset (storedNumber daily.customMaxBuysPerDay)
      (storedNumber daily.customMaxSellsPerDay) = .ok daily := by
  unfold dailyLimits at h
  split at h
  next hbuys hsells =>
    split at h
    next hreentry hholdings =>
      obtain ⟨effectiveBuys, heffectiveBuys, h⟩ := bind_ok_iff.mp h
      obtain ⟨effectiveSells, heffectiveSells, h⟩ := bind_ok_iff.mp h
      cases h
      dsimp only
      rw [optionalDailyLimit_ok heffectiveBuys, optionalDailyLimit_ok heffectiveSells]
      simp only [dailyLimits, hbuys, hsells, hreentry, hholdings, heffectiveBuys,
        heffectiveSells, ok_bind]
      rfl
    · cases h
  next hnone =>
    cases h
    unfold dailyLimits
    split
    next hbuys hsells => exact absurd hsells (hnone _ _ hbuys)
    · rfl

theorem riskPresets_rates : ∀ entry ∈ riskPresets,
    (0 ≤ entry.2.dailyTargetRatePct.value ∧
      entry.2.dailyTargetRatePct.value ≤ maximumTargetRate.value) ∧
    0 ≤ entry.2.maxDailyLossRatePct.value ∧
      entry.2.maxDailyLossRatePct.value ≤ maximumLossRate.value := by
  intro entry hentry
  simp only [riskPresets, List.mem_cons, List.not_mem_nil, or_false] at hentry
  rcases hentry with rfl | rfl | rfl | rfl | rfl <;>
    norm_num [literal, maximumTargetRate, maximumLossRate, Numeral.value]

theorem mem_riskPresets {level : ℤ} (h : riskPresets.lookup level = some preset) :
    (level, preset) ∈ riskPresets := by
  obtain ⟨front, rest, hsplit, -⟩ := List.lookup_eq_some_iff.mp h
  rw [hsplit]
  simp

theorem rateOr_ok {value : Option DecimalValue} {field : String} {maximum default rate : Numeral}
    (h : rateOr value field maximum default = .ok rate)
    (hdefault : 0 ≤ default.value ∧ default.value ≤ maximum.value) :
    0 ≤ rate.value ∧ rate.value ≤ maximum.value := by
  cases value with
  | none =>
    cases h
    exact hdefault
  | some d =>
    unfold rateOr at h
    cases hrate : percentage (.decimal d) field (integral 0) (.finite maximum) with
    | error e =>
      simp only [hrate] at h
      cases h
    | ok n =>
      simp only [hrate] at h
      cases h
      obtain ⟨hlow, hhigh⟩ := n.2
      exact ⟨le_of_eq_of_le value_integral_zero.symm hlow, hhigh⟩

theorem accepted_of_make (h : AITradingLimits.make a = .ok limits) :
    ∃ preset, Accepted limits preset := by
  obtain ⟨⟨level, preset⟩, hlevel, h⟩ := bind_ok_iff.mp h
  obtain ⟨currency, -, h⟩ := bind_ok_iff.mp h
  obtain ⟨budgetKrw, -, h⟩ := bind_ok_iff.mp h
  obtain ⟨budgetUsd, -, h⟩ := bind_ok_iff.mp h
  obtain ⟨targetRate, htarget, h⟩ := bind_ok_iff.mp h
  obtain ⟨lossRate, hloss, h⟩ := bind_ok_iff.mp h
  obtain ⟨daily, hdaily, h⟩ := bind_ok_iff.mp h
  cases h
  have hpreset : riskPresets.lookup level = some preset := by
    simp only [riskLevelOf, Json.int?] at hlevel
    split at hlevel
    next hlookup =>
      cases hlevel
      exact hlookup
    · cases hlevel
  exact ⟨preset, {
    preset_eq := hpreset
    target_mem := rateOr_ok htarget (riskPresets_rates _ (mem_riskPresets hpreset)).1
    loss_mem := rateOr_ok hloss (riskPresets_rates _ (mem_riskPresets hpreset)).2
    risk_eq := rfl
    allocation_eq := rfl
    holdings_eq := rfl
    reentry_eq := rfl
    daily_eq := dailyLimits_again hdaily }⟩

section Again

def AITradingLimits.withBudgets (limits : AITradingLimits) (krw usd : Numeral)
    (hpos : 0 < krw.value ∧ 0 < usd.value) : AITradingLimits :=
  { limits with operatingBudgetKrw := krw, operatingBudgetUsd := usd, budgets_pos := hpos }

def AITradingLimits.arguments (limits : AITradingLimits) (krw usd : Numeral) :
    LimitsArguments where
  riskLevel := limits.riskLevel
  operatingBudgetKrw := .finite krw
  operatingBudgetUsd := .finite usd
  dailyTargetRatePct := some (.finite limits.dailyTargetRatePct)
  maxDailyLossRatePct := some (.finite limits.maxDailyLossRatePct)
  customMaxBuysPerDay := storedNumber limits.daily.customMaxBuysPerDay
  customMaxSellsPerDay := storedNumber limits.daily.customMaxSellsPerDay
  killSwitch := limits.killSwitch
  currency := limits.currency.value

variable {value : Argument} {field : String} {n : Numeral}

theorem positiveDecimal_of (hvalue : value.toDecimal = .ok (.finite n))
    (hnull : value ≠ .stored .null) (hpos : 0 < n.value) :
    positiveDecimal value field = .ok ⟨n, hpos⟩ := by
  have hzero : decimalOrZero value = .ok n := by
    unfold decimalOrZero
    split
    · exact absurd rfl hnull
    · rw [hvalue]
      rfl
  rw [positiveDecimal, hzero, ok_bind, dif_pos hpos]
  rfl

@[simp] theorem Argument.toDecimal_decimal (d : DecimalValue) :
    (Argument.decimal d).toDecimal = .ok d := rfl

@[simp] theorem Argument.toDecimal_text (n : Numeral) :
    (Argument.stored (.str (decimalText (.finite n)))).toDecimal = .ok (.finite n) := by
  simp [Argument.toDecimal, Json.text]

theorem positiveDecimal_decimal (hpos : 0 < n.value) (field : String) :
    positiveDecimal (.decimal (.finite n)) field = .ok ⟨n, hpos⟩ :=
  positiveDecimal_of (Argument.toDecimal_decimal _) (by simp) hpos

theorem positiveDecimal_text (hpos : 0 < n.value) (field : String) :
    positiveDecimal (.stored (.str (decimalText (.finite n)))) field = .ok ⟨n, hpos⟩ :=
  positiveDecimal_of (Argument.toDecimal_text n) (by simp) hpos

theorem percentage_of {n minimum : Numeral} {maximum : DecimalValue}
    (hvalue : value.toDecimal = .ok (.finite n)) (hmem : minimum.value ≤ n.value ∧ AtMost n maximum)
    :
    percentage value field minimum maximum = .ok ⟨n, hmem⟩ := by
  rw [percentage, hvalue, ok_bind]
  dsimp only
  rw [dif_pos hmem]
  rfl

theorem rateOr_of {n maximum default : Numeral} (hmem : 0 ≤ n.value ∧ n.value ≤ maximum.value) :
    rateOr (some (.finite n)) field maximum default = .ok n := by
  have hlow : (integral 0).value ≤ n.value := le_of_eq_of_le value_integral_zero hmem.1
  have hboth : (integral 0).value ≤ n.value ∧ AtMost n (.finite maximum) := ⟨hlow, hmem.2⟩
  have hrate : percentage (.decimal (.finite n)) field (integral 0) (.finite maximum) =
      .ok ⟨n, hboth⟩ := percentage_of (Argument.toDecimal_decimal _) hboth
  rw [rateOr, hrate]
  rfl

@[simp] theorem Currency.settlementBook_value (currency : Currency) :
    settlementBook (Unicode.upper currency.value) = .ok currency := by
  cases currency <;> decide +kernel

theorem riskLevelOf_of {level : ℤ} (h : riskPresets.lookup level = some preset) :
    riskLevelOf (.int level) field = .ok (level, preset) := by
  simp [riskLevelOf, Json.int?, h]

theorem make_of_accepted (h : Accepted limits preset) {krw usd : Numeral}
    (hpos : 0 < krw.value ∧ 0 < usd.value) :
    AITradingLimits.make (limits.arguments krw usd) = .ok (limits.withBudgets krw usd hpos) := by
  simp only [AITradingLimits.make, AITradingLimits.arguments, riskLevelOf_of h.preset_eq,
    Currency.settlementBook_value, positiveDecimal_decimal hpos.1,
    positiveDecimal_decimal hpos.2, rateOr_of h.target_mem, rateOr_of h.loss_mem, h.daily_eq,
    ok_bind]
  simp only [AITradingLimits.withBudgets, ← h.risk_eq, ← h.allocation_eq, ← h.holdings_eq,
    ← h.reentry_eq]
  rfl

end Again

structure Stores (raw : Json) (limits : AITradingLimits) : Prop where
  riskLevel : raw.get? "risk_level" = some (.int limits.riskLevel)
  budgetKrw : raw.get? "operating_budget_krw" =
    some (.str (decimalText (.finite limits.operatingBudgetKrw)))
  budgetUsd : raw.get? "operating_budget_usd" =
    some (.str (decimalText (.finite limits.operatingBudgetUsd)))
  targetRate : raw.get? "daily_target_rate_pct" =
    some (.str (decimalText (.finite limits.dailyTargetRatePct)))
  lossRate : raw.get? "max_daily_loss_rate_pct" =
    some (.str (decimalText (.finite limits.maxDailyLossRatePct)))
  killSwitch : raw.get? "kill_switch" = some (.bool limits.killSwitch)
  currency : raw.get? "currency" = some (.str limits.currency.value)
  customBuys : (raw.get? "custom_max_buys_per_day").getD .null =
    storedNumber limits.daily.customMaxBuysPerDay
  customSells : (raw.get? "custom_max_sells_per_day").getD .null =
    storedNumber limits.daily.customMaxSellsPerDay

theorem toStorage_stores (limits : AITradingLimits) : Stores limits.toStorage limits := by
  constructor
  · rfl
  · rfl
  · rfl
  · rfl
  · rfl
  · rfl
  · rfl
  · cases hbuys : limits.daily.customMaxBuysPerDay <;>
      cases hsells : limits.daily.customMaxSellsPerDay <;>
        simp [AITradingLimits.toStorage, Json.get?, List.lookup_cons, hbuys, hsells, storedNumber]
  · cases hbuys : limits.daily.customMaxBuysPerDay <;>
      cases hsells : limits.daily.customMaxSellsPerDay <;>
        simp [AITradingLimits.toStorage, Json.get?, List.lookup_cons, hbuys, hsells, storedNumber]

theorem storedPercentage_of {raw : Json} {key legacyKey : String}
    {n budget default maximum : Numeral}
    (hraw : raw.get? key = some (.str (decimalText (.finite n))))
    (hmem : 0 ≤ n.value ∧ n.value ≤ maximum.value) :
    storedPercentage arithmetic raw key legacyKey budget default maximum = .ok n := by
  have hlow : (integral 0).value ≤ n.value := le_of_eq_of_le value_integral_zero hmem.1
  have hboth : (integral 0).value ≤ n.value ∧ AtMost n (.finite maximum) := ⟨hlow, hmem.2⟩
  have hrate : percentage (.stored (.str (decimalText (.finite n)))) key (integral 0)
      (.finite maximum) = .ok ⟨n, hboth⟩ := percentage_of (Argument.toDecimal_text n) hboth
  unfold storedPercentage
  rw [hraw]
  dsimp only
  rw [hrate]
  rfl

theorem decodeLimits_of_stores {raw : Json} (h : Stores raw limits)
    (haccepted : Accepted limits preset) :
    decodeLimits arithmetic raw = .ok limits := by
  have hbudgets : storedBudgets raw limits.currency =
      .ok (limits.operatingBudgetKrw, limits.operatingBudgetUsd) := by
    have hcanonical : (raw.get? "operating_budget_krw").isSome ∨
        (raw.get? "operating_budget_usd").isSome := by
      left
      rw [h.budgetKrw]
      rfl
    have hkrw : storedOr raw "operating_budget_krw" defaultOperatingBudgetKrw =
        .stored (.str (decimalText (.finite limits.operatingBudgetKrw))) := by
      rw [storedOr, h.budgetKrw]
    have husd : storedOr raw "operating_budget_usd" defaultOperatingBudgetUsd =
        .stored (.str (decimalText (.finite limits.operatingBudgetUsd))) := by
      rw [storedOr, h.budgetUsd]
    unfold storedBudgets
    rw [if_pos hcanonical, hkrw, husd, positiveDecimal_text limits.budgets_pos.1,
      positiveDecimal_text limits.budgets_pos.2]
    rfl
  have hmake := make_of_accepted haccepted limits.budgets_pos
  unfold decodeLimits
  simp only [h.currency, Option.getD_some, Json.text, Currency.settlementBook_value, ok_bind,
    hbudgets, h.riskLevel, riskLevelOf_of haccepted.preset_eq, map_ok,
    storedPercentage_of h.targetRate haccepted.target_mem,
    storedPercentage_of h.lossRate haccepted.loss_mem, h.killSwitch, h.customBuys, h.customSells,
    strictBool, Json.bool?]
  exact hmake

theorem OperatingMode.ofText_value (mode : OperatingMode) :
    OperatingMode.ofText mode.value = .ok mode := by
  cases mode with
  | approval => rfl
  | autoPaper => rfl

theorem decodeSetting_payload (haccepted : Accepted limits preset) (mode : OperatingMode) :
    decodeSetting arithmetic (settingPayload mode limits) = .ok (mode, limits) := by
  have hlimits : decodeLimits arithmetic limits.toStorage = .ok limits :=
    decodeLimits_of_stores (toStorage_stores limits) haccepted
  have hmode : (Json.obj [("mode", .str mode.value), ("settings", limits.toStorage)]).get? "mode" =
      some (.str mode.value) := rfl
  have hsettings : (Json.obj [("mode", .str mode.value),
      ("settings", limits.toStorage)]).get? "settings" = some limits.toStorage := rfl
  simp only [decodeSetting, settingPayload, hmode, hsettings, Option.getD_some, Json.text,
    OperatingMode.ofText_value, ok_bind]
  unfold AITradingLimits.toStorage at hlimits ⊢
  dsimp only
  rw [hlimits]
  rfl

end KAssetTrader.Limits
