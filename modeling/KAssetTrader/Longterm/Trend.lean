import KAssetTrader.Library.Ranking
import KAssetTrader.Swing.Outcome

/-!
The long-term shadow's trend filter on the bars of one symbol: the close over a long average
that rises, a shorter average over the long one, and the return of a year without its last
month. The configuration holds what its checks promise, and the metrics a momentum that the
working context holds exactly.
-/

namespace KAssetTrader.Longterm

open Checked
open Swing (Failure Fits ValidBar BarScreenConfig Exclusion context decimalText)

/-- `LongtermShadowConfig`: what the evaluations read of it, with its checks. -/
structure LongtermShadowConfig extends BarScreenConfig where
  minHistorySessions : ℕ
  smaLongSessions : ℕ
  smaMidSessions : ℕ
  smaSlopeSessions : ℕ
  momentumSkipSessions : ℕ
  momentumBaseSessions : ℕ
  topN : ℕ
  ttmQuarters : ℕ
  minGrowth : Decimal
  fundamentalsMaxStalenessDays : ℕ
  minClose_nonneg : 0 ≤ minClose
  minAverageTurnover_nonneg : 0 ≤ minAverageTurnover
  maxAbsSessionMove_nonneg : 0 ≤ maxAbsSessionMove
  minGrowth_nonneg : 0 ≤ minGrowth
  lookback_pos : 0 < lookbackSessions
  minHistory_pos : 0 < minHistorySessions
  turnover_pos : 0 < turnoverSessions
  smaLong_pos : 0 < smaLongSessions
  smaMid_pos : 0 < smaMidSessions
  smaSlope_pos : 0 < smaSlopeSessions
  momentumSkip_pos : 0 < momentumSkipSessions
  momentumBase_pos : 0 < momentumBaseSessions
  topN_pos : 0 < topN
  ttmQuarters_pos : 0 < ttmQuarters
  staleness_pos : 0 < fundamentalsMaxStalenessDays
  mid_lt_long : smaMidSessions < smaLongSessions
  skip_lt_base : momentumSkipSessions < momentumBaseSessions
  /-- `min_history_sessions` covers `required_history_sessions`. -/
  required_le_minHistory :
    max (momentumBaseSessions + 1) (smaLongSessions + smaSlopeSessions) ≤ minHistorySessions
  minHistory_le_lookback : max minHistorySessions turnoverSessions ≤ lookbackSessions

def defaultLongtermShadowConfig : LongtermShadowConfig where
  lookbackSessions := 260
  minHistorySessions := 253
  minClose := 1000
  turnoverSessions := 20
  minAverageTurnover := 1000000000
  maxAbsSessionMove := 0.35
  smaLongSessions := 200
  smaMidSessions := 50
  smaSlopeSessions := 20
  momentumSkipSessions := 21
  momentumBaseSessions := 252
  topN := 20
  ttmQuarters := 4
  minGrowth := 0.10
  fundamentalsMaxStalenessDays := 200
  minClose_nonneg := by norm_num
  minAverageTurnover_nonneg := by norm_num
  maxAbsSessionMove_nonneg := by norm_num
  minGrowth_nonneg := by norm_num
  lookback_pos := by norm_num
  minHistory_pos := by norm_num
  turnover_pos := by norm_num
  smaLong_pos := by norm_num
  smaMid_pos := by norm_num
  smaSlope_pos := by norm_num
  momentumSkip_pos := by norm_num
  momentumBase_pos := by norm_num
  topN_pos := by norm_num
  ttmQuarters_pos := by norm_num
  staleness_pos := by norm_num
  mid_lt_long := by norm_num
  skip_lt_base := by norm_num
  required_le_minHistory := by norm_num
  minHistory_le_lookback := by norm_num

/-- Why an evaluated symbol gives no signal. -/
inductive NoSignalReason where
  | belowSma200
  | sma200NotRising
  | sma50NotAboveSma200
  | momentumNotPositive
  | fundamentalsMissing
  | fundamentalsInsufficientQuarters
  | fundamentalsQuarterGap
  | fundamentalsStale
  | fundamentalsDiscreteMissing
  | ttmNetIncomeNotPositive
  | priorTtmNetIncomeNotPositive
  | priorTtmRevenueNotPositive
  | netIncomeGrowthBelowMinimum
  | revenueGrowthBelowMinimum
  | outsideTopN
  deriving DecidableEq

def NoSignalReason.text : NoSignalReason → String
  | .belowSma200 => "below_sma200"
  | .sma200NotRising => "sma200_not_rising"
  | .sma50NotAboveSma200 => "sma50_not_above_sma200"
  | .momentumNotPositive => "momentum_not_positive"
  | .fundamentalsMissing => "fundamentals_missing"
  | .fundamentalsInsufficientQuarters => "fundamentals_insufficient_quarters"
  | .fundamentalsQuarterGap => "fundamentals_quarter_gap"
  | .fundamentalsStale => "fundamentals_stale"
  | .fundamentalsDiscreteMissing => "fundamentals_discrete_missing"
  | .ttmNetIncomeNotPositive => "fundamentals_ttm_net_income_not_positive"
  | .priorTtmNetIncomeNotPositive => "fundamentals_prior_ttm_net_income_not_positive"
  | .priorTtmRevenueNotPositive => "fundamentals_prior_ttm_revenue_not_positive"
  | .netIncomeGrowthBelowMinimum => "fundamentals_net_income_growth_below_minimum"
  | .revenueGrowthBelowMinimum => "fundamentals_revenue_growth_below_minimum"
  | .outsideTopN => "outside_top_n"

theorem NoSignalReason.text_injective : Function.Injective NoSignalReason.text := by
  intro a b h
  cases a <;> cases b <;> first | rfl | exact absurd h (by decide)

structure TrendEvidence where
  close : List Char
  sma50 : List Char
  sma200 : List Char
  sma200Prior : List Char
  priceSkip : List Char
  priceBase : List Char
  momentum12m1 : List Char

structure TrendMetrics where
  signalBar : ValidBar
  sma50 : Decimal
  sma200 : Decimal
  sma200Prior : Decimal
  priceSkip : Decimal
  priceBase : Decimal
  momentum : Decimal
  momentum_fits : Fits momentum

def TrendMetrics.evidence (metrics : TrendMetrics) : Except Failure TrendEvidence := do
  return {
    close := ← decimalText metrics.signalBar.close
    sma50 := ← decimalText metrics.sma50
    sma200 := ← decimalText metrics.sma200
    sma200Prior := ← decimalText metrics.sma200Prior
    priceSkip := ← decimalText metrics.priceSkip
    priceBase := ← decimalText metrics.priceBase
    momentum12m1 := ← decimalText metrics.momentum }

structure LongtermSymbolEvaluation where
  symbol : String
  excludedReason : Option Exclusion
  trendReason : Option NoSignalReason := none
  metrics : Option TrendMetrics := none
  futureBarsIgnored : ℕ := 0

section Evaluate

/-- What the screen of the bars leaves. -/
structure BarScreen where
  window : List ValidBar
  excludedReason : Option Exclusion
  futureBarsIgnored : ℕ
  window_ne : excludedReason = none → window ≠ []

variable (config : LongtermShadowConfig)

/-- `_sma`: the mean of the `period` values that end at a place. -/
def sma (values : List Decimal) (period last : ℕ) : Decimal :=
  let values := (values.take (last + 1)).drop (last + 1 - period)
  context.div (context.sum values) values.length

/-- A result of the working context is held by it. -/
theorem fits_round (x : Decimal) : Fits (context.round x) :=
  (Decimal.Context.digits_rounds (by decide)).idem x

def trendMetrics (window : List ValidBar) (hne : window ≠ []) : TrendMetrics :=
  let closes := window.map (·.close)
  let last := closes.length - 1
  let priceSkip := closes.getD (last - config.momentumSkipSessions) 0
  let priceBase := closes.getD (last - config.momentumBaseSessions) 0
  { signalBar := window.getLast hne
    sma50 := sma closes config.smaMidSessions last
    sma200 := sma closes config.smaLongSessions last
    sma200Prior := sma closes config.smaLongSessions (last - config.smaSlopeSessions)
    priceSkip, priceBase
    momentum := context.sub (context.div priceSkip priceBase) 1
    momentum_fits := fits_round _ }

def TrendMetrics.reason (metrics : TrendMetrics) : Option NoSignalReason :=
  if metrics.signalBar.close ≤ metrics.sma200 then some .belowSma200
  else if metrics.sma200 ≤ metrics.sma200Prior then some .sma200NotRising
  else if metrics.sma50 ≤ metrics.sma200 then some .sma50NotAboveSma200
  else if metrics.momentum ≤ 0 then some .momentumNotPositive
  else none

/-- `evaluate_longterm_symbol` of screened bars, whose symbol is normalised. -/
def evaluateLongtermSymbol (symbol : String) (screen : BarScreen) : LongtermSymbolEvaluation :=
  match h : screen.excludedReason with
  | some reason =>
    { symbol, excludedReason := some reason, futureBarsIgnored := screen.futureBarsIgnored }
  | none =>
    let metrics := trendMetrics config screen.window (screen.window_ne h)
    { symbol
      excludedReason := none
      trendReason := metrics.reason
      metrics := some metrics
      futureBarsIgnored := screen.futureBarsIgnored }

end Evaluate

def LongtermSymbolEvaluation.evaluated (item : LongtermSymbolEvaluation) : Bool :=
  item.excludedReason.isNone

end KAssetTrader.Longterm
