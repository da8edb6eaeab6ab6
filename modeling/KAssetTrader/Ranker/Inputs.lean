import KAssetTrader.Backtest.Inputs
import KAssetTrader.Library.Ranking
import KAssetTrader.Library.Rounding
import KAssetTrader.Library.Sequences

/-!
What the candidate ranker is given and what it measures. The configuration comes with the
checks of the constructor, the bars as they were supplied; the indicators of a candidate are
those of its completed bars in order: returns over sessions, distances from highs, true
ranges and their compression, volumes, the closes of the weeks. All arithmetic goes through
a record of what an operation does with its exact result, so that the ranker can be read over
rounded arithmetic that traps as well as over exact arithmetic.
-/

namespace KAssetTrader.Ranker

open Backtest (MarketKey CandidateKey PriceBar)
open Sequences (slice sliceFrom)

/-- What is raised: a `ValueError` (`max` and `min` of nothing are one as well), an index outside
of a sequence, a date outside of the calendar, a division by zero, or a trap of the context. -/
inductive Fault where
  | value (message : String)
  | index
  | overflow
  | zeroDivision
  | trap
  deriving DecidableEq

/-- What an operation makes of its exact result, and `_quantize`. -/
structure Arithmetic where
  result : Decimal → Except Fault Decimal
  quantize : Decimal → Except Fault Decimal

namespace Arithmetic

/-- Exact arithmetic; quantizing rounds to six places, half to even. -/
def exact : Arithmetic where
  result := .ok
  quantize value := .ok (value.quantize 6)

variable (A : Arithmetic)

def add (x y : Decimal) : Except Fault Decimal := A.result (x + y)

def sub (x y : Decimal) : Except Fault Decimal := A.result (x - y)

def mul (x y : Decimal) : Except Fault Decimal := A.result (x * y)

def abs (x : Decimal) : Except Fault Decimal := A.result |x|

def div (x y : Decimal) : Except Fault Decimal :=
  if y = 0 then .error .zeroDivision else A.result (x / y)

/-- `sum(values, start=_ZERO)`. -/
def sum (values : List Decimal) : Except Fault Decimal := values.foldlM A.add 0

def mean (values : List Decimal) : Except Fault Decimal :=
  if values = [] then .error (.value "mean requires at least one value")
  else do A.div (← A.sum values) values.length

end Arithmetic

def clampUnit (value : Decimal) : Decimal := min 1 (max 0 value)

/-- `values[i]`. -/
def index {α : Type} (values : List α) (i : ℤ) : Except Fault α :=
  match Sequences.at? values i with
  | none => .error .index
  | some value => .ok value

/-- `max(values)`. -/
def greatest (values : List Decimal) : Except Fault Decimal :=
  match values.max? with
  | none => .error (.value "max() iterable argument is empty")
  | some value => .ok value

/-- `min(values)`. -/
def least (values : List Decimal) : Except Fault Decimal :=
  match values.min? with
  | none => .error (.value "min() iterable argument is empty")
  | some value => .ok value

def second : ℤ := 1000000

def day : ℤ := 86400 * second

/-- The instants of the calendar, from the first day of the year 1 to the end of 9999. -/
def InCalendar (moment : Instant) : Prop :=
  -62135596800 * second ≤ moment ∧ moment < 253402300800 * second

instance : DecidablePred InCalendar := fun moment =>
  inferInstanceAs (Decidable (-62135596800 * second ≤ moment ∧ moment < 253402300800 * second))

/-- `_aware_utc`, of a moment with a time zone: a whole second. -/
def awareUtc (moment : Instant) : Except Fault Instant :=
  if InCalendar moment then .ok (moment - moment % second) else .error .overflow

/-- A moment later by a `timedelta`. -/
def later (moment : Instant) (delta : ℤ) : Except Fault Instant :=
  if InCalendar (moment + delta) then .ok (moment + delta) else .error .overflow

/-- `CandidateRankerConfig`; the last fields are the checks of its constructor. -/
structure CandidateRankerConfig (A : Arithmetic) where
  candidateLimit : ℕ := 100
  minimumCandidateTarget : ℕ := 50
  strategyReviewLimit : ℕ := 12
  historyBars : ℕ := 260
  minimumHistoryBars : ℕ := 252
  maximumBarAge : ℤ := 7 * day
  validity : ℤ := day
  minimumPriceKr : Decimal := 1000
  minimumPriceUs : Decimal := 2
  minimumTurnoverKr : Decimal := 100000000
  minimumTurnoverUs : Decimal := 100000
  momentum20Weight : Decimal := 7 / 100
  momentum60Weight : Decimal := 8 / 100
  momentum120Weight : Decimal := 8 / 100
  liquidityWeight : Decimal := 10 / 100
  relativeStrengthWeight : Decimal := 15 / 100
  highDistance20Weight : Decimal := 6 / 100
  highDistance52WeekWeight : Decimal := 8 / 100
  higherHighLowWeight : Decimal := 8 / 100
  atrCompressionWeight : Decimal := 8 / 100
  volumeContractionWeight : Decimal := 7 / 100
  volumeExpansionWeight : Decimal := 7 / 100
  weeklyTrendWeight : Decimal := 8 / 100
  overextensionPenaltyWeight : Decimal := 15 / 100
  volumeHangoverPenaltyWeight : Decimal := 10 / 100
  abnormalVolumeRatio : Decimal := 3
  volumeHangoverDays : ℕ := 5
  limit_pos : 1 ≤ candidateLimit := by decide
  target_within : 1 ≤ minimumCandidateTarget ∧ minimumCandidateTarget ≤ candidateLimit := by decide
  review_within : 1 ≤ strategyReviewLimit ∧ strategyReviewLimit ≤ candidateLimit := by decide
  covers : minimumHistoryBars ≤ historyBars := by decide
  weeks : 252 ≤ minimumHistoryBars := by decide
  age_pos : 0 < maximumBarAge := by decide
  validity_pos : 0 < validity := by decide
  hangover_pos : 1 ≤ volumeHangoverDays := by decide
  thresholds_pos : ∀ value ∈ [minimumPriceKr, minimumPriceUs, minimumTurnoverKr,
    minimumTurnoverUs, abnormalVolumeRatio], 0 < value := by norm_num
  weights_nonneg : ∀ weight ∈ [liquidityWeight, relativeStrengthWeight, momentum20Weight,
    momentum60Weight, momentum120Weight, highDistance20Weight, highDistance52WeekWeight,
    higherHighLowWeight, atrCompressionWeight, volumeContractionWeight, volumeExpansionWeight,
    weeklyTrendWeight], 0 ≤ weight := by norm_num
  weights_sum : A.sum [liquidityWeight, relativeStrengthWeight, momentum20Weight,
    momentum60Weight, momentum120Weight, highDistance20Weight, highDistance52WeekWeight,
    higherHighLowWeight, atrCompressionWeight, volumeContractionWeight, volumeExpansionWeight,
    weeklyTrendWeight] = .ok 1
  penalties_nonneg : ∀ weight ∈ [overextensionPenaltyWeight, volumeHangoverPenaltyWeight],
    0 ≤ weight := by norm_num

namespace CandidateRankerConfig

variable {A : Arithmetic} (config : CandidateRankerConfig A)

def minimumPrice : MarketKey → Decimal
  | .kr => config.minimumPriceKr
  | .us => config.minimumPriceUs

def minimumTurnover : MarketKey → Decimal
  | .kr => config.minimumTurnoverKr
  | .us => config.minimumTurnoverUs

end CandidateRankerConfig

/-- `DEFAULT_CANDIDATE_RANKER_CONFIG` -/
def defaultConfig : CandidateRankerConfig .exact where
  weights_sum := by decide +kernel

/-- `BenchmarkReturn`; the return may be no finite number. -/
structure BenchmarkReturn where
  market : MarketKey
  return60 : Option Decimal
  dataAsOf : Datetime
  benchmarkSymbol : Option String

/-- `CandidateMetadata`, as its constructor leaves it; the turnover of the screener, if there is
one, may be no finite number. -/
structure CandidateMetadata where
  symbol : String
  market : MarketKey
  sources : List String
  screenerTurnover : Option (Option Decimal) := none
  isHeld : Bool := false
  isWatchlisted : Bool := false
  eligibleForNewBuy : Bool := true

def CandidateMetadata.key (metadata : CandidateMetadata) : CandidateKey :=
  ⟨metadata.market, metadata.symbol⟩

structure RawBar where
  timestamp : Datetime
  openPrice : Option Decimal
  high : Option Decimal
  low : Option Decimal
  close : Option Decimal
  volume : Option Decimal

/-- `_valid_ohlcv`, with the bar of the values. -/
def RawBar.normal? (bar : RawBar) (timestamp : Instant) : Option PriceBar := do
  let openPrice ← bar.openPrice
  let high ← bar.high
  let low ← bar.low
  let close ← bar.close
  let volume ← bar.volume
  if min (min openPrice high) (min low close) ≤ 0 ∨ volume < 0 then none
  else if low ≤ min openPrice close ∧ max openPrice close ≤ high then
    some ⟨timestamp, openPrice, high, low, close, volume⟩
  else none

inductive Exclusion where
  | marketNotAllowed
  | invalidBarTimestamp
  | futureBar
  | invalidOhlcv
  | duplicateBarTimestamp
  | insufficientHistory
  | staleBar
  | minimumPrice
  | invalidTurnover
  | minimumTurnover

def Exclusion.text : Exclusion → String
  | .marketNotAllowed => "market_not_allowed"
  | .invalidBarTimestamp => "invalid_bar_timestamp"
  | .futureBar => "future_bar"
  | .invalidOhlcv => "invalid_ohlcv"
  | .duplicateBarTimestamp => "duplicate_bar_timestamp"
  | .insufficientHistory => "insufficient_history"
  | .staleBar => "stale_bar"
  | .minimumPrice => "minimum_price"
  | .invalidTurnover => "invalid_turnover"
  | .minimumTurnover => "minimum_turnover"

variable (A : Arithmetic)

def returnOver (values : List Decimal) (periods : ℕ) : Except Fault Decimal := do
  let last ← index values (-1)
  let first ← index values (-(periods + 1 : ℕ))
  A.sub (← A.div last first) 1

def highDistance (high close : Decimal) : Except Fault Decimal := do
  return max 0 (← A.div (← A.sub high close) high)

/-- Half a point each for a higher high and a higher low of the last twenty sessions. -/
def higherHighLow (highs lows : List Decimal) : Except Fault Decimal := do
  let recentHigh ← greatest (sliceFrom highs (-20))
  let priorHigh ← greatest (slice highs (-40) (-20))
  let recentLow ← least (sliceFrom lows (-20))
  let priorLow ← least (slice lows (-40) (-20))
  A.add (if priorHigh < recentHigh then 1 / 2 else 0) (if priorLow < recentLow then 1 / 2 else 0)

/-- The value that `_true_ranges` adds for a bar. -/
def trueRange (previousClose : Option Decimal) (bar : PriceBar) : Except Fault Decimal :=
  match previousClose with
  | none => A.sub bar.high bar.low
  | some close => do
      let range ← A.sub bar.high bar.low
      let above ← A.abs (← A.sub bar.high close)
      let below ← A.abs (← A.sub bar.low close)
      return max range (max above below)

/-- `_true_ranges`, after the close of the bar before. -/
def trueRanges : Option Decimal → List PriceBar → Except Fault (List Decimal)
  | _, [] => .ok []
  | previousClose, bar :: rest => do
      let value ← trueRange A previousClose bar
      let values ← trueRanges (some bar.close) rest
      return value :: values

/-- How far the recent true range, as a part of the price, is below the one before. -/
def atrCompression (recentAtr : Decimal) (trueRanges closes : List Decimal) :
    Except Fault Decimal := do
  let priorAtr ← A.mean (slice trueRanges (-74) (-14))
  let recentRatio ← A.div recentAtr (← index closes (-1))
  let priorClose ← A.mean (slice closes (-74) (-14))
  let priorRatio ← A.div priorAtr priorClose
  let difference ← A.sub priorRatio recentRatio
  let half ← A.mul priorRatio (1 / 2)
  return clampUnit (← A.div difference (max half (1 / 10 ^ 6)))

/-- The contraction of the volume in the five sessions of the setup and its expansion in the
three after them, against the twenty before. -/
def volumeSetup (volumes : List Decimal) : Except Fault (Decimal × Decimal) := do
  let setupEnd : ℤ := volumes.length - 3
  let setupStart := setupEnd - 5
  let baselineStart := setupStart - 20
  let baselineVolume ← A.mean (slice volumes baselineStart setupStart)
  let setupVolume ← A.mean (slice volumes setupStart setupEnd)
  let recentVolume ← A.mean (sliceFrom volumes (-3))
  if baselineVolume ≤ 0 then return (0, 0)
  else
    let kept ← A.sub 1 (← A.div setupVolume baselineVolume)
    let contraction ← A.div kept (1 / 2)
    let grown ← A.sub (← A.div recentVolume baselineVolume) 1
    let expansion ← A.div grown (3 / 2)
    return (clampUnit contraction, clampUnit expansion)

/-- The week of a day by its number, which names the same weeks as the year and the week of
the ISO calendar: the day 0 is a Thursday, and weeks begin on Mondays. -/
def isoWeek (moment : Instant) : ℤ := (moment / day + 3) / 7

def weeklyCloses (bars : List PriceBar) : List Decimal :=
  (bars.foldl (fun weekly bar => weekly.set (isoWeek bar.timestamp) bar.close)
    (Dict.empty : Dict ℤ Decimal)).values

def return4Week (closes : List Decimal) (last : Decimal) : Except Fault Decimal :=
  if 5 ≤ closes.length then do A.sub (← A.div last (← index closes (-5))) 1 else .ok 0

def weeklyTrend (bars : List PriceBar) : Except Fault (Decimal × ℕ) := do
  let closes := weeklyCloses bars
  if closes.length < 10 then return (0, closes.length)
  else
    let movingAverage ← A.mean (sliceFrom closes (-10))
    let last ← index closes (-1)
    let spread ← A.div (← A.sub (← A.div last movingAverage) (95 / 100)) (20 / 100)
    let return4Week ← return4Week A closes last
    let returnScore ← A.div (← A.add return4Week (10 / 100)) (30 / 100)
    let score ← A.div (← A.add (clampUnit spread) (clampUnit returnScore)) 2
    return (score, closes.length)

/-- The place and the value of the first greatest of some values, counted from `place`. -/
def firstGreatest (place : ℕ) : List Decimal → Option (ℕ × Decimal)
  | [] => none
  | value :: rest =>
    match firstGreatest (place + 1) rest with
    | none => some (place, value)
    | some (later, greater) =>
      if value < greater then some (later, greater) else some (place, value)

def volumeHangover (bars : List PriceBar) (abnormalRatio : Decimal) (hangoverDays : ℕ) :
    Except Fault (Decimal × Decimal) := do
  let volumes := bars.map (·.volume)
  let baseline ← A.mean (slice volumes (-40) (-(hangoverDays + 1 : ℕ)))
  let recentStart : ℤ := volumes.length - hangoverDays - 1
  let recent := slice volumes recentStart (-1)
  match firstGreatest 0 recent with
  | none => return (0, 0)
  | some (spikeOffset, spikeVolume) =>
    if baseline ≤ 0 then return (0, 0)
    else
      let ratio ← A.div spikeVolume baseline
      if ratio < abnormalRatio then return (0, ratio)
      else
        let spikeIndex := recentStart + spikeOffset
        let current ← index bars (-1)
        let spike ← index bars spikeIndex
        let currentRatio ← A.div current.volume baseline
        if ¬ (3 / 2 ≤ currentRatio ∨ current.close < spike.high) then return (0, ratio)
        else
          let excess ← A.div (← A.sub ratio abnormalRatio) abnormalRatio
          let recency : ℤ := hangoverDays - (bars.length - 1 - spikeIndex) + 1
          let recencyScore ← A.div recency hangoverDays
          let score ← A.mul (max (1 / 4) (clampUnit excess)) (clampUnit recencyScore)
          return (score, ratio)

end KAssetTrader.Ranker
