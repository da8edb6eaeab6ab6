import KAssetTrader.Library.Collect
import KAssetTrader.Ranker.Inputs
import Mathlib.Data.Prod.Lex
import Mathlib.Data.String.Basic

/-!
The ranker itself, in two passes. A candidate is screened by hard filters and measured from
its own bars, or excluded with a reason; then the candidates that are left are scored, with
benchmark returns or with their place in the cross section of their market, and put in the
order of their scores.
-/

namespace KAssetTrader.Ranker

open Backtest (MarketKey CandidateKey PriceBar UsableBenchmark)
open Sequences (slice sliceFrom)

inductive EvidenceValue where
  | count (n : ℕ)
  | number (value : Decimal)
  | moment (instant : Instant)
  | text (value : String)

structure RankEvidence where
  code : String
  value : EvidenceValue
  detail : String

structure FactorScore where
  code : String
  rawValue : Decimal
  score : Decimal
  weight : Decimal
  contribution : Decimal

structure PenaltyScore where
  code : String
  rawValue : Decimal
  score : Decimal
  weight : Decimal
  deduction : Decimal

structure CandidateRankResult where
  symbol : String
  market : MarketKey
  totalScore : Decimal
  factorScores : List FactorScore
  penalties : List PenaltyScore
  dataAsOf : Option Instant
  validUntil : Option Instant
  exclusionReason : Option Exclusion
  atr14 : Option Decimal
  averageVolume20 : Option Decimal
  averageTurnover20 : Option Decimal
  evidence : List RankEvidence
  sources : List String
  isHeld : Bool
  isWatchlisted : Bool
  eligibleForNewBuy : Bool
  rankPosition : Option ℕ := none
  rankedTotal : Option ℕ := none

def CandidateRankResult.key (result : CandidateRankResult) : CandidateKey :=
  ⟨result.market, result.symbol⟩

structure CandidateRankingBatch where
  ranked : List CandidateRankResult
  excluded : List CandidateRankResult

structure PreparedCandidate where
  metadata : CandidateMetadata
  bars : List PriceBar
  dataAsOf : Instant
  validUntil : Instant
  turnover : Decimal
  atr14 : Decimal
  averageVolume20 : Decimal
  averageTurnover20 : Decimal
  momentum20 : Decimal
  momentum60 : Decimal
  momentum120 : Decimal
  highDistance20 : Decimal
  highDistance52Week : Decimal
  higherHighLow : Decimal
  atrCompression : Decimal
  volumeContraction : Decimal
  volumeExpansion : Decimal
  weeklyTrend : Decimal
  liquidity : Decimal
  overextensionAtr : Decimal
  volumeHangover : Decimal
  evidence : List RankEvidence

inductive Screened (α : Type) where
  | rejected (reason : Exclusion) (dataAsOf : Option Instant)
  | passed (value : α)

variable {A : Arithmetic}

variable (config : CandidateRankerConfig A)

def screenBar (asOf : Instant) (bar : RawBar) : Except Fault (Screened PriceBar) :=
  match bar.timestamp with
  | .naive _ => .ok (.rejected .invalidBarTimestamp none)
  | .aware moment => do
      let timestamp ← awareUtc moment
      if asOf < timestamp then return .rejected .futureBar (some timestamp)
      else match bar.normal? timestamp with
        | none => return .rejected .invalidOhlcv (some timestamp)
        | some normal => return .passed normal

def screenBars (asOf : Instant) : List RawBar → Except Fault (Screened (List PriceBar))
  | [] => .ok (.passed [])
  | bar :: rest => do
      match ← screenBar asOf bar with
      | .rejected reason dataAsOf => return .rejected reason dataAsOf
      | .passed normal =>
        match ← screenBars asOf rest with
        | .rejected reason dataAsOf => return .rejected reason dataAsOf
        | .passed normalized => return .passed (normal :: normalized)

def candidateTurnover (A : Arithmetic) (metadata : CandidateMetadata) (bars : List PriceBar) :
    Except Fault (Option Decimal) :=
  match metadata.screenerTurnover with
  | some value => .ok (value.filter fun value => decide (0 ≤ value))
  | none => do
      let turnovers ← (sliceFrom bars (-20)).mapM fun bar => A.mul bar.close bar.volume
      let value ← A.mean turnovers
      return (some value).filter fun value => decide (0 ≤ value)

/-- The second part of `_prepare`: what is measured of a candidate that passed the filters. -/
def measure (asOf : Instant) (metadata : CandidateMetadata) (bounded : List PriceBar)
    (dataAsOf : Instant) (turnover : Decimal) : Except Fault PreparedCandidate := do
  let closes := bounded.map (·.close)
  let highs := bounded.map (·.high)
  let lows := bounded.map (·.low)
  let volumes := bounded.map (·.volume)
  let averageVolume20 ← A.mean (sliceFrom volumes (-20))
  let turnovers ← (sliceFrom bounded (-20)).mapM fun bar => A.mul bar.close bar.volume
  let averageTurnover20 ← A.mean turnovers
  let trueRanges ← trueRanges A none bounded
  let momentum20 ← returnOver A closes 20
  let momentum60 ← returnOver A closes 60
  let momentum120 ← returnOver A closes 120
  let close ← index closes (-1)
  let high20 ← greatest (sliceFrom highs (-20))
  let high52Week ← greatest (sliceFrom highs (-252))
  let highDistance20 ← highDistance A high20 close
  let highDistance52Week ← highDistance A high52Week close
  let higherHighLow ← higherHighLow A highs lows
  let recentAtr ← A.mean (sliceFrom trueRanges (-14))
  let atrCompression ← atrCompression A recentAtr trueRanges closes
  let (volumeContraction, volumeExpansion) ← volumeSetup A volumes
  let (weeklyTrend, weeklyCount) ← weeklyTrend A bounded
  let traded ← A.sub (← A.div turnover (config.minimumTurnover metadata.market)) 1
  let liquidity := clampUnit (← A.div traded 9)
  let breakoutLine ← greatest (slice highs (-21) (-1))
  let above ← A.div (← A.sub close breakoutLine) (max recentAtr (1 / 10 ^ 6))
  let overextensionAtr := max 0 above
  let (volumeHangover, abnormalRatio) ←
    volumeHangover A bounded config.abnormalVolumeRatio config.volumeHangoverDays
  let validUntil := min (← later asOf config.validity) (← later dataAsOf config.maximumBarAge)
  return {
    metadata, bars := bounded, dataAsOf, validUntil, turnover, atr14 := recentAtr
    averageVolume20, averageTurnover20, momentum20, momentum60, momentum120, highDistance20
    highDistance52Week, higherHighLow, atrCompression, volumeContraction, volumeExpansion
    weeklyTrend, liquidity, overextensionAtr, volumeHangover
    evidence := [
      ⟨"history_bars", .count bounded.length, "repository daily bars"⟩,
      ⟨"turnover", .number turnover, "screener or 20-day mean"⟩,
      ⟨"high_20", .number high20, "20-session high"⟩,
      ⟨"high_52_week", .number high52Week, "252-session high without future bars"⟩,
      ⟨"atr_14", .number recentAtr, "14-session true range mean"⟩,
      ⟨"average_volume_20", .number averageVolume20,
        "20-session mean volume for participation sizing"⟩,
      ⟨"average_turnover_20", .number averageTurnover20,
        "20-session mean turnover for participation sizing"⟩,
      ⟨"weekly_bars", .count weeklyCount, "calendar weekly closes"⟩,
      ⟨"abnormal_volume_ratio", .number abnormalRatio,
        "largest recent completed volume versus baseline"⟩] }

/-- The filters of `_prepare` after the bars were put in order, up to the turnover. -/
def screenHistory (asOf : Instant) (metadata : CandidateMetadata) (normalized : List PriceBar) :
    Except Fault (Screened (List PriceBar × Instant × Decimal)) := do
  let lastOf := normalized.getLast?.map (·.timestamp)
  if ¬ (normalized.map (·.timestamp)).Nodup then return .rejected .duplicateBarTimestamp lastOf
  else if normalized.length < config.minimumHistoryBars then
    return .rejected .insufficientHistory lastOf
  else
    let bounded := sliceFrom normalized (-config.historyBars)
    let last ← index bounded (-1)
    let dataAsOf := last.timestamp
    if config.maximumBarAge ≤ asOf - dataAsOf then return .rejected .staleBar dataAsOf
    else if last.close < config.minimumPrice metadata.market then
      return .rejected .minimumPrice dataAsOf
    else match ← candidateTurnover A metadata bounded with
      | none => return .rejected .invalidTurnover dataAsOf
      | some turnover =>
        if turnover < config.minimumTurnover metadata.market then
          return .rejected .minimumTurnover dataAsOf
        else return .passed (bounded, dataAsOf, turnover)

def prepare (asOf : Instant) (metadata : CandidateMetadata) (bars : List RawBar) :
    Except Fault (Screened PreparedCandidate) := do
  match ← screenBars asOf bars with
  | .rejected reason dataAsOf => return .rejected reason dataAsOf
  | .passed normalized =>
    match ← screenHistory config asOf metadata (Ranking.insertedBy (·.timestamp) normalized) with
    | .rejected reason dataAsOf => return .rejected reason dataAsOf
    | .passed (bounded, dataAsOf, turnover) =>
      return .passed (← measure config asOf metadata bounded dataAsOf turnover)

def excludedResult (metadata : CandidateMetadata) (reason : Exclusion)
    (dataAsOf : Option Instant) : CandidateRankResult where
  symbol := metadata.symbol
  market := metadata.market
  totalScore := 0
  factorScores := []
  penalties := []
  dataAsOf := dataAsOf
  validUntil := none
  exclusionReason := reason
  atr14 := none
  averageVolume20 := none
  averageTurnover20 := none
  evidence := [⟨"exclusion", .text reason.text, "hard filter"⟩]
  sources := metadata.sources
  isHeld := metadata.isHeld
  isWatchlisted := metadata.isWatchlisted
  eligibleForNewBuy := metadata.eligibleForNewBuy

def assess (asOf : Instant) (allowed : List MarketKey) (metadata : CandidateMetadata)
    (bars : List RawBar) : Except Fault (CandidateRankResult ⊕ PreparedCandidate) := do
  if metadata.market ∉ allowed then
    return .inl (excludedResult metadata .marketNotAllowed none)
  else match ← prepare config asOf metadata bars with
    | .rejected reason dataAsOf => return .inl (excludedResult metadata reason dataAsOf)
    | .passed candidate => return .inr candidate

variable (normalize : String → String)

-- `str(value).strip().upper()`.
def marketOf? (text : String) : Option MarketKey :=
  if text = "KR" then some .kr else if text = "US" then some .us else none

def normalizeAllowedMarkets (markets : List String) : Except Fault (List MarketKey) :=
  match (markets.map normalize).mapM marketOf? with
  | some (market :: rest) => .ok (market :: rest)
  | _ => .error (.value "allowed_markets must be a non-empty subset of KR and US")

def usableBenchmark (asOf : Instant) (maximumAge : ℤ) (benchmark : BenchmarkReturn) :
    Except Fault (Option UsableBenchmark) :=
  match benchmark.dataAsOf with
  | .naive _ => .ok none
  | .aware moment => do
      let dataAsOf ← awareUtc moment
      match benchmark.return60 with
      | none => return none
      | some return60 =>
        if asOf < dataAsOf ∨ maximumAge ≤ asOf - dataAsOf then return none
        else return some ⟨benchmark.market, return60, dataAsOf, benchmark.benchmarkSymbol⟩

def normalizedBenchmarks (asOf : Instant) (maximumAge : ℤ)
    (values : List (String × BenchmarkReturn)) :
    Except Fault (Dict MarketKey UsableBenchmark) :=
  values.foldlM (fun normalized (key, benchmark) => do
    match ← usableBenchmark asOf maximumAge benchmark with
    | none => return normalized
    | some usable =>
      if marketOf? (normalize key) = some benchmark.market then
        return normalized.set benchmark.market usable
      else return normalized) Dict.empty

/-- `_normalized_candidate_benchmarks`; a key that is no pair gives none. -/
def normalizedCandidateBenchmarks (asOf : Instant) (maximumAge : ℤ)
    (values : List (Option (String × String) × BenchmarkReturn)) :
    Except Fault (Dict CandidateKey UsableBenchmark) :=
  values.foldlM (fun normalized (key, benchmark) =>
    match key with
    | none => .ok normalized
    | some (market, symbol) => do
        match ← usableBenchmark asOf maximumAge benchmark with
        | none => return normalized
        | some usable =>
          if marketOf? (normalize market) = some benchmark.market ∧ normalize symbol ≠ "" then
            return normalized.set ⟨benchmark.market, normalize symbol⟩ usable
          else return normalized) Dict.empty

def partlyCovered (values : Dict CandidateKey UsableBenchmark)
    (candidates : List PreparedCandidate) (market : MarketKey) : Bool :=
  let keys := (candidates.filter (·.metadata.market = market)).map (·.metadata.key)
  keys.any (fun key => (values.get? key).isSome) && keys.any fun key => (values.get? key).isNone

/-- One round of `_homogeneous_candidate_benchmarks`. -/
def homogenize (candidates : List PreparedCandidate)
    (marketBenchmarks : Dict MarketKey UsableBenchmark)
    (normalized : Dict CandidateKey UsableBenchmark) (market : MarketKey) :
    Dict CandidateKey UsableBenchmark :=
  if (marketBenchmarks.get? market).isSome then normalized
  else if partlyCovered normalized candidates market then
    normalized.filter fun key _ => decide (key.market ≠ market)
  else normalized

def homogeneousCandidateBenchmarks (values : Dict CandidateKey UsableBenchmark)
    (candidates : List PreparedCandidate) (marketBenchmarks : Dict MarketKey UsableBenchmark) :
    Dict CandidateKey UsableBenchmark :=
  [MarketKey.kr, MarketKey.us].foldl (homogenize candidates marketBenchmarks) values

/-- The scores of distinct returns in increasing order: their places, between 0 and 1. -/
def percentiles (A : Arithmetic) (returns : List Decimal) :
    Except Fault (List (Decimal × Decimal)) :=
  if returns.length ≤ 1 then .ok (returns.map fun value => (value, 1 / 2))
  else returns.zipIdx.mapM fun (value, place) => do
    return (value, ← A.div place (returns.length - 1 : ℕ))

def marketPercentiles (A : Arithmetic) (candidates : List PreparedCandidate)
    (market : MarketKey) : Except Fault (List (Decimal × Decimal)) :=
  let returns := (candidates.filter (·.metadata.market = market)).map (·.momentum60)
  percentiles A (Ranking.insertedBy id returns.dedup)

def crossSectionalStrength (A : Arithmetic) (candidates : List PreparedCandidate) :
    Except Fault (Dict CandidateKey Decimal) :=
  [MarketKey.kr, MarketKey.us].foldlM (fun output market => do
    let scores ← marketPercentiles A candidates market
    return (candidates.filter (·.metadata.market = market)).foldl (fun output item =>
      output.set item.metadata.key ((scores.lookup item.momentum60).getD 0)) output) Dict.empty

def scaledReturn (A : Arithmetic) (value : Decimal) : Except Fault Decimal := do
  return clampUnit (← A.div (← A.add value (20 / 100)) (60 / 100))

def factorScore (A : Arithmetic) (code : String) (rawValue score weight : Decimal) :
    Except Fault FactorScore := do
  return { code, rawValue, score := ← A.quantize score, weight
           contribution := ← A.quantize (← A.mul score weight) }

def penaltyScore (A : Arithmetic) (code : String) (rawValue score weight : Decimal) :
    Except Fault PenaltyScore := do
  return { code, rawValue := ← A.quantize rawValue, score := ← A.quantize score, weight
           deduction := ← A.quantize (← A.mul score weight) }

def relativeStrength (A : Arithmetic) (item : PreparedCandidate)
    (benchmarkReturn : Option UsableBenchmark) (crossSectionalScore : Decimal) :
    Except Fault (Decimal × Decimal × String) :=
  match benchmarkReturn with
  | none => .ok (item.momentum60, crossSectionalScore, "cross_sectional_60_session_percentile")
  | some benchmark => do
      let raw ← A.sub item.momentum60 benchmark.return60
      return (raw, ← scaledReturn A raw, "benchmark_excess_60_session_return")

def benchmarkEvidence (benchmark : UsableBenchmark) : List RankEvidence :=
  [⟨"relative_strength_benchmark",
      .text ((benchmark.benchmarkSymbol.filter (· ≠ "")).getD benchmark.market.text),
      "benchmark identity used for 60-session excess return"⟩,
    ⟨"relative_strength_benchmark_return_60", .number benchmark.return60,
      "completed benchmark 60-session return"⟩,
    ⟨"relative_strength_benchmark_data_as_of", .moment benchmark.dataAsOf,
      "latest completed benchmark observation"⟩]

/-- The factors before they are rounded: code, raw value, score and weight. -/
def rawFactors (item : PreparedCandidate) (strengthRaw strengthScore : Decimal) :
    Except Fault (List (String × Decimal × Decimal × Decimal)) := do
  let momentum20 ← scaledReturn A item.momentum20
  let momentum60 ← scaledReturn A item.momentum60
  let momentum120 ← scaledReturn A item.momentum120
  let near20 ← A.sub 1 (← A.div item.highDistance20 (15 / 100))
  let near52Week ← A.sub 1 (← A.div item.highDistance52Week (30 / 100))
  return [
    ("liquidity", item.turnover, item.liquidity, config.liquidityWeight),
    ("relative_strength", strengthRaw, strengthScore, config.relativeStrengthWeight),
    ("momentum_20", item.momentum20, momentum20, config.momentum20Weight),
    ("momentum_60", item.momentum60, momentum60, config.momentum60Weight),
    ("momentum_120", item.momentum120, momentum120, config.momentum120Weight),
    ("high_distance_20", item.highDistance20, clampUnit near20, config.highDistance20Weight),
    ("high_distance_52_week", item.highDistance52Week, clampUnit near52Week,
      config.highDistance52WeekWeight),
    ("higher_high_higher_low", item.higherHighLow, item.higherHighLow,
      config.higherHighLowWeight),
    ("atr_compression", item.atrCompression, item.atrCompression, config.atrCompressionWeight),
    ("pre_breakout_volume_contraction", item.volumeContraction, item.volumeContraction,
      config.volumeContractionWeight),
    ("recent_volume_expansion", item.volumeExpansion, item.volumeExpansion,
      config.volumeExpansionWeight),
    ("weekly_trend", item.weeklyTrend, item.weeklyTrend, config.weeklyTrendWeight)]

def penaltyScores (item : PreparedCandidate) : Except Fault (List PenaltyScore) := do
  let excess ← A.div (← A.sub item.overextensionAtr (3 / 2)) 2
  let overextension ← penaltyScore A "breakout_overextension" item.overextensionAtr
    (clampUnit excess) config.overextensionPenaltyWeight
  let hangover ← penaltyScore A "abnormal_volume_hangover" item.volumeHangover
    item.volumeHangover config.volumeHangoverPenaltyWeight
  return [overextension, hangover]

def score (item : PreparedCandidate) (benchmarkReturn : Option UsableBenchmark)
    (crossSectionalScore : Decimal) : Except Fault CandidateRankResult := do
  let (strengthRaw, strengthScore, strengthSource) ←
    relativeStrength A item benchmarkReturn crossSectionalScore
  let factors ← (← rawFactors config item strengthRaw strengthScore).mapM
    fun (code, rawValue, score, weight) => factorScore A code rawValue score weight
  let penalties ← penaltyScores config item
  let contributions ← A.sum (factors.map (·.contribution))
  let deductions ← A.sum (penalties.map (·.deduction))
  let total ← A.sub contributions deductions
  let totalScore ← A.quantize (max 0 total)
  return {
    symbol := item.metadata.symbol
    market := item.metadata.market
    totalScore
    factorScores := factors
    penalties
    dataAsOf := item.dataAsOf
    validUntil := item.validUntil
    exclusionReason := none
    atr14 := item.atr14
    averageVolume20 := item.averageVolume20
    averageTurnover20 := item.averageTurnover20
    evidence := item.evidence ++
      ⟨"relative_strength_source", .text strengthSource,
        "benchmark is preferred; cross-section is deterministic fallback"⟩ ::
      (benchmarkReturn.map benchmarkEvidence).getD []
    sources := item.metadata.sources
    isHeld := item.metadata.isHeld
    isWatchlisted := item.metadata.isWatchlisted
    eligibleForNewBuy := item.metadata.eligibleForNewBuy }

/-- From the highest score down, then by symbol and market. A quantized score has no more digits
than the context, so that it is negated exactly. -/
def rankKey (result : CandidateRankResult) : Decimal ×ₗ String ×ₗ String :=
  toLex (-result.totalScore, toLex (result.symbol, result.market.text))

def nameKey (result : CandidateRankResult) : String ×ₗ String :=
  toLex (result.symbol, result.market.text)

def chosenBenchmark (candidateBenchmark : Dict CandidateKey UsableBenchmark)
    (benchmark : Dict MarketKey UsableBenchmark) (metadata : CandidateMetadata) :
    Option UsableBenchmark :=
  (candidateBenchmark.get? metadata.key).or (benchmark.get? metadata.market)

/-- What `rank` reads before it looks at any candidate. -/
structure RankSetup where
  current : Instant
  allowed : List MarketKey
  benchmark : Dict MarketKey UsableBenchmark
  candidateBenchmark : Dict CandidateKey UsableBenchmark

/-- `_aware_utc(as_of, "as_of")`. -/
def asOfUtc : Datetime → Except Fault Instant
  | .naive _ => .error (.value "as_of must include a timezone")
  | .aware moment => awareUtc moment

def rankSetup (asOf : Datetime) (allowedMarkets : List String)
    (benchmarkReturns60 : List (String × BenchmarkReturn))
    (benchmarkReturns60ByCandidate : List (Option (String × String) × BenchmarkReturn)) :
    Except Fault RankSetup := do
  let current ← asOfUtc asOf
  let allowed ← normalizeAllowedMarkets normalize allowedMarkets
  let benchmark ← normalizedBenchmarks normalize current config.maximumBarAge benchmarkReturns60
  let candidateBenchmark ← normalizedCandidateBenchmarks normalize current
    config.maximumBarAge benchmarkReturns60ByCandidate
  return { current, allowed, benchmark, candidateBenchmark }

def scoreAll (setup : RankSetup) (prepared : List PreparedCandidate) :
    Except Fault (List CandidateRankResult) := do
  let candidateBenchmark :=
    homogeneousCandidateBenchmarks setup.candidateBenchmark prepared setup.benchmark
  let crossSectional ← crossSectionalStrength A prepared
  prepared.mapM fun item =>
    match crossSectional.get? item.metadata.key with
    | none => .error .index
    | some strength =>
      score config item (chosenBenchmark candidateBenchmark setup.benchmark item.metadata)
        strength

def placed (scored : List CandidateRankResult) : List CandidateRankResult :=
  (Ranking.insertedBy rankKey scored).zipIdx.map fun (item, place) =>
    { item with rankPosition := some (place + 1), rankedTotal := some scored.length }

def rank (candidates : List CandidateMetadata) (bars : CandidateKey → List RawBar)
    (asOf : Datetime) (allowedMarkets : List String)
    (benchmarkReturns60 : List (String × BenchmarkReturn))
    (benchmarkReturns60ByCandidate : List (Option (String × String) × BenchmarkReturn)) :
    Except Fault CandidateRankingBatch := do
  let setup ← rankSetup config normalize asOf allowedMarkets benchmarkReturns60
    benchmarkReturns60ByCandidate
  let outcomes ← candidates.mapM fun metadata =>
    assess config setup.current setup.allowed metadata (bars metadata.key)
  let scored ← scoreAll config setup (outcomes.filterMap Sum.getRight?)
  return {
    ranked := placed scored
    excluded := Ranking.insertedBy nameKey (outcomes.filterMap Sum.getLeft?) }

end KAssetTrader.Ranker
