import KAssetTrader.Backtest.Inputs

/-!
What a day of the backtest decides, and from what. Strategies, the ranker, the
regime assessment, the shadow setups, the benchmark returns and the exchange
calendar are functions of the completed bars and the instant that the engine
passes to them; the engine composes them.
-/

namespace KAssetTrader.Backtest

open Position Sizing

inductive SignalAction where
  | buy
  | sell
  | hold
  deriving DecidableEq

inductive StrategyName where
  | momentum
  | meanReversion
  | breakout
  | volatilityTrend
  deriving DecidableEq

def breakoutFamily : List StrategyName := [.momentum, .breakout, .volatilityTrend]

structure StrategyResult where
  action : SignalAction
  confidence : Decimal
  stop : Option Decimal
  strategy : StrategyName

structure DeterministicStrategy where
  evaluate : List PriceBar → String → Market → Instant → Except String StrategyResult

structure RegimeAssessment where
  regime : MarketRegime
  weights : StrategyName → Decimal

structure WeightedEnsembleDecision where
  action : SignalAction
  agreeing : List StrategyResult

inductive ShadowSetup where
  | firstPullback
  | nr7InsideDay

structure ShadowSetupEntrySignal where
  triggered : Bool
  stopPrice : Option Decimal
  subtype : String

inductive PortfolioEntryPath where
  | breakoutBaseline
  | firstPullback
  | nr7InsideDay
  deriving DecidableEq

def PortfolioEntryPath.text : PortfolioEntryPath → String
  | .breakoutBaseline => "breakout-baseline"
  | .firstPullback => "first-pullback"
  | .nr7InsideDay => "nr7-inside-day"

/-- `CandidateRankResult`, as far as the engine reads it. -/
structure CandidateRankResult where
  market : MarketKey
  symbol : String
  atr14 : Option Decimal
  averageVolume20 : Option Decimal
  averageTurnover20 : Option Decimal
  eligibleForNewBuy : Bool
  rankPosition : Option ℤ

def CandidateRankResult.key (candidate : CandidateRankResult) : CandidateKey :=
  ⟨candidate.market, candidate.symbol⟩

abbrev Histories := Dict CandidateKey (List PriceBar)

structure BenchmarkReturns where
  byMarket : List (MarketKey × UsableBenchmark)
  byCandidate : List (CandidateKey × UsableBenchmark)

structure Engine where
  ctx : Decimal.Context
  strategies : List DeterministicStrategy
  assessMarketRegime : List (String × List PriceBar) → Except String RegimeAssessment
  rank : List CandidateMetadata → Histories → Instant → BenchmarkReturns →
    Except String (List CandidateRankResult)
  evaluateShadowSetupEntry : List PriceBar → ShadowSetup → String → Instant →
    Except String ShadowSetupEntrySignal
  computeBenchmarkReturn60 : List PriceBar → MarketKey → String → Instant →
    Except String (Option UsableBenchmark)
  sessionsOpenedSince : Market → Instant → Instant → Option ℤ

structure EntrySignalDecision where
  stop : Decimal
  reason : String

section Ensemble

variable (ctx : Decimal.Context)

def direction : SignalAction → Decimal
  | .buy => 1
  | .sell => -1
  | .hold => 0

/-- `compose_weighted_ensemble` over the breakout family. -/
def composeWeightedEnsemble (results : List StrategyResult) (weights : StrategyName → Decimal) :
    Except String WeightedEnsembleDecision :=
  let total := ctx.sum (breakoutFamily.map weights)
  if breakoutFamily.any (weights · < 0) then .error "invalid strategy weight"
  else if total ≤ 0 then .error "strategy weights must have a positive sum"
  else
    -- The last result of a strategy counts.
    let votes := breakoutFamily.filterMap fun name =>
      results.reverse.find? (·.strategy = name)
    let score := ctx.sum (votes.map fun result =>
      ctx.mul (ctx.mul (direction result.action) result.confidence)
        (ctx.div (weights result.strategy) total))
    let action : SignalAction :=
      if 1 / 4 ≤ score then .buy else if score ≤ -(1 / 4) then .sell else .hold
    let agreeing := results.filter fun result =>
      result.strategy ∈ breakoutFamily ∧ result.action = action
    if action = .hold ∨ agreeing = [] then .ok ⟨.hold, []⟩ else .ok ⟨action, agreeing⟩

/-- `_median_level` of the stops. -/
def medianStop (results : List StrategyResult) : Option Decimal :=
  let values := (results.filterMap fun result => result.stop.filter (0 < ·)).insertionSort (· ≤ ·)
  values[values.length / 2]?

end Ensemble

variable (engine : Engine)

def evaluateBreakoutEnsemble (key : CandidateKey) (bars : List PriceBar) (timestamp : Instant)
    (regime : RegimeAssessment) : Except String WeightedEnsembleDecision := do
  let results ← engine.strategies.mapM fun strategy =>
    strategy.evaluate bars key.symbol (executionMarket key.market) timestamp
  composeWeightedEnsemble engine.ctx results regime.weights

def evaluateSetupPath (setup : ShadowSetup) (entryPath : PortfolioEntryPath) (key : CandidateKey)
    (bars : List PriceBar) (timestamp : Instant) : Except String (Option EntrySignalDecision) :=
  if key.market ≠ .kr then .ok none
  else do
    let signal ← engine.evaluateShadowSetupEntry bars setup key.symbol timestamp
    return match signal.triggered, signal.stopPrice with
      | true, some stop =>
        some ⟨stop, "ranked_top_n_" ++ entryPath.text ++ ":" ++ signal.subtype⟩
      | _, _ => none

def evaluateEntryPath (entryPath : PortfolioEntryPath) (key : CandidateKey) (bars : List PriceBar)
    (timestamp : Instant) (regime : RegimeAssessment) :
    Except String (Option EntrySignalDecision) :=
  match entryPath with
  | .breakoutBaseline => do
      let decision ← evaluateBreakoutEnsemble engine key bars timestamp regime
      return if decision.action = .buy then
        (medianStop decision.agreeing).map (⟨·, "ranked_top_n_regime_weighted_buy"⟩)
      else none
  | .firstPullback => evaluateSetupPath engine .firstPullback entryPath key bars timestamp
  | .nr7InsideDay => evaluateSetupPath engine .nr7InsideDay entryPath key bars timestamp

def assessRegimes (histories : Histories) : Except String (MarketKey → RegimeAssessment) := do
  let barsOf (market : MarketKey) := (histories.entries.filter (·.1.market = market)).map
    fun (key, bars) => (key.symbol, bars)
  let kr ← engine.assessMarketRegime (barsOf .kr)
  let us ← engine.assessMarketRegime (barsOf .us)
  return fun | .kr => kr | .us => us

structure Benchmarks where
  byMarket : List (MarketKey × List PriceBar)
  byCandidate : List (CandidateKey × CandidateBenchmarkSeries)

def completedAt (asOf : Instant) (bars : List PriceBar) : List PriceBar :=
  bars.filter (·.timestamp ≤ asOf)

def rollingBenchmarkReturns (benchmarks : List (MarketKey × List PriceBar)) (asOf : Instant) :
    Except String (List (MarketKey × UsableBenchmark)) := do
  let returns ← benchmarks.mapM fun (market, bars) => do
    let result ← engine.computeBenchmarkReturn60 (completedAt asOf bars) market
      (if market = .kr then "KOSPI" else "SPY") asOf
    return result.map (market, ·)
  return returns.filterMap id

def rollingCandidateBenchmarkReturns
    (benchmarks : List (CandidateKey × CandidateBenchmarkSeries)) (asOf : Instant) :
    Except String (List (CandidateKey × UsableBenchmark)) := do
  let returns ← benchmarks.mapM fun (key, series) => do
    let result ← engine.computeBenchmarkReturn60 (completedAt asOf series.bars) key.market
      series.benchmarkSymbol asOf
    return result.map (key, ·)
  return returns.filterMap id

/-- The returns that the ranking of a day uses. Series of candidates replace
those of the markets. -/
def Benchmarks.returns (benchmarks : Benchmarks) (asOf : Instant) :
    Except String BenchmarkReturns := do
  let byMarket ← rollingBenchmarkReturns engine
    (if benchmarks.byCandidate = [] then benchmarks.byMarket else []) asOf
  let byCandidate ← rollingCandidateBenchmarkReturns engine benchmarks.byCandidate asOf
  return ⟨byMarket, byCandidate⟩

end KAssetTrader.Backtest
