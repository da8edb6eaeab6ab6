import KAssetTrader.Library.Dict
import KAssetTrader.Sizing.PositionSize

/-!
The inputs of a portfolio backtest: candidates, their bars and benchmarks, the
costs and the configuration, and the checks that a run makes of them before its
first day. Texts are already stripped and in upper case.
-/

namespace KAssetTrader.Backtest

open Position Sizing

inductive MarketKey where
  | kr
  | us
  deriving DecidableEq

def MarketKey.text : MarketKey → String
  | .kr => "KR"
  | .us => "US"

def executionMarket : MarketKey → Market
  | .kr => .krx
  | .us => .us

structure CandidateKey where
  market : MarketKey
  symbol : String
  deriving DecidableEq

def CandidateKey.le (a b : CandidateKey) : Prop :=
  a.market.text < b.market.text ∨ (a.market = b.market ∧ a.symbol ≤ b.symbol)

instance (a b : CandidateKey) : Decidable (a.le b) := by
  unfold CandidateKey.le
  infer_instance

structure PriceBar where
  timestamp : Instant
  openPrice : Decimal
  high : Decimal
  low : Decimal
  close : Decimal
  volume : Decimal
  deriving DecidableEq

/-- A `BenchmarkReturn` that has a return and an instant. -/
structure UsableBenchmark where
  market : MarketKey
  return60 : Decimal
  dataAsOf : Instant
  benchmarkSymbol : Option String

theorem no_minimum : (0 : Decimal) ≤ 0 := le_rfl

/-- `MarketExecutionCost`; the last fields are the checks of its constructor. -/
structure MarketExecutionCost where
  feeRate : Decimal
  slippageRate : Decimal
  sellTaxRate : Decimal := 0
  minFeeAbsolute : Decimal := 0
  fee_between : 0 ≤ feeRate ∧ feeRate < 1 := by norm_num
  slippage_between : 0 ≤ slippageRate ∧ slippageRate < 1 := by norm_num
  tax_between : 0 ≤ sellTaxRate ∧ sellTaxRate < 1 := by norm_num
  minimum_nonneg : 0 ≤ minFeeAbsolute := by first | exact no_minimum | norm_num

inductive EntryFillMode where
  | nextOpen
  | signalClose

inductive SlippageMode where
  | adverseRate
  | none

/-- `PortfolioBacktestConfig`; the last fields are the checks of its
constructor. -/
structure PortfolioBacktestConfig where
  initialCash : Decimal := 100000000
  maxPositions : ℕ := 5
  candidateTopN : ℕ := 12
  riskPerTradeRate : Decimal := 1 / 100
  maxSymbolAllocation : Decimal := 1 / 5
  krCost : MarketExecutionCost := { feeRate := 15 / 10000, slippageRate := 1 / 1000 }
  usCost : MarketExecutionCost := { feeRate := 1 / 1000, slippageRate := 5 / 10000 }
  strategyVersion : String
  positionSizing : PositionSizingConfig := default
  positionManager : PositionManagerConfig := default
  executionDelayBars : ℕ := 1
  entryFill : EntryFillMode := .nextOpen
  slippageMode : SlippageMode := .adverseRate
  cash_positive : 0 < initialCash := by norm_num
  risk_between : 0 < riskPerTradeRate ∧ riskPerTradeRate ≤ 1 := by norm_num
  allocation_between : 0 < maxSymbolAllocation ∧ maxSymbolAllocation ≤ 1 := by norm_num
  positions_positive : 1 ≤ maxPositions := by norm_num
  top_covers : maxPositions ≤ candidateTopN := by norm_num
  delay_positive : 1 ≤ executionDelayBars := by norm_num
  version_nonempty : strategyVersion ≠ "" := by decide

namespace PortfolioBacktestConfig

variable (config : PortfolioBacktestConfig)

def costFor : MarketKey → MarketExecutionCost
  | .kr => config.krCost
  | .us => config.usCost

/-- The rate by which a fill is worse than the reference price. -/
def slippageRate (market : MarketKey) : Decimal :=
  match config.slippageMode with
  | .adverseRate => (config.costFor market).slippageRate
  | .none => 0

theorem slippageRate_between (market : MarketKey) :
    0 ≤ config.slippageRate market ∧ config.slippageRate market < 1 := by
  unfold slippageRate
  split
  · exact (config.costFor market).slippage_between
  · norm_num

end PortfolioBacktestConfig

/-- `BacktestWindow`; the last field is the check of its constructor. -/
structure BacktestWindow where
  signalStartAt : Instant
  endAt : Instant
  start_lt_end : signalStartAt < endAt := by norm_num

/-- A candidate, as far as the engine itself reads it. -/
structure CandidateMetadata where
  market : MarketKey
  symbol : String

def CandidateMetadata.key (candidate : CandidateMetadata) : CandidateKey :=
  ⟨candidate.market, candidate.symbol⟩

structure CandidateBenchmarkSeries where
  benchmarkSymbol : String
  bars : List PriceBar

def validateCandidates (candidates : List CandidateMetadata) :
    Except String (List CandidateMetadata) :=
  if candidates = [] then .error "at least one candidate is required"
  else if ¬ (candidates.map (·.key)).Nodup then
    .error "candidate market/symbol keys must be unique"
  else .ok (candidates.insertionSort fun a b => a.key.le b.key)

/-- One bar of `_normalize_bars`, after the instant of the one before. -/
def checkBar (field : String) (previous : Option Instant) (bar : PriceBar) : Except String Unit :=
  if previous.any (bar.timestamp ≤ ·) then
    .error (field ++ " timestamps must be strictly increasing")
  else if bar.openPrice ≤ 0 ∨ bar.high ≤ 0 ∨ bar.low ≤ 0 ∨ bar.close ≤ 0 then
    .error (field ++ " OHLC must be finite and positive")
  else if bar.volume < 0 then .error (field ++ " volume must be finite and non-negative")
  else if bar.high < max bar.openPrice bar.close ∨ min bar.openPrice bar.close < bar.low then
    .error (field ++ " OHLC range is inconsistent")
  else .ok ()

/-- `_normalize_bars`, after the instant of the bar before. -/
def checkBars (field : String) (previous : Option Instant) : List PriceBar → Except String Unit
  | [] => .ok ()
  | bar :: rest => do
      checkBar field previous bar
      checkBars field (some bar.timestamp) rest

/-- `_normalize_bars`; the bars are allowed to be empty. -/
def normalizeBars (field : String) (bars : List PriceBar) : Except String (List PriceBar) := do
  checkBars field none bars
  return bars

/-- `_normalize_candidate_bars`: the bars of every candidate, in the order of
the candidates. -/
def normalizeCandidateBars (candidates : List CandidateMetadata)
    (barsByCandidate : Dict CandidateKey (List PriceBar)) :
    Except String (List (CandidateKey × List PriceBar)) :=
  if barsByCandidate.keys.any (· ∉ candidates.map (·.key)) then
    .error "bars contain unknown candidate keys"
  else candidates.mapM fun candidate => do
    let bars ← normalizeBars
      ("bars[" ++ candidate.market.text ++ "," ++ candidate.symbol ++ "]")
      ((barsByCandidate.get? candidate.key).getD [])
    return (candidate.key, bars)

def normalizeBenchmarks (benchmarks : List (MarketKey × List PriceBar)) :
    Except String (List (MarketKey × List PriceBar)) :=
  benchmarks.mapM fun (market, bars) => do
    let bars ← normalizeBars ("benchmark[" ++ market.text ++ "]") bars
    return (market, bars)

def normalizeCandidateBenchmarks (candidates : List CandidateMetadata)
    (benchmarks : List (CandidateKey × CandidateBenchmarkSeries)) :
    Except String (List (CandidateKey × CandidateBenchmarkSeries)) :=
  if benchmarks.any (·.1 ∉ candidates.map (·.key)) then
    .error "candidate benchmarks contain unknown keys"
  else benchmarks.mapM fun (key, series) =>
    if series.benchmarkSymbol = "" then .error "candidate benchmark symbol is required"
    else do
      let bars ← normalizeBars ("candidate_benchmark[" ++ key.market.text ++ "," ++ key.symbol ++
        ":" ++ series.benchmarkSymbol ++ "]") series.bars
      return (key, { series with bars })

def PriceBar.Quoted (bar : PriceBar) : Prop := 0 < bar.openPrice ∧ 0 < bar.close

variable {field : String} {previous : Option Instant}

theorem checkBar_quoted {bar : PriceBar} (h : checkBar field previous bar = .ok ()) :
    bar.Quoted := by
  unfold checkBar at h
  split at h
  · cases h
  · split at h
    · cases h
    next hprices =>
      simp only [not_or, not_le] at hprices
      exact ⟨hprices.1, hprices.2.2.2⟩

theorem checkBars_quoted {bars : List PriceBar} (h : checkBars field previous bars = .ok ()) :
    ∀ bar ∈ bars, bar.Quoted := by
  induction bars generalizing previous with
  | nil => simp
  | cons bar rest ih =>
    obtain ⟨_, hbar, hrest⟩ := Checked.bind_ok_iff.mp h
    exact List.forall_mem_cons.mpr ⟨checkBar_quoted hbar, ih hrest⟩

theorem normalizeBars_ok {bars result : List PriceBar} (h : normalizeBars field bars = .ok result) :
    result = bars ∧ ∀ bar ∈ bars, bar.Quoted := by
  obtain ⟨_, hchecked, h⟩ := Checked.bind_ok_iff.mp h
  exact ⟨(Except.ok.inj h).symm, checkBars_quoted hchecked⟩

theorem normalizeCandidateBars_ok {candidates : List CandidateMetadata}
    {barsByCandidate : Dict CandidateKey (List PriceBar)}
    {result : List (CandidateKey × List PriceBar)}
    (h : normalizeCandidateBars candidates barsByCandidate = .ok result) :
    result = candidates.map (fun candidate =>
        (candidate.key, (barsByCandidate.get? candidate.key).getD [])) ∧
      ∀ row ∈ result, ∀ bar ∈ row.2, bar.Quoted := by
  unfold normalizeCandidateBars at h
  split at h
  · cases h
  · refine Checked.map_of_mapM_ok (P := fun row => ∀ bar ∈ row.2, bar.Quoted)
      (fun candidate row hrow => ?_) h
    obtain ⟨bars, hbars, hrow⟩ := Checked.bind_ok_iff.mp hrow
    cases hrow
    obtain ⟨rfl, hquoted⟩ := normalizeBars_ok hbars
    exact ⟨rfl, hquoted⟩

end KAssetTrader.Backtest
