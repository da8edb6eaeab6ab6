import KAssetTrader.Backtest.Execution
import KAssetTrader.Library.Checked

/-!
The loop of the backtest. A day goes through phases, a phase through actions:
one order, one bar, one position or one candidate after the other. The list of
the actions of a phase is fixed when the phase starts.
-/

namespace KAssetTrader.Backtest

open Position Sizing Checked

def exitKindText : ExitKind → String
  | .stop => "STOP"
  | .stopGap => "STOP_GAP"
  | .partialSell => "PARTIAL_SELL"
  | .trailingStop => "TRAILING_STOP"
  | .trailingStopGap => "TRAILING_STOP_GAP"
  | .timeStop => "TIME_STOP"
  | .trendBroken => "TREND_BROKEN"

/-- The arguments of `run_portfolio_backtest`. -/
structure PortfolioBacktest where
  engine : Engine
  config : PortfolioBacktestConfig
  candidates : List CandidateMetadata
  barsByCandidate : Dict CandidateKey (List PriceBar)
  benchmarkBarsByMarket : List (MarketKey × List PriceBar) := []
  benchmarkBarsByCandidate : List (CandidateKey × CandidateBenchmarkSeries) := []
  window : Option BacktestWindow := none
  entryPath : PortfolioEntryPath := .breakoutBaseline

/-- The inputs of the loop, once they have been checked. -/
structure Prepared where
  metadata : List CandidateMetadata
  bars : List (CandidateKey × List PriceBar)
  benchmarks : Benchmarks

/-- The bars that complete at one instant, in the order of their keys. -/
structure Day where
  timestamp : Instant
  current : List (CandidateKey × PriceBar)

structure Loop where
  state : RunState
  histories : Histories

def Loop.history (loop : Loop) (key : CandidateKey) : List PriceBar :=
  (loop.histories.get? key).getD []

def prices (price : PriceBar → Decimal) (day : Day) (loop : Loop) :
    List (CandidateKey × OpenPrice) :=
  day.current.map fun (key, bar) => (key, ⟨day.timestamp, price bar, (loop.history key).length⟩)

section Queues

variable (engine : Engine) (config : PortfolioBacktestConfig)

def queueExit (s : RunState) (key : CandidateKey) (timestamp : Instant) (observedBarCount : ℕ)
    (exit : PositionExitSignal) : RunState :=
  { s with
    signals := s.signals ++
      [{ key, action := .sell, signalAt := timestamp, observedBarCount, rankPosition := none
         reason := exitKindText exit.kind }]
    pendingExits := s.pendingExits.set key
      { key, signalIndex := s.signals.length, quantityFraction := exit.quantityFraction
        reason := exit.kind } }

def RunState.manage (s : RunState) (key : CandidateKey) (barsHeld : ℤ)
    (managerState : ManagedPositionState) : RunState :=
  { s with positions := s.positions.modify key fun position =>
      { position with barsHeld, managerState } }

/-- `_queue_position_exits`, for one position. -/
def queuePositionExit (day : Day) (regimes : MarketKey → RegimeAssessment) (loop : Loop)
    (key : CandidateKey) : Except String RunState :=
  let s := loop.state
  match s.positions.get? key with
  | none => .ok s
  | some position =>
    if key ∉ day.current.map Prod.fst ∨ (s.pendingExits.get? key).isSome ∨
        day.timestamp ≤ position.entryAt then .ok s
    else do
      let history := loop.history key
      let decision ←
        evaluateBreakoutEnsemble engine key history day.timestamp (regimes key.market)
      let barsHeld := position.barsHeld + 1
      match history.getLast? with
      | none => .error "IndexError"
      | some bar => do
          let positionBar ← PositionBar.make bar.timestamp bar.openPrice bar.high bar.low
            bar.close bar.timestamp bar.timestamp
          let evaluation ← evaluatePosition engine.ctx config.positionManager
            position.managerState positionBar barsHeld (decision.action ≠ .sell)
          let managed := s.manage key barsHeld evaluation.state
          return match evaluation.signal with
            | none => managed
            | some exit => queueExit managed key day.timestamp history.length exit

def queueEntry (s : RunState) (candidate : CandidateRankResult) (timestamp : Instant)
    (observedBarCount : ℕ) (atr : Decimal) (rankPosition : ℤ) (regime : MarketRegime)
    (entry : EntrySignalDecision) : RunState :=
  { s with
    signals := s.signals ++
      [{ key := candidate.key, action := .buy, signalAt := timestamp, observedBarCount
         rankPosition := some rankPosition, reason := entry.reason, regime := some regime }]
    pendingEntries := s.pendingEntries.set candidate.key
      { key := candidate.key, signalIndex := s.signals.length, stop := entry.stop, atr, regime
        averageVolume := candidate.averageVolume20
        averageTurnover := candidate.averageTurnover20
        rankPosition } }

/-- `_queue_entries`, for one candidate. -/
def queueCandidate (entryPath : PortfolioEntryPath) (day : Day)
    (regimes : MarketKey → RegimeAssessment) (loop : Loop) (candidate : CandidateRankResult) :
    Except String RunState :=
  let s := loop.state
  let key := candidate.key
  if key ∉ day.current.map Prod.fst ∨ (s.positions.get? key).isSome ∨
      (s.pendingEntries.get? key).isSome ∨ ¬ candidate.eligibleForNewBuy then .ok s
  else match candidate.atr14, candidate.rankPosition with
    | some atr, some rankPosition => do
        let history := loop.history key
        let regime := regimes candidate.market
        let entry ← evaluateEntryPath engine entryPath key history day.timestamp regime
        return match entry with
          | none => s
          | some entry => queueEntry s candidate day.timestamp history.length atr rankPosition
              regime.regime entry
    | _, _ => .ok s

end Queues

/-- One bar joins its history and marks its position. -/
def appendBar (loop : Loop) (key : CandidateKey) (bar : PriceBar) : Loop where
  histories := loop.histories.modify key (· ++ [bar])
  state := { loop.state with
    positions := loop.state.positions.modify key fun position =>
      { position with lastClose := bar.close } }

inductive Phase where
  | executeExits
  | executeEntries
  | appendBars
  | recordEquity
  | queueExits
  | queueEntries
  deriving DecidableEq

inductive Action where
  | executeExit (opens : List (CandidateKey × OpenPrice)) (order : PendingExit)
  | executeEntry (opens : List (CandidateKey × OpenPrice)) (order : PendingEntry)
  | appendBar (key : CandidateKey) (bar : PriceBar)
  | recordEquity
  | queueExit (regimes : MarketKey → RegimeAssessment) (key : CandidateKey)
  | queueEntry (regimes : MarketKey → RegimeAssessment) (candidate : CandidateRankResult)

namespace PortfolioBacktest

variable (b : PortfolioBacktest)

def prepare : Except String Prepared := do
  let metadata ← validateCandidates b.candidates
  if b.entryPath ≠ .breakoutBaseline ∧ metadata.any (·.market ≠ .kr) then
    .error (b.entryPath.text ++ " supports KR candidates only")
  else
    let bars ← normalizeCandidateBars metadata b.barsByCandidate
    let byMarket ← normalizeBenchmarks b.benchmarkBarsByMarket
    let byCandidate ← normalizeCandidateBenchmarks metadata b.benchmarkBarsByCandidate
    if b.engine.strategies.isEmpty then .error "at least one deterministic strategy is required"
    else return ⟨metadata, bars, ⟨byMarket, byCandidate⟩⟩

def eventRows (bars : List (CandidateKey × List PriceBar)) : List (CandidateKey × PriceBar) :=
  bars.flatMap fun (key, bars) =>
    (bars.filter fun bar => b.window.all (bar.timestamp ≤ ·.endAt)).map (key, ·)

def timestamps (rows : List (CandidateKey × PriceBar)) : List Instant :=
  (rows.map (·.2.timestamp)).dedup.insertionSort (· ≤ ·)

def days (rows : List (CandidateKey × PriceBar)) : List Day :=
  (timestamps rows).map fun timestamp =>
    { timestamp
      current := (rows.filter (·.2.timestamp = timestamp)).insertionSort fun a b => a.1.le b.1 }

def recordsAt (timestamp : Instant) : Bool := b.window.all (·.signalStartAt ≤ timestamp)

/-- The phases of a day. A day before the window only warms up. -/
def phases (timestamp : Instant) : List Phase :=
  let record := if b.recordsAt timestamp then [Phase.recordEquity] else []
  let warmUp := b.window.any (timestamp < ·.signalStartAt)
  match b.config.entryFill with
  | .nextOpen =>
    [.executeExits, .executeEntries, .appendBars] ++ record ++
      if warmUp then [] else [.queueExits, .queueEntries]
  | .signalClose =>
    [.appendBars] ++
      if warmUp then []
      else [.queueExits, .queueEntries, .executeExits, .executeEntries] ++ record

/-- The prices at which the orders of a day are executed: its opens before its
bars complete, or else its closes. -/
def executionPrices (day : Day) (loop : Loop) : List (CandidateKey × OpenPrice) :=
  match b.config.entryFill with
  | .nextOpen => prices (·.openPrice) day loop
  | .signalClose => prices (·.close) day loop

def actions (prepared : Prepared) (day : Day) (loop : Loop) : Phase → Except String (List Action)
  | .executeExits =>
    let opens := b.executionPrices day loop
    .ok ((dueExits b.config opens loop.state).map (.executeExit opens))
  | .executeEntries =>
    let opens := b.executionPrices day loop
    .ok ((dueEntries b.config opens loop.state).map (.executeEntry opens))
  | .appendBars => .ok (day.current.map fun (key, bar) => .appendBar key bar)
  | .recordEquity => .ok [.recordEquity]
  | .queueExits => do
      let regimes ← assessRegimes b.engine loop.histories
      return (loop.state.positions.keys.insertionSort CandidateKey.le).map (.queueExit regimes)
  | .queueEntries => do
      let regimes ← assessRegimes b.engine loop.histories
      let returns ← prepared.benchmarks.returns b.engine day.timestamp
      let ranked ← b.engine.rank prepared.metadata loop.histories day.timestamp returns
      return (ranked.take b.config.candidateTopN).map (.queueEntry regimes)

def perform (day : Day) (loop : Loop) : Action → Except String Loop
  | .executeExit opens order => do
      let state ← executeExit b.engine b.config opens loop.state order
      return { loop with state }
  | .executeEntry opens order => do
      let state ← executeEntry b.engine b.config opens loop.state order
      return { loop with state }
  | .appendBar key bar => .ok (appendBar loop key bar)
  | .recordEquity => .ok { loop with state := recordEquity b.engine loop.state day.timestamp }
  | .queueExit regimes key => do
      let state ← queuePositionExit b.engine b.config day regimes loop key
      return { loop with state }
  | .queueEntry regimes candidate => do
      let state ← queueCandidate b.engine b.entryPath day regimes loop candidate
      return { loop with state }

def runPhase (prepared : Prepared) (day : Day) (loop : Loop) (phase : Phase) :
    Except String Loop := do
  let actions ← b.actions prepared day loop phase
  actions.foldlM (b.perform day) loop

def runDay (prepared : Prepared) (loop : Loop) (day : Day) : Except String Loop :=
  (b.phases day.timestamp).foldlM (b.runPhase prepared day) loop

/-- The state before the first day. -/
def start (prepared : Prepared) : Loop where
  state := { cash := b.config.initialCash, peakEquity := b.config.initialCash }
  histories := prepared.metadata.foldl (fun histories candidate => histories.set candidate.key [])
    .empty

def runLoop : Except String (List Instant × Loop) := do
  let prepared ← b.prepare
  let rows := b.eventRows prepared.bars
  if rows = [] then .error "at least one price bar is required"
  else
    let loop ← (days rows).foldlM (b.runDay prepared) (b.start prepared)
    return (timestamps rows, loop)

end PortfolioBacktest

structure PortfolioOpenPosition where
  key : CandidateKey
  entrySignalAt : Instant
  entryAt : Instant
  entryPrice : Decimal
  quantity : Decimal
  lastClose : Decimal
  unrealizedPnl : Decimal

/-- The result of a run, less the figures that are computed from it. The
entries, which the source keeps in its positions and trades only, are added. -/
structure PortfolioBacktestResult where
  finalCash : Decimal
  finalEquity : Decimal
  feesPaid : Decimal
  taxesPaid : Decimal
  slippageCost : Decimal
  signals : List PortfolioSignal
  entries : List EntryFill
  trades : List PortfolioTrade
  equityCurve : List EquityPoint
  openPositions : List PortfolioOpenPosition

/-- A signal that is still pending has found no later bar. -/
def PortfolioSignal.close (signal : PortfolioSignal) : PortfolioSignal :=
  if signal.status = .pending then { signal with status := .unfilledEndOfData } else signal

namespace PortfolioBacktest

variable (b : PortfolioBacktest)

/-- The state after the last day, with the equity at its end. -/
def closeRun (s : RunState) (finalTimestamp : Instant) : RunState :=
  let closed := { s with signals := s.signals.map (·.close) }
  if s.equityCurve.getLast?.all (·.timestamp ≠ finalTimestamp) then
    recordEquity b.engine closed finalTimestamp
  else closed

def openPosition (key : CandidateKey) (position : PortfolioPosition) : PortfolioOpenPosition where
  key
  entrySignalAt := position.entrySignalAt
  entryAt := position.entryAt
  entryPrice := q position.entryPrice
  quantity := q position.quantity
  lastClose := q position.lastClose
  unrealizedPnl :=
    let ctx := b.engine.ctx
    q (ctx.sub (ctx.mul (ctx.sub position.lastClose position.entryPrice) position.quantity)
      position.entryFeeRemaining)

def result (s : RunState) : PortfolioBacktestResult where
  finalCash := q s.cash
  finalEquity := q ((s.equityCurve.getLast?.map (·.equity)).getD 0)
  feesPaid := q s.feesPaid
  taxesPaid := q s.taxesPaid
  slippageCost := q s.slippageCost
  signals := s.signals
  entries := s.entries
  trades := s.trades b.engine.ctx
  equityCurve := s.equityCurve
  openPositions := (s.positions.entries.insertionSort fun a b => a.1.le b.1).map fun e =>
    b.openPosition e.1 e.2

def runPortfolioBacktest : Except String PortfolioBacktestResult := do
  let (timestamps, loop) ← b.runLoop
  return b.result (b.closeRun loop.state (timestamps.getLast?.getD 0))

/-- The states that the loop reaches: before its first day, and after any
number of actions in any phase of any day, also when a later action raises. -/
def Reaches (loop : Loop) : Prop :=
  ∃ prepared, b.prepare = .ok prepared ∧
    (loop = b.start prepared ∨
      VisitsInside (b.runDay prepared)
        (fun loop day loop' => VisitsInside (b.runPhase prepared day)
          (fun loop phase loop' => ∃ actions, b.actions prepared day loop phase = .ok actions ∧
            Visits (b.perform day) loop actions loop')
          loop (b.phases day.timestamp) loop')
        (b.start prepared) (days (b.eventRows prepared.bars)) loop)

end PortfolioBacktest

end KAssetTrader.Backtest
