import Mathlib.Data.Prod.Lex
import Mathlib.Data.String.Basic
import KAssetTrader.Library.CivilTime
import KAssetTrader.Library.Counter
import KAssetTrader.Longterm.Trend

/-!
The growth condition on the quarters that were filed by the signal session, and the selection
of a cohort. A period may be filed again; the row that counts is the one filed last. The
judgement goes through the most recent quarters and stops at the first condition that fails.
Both candidates rank the symbols that passed the trend filter by momentum, and the second one
asks for growth as well. Every evaluated symbol is a signal or is counted under the reason
why it is none.
-/

namespace KAssetTrader.Longterm

open CivilTime (Date dateMin)
open Swing (Failure Number outside context numberText)

/-- A stored quarter; its values are those of the single quarter. -/
structure QuarterFact where
  fiscalPeriod : String
  periodEndDate : Date
  filingDate : Option Date
  source : Option String
  discreteRevenue : Option Number
  discreteNetIncome : Option Number

/-- What the rows of one period are compared by; a missing source counts as the empty text. -/
def QuarterFact.filingKey (fact : QuarterFact) : Date ×ₗ String :=
  toLex (fact.filingDate.getD dateMin, fact.source.getD "")

def QuarterFact.filedBy (signalSession : Date) (fact : QuarterFact) : Bool :=
  fact.filingDate.any (· ≤ signalSession)

def showFact (signalSession : Date) (visible : Dict Date QuarterFact) (fact : QuarterFact) :
    Dict Date QuarterFact :=
  if fact.filedBy signalSession then
    match visible.get? fact.periodEndDate with
    | none => visible.set fact.periodEndDate fact
    | some current =>
      if current.filingKey < fact.filingKey then visible.set fact.periodEndDate fact
      else visible
  else visible

def visibleQuarters (signalSession : Date) (facts : List QuarterFact) : Dict Date QuarterFact :=
  facts.foldl (showFact signalSession) Dict.empty

structure QuarterEvidence where
  fiscalPeriod : String
  periodEnd : Date
  filingDate : Option Date
  source : Option String
  discreteRevenue : Option (List Char)
  discreteNetIncome : Option (List Char)

structure TtmEvidence where
  asOfSession : Date
  latestPeriodEnd : Date
  ttmRevenue : List Char
  priorTtmRevenue : List Char
  ttmNetIncome : List Char
  priorTtmNetIncome : List Char

structure GrowthEvidence where
  netIncomeGrowth : List Char
  revenueGrowth : List Char

/-- What the judgement shows; the later parts are there once it comes to them. -/
structure FundamentalsEvidence where
  visibleQuarters : ℕ
  quarters : List QuarterEvidence
  ttm : Option TtmEvidence := none
  growth : Option GrowthEvidence := none

structure FundamentalsEvaluation where
  reason : Option NoSignalReason
  evidence : Option FundamentalsEvidence

variable (config : LongtermShadowConfig)

def monthIndex (day : Date) : ℤ := day.year * 12 + day.month

/-- The most recent quarters, newest first, at most as many as are needed. -/
def recentQuarters (visible : Dict Date QuarterFact) : List QuarterFact :=
  (Ranking.insertedBy QuarterFact.periodEndDate visible.values).reverse.take
    (config.ttmQuarters * 2)

def optionalText : Option Number → Except Failure (Option (List Char))
  | none => .ok none
  | some value => some <$> numberText value

def QuarterFact.evidence (fact : QuarterFact) : Except Failure QuarterEvidence := do
  let discreteRevenue ← optionalText fact.discreteRevenue
  let discreteNetIncome ← optionalText fact.discreteNetIncome
  return {
    fiscalPeriod := fact.fiscalPeriod
    periodEnd := fact.periodEndDate
    filingDate := fact.filingDate
    source := fact.source
    discreteRevenue, discreteNetIncome }

/-- Two neighbours are not three months apart. -/
def quarterGap : List QuarterFact → Bool
  | newer :: older :: rest =>
    monthIndex newer.periodEndDate - monthIndex older.periodEndDate ≠ 3 ||
      quarterGap (older :: rest)
  | _ => false

/-- The revenue and the net income of a quarter that has both. -/
def QuarterFact.discrete (fact : QuarterFact) : Option (Number × Number) := do
  let revenue ← fact.discreteRevenue
  let netIncome ← fact.discreteNetIncome
  return (revenue, netIncome)

def growthOver (current prior : Number) : Except Failure Number := do
  (← current.divide prior).add (.finite (-1))

def judgeGrowth (evidence : FundamentalsEvidence)
    (ttmRevenue priorRevenue ttmIncome priorIncome : Number) :
    Except Failure FundamentalsEvaluation := do
  let incomeGrowth ← growthOver ttmIncome priorIncome
  let revenueGrowth ← growthOver ttmRevenue priorRevenue
  let netIncomeText ← numberText incomeGrowth
  let revenueText ← numberText revenueGrowth
  let evidence := { evidence with growth := some ⟨netIncomeText, revenueText⟩ }
  if ← incomeGrowth.lessThan (.finite config.minGrowth) then
    return ⟨some .netIncomeGrowthBelowMinimum, some evidence⟩
  if ← revenueGrowth.lessThan (.finite config.minGrowth) then
    return ⟨some .revenueGrowthBelowMinimum, some evidence⟩
  return ⟨none, some evidence⟩

/-- The sums over the recent quarters and over those before them. -/
def judgeTtm (signalSession latest : Date) (evidence : FundamentalsEvidence)
    (values : List (Number × Number)) : Except Failure FundamentalsEvaluation := do
  let ttm := values.take config.ttmQuarters
  let prior := values.drop config.ttmQuarters
  let ttmRevenue ← Number.sum (ttm.map Prod.fst)
  let priorRevenue ← Number.sum (prior.map Prod.fst)
  let ttmIncome ← Number.sum (ttm.map Prod.snd)
  let priorIncome ← Number.sum (prior.map Prod.snd)
  let shown : TtmEvidence := {
    asOfSession := signalSession
    latestPeriodEnd := latest
    ttmRevenue := ← numberText ttmRevenue
    priorTtmRevenue := ← numberText priorRevenue
    ttmNetIncome := ← numberText ttmIncome
    priorTtmNetIncome := ← numberText priorIncome }
  let evidence := { evidence with ttm := some shown }
  if ← ttmIncome.atMost (.finite 0) then return ⟨some .ttmNetIncomeNotPositive, some evidence⟩
  if ← priorIncome.atMost (.finite 0) then
    return ⟨some .priorTtmNetIncomeNotPositive, some evidence⟩
  if ← priorRevenue.atMost (.finite 0) then
    return ⟨some .priorTtmRevenueNotPositive, some evidence⟩
  judgeGrowth config evidence ttmRevenue priorRevenue ttmIncome priorIncome

def judgeQuarters (signalSession : Date) (evidence : FundamentalsEvidence)
    (recent : List QuarterFact) : Except Failure FundamentalsEvaluation :=
  if recent.length < config.ttmQuarters * 2 then
    .ok ⟨some .fundamentalsInsufficientQuarters, some evidence⟩
  else if quarterGap recent then .ok ⟨some .fundamentalsQuarterGap, some evidence⟩
  else match recent.head? with
  | none => .error outside
  | some newest =>
    let latest := newest.periodEndDate
    if config.fundamentalsMaxStalenessDays < signalSession.toOrdinal - latest.toOrdinal then
      .ok ⟨some .fundamentalsStale, some evidence⟩
    else match recent.mapM QuarterFact.discrete with
    | none => .ok ⟨some .fundamentalsDiscreteMissing, some evidence⟩
    | some values => judgeTtm config signalSession latest evidence values

def evaluateFundamentals (signalSession : Date) (facts : List QuarterFact) :
    Except Failure FundamentalsEvaluation :=
  let visible := visibleQuarters signalSession facts
  if visible.size = 0 then .ok ⟨some .fundamentalsMissing, none⟩
  else do
    let recent := recentQuarters config visible
    let quarters ← recent.mapM QuarterFact.evidence
    judgeQuarters config signalSession { visibleQuarters := visible.size, quarters } recent

inductive LongtermCandidate where
  | trendMomentum
  | qualityGrowthTrend

/-- The evidence of a signal; the fundamentals belong to the second candidate. -/
structure SignalEvidence where
  trend : TrendEvidence
  fundamentals : Option FundamentalsEvidence

structure LongtermSignal where
  candidate : LongtermCandidate
  symbol : String
  signalSession : Date
  rank : ℕ
  metrics : TrendMetrics
  evidence : SignalEvidence

structure CandidateSelection where
  candidate : LongtermCandidate
  passed : ℕ
  signals : List LongtermSignal
  noSignalReasons : Dict NoSignalReason ℕ

structure Cohort where
  trendMomentum : CandidateSelection
  qualityGrowthTrend : CandidateSelection

def Cohort.selection (cohort : Cohort) : LongtermCandidate → CandidateSelection
  | .trendMomentum => cohort.trendMomentum
  | .qualityGrowthTrend => cohort.qualityGrowthTrend

/-- An evaluation that passed the trend filter, with its fundamentals where they are asked for. -/
structure Eligible where
  item : LongtermSymbolEvaluation
  extra : Option FundamentalsEvidence

structure Ranked where
  symbol : String
  metrics : TrendMetrics
  extra : Option FundamentalsEvidence

namespace LongtermSymbolEvaluation

def passing (item : LongtermSymbolEvaluation) : Bool := item.evaluated && item.trendReason.isNone

def rejection (item : LongtermSymbolEvaluation) : Option NoSignalReason :=
  if item.evaluated then item.trendReason else none

def metricsOf (item : LongtermSymbolEvaluation) : Except Failure TrendMetrics :=
  match item.metrics with
  | none => .error (.value "evaluated symbol has no trend metrics")
  | some metrics => .ok metrics

end LongtermSymbolEvaluation

variable (signalSession : Date)

section Top

variable (candidate : LongtermCandidate)

def Eligible.ranked (eligible : Eligible) : Except Failure Ranked := do
  let metrics ← eligible.item.metricsOf
  return ⟨eligible.item.symbol, metrics, eligible.extra⟩

/-- The order of the ranks: larger momentum first, then the symbol. -/
def Ranked.order (ranked : Ranked) : Decimal ×ₗ String :=
  toLex (context.round (-ranked.metrics.momentum), ranked.symbol)

def Ranked.signal (entry : Ranked × ℕ) : Except Failure LongtermSignal := do
  let trend ← entry.1.metrics.evidence
  return {
    candidate, signalSession
    symbol := entry.1.symbol
    rank := entry.2
    metrics := entry.1.metrics
    evidence := ⟨trend, entry.1.extra⟩ }

/-- The counts of the reasons, with the symbols that the limit leaves out. -/
def withOutside (reasons : Dict NoSignalReason ℕ) (ranked selected : ℕ) : Dict NoSignalReason ℕ :=
  if selected < ranked then reasons.increase .outsideTopN (ranked - selected) else reasons

def top (eligible : List Eligible) (reasons : Dict NoSignalReason ℕ) :
    Except Failure CandidateSelection := do
  let keyed ← eligible.mapM Eligible.ranked
  let ranked := Ranking.insertedBy Ranked.order keyed
  let selected := ranked.take config.topN
  let signals ← (selected.zipIdx 1).mapM (Ranked.signal signalSession candidate)
  return {
    candidate, signals
    passed := ranked.length
    noSignalReasons :=
      (withOutside reasons ranked.length selected.length).ordered NoSignalReason.text }

end Top

def judged (fundamentals : Dict String (List QuarterFact)) (item : LongtermSymbolEvaluation) :
    Except Failure (LongtermSymbolEvaluation × FundamentalsEvaluation) := do
  let result ← evaluateFundamentals config signalSession
    ((fundamentals.get? item.symbol).getD [])
  return (item, result)

def qualityEligible (entry : LongtermSymbolEvaluation × FundamentalsEvaluation) :
    Option Eligible :=
  match entry.2.reason with
  | none => some ⟨entry.1, entry.2.evidence⟩
  | some _ => none

def selectCohort (evaluations : List LongtermSymbolEvaluation)
    (fundamentals : Dict String (List QuarterFact)) : Except Failure Cohort := do
  let trendReasons :=
    Dict.empty.tally (evaluations.filterMap LongtermSymbolEvaluation.rejection)
  let passing := evaluations.filter LongtermSymbolEvaluation.passing
  let trendOnly ← top config signalSession .trendMomentum (passing.map (⟨·, none⟩)) trendReasons
  let results ← passing.mapM (judged config signalSession fundamentals)
  let qualityReasons := trendReasons.tally (results.filterMap (·.2.reason))
  let quality ← top config signalSession .qualityGrowthTrend
    (results.filterMap qualityEligible) qualityReasons
  return ⟨trendOnly, quality⟩

end KAssetTrader.Longterm
