import KAssetTrader.Paper.Tables
import KAssetTrader.Recommendation.Row

/-!
The shadow high watermark of an account: the state of a trading day, and its
evaluation by one valuation. A valuation is rejected, replays the state, starts
the state of a day, or updates it. The ratios and the stages that they trigger
decide the hypothetical buy state; they never change the watermark itself.
-/

namespace KAssetTrader.Watermark

open Paper Decimal
open Unicode (strip upper)

inductive Market where
  | krx
  | us
  deriving DecidableEq

/-- The market of a text, in any letter case; none outside `_MARKET_TIMEZONES`. -/
def Market.ofText (text : String) : Option Market :=
  if upper text = "KRX" then some .krx
  else if upper text = "US" then some .us
  else none

inductive ShadowEvidenceStatus where
  | valid
  | insufficient
  | failClosed
  deriving DecidableEq

inductive ShadowBuyState where
  | normal
  | stagedReduction
  | exitOnly
  deriving DecidableEq

inductive ShadowReasonCode where
  | valuationApplied
  | tradingDayRollover
  | idempotentReplay
  | missingValuationSource
  | unsupportedMarket
  | invalidScope
  | scopeMismatch
  | invalidTimestamp
  | futureValuation
  | staleValuation
  | invalidEquity
  | invalidReferenceEquity
  | outOfOrderValuation
  | valuationTimestampCollision
  | maximumLossReached
  deriving DecidableEq

structure ShadowReductionStage where
  name : String
  triggerRatio : Decimal
  buyMultiplier : Decimal
  name_nonempty : strip name ≠ ""
  trigger_pos : 0 < triggerRatio
  multiplier_pos : 0 < buyMultiplier
  multiplier_lt_one : buyMultiplier < 1

/-- `_validate_stages`. -/
structure ValidStages (stages : List ShadowReductionStage) : Prop where
  names : (stages.map (·.name)).Nodup
  triggers : stages.IsChain fun previous current => previous.triggerRatio < current.triggerRatio
  multipliers : stages.IsChain fun previous current =>
    current.buyMultiplier ≤ previous.buyMultiplier

structure ShadowHighWatermarkThresholds where
  profitTargetStages : List ShadowReductionStage
  peakDrawdownStages : List ShadowReductionStage
  maximumLossRatio : Decimal
  maxValuationAge : ℤ
  loss_pos : 0 < maximumLossRatio
  loss_le_one : maximumLossRatio ≤ 1
  age_pos : 0 < maxValuationAge
  profit_valid : ValidStages profitTargetStages
  drawdown_valid : ValidStages peakDrawdownStages

/-- `ShadowEquityValuation`; a time without a zone is none. -/
structure ShadowEquityValuation where
  ownerUserId : ℤ
  accountKey : String
  market : String
  equity : Decimal
  valuationAt : Option Instant
  evaluatedAt : Option Instant
  valuationSource : String
  referenceEquity : Option Decimal := none

/-- `ShadowHighWatermarkState`, with the checks of its constructor. -/
structure ShadowHighWatermarkState where
  ownerUserId : ℤ
  accountKey : String
  market : Market
  tradingDate : ℤ
  sessionOpeningEquity : Decimal
  referenceEquity : Decimal
  peakEquity : Decimal
  currentEquity : Decimal
  valuationAt : Instant
  valuationSource : String
  stateVersion : ℕ
  owner_pos : 0 < ownerUserId
  account_nonempty : strip accountKey ≠ ""
  opening_pos : 0 < sessionOpeningEquity
  reference_pos : 0 < referenceEquity
  current_pos : 0 < currentEquity
  opening_le : sessionOpeningEquity ≤ peakEquity
  current_le : currentEquity ≤ peakEquity
  source_nonempty : strip valuationSource ≠ ""
  version_pos : 0 < stateVersion
  deriving DecidableEq

structure Key where
  ownerUserId : ℤ
  accountKey : String
  market : Market
  tradingDate : ℤ
  deriving DecidableEq

def ShadowHighWatermarkState.key (state : ShadowHighWatermarkState) : Key :=
  ⟨state.ownerUserId, state.accountKey, state.market, state.tradingDate⟩

inductive StageKind where
  | profitTarget
  | peakDrawdown

structure ShadowTriggeredStage where
  kind : StageKind
  name : String
  triggerRatio : Decimal
  observedRatio : Decimal
  buyMultiplier : Decimal

structure ShadowHighWatermarkEvaluation where
  status : ShadowEvidenceStatus
  tradingDate : Option ℤ
  buyState : ShadowBuyState
  buyMultiplier : Decimal
  sellRiskReductionAllowed : Bool := true
  state : Option ShadowHighWatermarkState
  expectedStateVersion : Option ℕ
  profitRatio : Option Decimal := none
  peakDrawdownRatio : Option Decimal := none
  sessionLossRatio : Option Decimal := none
  referenceLossRatio : Option Decimal := none
  triggeredStages : List ShadowTriggeredStage := []
  reasons : List ShadowReasonCode

def ShadowHighWatermarkEvaluation.persistenceRequired (e : ShadowHighWatermarkEvaluation) : Bool :=
  match e.status, e.state, e.expectedStateVersion with
  | .valid, some _, none => true
  | .valid, some state, some expected => expected < state.stateVersion
  | _, _, _ => false

variable (thresholds : ShadowHighWatermarkThresholds)

def triggeredStages (kind : StageKind) (observed : Decimal)
    (stages : List ShadowReductionStage) : List ShadowTriggeredStage :=
  (stages.filter fun stage => stage.triggerRatio ≤ observed).map fun stage =>
    { kind, name := stage.name, triggerRatio := stage.triggerRatio, observedRatio := observed
      buyMultiplier := stage.buyMultiplier }

def reducedMultiplier : List ShadowTriggeredStage → Decimal
  | [] => 1
  | stage :: rest => rest.foldl (fun least other => min least other.buyMultiplier)
      stage.buyMultiplier

def validEvaluation (state : ShadowHighWatermarkState) (expectedStateVersion : Option ℕ)
    (reason : ShadowReasonCode) : ShadowHighWatermarkEvaluation :=
  let profitRatio := ctx.div (ctx.sub state.currentEquity state.referenceEquity)
    state.referenceEquity
  let peakDrawdownRatio := max 0 (ctx.div (ctx.sub state.peakEquity state.currentEquity)
    state.peakEquity)
  let sessionLossRatio := max 0
    (ctx.div (ctx.sub state.sessionOpeningEquity state.currentEquity) state.sessionOpeningEquity)
  let referenceLossRatio := max 0 (-profitRatio)
  let triggered := triggeredStages .profitTarget profitRatio thresholds.profitTargetStages ++
    triggeredStages .peakDrawdown peakDrawdownRatio thresholds.peakDrawdownStages
  let lossReached := thresholds.maximumLossRatio ≤ max sessionLossRatio referenceLossRatio
  { status := .valid
    tradingDate := some state.tradingDate
    buyState :=
      if lossReached then .exitOnly else if triggered = [] then .normal else .stagedReduction
    buyMultiplier := if lossReached then 0 else reducedMultiplier triggered
    state := some state
    expectedStateVersion
    profitRatio := some profitRatio
    peakDrawdownRatio := some peakDrawdownRatio
    sessionLossRatio := some sessionLossRatio
    referenceLossRatio := some referenceLossRatio
    triggeredStages := triggered
    reasons := if lossReached then [reason, .maximumLossReached] else [reason] }

def nonActionable (previous : Option ShadowHighWatermarkState) (tradingDate : Option ℤ)
    (status : ShadowEvidenceStatus) (code : ShadowReasonCode) : ShadowHighWatermarkEvaluation where
  status := status
  tradingDate := tradingDate
  buyState := .exitOnly
  buyMultiplier := 0
  state := previous
  expectedStateVersion := previous.map (·.stateVersion)
  reasons := [code]

/-- A valuation that has passed the checks of its own fields. -/
structure Checked where
  ownerUserId : ℤ
  accountKey : String
  market : Market
  equity : Decimal
  valuationAt : Instant
  valuationSource : String
  referenceEquity : Option Decimal
  tradingDate : ℤ
  owner_pos : 0 < ownerUserId
  account_nonempty : strip accountKey ≠ ""
  source_nonempty : strip valuationSource ≠ ""
  equity_pos : 0 < equity
  reference_pos : ∀ reference ∈ referenceEquity, 0 < reference

/-- Why a valuation is rejected for its own fields. -/
structure Rejection where
  tradingDate : Option ℤ
  status : ShadowEvidenceStatus
  code : ShadowReasonCode

/-- The checks of a valuation before its previous state is looked at.
`tradingDate` is the local date of the market. -/
def checkValuation (tradingDate : Market → Instant → ℤ) (v : ShadowEquityValuation) :
    Except Rejection Checked :=
  if hscope : 0 < v.ownerUserId ∧ strip v.accountKey ≠ "" then
    match Market.ofText v.market with
    | none => .error ⟨none, .failClosed, .unsupportedMarket⟩
    | some market =>
    match v.evaluatedAt, v.valuationAt with
    | some evaluatedAt, some valuationAt =>
      let date := tradingDate market valuationAt
      if hsource : strip v.valuationSource = "" then
        .error ⟨some date, .insufficient, .missingValuationSource⟩
      else if evaluatedAt < valuationAt then .error ⟨some date, .failClosed, .futureValuation⟩
      else if thresholds.maxValuationAge < evaluatedAt - valuationAt then
        .error ⟨some date, .failClosed, .staleValuation⟩
      else if hequity : v.equity ≤ 0 then .error ⟨some date, .failClosed, .invalidEquity⟩
      else if hreference : ∀ reference ∈ v.referenceEquity, 0 < reference then
        .ok { ownerUserId := v.ownerUserId, accountKey := v.accountKey, market
              equity := v.equity, valuationAt, valuationSource := v.valuationSource
              referenceEquity := v.referenceEquity, tradingDate := date
              owner_pos := hscope.1, account_nonempty := hscope.2
              source_nonempty := hsource, equity_pos := not_le.mp hequity
              reference_pos := hreference }
      else .error ⟨some date, .failClosed, .invalidReferenceEquity⟩
    | _, _ => .error ⟨none, .failClosed, .invalidTimestamp⟩
  else .error ⟨none, .failClosed, .invalidScope⟩

def Checked.opened (c : Checked) : ShadowHighWatermarkState where
  ownerUserId := c.ownerUserId
  accountKey := c.accountKey
  market := c.market
  tradingDate := c.tradingDate
  sessionOpeningEquity := c.equity
  referenceEquity := c.referenceEquity.getD c.equity
  peakEquity := c.equity
  currentEquity := c.equity
  valuationAt := c.valuationAt
  valuationSource := c.valuationSource
  stateVersion := 1
  owner_pos := c.owner_pos
  account_nonempty := c.account_nonempty
  opening_pos := c.equity_pos
  reference_pos := by
    cases hreference : c.referenceEquity with
    | none => exact c.equity_pos
    | some reference => exact c.reference_pos reference hreference
  current_pos := c.equity_pos
  opening_le := le_rfl
  current_le := le_rfl
  source_nonempty := c.source_nonempty
  version_pos := Nat.one_pos

def Checked.updated (c : Checked) (previous : ShadowHighWatermarkState) :
    ShadowHighWatermarkState :=
  { previous with
    peakEquity := max previous.peakEquity c.equity
    currentEquity := c.equity
    valuationAt := c.valuationAt
    valuationSource := c.valuationSource
    stateVersion := previous.stateVersion + 1
    current_pos := c.equity_pos
    opening_le := previous.opening_le.trans (le_max_left _ _)
    current_le := le_max_right _ _
    source_nonempty := c.source_nonempty
    version_pos := Nat.succ_pos _ }

def Checked.InScope (c : Checked) (previous : ShadowHighWatermarkState) : Prop :=
  previous.ownerUserId = c.ownerUserId ∧ previous.accountKey = c.accountKey ∧
    previous.market = c.market

instance (c : Checked) (previous : ShadowHighWatermarkState) : Decidable (c.InScope previous) :=
  inferInstanceAs (Decidable (_ ∧ _ ∧ _))

def Checked.evaluate (c : Checked) :
    Option ShadowHighWatermarkState → ShadowHighWatermarkEvaluation
  | none => validEvaluation thresholds c.opened none .valuationApplied
  | some previous =>
    let reject := nonActionable (some previous) (some c.tradingDate)
    if ¬ c.InScope previous then reject .failClosed .scopeMismatch
    else if c.tradingDate < previous.tradingDate ∨ c.valuationAt < previous.valuationAt then
      reject .insufficient .outOfOrderValuation
    else if c.tradingDate = previous.tradingDate ∧ c.valuationAt = previous.valuationAt then
      if c.equity = previous.currentEquity ∧ c.valuationSource = previous.valuationSource then
        validEvaluation thresholds previous (some previous.stateVersion) .idempotentReplay
      else reject .failClosed .valuationTimestampCollision
    else if previous.tradingDate < c.tradingDate then
      validEvaluation thresholds c.opened none .tradingDayRollover
    else validEvaluation thresholds (c.updated previous) (some previous.stateVersion)
      .valuationApplied

def evaluateShadowHighWatermark (tradingDate : Market → Instant → ℤ) (v : ShadowEquityValuation)
    (previous : Option ShadowHighWatermarkState) : ShadowHighWatermarkEvaluation :=
  match checkValuation thresholds tradingDate v with
  | .error e => nonActionable previous e.tradingDate e.status e.code
  | .ok c => c.evaluate thresholds previous

def Checked.key (c : Checked) : Key := ⟨c.ownerUserId, c.accountKey, c.market, c.tradingDate⟩

variable {tradingDate : Market → Instant → ℤ} {v : ShadowEquityValuation} {c : Checked}
  {previous : Option ShadowHighWatermarkState}

theorem mem_validEvaluation_reasons {state : ShadowHighWatermarkState}
    {expectedStateVersion : Option ℕ} {reason code : ShadowReasonCode}
    (h : code ∈ (validEvaluation thresholds state expectedStateVersion reason).reasons) :
    code = reason ∨ code = .maximumLossReached := by
  simp only [validEvaluation] at h
  split at h
  · simpa using h
  · exact .inl (by simpa using h)

/-- A valuation that passes its checks keeps its own fields. -/
structure Checked.Of (tradingDate : Market → Instant → ℤ) (v : ShadowEquityValuation)
    (c : Checked) : Prop where
  owner : c.ownerUserId = v.ownerUserId
  account : c.accountKey = v.accountKey
  market : Market.ofText v.market = some c.market
  equity : c.equity = v.equity
  valuationAt : v.valuationAt = some c.valuationAt
  reference : c.referenceEquity = v.referenceEquity
  date : c.tradingDate = tradingDate c.market c.valuationAt

theorem checkValuation_ok (h : checkValuation thresholds tradingDate v = .ok c) :
    c.Of tradingDate v := by
  unfold checkValuation at h
  split at h
  · split at h
    · cases h
    next market hmarket =>
      split at h
      next evaluatedAt valuationAt hevaluated hvaluation =>
        dsimp only at h
        split_ifs at h
        cases h
        exact ⟨rfl, rfl, hmarket, rfl, hvaluation, rfl, rfl⟩
      · cases h
  · cases h

theorem checkValuation_error {e : Rejection}
    (h : checkValuation thresholds tradingDate v = .error e) : e.status ≠ .valid := by
  unfold checkValuation at h
  split at h
  · split at h
    · cases h
      decide
    · split at h
      · dsimp only at h
        split_ifs at h
        all_goals
          cases h
          simp
      · cases h
        decide
  · cases h
    decide

/-- What a valid evaluation of a checked valuation is for: the first state of its
day, a replay of the previous state, or the state after it. -/
inductive Checked.Outcome (c : Checked) (previous : Option ShadowHighWatermarkState)
    (e : ShadowHighWatermarkEvaluation) : Prop
  | opened (hstate : e.state = some c.opened) (hexpected : e.expectedStateVersion = none)
      (hreplay : .idempotentReplay ∉ e.reasons)
  | replayed {p : ShadowHighWatermarkState} (hprevious : previous = some p)
      (hkey : p.key = c.key) (hstate : e.state = some p)
      (hexpected : e.expectedStateVersion = some p.stateVersion)
  | updated {p : ShadowHighWatermarkState} (hprevious : previous = some p)
      (hkey : p.key = c.key) (htime : p.valuationAt < c.valuationAt)
      (hstate : e.state = some (c.updated p))
      (hexpected : e.expectedStateVersion = some p.stateVersion)
      (hreplay : .idempotentReplay ∉ e.reasons)

theorem Checked.evaluate_outcome (hstatus : (c.evaluate thresholds previous).status = .valid) :
    c.Outcome previous (c.evaluate thresholds previous) := by
  have hreplay : ∀ (state : ShadowHighWatermarkState) (expected : Option ℕ)
      (reason : ShadowReasonCode), reason ≠ .idempotentReplay →
      .idempotentReplay ∉ (validEvaluation thresholds state expected reason).reasons := by
    intro state expected reason hreason hmem
    rcases mem_validEvaluation_reasons thresholds hmem with hcode | hcode
    · exact hreason hcode.symm
    · cases hcode
  cases previous with
  | none => exact .opened rfl rfl (hreplay _ _ _ (by decide))
  | some p =>
    unfold Checked.evaluate at hstatus ⊢
    dsimp only at hstatus ⊢
    split_ifs at hstatus ⊢ with hscope horder hsame hequal hday
    · cases hstatus
    · exact .replayed rfl (by simp [ShadowHighWatermarkState.key, Checked.key, hscope.1,
        hscope.2.1, hscope.2.2, hsame.1]) rfl rfl
    · cases hstatus
    · exact .opened rfl rfl (hreplay _ _ _ (by decide))
    · obtain ⟨hdate, htime⟩ := not_or.mp horder
      have hdate : c.tradingDate = p.tradingDate := by omega
      have hkey : p.key = c.key := by
        simp [ShadowHighWatermarkState.key, Checked.key, hscope.1, hscope.2.1, hscope.2.2, hdate]
      have hlater : p.valuationAt < c.valuationAt :=
        lt_of_le_of_ne (not_lt.mp htime) fun heq => hsame ⟨hdate, heq.symm⟩
      exact .updated rfl hkey hlater rfl rfl (hreplay _ _ _ (by decide))
    · cases hstatus

theorem evaluate_outcome
    (hstatus : (evaluateShadowHighWatermark thresholds tradingDate v previous).status = .valid) :
    ∃ c : Checked, c.Of tradingDate v ∧
      c.Outcome previous (evaluateShadowHighWatermark thresholds tradingDate v previous) := by
  unfold evaluateShadowHighWatermark at hstatus ⊢
  cases hcheck : checkValuation thresholds tradingDate v with
  | error e =>
    simp only [hcheck] at hstatus
    exact absurd hstatus (checkValuation_error thresholds hcheck)
  | ok c =>
    simp only [hcheck] at hstatus
    exact ⟨c, checkValuation_ok thresholds hcheck, c.evaluate_outcome thresholds hstatus⟩

end KAssetTrader.Watermark
