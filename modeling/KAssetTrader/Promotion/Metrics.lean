import KAssetTrader.Library.DecimalText
import KAssetTrader.Library.Groups
import KAssetTrader.Recommendation.Row

/-!
The figures a strategy version is promoted on, the thresholds it is held to and
the evidence that goes with it. Each constructor checks and normalizes its
arguments; a value is built when its constructor returns it unchanged, and only
built values enter a promotion.
-/

namespace KAssetTrader.Promotion

open Unicode (strip)
open Checked Groups

/-- Every metric is computed and printed in the default context. -/
abbrev working : Decimal.Context := .digits 28

inductive PromotionState where
  | draft
  | backtested
  | paperApproved
  | paperSuspended
  | retired
  deriving DecidableEq

def PromotionState.value : PromotionState → String
  | .draft => "DRAFT"
  | .backtested => "BACKTESTED"
  | .paperApproved => "PAPER_APPROVED"
  | .paperSuspended => "PAPER_SUSPENDED"
  | .retired => "RETIRED"

structure ThresholdCheck where
  metric : String
  observed : String
  comparator : String
  required : String
  passed : Bool
  deriving DecidableEq

structure ThresholdEvaluation where
  passed : Bool
  metricsHash : String
  checks : List ThresholdCheck
  deriving DecidableEq

def ThresholdEvaluation.failedMetrics (e : ThresholdEvaluation) : List String :=
  (e.checks.filter (fun check => !check.passed)).map (·.metric)

inductive PromotionError where
  | identityMismatch (message : String)
  | illegalTransition (message : String)
  | thresholdNotMet (evaluation : ThresholdEvaluation)
  | invalid (message : String)
  deriving DecidableEq

/-- `PromotionState(value)`. -/
def PromotionState.ofValue (value : String) : Except PromotionError PromotionState :=
  match [PromotionState.draft, .backtested, .paperApproved, .paperSuspended, .retired].find?
      (·.value = value) with
  | some state => .ok state
  | none => .error (.invalid "not a valid PromotionState")

theorem PromotionState.ofValue_value (state : PromotionState) :
    PromotionState.ofValue state.value = .ok state := by
  cases state <;> rfl

/-- `if not condition: raise error`. -/
def raiseUnless (condition : Prop) [Decidable condition] (error : PromotionError) :
    Except PromotionError Unit :=
  if condition then .ok () else .error error

/-- `if not condition: raise ValueError(message)`. -/
abbrev require (condition : Prop) [Decidable condition] (message : String) :
    Except PromotionError Unit :=
  raiseUnless condition (.invalid message)

section Raise

variable {condition : Prop} [Decidable condition] {error : PromotionError}

theorem require_eq_ok {u : Unit} : raiseUnless condition error = .ok u ↔ condition := by
  unfold raiseUnless
  split
  next h => exact ⟨fun _ => h, fun _ => rfl⟩
  next h => exact ⟨(fun hbad => by cases hbad), fun hyes => absurd hyes h⟩

theorem require_bind_ok {β : Type} {next : Unit → Except PromotionError β} {b : β} :
    (raiseUnless condition error >>= next) = .ok b ↔ condition ∧ next () = .ok b := by
  rw [bind_ok_iff]
  constructor
  · rintro ⟨_, hcondition, hnext⟩
    exact ⟨require_eq_ok.mp hcondition, hnext⟩
  · rintro ⟨h, hnext⟩
    exact ⟨(), require_eq_ok.mpr h, hnext⟩

end Raise

structure PromotionMetrics where
  totalReturn : Decimal
  maxDrawdown : Decimal
  winRate : Decimal
  expectancy : Decimal
  excessReturn : Decimal
  grossProfit : Decimal
  grossLoss : Decimal
  costStressedTotalReturn : Decimal
  totalCosts : Decimal
  tradeCount : ℤ
  walkForwardFolds : ℤ
  walkForwardPassedFolds : ℤ
  dataQualityEvidence : Bool
  survivorshipEvidence : Bool
  deterministic : Bool
  backtestHashes : List String
  deriving DecidableEq

def PromotionMetrics.postInit (m : PromotionMetrics) : Except PromotionError PromotionMetrics := do
  require (0 ≤ m.maxDrawdown ∧ m.maxDrawdown ≤ 1) "max_drawdown must be in [0, 1]"
  require (0 ≤ m.winRate ∧ m.winRate ≤ 1) "win_rate must be in [0, 1]"
  require (0 ≤ m.grossProfit) "gross_profit must be non-negative"
  require (0 ≤ m.grossLoss) "gross_loss must be non-negative"
  require (0 ≤ m.totalCosts) "total_costs must be non-negative"
  require (0 ≤ m.tradeCount) "trade_count must be a non-negative integer"
  require (0 ≤ m.walkForwardFolds) "walk_forward_folds must be a non-negative integer"
  require (0 ≤ m.walkForwardPassedFolds)
    "walk_forward_passed_folds must be a non-negative integer"
  require (m.walkForwardPassedFolds ≤ m.walkForwardFolds)
    "passed walk-forward folds cannot exceed all folds"
  -- `dict.fromkeys`: the first of equal hashes stays
  let hashes := (m.backtestHashes.map strip).eraseDups
  require (hashes ≠ [] ∧ ∀ value ∈ hashes, value ≠ "")
    "at least one non-empty backtest hash is required"
  return { m with backtestHashes := hashes }

structure PromotionMetrics.Built (m : PromotionMetrics) : Prop where
  maxDrawdown : 0 ≤ m.maxDrawdown ∧ m.maxDrawdown ≤ 1
  winRate : 0 ≤ m.winRate ∧ m.winRate ≤ 1
  grossProfit : 0 ≤ m.grossProfit
  grossLoss : 0 ≤ m.grossLoss
  totalCosts : 0 ≤ m.totalCosts
  tradeCount : 0 ≤ m.tradeCount
  walkForwardFolds : 0 ≤ m.walkForwardFolds
  walkForwardPassedFolds : 0 ≤ m.walkForwardPassedFolds
  folds : m.walkForwardPassedFolds ≤ m.walkForwardFolds
  stripped : ∀ value ∈ m.backtestHashes, strip value = value ∧ value ≠ ""
  nodup : m.backtestHashes.Nodup
  nonempty : m.backtestHashes ≠ []

theorem PromotionMetrics.postInit_built {m built : PromotionMetrics}
    (h : m.postInit = .ok built) : built.Built := by
  simp only [postInit, require_bind_ok] at h
  obtain ⟨hmaxDrawdown, hwinRate, hgrossProfit, hgrossLoss, htotalCosts, htradeCount, hfolds,
    hpassed, hle, ⟨hnonempty, hvalues⟩, hresult⟩ := h
  cases hresult
  refine ⟨hmaxDrawdown, hwinRate, hgrossProfit, hgrossLoss, htotalCosts, htradeCount, hfolds,
    hpassed, hle, ?_, nodup_eraseDups _, hnonempty⟩
  intro value hvalue
  refine ⟨?_, hvalues value hvalue⟩
  obtain ⟨text, -, rfl⟩ := List.mem_map.mp (List.mem_eraseDups.mp hvalue)
  exact Unicode.strip_strip text

theorem PromotionMetrics.Built.postInit {m : PromotionMetrics} (h : m.Built) :
    m.postInit = .ok m := by
  have hstrip : m.backtestHashes.map strip = m.backtestHashes.map id :=
    List.map_congr_left fun value hvalue => (h.stripped value hvalue).1
  rw [List.map_id] at hstrip
  have hhashes : (m.backtestHashes.map strip).eraseDups = m.backtestHashes := by
    rw [hstrip, eraseDups_of_nodup h.nodup]
  simp only [PromotionMetrics.postInit, require_bind_ok, hhashes]
  exact ⟨h.maxDrawdown, h.winRate, h.grossProfit, h.grossLoss, h.totalCosts, h.tradeCount,
    h.walkForwardFolds, h.walkForwardPassedFolds, h.folds,
    ⟨h.nonempty, fun value hvalue => (h.stripped value hvalue).2⟩, rfl⟩

abbrev Metrics := { m : PromotionMetrics // m.Built }

/-- `PromotionMetrics(...)`. -/
def PromotionMetrics.new (m : PromotionMetrics) : Except PromotionError Metrics :=
  match h : m.postInit with
  | .ok built => .ok ⟨built, postInit_built h⟩
  | .error e => .error e

theorem PromotionMetrics.new_fields {m : PromotionMetrics} {built : Metrics}
    (h : m.new = .ok built) : built.1 = { m with backtestHashes := built.1.backtestHashes } := by
  unfold PromotionMetrics.new at h
  split at h
  next result hinit =>
    cases h
    simp only [postInit, require_bind_ok] at hinit
    obtain ⟨-, -, -, -, -, -, -, -, -, -, hresult⟩ := hinit
    cases hresult
    rfl
  · cases h

theorem Metrics.new (m : Metrics) : m.1.new = .ok m := by
  unfold PromotionMetrics.new
  split
  next built h =>
    cases m.2.postInit.symm.trans h
    rfl
  next e h => cases m.2.postInit.symm.trans h

namespace PromotionMetrics

def walkForwardPassRate (m : PromotionMetrics) : Decimal :=
  if m.walkForwardFolds = 0 then 0
  else working.div m.walkForwardPassedFolds m.walkForwardFolds

/-- `str(walk_forward_pass_rate)`: the text of the quotient as divided. -/
def walkForwardPassRateText (m : PromotionMetrics) : String :=
  if m.walkForwardFolds = 0 then "0"
  else String.ofList (Decimal.quotient 28 m.walkForwardPassedFolds.toNat
    m.walkForwardFolds.toNat).scientific

def profitFactor (m : PromotionMetrics) : Option Decimal :=
  if m.grossLoss = 0 then none else some (working.div m.grossProfit m.grossLoss)

end PromotionMetrics

def decimalText (value : Decimal) : String :=
  let normalized := Decimal.normalize 28 value
  if normalized.value = 0 then "0" else String.ofList normalized.plain

structure MetricsSnapshot where
  totalReturn : String
  maxDrawdown : String
  winRate : String
  expectancy : String
  excessReturn : String
  grossProfit : String
  grossLoss : String
  profitFactor : Option String
  costStressedTotalReturn : String
  totalCosts : String
  tradeCount : ℤ
  walkForwardFolds : ℤ
  walkForwardPassedFolds : ℤ
  walkForwardPassRate : String
  dataQualityEvidence : Bool
  survivorshipEvidence : Bool
  deterministic : Bool
  backtestHashes : List String

def PromotionMetrics.asSnapshot (m : PromotionMetrics) : MetricsSnapshot where
  totalReturn := decimalText m.totalReturn
  maxDrawdown := decimalText m.maxDrawdown
  winRate := decimalText m.winRate
  expectancy := decimalText m.expectancy
  excessReturn := decimalText m.excessReturn
  grossProfit := decimalText m.grossProfit
  grossLoss := decimalText m.grossLoss
  profitFactor := m.profitFactor.map decimalText
  costStressedTotalReturn := decimalText m.costStressedTotalReturn
  totalCosts := decimalText m.totalCosts
  tradeCount := m.tradeCount
  walkForwardFolds := m.walkForwardFolds
  walkForwardPassedFolds := m.walkForwardPassedFolds
  walkForwardPassRate := decimalText m.walkForwardPassRate
  dataQualityEvidence := m.dataQualityEvidence
  survivorshipEvidence := m.survivorshipEvidence
  deterministic := m.deterministic
  backtestHashes := m.backtestHashes

structure PromotionThresholds where
  minTotalReturn : Decimal := 0
  maxDrawdown : Decimal := 20 / 100
  minWinRate : Decimal := 40 / 100
  minExpectancy : Decimal := 0
  minExcessReturn : Decimal := 0
  minProfitFactor : Decimal := 120 / 100
  minCostStressedTotalReturn : Decimal := 0
  minTradeCount : ℤ := 30
  minWalkForwardFolds : ℤ := 3
  minWalkForwardPassRate : Decimal := 67 / 100
  requireDataQualityEvidence : Bool := true
  requireSurvivorshipEvidence : Bool := true
  requireDeterministic : Bool := true
  maxDrawdown_mem : 0 ≤ maxDrawdown ∧ maxDrawdown ≤ 1 := by norm_num
  minWinRate_mem : 0 ≤ minWinRate ∧ minWinRate ≤ 1 := by norm_num
  minWalkForwardPassRate_mem : 0 ≤ minWalkForwardPassRate ∧ minWalkForwardPassRate ≤ 1 := by
    norm_num
  minProfitFactor_nonneg : 0 ≤ minProfitFactor := by norm_num
  minTradeCount_nonneg : 0 ≤ minTradeCount := by norm_num
  minWalkForwardFolds_nonneg : 0 ≤ minWalkForwardFolds := by norm_num

/-- `DEFAULT_PROMOTION_THRESHOLDS`, also those of the historical track. -/
def defaultPromotionThresholds : PromotionThresholds := {}

/-- `_numeric_check` with the comparator `>=`. -/
def numericCheckAtLeast (metric : String) (observed required : Decimal) : ThresholdCheck :=
  ⟨metric, decimalText observed, ">=", decimalText required, required ≤ observed⟩

/-- `_numeric_check` with the comparator `<=`. -/
def numericCheckAtMost (metric : String) (observed required : Decimal) : ThresholdCheck :=
  ⟨metric, decimalText observed, "<=", decimalText required, observed ≤ required⟩

def profitFactorCheck (grossProfit grossLoss required : Decimal) : ThresholdCheck :=
  if grossLoss = 0 then
    ⟨"profit_factor", if 0 < grossProfit then "lossless" else "undefined", ">=",
      decimalText required, 0 < grossProfit⟩
  else
    let ratio := working.div grossProfit grossLoss
    ⟨"profit_factor", decimalText ratio, ">=", decimalText required, required ≤ ratio⟩

def integerCheck (metric : String) (observed required : ℤ) : ThresholdCheck :=
  ⟨metric, toString observed, ">=", toString required, required ≤ observed⟩

def booleanCheck (metric : String) (observed required : Bool) : ThresholdCheck :=
  ⟨metric, toString observed, if required then "required" else "not_required", toString required,
    observed || !required⟩

def thresholdChecks (m : PromotionMetrics) (t : PromotionThresholds) : List ThresholdCheck :=
  [numericCheckAtLeast "total_return" m.totalReturn t.minTotalReturn,
   numericCheckAtMost "max_drawdown" m.maxDrawdown t.maxDrawdown,
   numericCheckAtLeast "win_rate" m.winRate t.minWinRate,
   numericCheckAtLeast "expectancy" m.expectancy t.minExpectancy,
   numericCheckAtLeast "excess_return" m.excessReturn t.minExcessReturn,
   profitFactorCheck m.grossProfit m.grossLoss t.minProfitFactor,
   numericCheckAtLeast "cost_stressed_total_return" m.costStressedTotalReturn
     t.minCostStressedTotalReturn,
   integerCheck "trade_count" m.tradeCount t.minTradeCount,
   integerCheck "walk_forward_folds" m.walkForwardFolds t.minWalkForwardFolds,
   numericCheckAtLeast "walk_forward_pass_rate" m.walkForwardPassRate t.minWalkForwardPassRate,
   booleanCheck "data_quality_evidence" m.dataQualityEvidence t.requireDataQualityEvidence,
   booleanCheck "survivorship_evidence" m.survivorshipEvidence t.requireSurvivorshipEvidence,
   booleanCheck "deterministic" m.deterministic t.requireDeterministic]

/-- `evaluate_thresholds`; `hash` is the digest of a snapshot. -/
def evaluateThresholds (hash : MetricsSnapshot → String) (m : PromotionMetrics)
    (t : PromotionThresholds) : ThresholdEvaluation :=
  let checks := thresholdChecks m t
  ⟨checks.all (·.passed), hash m.asSnapshot, checks⟩

/-- What it means for metrics to meet every threshold. Without losing trades the
profit factor is undefined and a real profit is asked for instead. -/
structure PromotionThresholds.Met (t : PromotionThresholds) (m : PromotionMetrics) : Prop where
  totalReturn : t.minTotalReturn ≤ m.totalReturn
  maxDrawdown : m.maxDrawdown ≤ t.maxDrawdown
  winRate : t.minWinRate ≤ m.winRate
  expectancy : t.minExpectancy ≤ m.expectancy
  excessReturn : t.minExcessReturn ≤ m.excessReturn
  profitFactor : if m.grossLoss = 0 then 0 < m.grossProfit
    else t.minProfitFactor ≤ working.div m.grossProfit m.grossLoss
  costStressedTotalReturn : t.minCostStressedTotalReturn ≤ m.costStressedTotalReturn
  tradeCount : t.minTradeCount ≤ m.tradeCount
  walkForwardFolds : t.minWalkForwardFolds ≤ m.walkForwardFolds
  walkForwardPassRate : t.minWalkForwardPassRate ≤ m.walkForwardPassRate
  dataQualityEvidence : t.requireDataQualityEvidence = true → m.dataQualityEvidence = true
  survivorshipEvidence : t.requireSurvivorshipEvidence = true → m.survivorshipEvidence = true
  deterministic : t.requireDeterministic = true → m.deterministic = true

theorem profitFactorCheck_passed (grossProfit grossLoss required : Decimal) :
    (profitFactorCheck grossProfit grossLoss required).passed = true ↔
      if grossLoss = 0 then 0 < grossProfit else required ≤ working.div grossProfit grossLoss := by
  unfold profitFactorCheck
  split <;> simp

theorem booleanCheck_passed (metric : String) (observed required : Bool) :
    (booleanCheck metric observed required).passed = true ↔
      (required = true → observed = true) := by
  cases observed <;> cases required <;> simp [booleanCheck]

theorem evaluateThresholds_passed (hash : MetricsSnapshot → String) (m : PromotionMetrics)
    (t : PromotionThresholds) : (evaluateThresholds hash m t).passed = true ↔ t.Met m := by
  simp only [evaluateThresholds, thresholdChecks, List.all_cons, List.all_nil, Bool.and_true,
    Bool.and_eq_true, profitFactorCheck_passed, booleanCheck_passed, numericCheckAtLeast,
    numericCheckAtMost, integerCheck, decide_eq_true_eq]
  constructor
  · rintro ⟨h1, h2, h3, h4, h5, h6, h7, h8, h9, h10, h11, h12, h13⟩
    exact ⟨h1, h2, h3, h4, h5, h6, h7, h8, h9, h10, h11, h12, h13⟩
  · rintro ⟨h1, h2, h3, h4, h5, h6, h7, h8, h9, h10, h11, h12, h13⟩
    exact ⟨h1, h2, h3, h4, h5, h6, h7, h8, h9, h10, h11, h12, h13⟩

structure PromotionEvidence where
  code : String
  detail : String
  reference : String
  deriving DecidableEq

def PromotionEvidence.postInit (e : PromotionEvidence) :
    Except PromotionError PromotionEvidence := do
  require (strip e.code ≠ "") "promotion evidence code is required"
  require (strip e.detail ≠ "") "promotion evidence detail is required"
  require (strip e.reference ≠ "") "promotion evidence reference is required"
  return ⟨strip e.code, strip e.detail, strip e.reference⟩

structure PromotionEvidence.Built (e : PromotionEvidence) : Prop where
  code : strip e.code = e.code ∧ e.code ≠ ""
  detail : strip e.detail = e.detail ∧ e.detail ≠ ""
  reference : strip e.reference = e.reference ∧ e.reference ≠ ""

theorem PromotionEvidence.postInit_built {e built : PromotionEvidence}
    (h : e.postInit = .ok built) : built.Built := by
  simp only [postInit, require_bind_ok] at h
  obtain ⟨hcode, hdetail, hreference, hresult⟩ := h
  cases hresult
  exact ⟨⟨Unicode.strip_strip _, hcode⟩, ⟨Unicode.strip_strip _, hdetail⟩,
    Unicode.strip_strip _, hreference⟩

theorem PromotionEvidence.Built.postInit {e : PromotionEvidence} (h : e.Built) :
    e.postInit = .ok e := by
  simp only [PromotionEvidence.postInit, require_bind_ok, h.code.1, h.detail.1, h.reference.1]
  exact ⟨h.code.2, h.detail.2, h.reference.2, rfl⟩

abbrev Evidence := { e : PromotionEvidence // e.Built }

/-- `PromotionEvidence(...)`. -/
def PromotionEvidence.new (e : PromotionEvidence) : Except PromotionError Evidence :=
  match h : e.postInit with
  | .ok built => .ok ⟨built, postInit_built h⟩
  | .error e => .error e

theorem Evidence.new (e : Evidence) : e.1.new = .ok e := by
  unfold PromotionEvidence.new
  split
  next built h =>
    cases e.2.postInit.symm.trans h
    rfl
  next error h => cases e.2.postInit.symm.trans h

end KAssetTrader.Promotion
