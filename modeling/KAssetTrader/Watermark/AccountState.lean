import KAssetTrader.Library.Precision
import KAssetTrader.Paper.Reservations
import KAssetTrader.Watermark.Evaluate

/-!
The account state that gates buys, projected from the shadow high watermark. Its
thresholds come from the risk rates of the owner and are handed to the shadow
evaluation as stages. The two agree on the staged reduction; the live state alone
stops at the profit target, and opens when the shadow evaluation is unavailable.
-/

namespace KAssetTrader.Watermark

open Paper Decimal
open Unicode (strip upper)

inductive AccountState where
  | normal
  | stagedReduction
  | exitOnly
  deriving DecidableEq

/-- `AccountStateThresholds`, with the checks of its constructor. -/
structure AccountStateThresholds where
  stagedProfitRatio : Decimal
  exitOnlyProfitRatio : Decimal
  stagedPeakDrawdownRatio : Decimal
  stagedReductionMultiplier : Decimal := 3 / 4
  /-- `DEFAULT_MAX_VALUATION_AGE`: five minutes. -/
  maxValuationAge : ℤ := 5 * 60 * 1000000
  stagedProfit_nonneg : 0 ≤ stagedProfitRatio
  exitOnlyProfit_nonneg : 0 ≤ exitOnlyProfitRatio
  stagedDrawdown_nonneg : 0 ≤ stagedPeakDrawdownRatio
  multiplier_pos : 0 < stagedReductionMultiplier
  multiplier_le_one : stagedReductionMultiplier ≤ 1
  age_pos : 0 < maxValuationAge

def rateRatio (value : Decimal) (fieldName : String) : Except String Decimal :=
  if value < 0 then .error (fieldName ++ " must be a nonnegative finite Decimal")
  else .ok (ctx.div value 100)

theorem working_within : ctx.Within (10 ^ (1 - 28 : ℤ) / 2) :=
  Context.digits_within (by decide)

theorem rateRatio_nonneg {value ratio : Decimal} {fieldName : String}
    (h : rateRatio value fieldName = .ok ratio) : 0 ≤ ratio := by
  unfold rateRatio at h
  split at h
  · cases h
  next hnonneg =>
  cases h
  exact working_within.round_nonneg (div_nonneg (not_lt.mp hnonneg) (by norm_num))

def AccountStateThresholds.fromRiskRates (dailyTargetRatePct maxDailyLossRatePct : Decimal) :
    Except String AccountStateThresholds :=
  match hgoal : rateRatio dailyTargetRatePct "daily_target_rate_pct" with
  | .error e => .error e
  | .ok goalRatio =>
  match hloss : rateRatio maxDailyLossRatePct "max_daily_loss_rate_pct" with
  | .error e => .error e
  | .ok maxLossRatio =>
  .ok
    { stagedProfitRatio := ctx.mul goalRatio (1 / 2)
      exitOnlyProfitRatio := goalRatio
      stagedPeakDrawdownRatio := ctx.mul maxLossRatio (1 / 2)
      stagedProfit_nonneg :=
        working_within.round_nonneg (mul_nonneg (rateRatio_nonneg hgoal) (by norm_num))
      exitOnlyProfit_nonneg := rateRatio_nonneg hgoal
      stagedDrawdown_nonneg :=
        working_within.round_nonneg (mul_nonneg (rateRatio_nonneg hloss) (by norm_num))
      multiplier_pos := by norm_num
      multiplier_le_one := by norm_num
      age_pos := by norm_num }

/-- A stage of the shadow evaluation; a ratio of zero has none. A multiplier of
one is refused by the stage. -/
def AccountStateThresholds.reductionStage (thresholds : AccountStateThresholds) (name : String)
    (hname : strip name ≠ "") (ratio : Decimal) : Except String (Option ShadowReductionStage) :=
  if hratio : 0 < ratio then
    if hmultiplier : thresholds.stagedReductionMultiplier < 1 then
      .ok (some
        { name, triggerRatio := ratio, buyMultiplier := thresholds.stagedReductionMultiplier
          name_nonempty := hname, trigger_pos := hratio
          multiplier_pos := thresholds.multiplier_pos, multiplier_lt_one := hmultiplier })
    else .error "buy_multiplier must be between 0 and 1"
  else .ok none

theorem validStages_toList (stage : Option ShadowReductionStage) : ValidStages stage.toList := by
  cases stage with
  | none => exact ⟨List.nodup_nil, .nil, .nil⟩
  | some stage => exact ⟨List.nodup_singleton _, .singleton _, .singleton _⟩

/-- `as_shadow_thresholds`. The exit-only state of the shadow evaluation is left
for a loss of everything. -/
def AccountStateThresholds.asShadowThresholds (thresholds : AccountStateThresholds) :
    Except String ShadowHighWatermarkThresholds :=
  match thresholds.reductionStage "account-state-profit-reduction" (by decide +kernel)
      thresholds.stagedProfitRatio with
  | .error e => .error e
  | .ok profit =>
  match thresholds.reductionStage "account-state-drawdown-reduction" (by decide +kernel)
      thresholds.stagedPeakDrawdownRatio with
  | .error e => .error e
  | .ok drawdown =>
  .ok
    { profitTargetStages := profit.toList
      peakDrawdownStages := drawdown.toList
      maximumLossRatio := 1
      maxValuationAge := thresholds.maxValuationAge
      loss_pos := one_pos
      loss_le_one := le_rfl
      age_pos := thresholds.age_pos
      profit_valid := validStages_toList profit
      drawdown_valid := validStages_toList drawdown }

/-- `AccountStateEvaluation`, without its thresholds. -/
structure AccountStateEvaluation where
  market : Market
  state : AccountState
  profitRatio : Option Decimal
  peakDrawdownRatio : Option Decimal
  multiplier : Decimal
  unavailable : Option String := none

def normalizeMarket (value : String) : Except String Market :=
  let normalized := upper (strip value)
  if normalized = "KR" ∨ normalized = "KRX" then .ok .krx
  else if normalized = "US" then .ok .us
  else .error ("unsupported account state market: " ++ value)

def ShadowReasonCode.value : ShadowReasonCode → String
  | .valuationApplied => "VALUATION_APPLIED"
  | .tradingDayRollover => "TRADING_DAY_ROLLOVER"
  | .idempotentReplay => "IDEMPOTENT_REPLAY"
  | .missingValuationSource => "MISSING_VALUATION_SOURCE"
  | .unsupportedMarket => "UNSUPPORTED_MARKET"
  | .invalidScope => "INVALID_SCOPE"
  | .scopeMismatch => "SCOPE_MISMATCH"
  | .invalidTimestamp => "INVALID_TIMESTAMP"
  | .futureValuation => "FUTURE_VALUATION"
  | .staleValuation => "STALE_VALUATION"
  | .invalidEquity => "INVALID_EQUITY"
  | .invalidReferenceEquity => "INVALID_REFERENCE_EQUITY"
  | .outOfOrderValuation => "OUT_OF_ORDER_VALUATION"
  | .valuationTimestampCollision => "VALUATION_TIMESTAMP_COLLISION"
  | .maximumLossReached => "MAXIMUM_LOSS_REACHED"

/-- `unavailable_account_state`: a state that cannot be derived is open. -/
def unavailableAccountState (market : Market) (reason : String) : AccountStateEvaluation where
  market := market
  state := .normal
  profitRatio := none
  peakDrawdownRatio := none
  multiplier := 1
  unavailable := some reason

/-- `account_state_from_shadow`, of the evaluation of a valuation of a market. -/
def accountStateFromShadow (valuationMarket : String) (shadow : ShadowHighWatermarkEvaluation)
    (thresholds : AccountStateThresholds) : Except String AccountStateEvaluation :=
  match normalizeMarket valuationMarket with
  | .error e => .error e
  | .ok market =>
  match shadow.status, shadow.profitRatio, shadow.peakDrawdownRatio with
  | .valid, some profitRatio, some peakDrawdownRatio =>
    let stage : AccountState × Decimal :=
      if thresholds.exitOnlyProfitRatio ≤ profitRatio then (.exitOnly, 0)
      else if thresholds.stagedProfitRatio ≤ profitRatio ∨
          thresholds.stagedPeakDrawdownRatio ≤ peakDrawdownRatio ∨
          shadow.buyState = .stagedReduction then
        (.stagedReduction, thresholds.stagedReductionMultiplier)
      else (.normal, 1)
    .ok
      { market, state := stage.1, profitRatio := some profitRatio
        peakDrawdownRatio := some peakDrawdownRatio, multiplier := stage.2 }
  | _, _, _ =>
    .ok (unavailableAccountState market
      ((shadow.reasons.head?.map (·.value)).getD "high_watermark_unavailable"))

inductive GateReason where
  | unavailable
  | exitOnly

/-- `evaluate_account_state_gate`: whether an action passes, and why not. -/
def evaluateAccountStateGate (action : String) (evaluation : Option AccountStateEvaluation) :
    Bool × Option GateReason :=
  match evaluation with
  | none => (true, some .unavailable)
  | some evaluation =>
    if upper action = "SELL" then (true, none)
    else if evaluation.unavailable.isSome then (true, some .unavailable)
    else if evaluation.state = .exitOnly then (false, some .exitOnly)
    else (true, none)

variable {thresholds : AccountStateThresholds} {shadowThresholds : ShadowHighWatermarkThresholds}
  {tradingDate : Market → Instant → ℤ} {v : ShadowEquityValuation}
  {previous : Option ShadowHighWatermarkState} {shadow : ShadowHighWatermarkEvaluation}
  {live : AccountStateEvaluation}

theorem evaluate_valid
    (hstatus : (evaluateShadowHighWatermark shadowThresholds tradingDate v previous).status =
      .valid) :
    ∃ state expected reason, evaluateShadowHighWatermark shadowThresholds tradingDate v previous =
      validEvaluation shadowThresholds state expected reason := by
  unfold evaluateShadowHighWatermark at hstatus ⊢
  cases hcheck : checkValuation shadowThresholds tradingDate v with
  | error e =>
    simp only [hcheck] at hstatus
    exact absurd hstatus (checkValuation_error shadowThresholds hcheck)
  | ok c =>
    simp only [hcheck] at hstatus ⊢
    cases previous with
    | none => exact ⟨_, _, _, rfl⟩
    | some p =>
      unfold Checked.evaluate at hstatus ⊢
      dsimp only at hstatus ⊢
      split_ifs at hstatus ⊢
      · cases hstatus
      · exact ⟨_, _, _, rfl⟩
      · cases hstatus
      · exact ⟨_, _, _, rfl⟩
      · exact ⟨_, _, _, rfl⟩
      · cases hstatus

theorem normalizeMarket_ofText {text : String} {market : Market}
    (h : Market.ofText text = some market) : normalizeMarket text = .ok market := by
  have hstrip {name : String} (hname : name.toList.any Unicode.isSpace = false)
      (hupper : upper text = name) : strip text = text := by
    apply Unicode.strip_of_upper
    rw [hupper]
    exact List.any_eq_false.mp hname
  unfold Market.ofText at h
  split at h
  next hkrx =>
    cases h
    simp only [normalizeMarket, hstrip (by decide) hkrx, hkrx]
    rfl
  · split at h
    next hus =>
      cases h
      simp only [normalizeMarket, hstrip (by decide) hus, hus]
      rfl
    · cases h

theorem reductionStage_triggered {name : String} {hname : strip name ≠ ""} {ratio : Decimal}
    {stage : Option ShadowReductionStage} (hratio : 0 < ratio)
    (h : thresholds.reductionStage name hname ratio = .ok stage) (kind : StageKind)
    (observed : Decimal) :
    (triggeredStages kind observed stage.toList = [] ↔ observed < ratio) ∧
      ∀ triggered ∈ triggeredStages kind observed stage.toList,
        triggered.buyMultiplier = thresholds.stagedReductionMultiplier := by
  unfold AccountStateThresholds.reductionStage at h
  rw [dif_pos hratio] at h
  split at h
  · cases h
    by_cases hreached : ratio ≤ observed
    · simp [triggeredStages, hreached]
    · simp [triggeredStages, hreached, not_le.mp hreached]
  · cases h

theorem reducedMultiplier_eq {m : Decimal} {triggered : List ShadowTriggeredStage}
    (hsome : triggered ≠ []) (hall : ∀ stage ∈ triggered, stage.buyMultiplier = m) :
    reducedMultiplier triggered = m := by
  cases triggered with
  | nil => exact absurd rfl hsome
  | cons stage rest =>
    rw [reducedMultiplier, hall stage List.mem_cons_self]
    have hrest : ∀ other ∈ rest, other.buyMultiplier = m :=
      fun other hother => hall other (List.mem_cons_of_mem _ hother)
    clear hsome hall
    induction rest with
    | nil => rfl
    | cons other rest ih =>
      rw [List.foldl_cons, hrest other List.mem_cons_self, min_self]
      exact ih fun later hlater => hrest later (List.mem_cons_of_mem _ hlater)

def ShadowBuyState.accountState : ShadowBuyState → AccountState
  | .normal => .normal
  | .stagedReduction => .stagedReduction
  | .exitOnly => .exitOnly

/-- What the live state is, given the shadow evaluation with the same thresholds:
open where the evaluation is unavailable, exit-only from the profit target on, and
otherwise the shadow state, unless that has lost everything. Buys are blocked in
the exit-only state alone. -/
structure StageAgreement (thresholds : AccountStateThresholds)
    (shadow : ShadowHighWatermarkEvaluation) (live : AccountStateEvaluation) : Prop where
  unavailable : shadow.status ≠ .valid → live.state = .normal ∧ live.unavailable.isSome
  exitOnly : shadow.status = .valid →
    (live.state = .exitOnly ↔
      ∃ profit ∈ shadow.profitRatio, thresholds.exitOnlyProfitRatio ≤ profit)
  agrees : shadow.status = .valid → live.state ≠ .exitOnly → shadow.buyState ≠ .exitOnly →
    live.state = shadow.buyState.accountState ∧ live.multiplier = shadow.buyMultiplier
  lost : shadow.status = .valid → shadow.buyState = .exitOnly →
    ∃ session ∈ shadow.sessionLossRatio, ∃ reference ∈ shadow.referenceLossRatio,
      1 ≤ max session reference
  blocked : (evaluateAccountStateGate "BUY" (some live)).1 = false ↔ live.state = .exitOnly

structure StagesOf (thresholds : AccountStateThresholds)
    (shadowThresholds : ShadowHighWatermarkThresholds) : Prop where
  loss : shadowThresholds.maximumLossRatio = 1
  profit : ∀ observed, triggeredStages .profitTarget observed
    shadowThresholds.profitTargetStages = [] ↔ observed < thresholds.stagedProfitRatio
  drawdown : ∀ observed, triggeredStages .peakDrawdown observed
    shadowThresholds.peakDrawdownStages = [] ↔ observed < thresholds.stagedPeakDrawdownRatio
  multiplier : ∀ profit drawdown, ∀ stage ∈
    triggeredStages .profitTarget profit shadowThresholds.profitTargetStages ++
      triggeredStages .peakDrawdown drawdown shadowThresholds.peakDrawdownStages,
    stage.buyMultiplier = thresholds.stagedReductionMultiplier

theorem asShadowThresholds_stages (hprofit : 0 < thresholds.stagedProfitRatio)
    (hdrawdown : 0 < thresholds.stagedPeakDrawdownRatio)
    (h : thresholds.asShadowThresholds = .ok shadowThresholds) :
    StagesOf thresholds shadowThresholds := by
  unfold AccountStateThresholds.asShadowThresholds at h
  split at h
  · cases h
  next profit hprofitStage =>
  split at h
  · cases h
  next drawdown hdrawdownStage =>
  cases h
  have htarget := reductionStage_triggered hprofit hprofitStage
  have hpeak := reductionStage_triggered hdrawdown hdrawdownStage
  refine ⟨rfl, fun observed => (htarget _ observed).1, fun observed => (hpeak _ observed).1, ?_⟩
  intro profitRatio drawdownRatio stage hstage
  rcases List.mem_append.mp hstage with hstage | hstage
  · exact (htarget _ _).2 stage hstage
  · exact (hpeak _ _).2 stage hstage

theorem blocked_iff (hopen : live.unavailable.isSome → live.state = .normal) :
    (evaluateAccountStateGate "BUY" (some live)).1 = false ↔ live.state = .exitOnly := by
  have hbuy : (upper "BUY" = "SELL") = False := by decide +kernel
  unfold evaluateAccountStateGate
  simp only [hbuy, if_false]
  split
  next hunavailable =>
    rw [hopen hunavailable]
    decide
  · split
    next hexit => simp [hexit]
    next hexit => simp [hexit]

theorem StagesOf.agreement_valid (hstages : StagesOf thresholds shadowThresholds)
    {state : ShadowHighWatermarkState} {expected : Option ℕ} {reason : ShadowReasonCode}
    {text : String}
    (hlive : accountStateFromShadow text
      (validEvaluation shadowThresholds state expected reason) thresholds = .ok live) :
    StageAgreement thresholds (validEvaluation shadowThresholds state expected reason) live := by
  unfold accountStateFromShadow at hlive
  split at hlive
  · cases hlive
  next market hmarket =>
  set profit := ctx.div (ctx.sub state.currentEquity state.referenceEquity) state.referenceEquity
    with hprofit
  set drawdown := max 0 (ctx.div (ctx.sub state.peakEquity state.currentEquity) state.peakEquity)
    with hdrawdown
  set triggered := triggeredStages .profitTarget profit shadowThresholds.profitTargetStages ++
    triggeredStages .peakDrawdown drawdown shadowThresholds.peakDrawdownStages with htriggered
  have hnone : triggered = [] ↔
      profit < thresholds.stagedProfitRatio ∧ drawdown < thresholds.stagedPeakDrawdownRatio := by
    rw [htriggered, List.append_eq_nil_iff, hstages.profit, hstages.drawdown]
  have hmultiplier : triggered ≠ [] →
      reducedMultiplier triggered = thresholds.stagedReductionMultiplier :=
    fun hsome => reducedMultiplier_eq hsome (hstages.multiplier profit drawdown)
  have hlive := Except.ok.inj hlive
  constructor
  · intro hstatus
    exact absurd rfl hstatus
  · intro _
    rw [← hlive]
    show (if thresholds.exitOnlyProfitRatio ≤ profit then _ else _ :
      AccountState × Decimal).1 = _ ↔ _
    constructor
    · intro hexit
      refine ⟨profit, rfl, ?_⟩
      by_contra hbelow
      rw [if_neg hbelow] at hexit
      split at hexit <;> cases hexit
    · rintro ⟨reached, hreached, hle⟩
      obtain rfl := Option.mem_some_iff.mp hreached
      rw [if_pos hle]
  · intro _ hopen hheld
    have hbelow : ¬ thresholds.exitOnlyProfitRatio ≤ profit := by
      intro hle
      apply hopen
      rw [← hlive]
      show (if thresholds.exitOnlyProfitRatio ≤ profit then _ else _ : AccountState × Decimal).1 = _
      rw [if_pos hle]
    have hkept : ¬ shadowThresholds.maximumLossRatio ≤ _ := fun hle => hheld (if_pos hle)
    have hbuy : (validEvaluation shadowThresholds state expected reason).buyState =
        if triggered = [] then .normal else .stagedReduction := if_neg hkept
    have hshadow : (validEvaluation shadowThresholds state expected reason).buyMultiplier =
        reducedMultiplier triggered := if_neg hkept
    by_cases hsome : triggered = []
    · rw [if_pos hsome] at hbuy
      obtain ⟨hprofitBelow, hdrawdownBelow⟩ := hnone.mp hsome
      have hnormal : ¬ (thresholds.stagedProfitRatio ≤ profit ∨
          thresholds.stagedPeakDrawdownRatio ≤ drawdown ∨
          (validEvaluation shadowThresholds state expected reason).buyState =
            .stagedReduction) := by
        rintro (hle | hle | hstaged)
        · exact absurd hle (not_le.mpr hprofitBelow)
        · exact absurd hle (not_le.mpr hdrawdownBelow)
        · rw [hbuy] at hstaged
          cases hstaged
      rw [if_neg hbelow, if_neg hnormal] at hlive
      rw [hbuy, hshadow, hsome, ← hlive]
      exact ⟨rfl, rfl⟩
    · rw [if_neg hsome] at hbuy
      rw [if_neg hbelow, if_pos (.inr (.inr hbuy))] at hlive
      rw [hbuy, hshadow, hmultiplier hsome, ← hlive]
      exact ⟨rfl, rfl⟩
  · intro _ hexit
    refine ⟨_, rfl, _, rfl, ?_⟩
    rw [← hstages.loss]
    by_contra hkept
    have hbuy : (validEvaluation shadowThresholds state expected reason).buyState =
        if triggered = [] then .normal else .stagedReduction := if_neg hkept
    rw [hbuy] at hexit
    split at hexit <;> cases hexit
  · apply blocked_iff
    intro hsome
    rw [← hlive] at hsome
    cases hsome

theorem StagesOf.agreement (hstages : StagesOf thresholds shadowThresholds)
    (hlive : accountStateFromShadow v.market
      (evaluateShadowHighWatermark shadowThresholds tradingDate v previous) thresholds =
        .ok live) :
    StageAgreement thresholds
      (evaluateShadowHighWatermark shadowThresholds tradingDate v previous) live := by
  by_cases hstatus :
      (evaluateShadowHighWatermark shadowThresholds tradingDate v previous).status = .valid
  · obtain ⟨state, expected, reason, hform⟩ := evaluate_valid hstatus
    rw [hform] at hlive ⊢
    exact hstages.agreement_valid hlive
  · unfold accountStateFromShadow at hlive
    split at hlive
    · cases hlive
    split at hlive
    next hvalid _ _ => exact absurd hvalid hstatus
    cases hlive
    refine ⟨fun _ => ⟨rfl, rfl⟩, fun h => absurd h hstatus, fun h => absurd h hstatus,
      fun h => absurd h hstatus, blocked_iff fun _ => rfl⟩

theorem accountStateFromShadow_valid
    (hstatus : (evaluateShadowHighWatermark shadowThresholds tradingDate v previous).status =
      .valid) :
    ∃ live, accountStateFromShadow v.market
      (evaluateShadowHighWatermark shadowThresholds tradingDate v previous) thresholds =
        .ok live := by
  obtain ⟨c, hc, -⟩ := evaluate_outcome shadowThresholds hstatus
  unfold accountStateFromShadow
  rw [normalizeMarket_ofText hc.market]
  dsimp only
  split
  · exact ⟨_, rfl⟩
  · exact ⟨_, rfl⟩

theorem rateRatio_pos {value : Decimal} (fieldName : String) (hpos : 0 < value) :
    ∃ ratio, 0 < ratio ∧ rateRatio value fieldName = .ok ratio := by
  refine ⟨ctx.div value 100, working_within.round_pos (div_pos hpos (by norm_num)), ?_⟩
  rw [rateRatio, if_neg (not_lt.mpr hpos.le)]

theorem fromRiskRates_stages {dailyTargetRatePct maxDailyLossRatePct : Decimal}
    (htarget : 0 < dailyTargetRatePct) (hloss : 0 < maxDailyLossRatePct) :
    ∃ thresholds shadowThresholds,
      AccountStateThresholds.fromRiskRates dailyTargetRatePct maxDailyLossRatePct =
        .ok thresholds ∧
      thresholds.asShadowThresholds = .ok shadowThresholds ∧
      StagesOf thresholds shadowThresholds := by
  obtain ⟨goalRatio, hgoal, hgoalRatio⟩ := rateRatio_pos "daily_target_rate_pct" htarget
  obtain ⟨maxLossRatio, hmax, hmaxRatio⟩ := rateRatio_pos "max_daily_loss_rate_pct" hloss
  have hprofit : 0 < ctx.mul goalRatio (1 / 2) :=
    working_within.round_pos (mul_pos hgoal (by norm_num))
  have hdrawdown : 0 < ctx.mul maxLossRatio (1 / 2) :=
    working_within.round_pos (mul_pos hmax (by norm_num))
  obtain ⟨thresholds, hok, hstagedProfit, hstagedDrawdown, hmultiplier⟩ :
      ∃ thresholds, AccountStateThresholds.fromRiskRates dailyTargetRatePct maxDailyLossRatePct =
        .ok thresholds ∧ 0 < thresholds.stagedProfitRatio ∧
        0 < thresholds.stagedPeakDrawdownRatio ∧ thresholds.stagedReductionMultiplier < 1 := by
    unfold AccountStateThresholds.fromRiskRates
    split
    next e he => rw [hgoalRatio] at he; cases he
    next goal hsome =>
    split
    next e he => rw [hmaxRatio] at he; cases he
    next most hmost =>
    cases hgoalRatio.symm.trans hsome
    cases hmaxRatio.symm.trans hmost
    exact ⟨_, rfl, hprofit, hdrawdown, by norm_num⟩
  have hstage : ∀ (name : String) (hname : strip name ≠ "") (ratio : Decimal), 0 < ratio →
      ∃ stage, thresholds.reductionStage name hname ratio = .ok stage := by
    intro name hname ratio hratio
    rw [AccountStateThresholds.reductionStage, dif_pos hratio, dif_pos hmultiplier]
    exact ⟨_, rfl⟩
  obtain ⟨profitStage, hprofitStage⟩ := hstage "account-state-profit-reduction"
    (by decide +kernel) _ hstagedProfit
  obtain ⟨drawdownStage, hdrawdownStage⟩ := hstage "account-state-drawdown-reduction"
    (by decide +kernel) _ hstagedDrawdown
  have hshadow : ∃ shadowThresholds, thresholds.asShadowThresholds = .ok shadowThresholds := by
    unfold AccountStateThresholds.asShadowThresholds
    rw [hprofitStage, hdrawdownStage]
    exact ⟨_, rfl⟩
  obtain ⟨shadowThresholds, hshadow⟩ := hshadow
  exact ⟨thresholds, shadowThresholds, hok, hshadow,
    asShadowThresholds_stages hstagedProfit hstagedDrawdown hshadow⟩

/-- With risk rates that are not zero, the live state agrees with the shadow
evaluation up to the profit target, from which on buys are blocked. An evaluation
that is not valid leaves the account open. -/
theorem account_stage_agrees (dailyTargetRatePct maxDailyLossRatePct : Decimal)
    (htarget : 0 < dailyTargetRatePct) (hloss : 0 < maxDailyLossRatePct) :
    ∃ thresholds shadowThresholds,
      AccountStateThresholds.fromRiskRates dailyTargetRatePct maxDailyLossRatePct =
        .ok thresholds ∧
      thresholds.asShadowThresholds = .ok shadowThresholds ∧
      ∀ (tradingDate : Market → Instant → ℤ) (v : ShadowEquityValuation)
        (previous : Option ShadowHighWatermarkState),
        let shadow := evaluateShadowHighWatermark shadowThresholds tradingDate v previous
        (shadow.status = .valid →
          ∃ live, accountStateFromShadow v.market shadow thresholds = .ok live) ∧
        ∀ live, accountStateFromShadow v.market shadow thresholds = .ok live →
          StageAgreement thresholds shadow live := by
  obtain ⟨thresholds, shadowThresholds, hok, hshadow, hstages⟩ :=
    fromRiskRates_stages htarget hloss
  refine ⟨thresholds, shadowThresholds, hok, hshadow, ?_⟩
  intro tradingDate v previous
  refine ⟨fun hstatus => accountStateFromShadow_valid hstatus, ?_⟩
  intro live hlive
  exact hstages.agreement hlive

/-- A risk rate of half a percent. -/
theorem account_stage_agrees_half_percent :
    ∃ thresholds shadowThresholds,
      AccountStateThresholds.fromRiskRates (1 / 2) 2 = .ok thresholds ∧
      thresholds.asShadowThresholds = .ok shadowThresholds ∧
      ∀ (tradingDate : Market → Instant → ℤ) (v : ShadowEquityValuation)
        (previous : Option ShadowHighWatermarkState),
        let shadow := evaluateShadowHighWatermark shadowThresholds tradingDate v previous
        (shadow.status = .valid →
          ∃ live, accountStateFromShadow v.market shadow thresholds = .ok live) ∧
        ∀ live, accountStateFromShadow v.market shadow thresholds = .ok live →
          StageAgreement thresholds shadow live :=
  account_stage_agrees (1 / 2) 2 (by norm_num) (by norm_num)

/-- The live stage, the shadow stage and the multipliers of an account that opened
a day at one equity and is at another one minute later. -/
def stagesAt (dailyTargetRatePct maxDailyLossRatePct opening equity : Decimal) :
    Except String (AccountState × ShadowBuyState × Decimal × Decimal) := do
  let thresholds ← AccountStateThresholds.fromRiskRates dailyTargetRatePct maxDailyLossRatePct
  let shadowThresholds ← thresholds.asShadowThresholds
  let valuation (equity : Decimal) (moment : Instant) : ShadowEquityValuation :=
    { ownerUserId := 1, accountKey := "paper", market := "KRX", equity, valuationAt := some moment
      evaluatedAt := some moment, valuationSource := "ledger" }
  let opened := evaluateShadowHighWatermark shadowThresholds (fun _ _ => 0) (valuation opening 0)
    none
  let shadow := evaluateShadowHighWatermark shadowThresholds (fun _ _ => 0)
    (valuation equity 60000000) opened.state
  let live ← accountStateFromShadow "KRX" shadow thresholds
  pure (live.state, shadow.buyState, live.multiplier, shadow.buyMultiplier)

/-- An account that has reached its target stops buying, where the shadow
evaluation only reduces them. -/
theorem target_reached_stages_differ :
    stagesAt (1 / 2) 2 100 101 = .ok (.exitOnly, .stagedReduction, 0, 3 / 4) := by
  decide +kernel

end KAssetTrader.Watermark
