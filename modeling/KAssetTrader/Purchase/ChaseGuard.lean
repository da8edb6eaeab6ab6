import KAssetTrader.Library.Precision

/-!
The chase guard of automatic purchases. The evidence of a recommendation records the entry,
the stop and the risk budget that its quantity was sized with. A purchase at a price too far
above that entry, or not above that stop, is blocked; any other is cut to the lots that the
planned risk pays for.
-/

namespace KAssetTrader.Purchase

open Decimal

/-- The `positionSizing` block of an evidence item: the fields that read as finite decimals. -/
structure PositionSizingBlock where
  entryPrice : Option Decimal := none
  strategyStop : Option Decimal := none
  riskBudget : Option Decimal := none
  lotSize : Option Decimal := none

/-- What is read of an evidence item; `positionSizing` is that of its portfolio. -/
structure EvidenceItem where
  entryPrice : Option Decimal := none
  stopPrice : Option Decimal := none
  positionSizing : Option PositionSizingBlock := none

structure EntrySizing where
  entryPrice : Decimal
  strategyStop : Decimal
  riskBudget : Decimal
  lotSize : Decimal
  entry_pos : 0 < entryPrice
  stop_lt : strategyStop < entryPrice
  budget_pos : 0 < riskBudget
  lot_pos : 0 < lotSize

def sizingBlock (evidence : List EvidenceItem) : EvidenceItem × PositionSizingBlock :=
  (evidence.findSome? fun item => item.positionSizing.map fun sizing => (item, sizing)).getD
    ({}, {})

def strategyStopFromEvidence (evidence : List EvidenceItem) : Option Decimal :=
  let (item, sizing) := sizingBlock evidence
  [sizing.strategyStop, item.stopPrice].findSome? fun raw => raw.filter fun stop => 0 < stop

def entrySizingFromEvidence (evidence : List EvidenceItem) : Option EntrySizing :=
  let (item, sizing) := sizingBlock evidence
  match sizing.entryPrice <|> item.entryPrice, strategyStopFromEvidence evidence,
      sizing.riskBudget, sizing.lotSize with
  | some entry, some stop, some budget, some lot =>
    if h : 0 < entry ∧ stop < entry ∧ 0 < budget ∧ 0 < lot then
      some
        { entryPrice := entry
          strategyStop := stop
          riskBudget := budget
          lotSize := lot
          entry_pos := h.1
          stop_lt := h.2.1
          budget_pos := h.2.2.1
          lot_pos := h.2.2.2 }
    else none
  | _, _, _, _ => none

inductive ChaseBlock where
  | limitExceeded
  | unavailable
  | belowStrategyStop

def ChaseBlock.text : ChaseBlock → String
  | .limitExceeded => "chase_limit_exceeded"
  | .unavailable => "chase_guard_unavailable"
  | .belowStrategyStop => "below_strategy_stop"

def chaseLimitRiskFraction : Decimal := 1 / 2

/-- `evaluate_chase_guard`: the block, or the quantity to submit. -/
def evaluateChaseGuard (ctx : Context) (sizing : Option EntrySizing)
    (executablePrice : Option Decimal) (quantity : Decimal) : Except ChaseBlock Decimal :=
  match sizing, executablePrice with
  | some sizing, some price =>
    if price ≤ 0 then .error .unavailable
    else
      let plannedRisk := ctx.sub sizing.entryPrice sizing.strategyStop
      let chase := ctx.sub price sizing.entryPrice
      if ctx.mul chaseLimitRiskFraction plannedRisk < chase then .error .limitExceeded
      else
        let riskPerUnit := ctx.sub price sizing.strategyStop
        if riskPerUnit ≤ 0 then .error .belowStrategyStop
        else
          let lots := ctx.lotsFor sizing.riskBudget riskPerUnit sizing.lotSize
          let capped := min quantity (ctx.mul lots sizing.lotSize)
          if capped ≤ 0 then .error .limitExceeded else .ok capped
  | _, _ => .error .unavailable

/-- What the guard promises of a purchase that it allows, up to a relative tolerance. -/
structure WithinPlan (tolerance : Decimal) (sizing : EntrySizing) (price quantity : Decimal) :
    Prop where
  above_stop : sizing.strategyStop < price
  below_limit : price ≤ sizing.entryPrice +
    (1 + tolerance) * (chaseLimitRiskFraction * (sizing.entryPrice - sizing.strategyStop))
  risk : quantity * (price - sizing.strategyStop) ≤ (1 + tolerance) * sizing.riskBudget

section Plan

variable {tolerance price quantity smaller : Decimal} {sizing : EntrySizing}

theorem WithinPlan.mono (h : WithinPlan tolerance sizing price quantity)
    (hle : smaller ≤ quantity) : WithinPlan tolerance sizing price smaller where
  above_stop := h.above_stop
  below_limit := h.below_limit
  risk := (mul_le_mul_of_nonneg_right hle (sub_nonneg.mpr h.above_stop.le)).trans h.risk

end Plan

section Tolerance

variable {u : Decimal}

/-- Three rounding errors up and one down stay within ten of them. -/
theorem cube_le_tolerance (hnonneg : 0 ≤ u) (hsmall : u ≤ 1 / 100) :
    (1 + u) ^ 3 ≤ (1 - u) * (1 + 10 * u) := by
  nlinarith [mul_nonneg hnonneg hnonneg, mul_nonneg hnonneg (mul_nonneg hnonneg hnonneg),
    mul_nonneg hnonneg (sub_nonneg.mpr hsmall),
    mul_nonneg (mul_nonneg hnonneg hnonneg) (sub_nonneg.mpr hsmall)]

theorem square_le_tolerance (hnonneg : 0 ≤ u) (hsmall : u ≤ 1 / 100) :
    (1 + u) ^ 2 ≤ (1 - u) * (1 + 10 * u) := by
  nlinarith [mul_nonneg hnonneg hnonneg, mul_nonneg hnonneg (sub_nonneg.mpr hsmall)]

end Tolerance

variable {ctx : Context} {u price quantity allowed : Decimal} {sizing : EntrySizing}

theorem price_le_of_chase (h : ctx.Within u)
    (hchase : ctx.sub price sizing.entryPrice ≤
      ctx.mul chaseLimitRiskFraction (ctx.sub sizing.entryPrice sizing.strategyStop)) :
    price ≤ sizing.entryPrice +
      (1 + 10 * u) * (chaseLimitRiskFraction * (sizing.entryPrice - sizing.strategyStop)) := by
  have hplanned : 0 < sizing.entryPrice - sizing.strategyStop := sub_pos.mpr sizing.stop_lt
  have hfraction : (0 : Decimal) < chaseLimitRiskFraction := by norm_num [chaseLimitRiskFraction]
  have hrisk := mul_pos hfraction hplanned
  have hu := h.nonneg
  rcases le_total price sizing.entryPrice with hbelow | habove
  · have hlimit : 0 ≤ (1 + 10 * u) *
        (chaseLimitRiskFraction * (sizing.entryPrice - sizing.strategyStop)) := by positivity
    linarith
  have hpos := h.one_sub_pos
  have hlow : (1 - u) * (price - sizing.entryPrice) ≤ ctx.sub price sizing.entryPrice :=
    h.le_round (sub_nonneg.mpr habove)
  have hsub : ctx.sub sizing.entryPrice sizing.strategyStop ≤
      (1 + u) * (sizing.entryPrice - sizing.strategyStop) := h.round_le hplanned.le
  have hsubNonneg : 0 ≤ ctx.sub sizing.entryPrice sizing.strategyStop :=
    h.round_nonneg hplanned.le
  have hhigh : ctx.mul chaseLimitRiskFraction (ctx.sub sizing.entryPrice sizing.strategyStop) ≤
      (1 + u) * (chaseLimitRiskFraction * ctx.sub sizing.entryPrice sizing.strategyStop) :=
    h.round_le (mul_nonneg hfraction.le hsubNonneg)
  have hscaled : (1 - u) * (price - sizing.entryPrice) ≤ (1 - u) * ((1 + 10 * u) *
      (chaseLimitRiskFraction * (sizing.entryPrice - sizing.strategyStop))) :=
    calc
      _ ≤ (1 + u) * (chaseLimitRiskFraction *
          ((1 + u) * (sizing.entryPrice - sizing.strategyStop))) := by
        refine (hlow.trans (hchase.trans hhigh)).trans ?_
        gcongr
      _ = (1 + u) ^ 2 *
          (chaseLimitRiskFraction * (sizing.entryPrice - sizing.strategyStop)) := by ring
      _ ≤ (1 - u) * (1 + 10 * u) *
          (chaseLimitRiskFraction * (sizing.entryPrice - sizing.strategyStop)) := by
        have htolerance := square_le_tolerance h.nonneg h.small
        gcongr
      _ = _ := by ring
  have hdivided := le_of_mul_le_mul_left hscaled hpos
  linarith

theorem capped_risk (h : ctx.Within u) (habove : sizing.strategyStop < price) :
    ctx.mul (ctx.lotsFor sizing.riskBudget (ctx.sub price sizing.strategyStop) sizing.lotSize)
        sizing.lotSize * (price - sizing.strategyStop) ≤ (1 + 10 * u) * sizing.riskBudget := by
  have hdistance : 0 < price - sizing.strategyStop := sub_pos.mpr habove
  have hpos := h.one_sub_pos
  have hu := h.nonneg
  have hbudget := sizing.budget_pos
  have hlot := sizing.lot_pos
  have hlow : (1 - u) * (price - sizing.strategyStop) ≤ ctx.sub price sizing.strategyStop :=
    h.le_round hdistance.le
  have hper : 0 < ctx.sub price sizing.strategyStop := (mul_pos hpos hdistance).trans_le hlow
  have hcost := h.lotsFor_cost hbudget.le hper hlot
  have hlots := h.lotsFor_nonneg hbudget.le hper hlot
  generalize ctx.lotsFor sizing.riskBudget (ctx.sub price sizing.strategyStop) sizing.lotSize =
    lots at hcost hlots ⊢
  have hcapped : ctx.mul lots sizing.lotSize ≤ (1 + u) * (lots * sizing.lotSize) :=
    h.round_le (mul_nonneg hlots hlot.le)
  have hscaled : (1 - u) * (ctx.mul lots sizing.lotSize * (price - sizing.strategyStop)) ≤
      (1 - u) * ((1 + 10 * u) * sizing.riskBudget) :=
    calc
      _ ≤ (1 - u) * ((1 + u) * (lots * sizing.lotSize) * (price - sizing.strategyStop)) := by
        gcongr
      _ = (1 + u) * (lots * sizing.lotSize * ((1 - u) * (price - sizing.strategyStop))) := by
        ring
      _ ≤ (1 + u) * (lots * sizing.lotSize * ctx.sub price sizing.strategyStop) := by gcongr
      _ ≤ (1 + u) * ((1 + u) ^ 2 * sizing.riskBudget) := by gcongr
      _ = (1 + u) ^ 3 * sizing.riskBudget := by ring
      _ ≤ (1 - u) * (1 + 10 * u) * sizing.riskBudget := by
        have htolerance := cube_le_tolerance h.nonneg h.small
        gcongr
      _ = _ := by ring
  exact le_of_mul_le_mul_left hscaled hpos

theorem evaluateChaseGuard_ok (h : ctx.Within u) {sizing : Option EntrySizing}
    {price : Option Decimal} (hok : evaluateChaseGuard ctx sizing price quantity = .ok allowed) :
    0 < allowed ∧ allowed ≤ quantity ∧
      ∃ plan executable, sizing = some plan ∧ price = some executable ∧
        WithinPlan (10 * u) plan executable allowed := by
  unfold evaluateChaseGuard at hok
  split at hok
  next plan executable =>
    simp only at hok
    split at hok
    · cases hok
    split at hok
    · cases hok
    next hchase =>
    split at hok
    · cases hok
    next hrisk =>
    split at hok
    · cases hok
    next hcapped =>
    cases hok
    have habove : plan.strategyStop < executable :=
      sub_pos.mp (h.pos_of_round_pos (not_le.mp hrisk))
    refine ⟨not_le.mp hcapped, min_le_left _ _, plan, executable, rfl, rfl, ?_⟩
    have hplan : WithinPlan (10 * u) plan executable
        (ctx.mul (ctx.lotsFor plan.riskBudget (ctx.sub executable plan.strategyStop)
          plan.lotSize) plan.lotSize) :=
      { above_stop := habove
        below_limit := price_le_of_chase h (not_lt.mp hchase)
        risk := capped_risk h habove }
    exact hplan.mono (min_le_right _ _)
  · cases hok

end KAssetTrader.Purchase
