import KAssetTrader.Library.CodePoints
import KAssetTrader.Proposals.Rows

/-!
Which rungs may be sent without a click. The classifier sees one rung with the fresh preview of
its order and what the account has been charged on that day, and refuses with a reason or
states the charge. The charge of an automatic approval is stored as an observation; only one
that is well formed is read back, and a rung is never charged less than its booked amount.
-/

namespace KAssetTrader.Proposals

open Checked

structure AutoApproveLimits where
  minDistancePct : Decimal
  perOrderCap : Decimal
  dailyCap : Decimal
  policyVersion : String
  mode : String := "off"
  breakevenBandPct : Decimal := 1
  roundTripCostBps : Decimal := 90
  policyContentHash : Option String := none

structure PolicyLimits extends AutoApproveLimits where
  minDistancePct_pos : 0 < minDistancePct
  perOrderCap_pos : 0 < perOrderCap
  perOrderCap_le : perOrderCap ≤ dailyCap

/-- The policy document with the settings; a market can be without limits. -/
structure AutoApprovePolicy where
  limitsForMarket : String → Option PolicyLimits
  tossLiveVetoEnabled : Bool

def AutoApprovePolicy.isVetoCapableAccountMarket (policy : AutoApprovePolicy)
    (accountMode market : String) : Bool :=
  decide (accountMode = "toss_live" ∧ market ∈ ["equity_kr", "equity_us"]) &&
    policy.tossLiveVetoEnabled

instance : Coe PolicyLimits AutoApproveLimits := ⟨PolicyLimits.toAutoApproveLimits⟩

theorem PolicyLimits.dailyCap_pos (limits : PolicyLimits) : 0 < limits.dailyCap :=
  limits.perOrderCap_pos.trans_le limits.perOrderCap_le

section Eligibility

/-- The fresh preview of an order. `success` is `none` when it is neither true nor false. -/
structure Preview where
  success : Option Bool
  currentPrice : Option Decimal := none
  avgBuyPrice : Option Decimal := none
  realizedPnl : Option Decimal := none
  price : Option Decimal := none
  quantity : Option Decimal := none
  approvalHash : Option String := none
  idempotencyKey : Option String := none
  error : Option String := none
  /-- `_is_guard_blocked_preview`. -/
  guardBlocked : Bool := false
  /-- `_is_loss_guard_preview`. -/
  lossGuard : Bool := false

/-- What is read off the texts of a proposal: the tags that require an approval, what is wrong
with the evidence of its target, and the thesis for the card. -/
structure Screening where
  tags : List String := []
  targetEvidence : Option String := none
  thesis : Option CodePoints.Text

inductive SellProfitVerdict where
  | takeProfit
  | breakevenBand
  | notProfitable
  | unclassifiable

def classifySellProfit (limitPrice quantity : Decimal) (preview : Preview)
    (limits : AutoApproveLimits) : SellProfitVerdict :=
  match preview.avgBuyPrice.filter fun price => decide (0 < price) with
  | none => .unclassifiable
  | some avgBuyPrice =>
    let band := avgBuyPrice * limits.breakevenBandPct / 100
    let distanceFromAvg := limitPrice - avgBuyPrice
    if |distanceFromAvg| ≤ band then .breakevenBand
    else
      let cost := max limitPrice avgBuyPrice * quantity * limits.roundTripCostBps / 10000
      let gross :=
        match preview.realizedPnl with
        | none => distanceFromAvg * quantity
        | some previewGross => min (distanceFromAvg * quantity) previewGross
      if 0 < gross - cost then .takeProfit else .notProfitable

structure CapCharge where
  notional : Decimal
  dailyNotionalBefore : Decimal
  dailyNotionalAfter : Decimal
  lossGuard : String
  marketable : Bool := false

variable (policy : AutoApprovePolicy) (limits : AutoApproveLimits) (screening : Screening)
  (dailyNotional : Decimal)

def withinCaps (notional : Decimal) : Except String Unit := do
  raiseIf (limits.perOrderCap < notional) "per_order_cap_exceeded"
  raiseIf (limits.dailyCap < dailyNotional + notional) "daily_cap_exceeded"

/-- The card of the order can name its reason. -/
def chargeWithThesis (notional : Decimal) (lossGuard : String) (marketable : Bool) :
    Except String CapCharge := do
  raiseIf (screening.thesis = none) "thesis_required_for_veto_card"
  return ⟨notional, dailyNotional, dailyNotional + notional, lossGuard, marketable⟩

/-- The part for an order at a price, once its amount is within the caps. -/
def classifyRung (side : String) (currentPrice limitPrice quantity : Decimal)
    (preview : Preview) : Except String CapCharge := do
  let expanded := limits.mode = "expanded"
  let minFraction := if expanded then 0 else limits.minDistancePct / 100
  let booked := chargeWithThesis screening dailyNotional (limitPrice * quantity)
  if side = "buy" then
    let threshold := currentPrice * (1 - minFraction)
    raiseIf (expanded ∧ threshold ≤ limitPrice) "marketable_not_resting"
    raiseIf (¬ expanded ∧ threshold < limitPrice) "distance_below_minimum"
    booked "not_applicable" false
  else
    let threshold := currentPrice * (1 + minFraction)
    raiseIf (¬ expanded ∧ limitPrice < threshold) "distance_below_minimum"
    if ¬ expanded then booked "preview_passed" false
    else
      match classifySellProfit limitPrice quantity preview limits with
      | .breakevenBand => throw "breakeven_band"
      | .notProfitable => throw "expected_pnl_not_positive"
      | .unclassifiable => throw "sell_classification_unavailable"
      | .takeProfit =>
        if limitPrice ≤ threshold then
          let notional := max limitPrice currentPrice * quantity
          withinCaps limits dailyNotional notional
          chargeWithThesis screening dailyNotional notional "net_profit_proven" true
        else booked "net_profit_proven" false

/-- `evaluate_auto_approve_eligibility`: the charge, or the reason of the refusal. -/
def evaluateAutoApproveEligibility (group : OrderProposal) (rung : OrderProposalRung)
    (preview : Preview) : Except String CapCharge := do
  raiseIf (limits.mode ∉ ["off", "expanded"]) "unknown_auto_approve_mode"
  raiseIf (group.terms.action ∉ ["place", "replace", "cancel"]) "action_not_supported"
  raiseIf (group.terms.action ∈ ["replace", "cancel"] ∧ screening.targetEvidence ≠ none)
    "target_evidence_missing"
  raiseIf (group.terms.action ≠ "cancel" ∧ group.terms.orderType ≠ "limit")
    "order_type_not_limit"
  raiseIf (group.terms.exitIntent = some "loss_cut") "loss_cut_intent"
  raiseIf (group.terms.exitIntent ≠ none) "exit_intent_present"
  raiseIf (policy.isVetoCapableAccountMarket group.terms.accountMode group.terms.market = false)
    "account_not_veto_capable"
  raiseIf (screening.tags ≠ []) "approval_required_tag"
  if group.terms.action = "cancel" then
    chargeWithThesis screening dailyNotional 0 "not_applicable" false
  else
    raiseIf (preview.success ≠ some true) "preview_guard_failed"
    let positive (value : Option Decimal) := value.filter fun amount => decide (0 < amount)
    match positive preview.currentPrice, positive rung.limitPrice,
        positive (some rung.quantity) with
    | some currentPrice, some limitPrice, some quantity =>
      withinCaps limits dailyNotional (limitPrice * quantity)
      raiseIf (rung.side ∉ ["buy", "sell"]) "side_not_supported"
      classifyRung limits screening dailyNotional rung.side currentPrice limitPrice quantity
        preview
    | _, _, _ => throw "price_or_quantity_missing"

end Eligibility

/-- An element of `cap_observations`. -/
structure CapObservation where
  rungIndex : ℤ
  dailyCap : Decimal
  dailyNotionalBefore : Decimal
  dailyNotionalAfter : Decimal
  perOrderCap : Decimal
  notional : Decimal
  policyVersion : String
  contentHash : Option String
  evaluatedAt : Instant

/-- `[0-9]{4}-[0-9]{2}-[0-9]{2}(\.[0-9]{1,4})?` matches the whole text. -/
def isPolicyVersion (text : String) : Bool :=
  match text.toList with
  | y₁ :: y₂ :: y₃ :: y₄ :: '-' :: m₁ :: m₂ :: '-' :: d₁ :: d₂ :: rest =>
    [y₁, y₂, y₃, y₄, m₁, m₂, d₁, d₂].all Char.isDigit &&
      match rest with
      | [] => true
      | '.' :: minor =>
        decide (1 ≤ minor.length ∧ minor.length ≤ 4) && minor.all Char.isDigit
      | _ => false
  | _ => false

/-- `[0-9a-f]{12,64}` matches the whole text. -/
def isPolicyContentHash (text : String) : Bool :=
  decide (12 ≤ text.toList.length ∧ text.toList.length ≤ 64) &&
    text.toList.all fun c => c.isDigit || decide ('a' ≤ c ∧ c ≤ 'f')

/-- The text of a number is at most 80 characters long. -/
def isSafeDecimal (value : Decimal) : Bool :=
  decide ((Decimal.normalize 28 value).plain.length ≤ 80)

/-- `_safe_cap_observation` keeps the observation. -/
def CapObservation.Safe (observation : CapObservation) : Prop :=
  (0 ≤ observation.rungIndex ∧ observation.rungIndex < 10000) ∧
    isPolicyVersion observation.policyVersion = true ∧
    (∃ hash ∈ observation.contentHash, isPolicyContentHash hash = true) ∧
    ∀ value ∈ [observation.dailyCap, observation.dailyNotionalBefore,
      observation.dailyNotionalAfter, observation.perOrderCap, observation.notional],
      isSafeDecimal value = true

instance (observation : CapObservation) : Decidable observation.Safe :=
  inferInstanceAs (Decidable (_ ∧ _))

def capObservation (limits : PolicyLimits) (rungIndex : ℤ) (charge : CapCharge)
    (evaluatedAt : Instant) : CapObservation where
  rungIndex
  dailyCap := limits.dailyCap
  dailyNotionalBefore := charge.dailyNotionalBefore
  dailyNotionalAfter := charge.dailyNotionalAfter
  perOrderCap := limits.perOrderCap
  notional := charge.notional
  policyVersion := limits.policyVersion
  contentHash := limits.policyContentHash
  evaluatedAt

/-- `build_auto_approve_cap_observations`, of the eligible decisions. -/
def buildAutoApproveCapObservations (limits : PolicyLimits)
    (decisions : List (ℤ × CapCharge)) (evaluatedAt : Instant) : List CapObservation :=
  ((decisions.take 16).map fun decision =>
    capObservation limits decision.1 decision.2 evaluatedAt).filter fun observation =>
      decide observation.Safe

/-- What the cap reads of the value under `auto_approved`. -/
structure AutoApproval where
  approvedAt : Instant
  capObservations : List CapObservation := []

/-- `project_auto_approve_cap_observations`. -/
def AutoApproval.projectCapObservations (record : AutoApproval) : List CapObservation :=
  (record.capObservations.take 16).filter fun observation => decide observation.Safe

def OrderProposalRung.bookedNotional (rung : OrderProposalRung) : Decimal :=
  match rung.limitPrice with
  | some limitPrice => rung.quantity * limitPrice
  | none => 0

/-- What an automatic approval charges a rung: the most of its booked amount and of what was
observed. -/
def AutoApproval.chargedNotional (record : AutoApproval) (rung : OrderProposalRung) : Decimal :=
  ((record.projectCapObservations.filter fun observation =>
    observation.rungIndex = rung.rungIndex).map (·.notional)).foldl max rung.bookedNotional

/-- The amount at which an order can execute: a sell at or below the market may be filled at
the price of the market. -/
def OrderProposalRung.executionNotional (rung : OrderProposalRung)
    (currentPrice : Option Decimal) : Decimal :=
  match rung.limitPrice, currentPrice with
  | some limitPrice, some currentPrice =>
    if rung.side = "sell" ∧ limitPrice ≤ currentPrice then
      rung.quantity * max limitPrice currentPrice
    else rung.quantity * limitPrice
  | some limitPrice, none => rung.quantity * limitPrice
  | none, _ => 0

def OrderProposalRung.Marketable (rung : OrderProposalRung) (currentPrice : Option Decimal) :
    Prop :=
  rung.side = "sell" ∧ ∃ limitPrice ∈ rung.limitPrice, ∃ price ∈ currentPrice,
    limitPrice ≤ price

instance (rung : OrderProposalRung) (currentPrice : Option Decimal) :
    Decidable (rung.Marketable currentPrice) :=
  inferInstanceAs (Decidable (_ ∧ ∃ limitPrice ∈ rung.limitPrice, ∃ price ∈ currentPrice, _))

variable {record : AutoApproval} {rung : OrderProposalRung}

theorem le_foldl_max {amounts : List Decimal} {start amount : Decimal}
    (h : amount = start ∨ amount ∈ amounts) : amount ≤ amounts.foldl max start := by
  induction amounts generalizing start amount with
  | nil =>
    rcases h with rfl | h
    · exact le_refl amount
    · cases h
  | cons first rest ih =>
    have hstart : max start first ≤ rest.foldl max (max start first) := ih (.inl rfl)
    rw [List.foldl_cons]
    rcases h with rfl | h
    · exact (le_max_left amount first).trans hstart
    · rcases List.mem_cons.mp h with rfl | h
      · exact (le_max_right start amount).trans hstart
      · exact ih (.inr h)

theorem AutoApproval.booked_le_charged : rung.bookedNotional ≤ record.chargedNotional rung :=
  le_foldl_max (.inl rfl)

theorem AutoApproval.observed_le_charged {observation : CapObservation}
    (hmem : observation ∈ record.projectCapObservations)
    (hindex : observation.rungIndex = rung.rungIndex) :
    observation.notional ≤ record.chargedNotional rung := by
  apply le_foldl_max
  right
  apply List.mem_map_of_mem
  exact List.mem_filter.mpr ⟨hmem, decide_eq_true hindex⟩

variable {policy : AutoApprovePolicy} {limits : PolicyLimits} {screening : Screening}
  {dailyNotional : Decimal} {group : OrderProposal} {preview : Preview} {charge : CapCharge}

theorem executionNotional_of_resting {currentPrice : Option Decimal}
    (h : ¬ rung.Marketable currentPrice) :
    rung.executionNotional currentPrice = rung.bookedNotional := by
  unfold OrderProposalRung.executionNotional OrderProposalRung.bookedNotional
  cases hlimit : rung.limitPrice with
  | none => rfl
  | some limitPrice =>
    cases currentPrice with
    | none => rfl
    | some price =>
      dsimp only
      apply if_neg
      rintro ⟨hsell, hle⟩
      exact h ⟨hsell, limitPrice, hlimit, price, rfl, hle⟩

variable {notional : Decimal}

theorem withinCaps_ok {u : Unit} (h : withinCaps limits dailyNotional notional = .ok u) :
    dailyNotional + notional ≤ limits.dailyCap := by
  obtain ⟨-, h⟩ := raiseIf_bind_ok.mp h
  unfold raiseIf at h
  split at h
  · cases h
  next hle => exact not_lt.mp hle

variable {lossGuard : String} {marketable : Bool}

theorem chargeWithThesis_ok
    (h : chargeWithThesis screening dailyNotional notional lossGuard marketable = .ok charge) :
    charge = ⟨notional, dailyNotional, dailyNotional + notional, lossGuard, marketable⟩ := by
  obtain ⟨-, h⟩ := raiseIf_bind_ok.mp h
  exact (Except.ok.inj h).symm

structure CapCharge.Fits (charge : CapCharge) (limits : PolicyLimits)
    (dailyNotional amount : Decimal) : Prop where
  notional : charge.notional = amount
  before : charge.dailyNotionalBefore = dailyNotional
  after : charge.dailyNotionalAfter = dailyNotional + amount
  within : dailyNotional + amount ≤ limits.dailyCap

theorem fits_of_charge
    (h : chargeWithThesis screening dailyNotional notional lossGuard marketable = .ok charge)
    (hwithin : dailyNotional + notional ≤ limits.dailyCap) :
    charge.Fits limits dailyNotional notional := by
  obtain rfl := chargeWithThesis_ok h
  exact ⟨rfl, rfl, rfl, hwithin⟩

theorem classifyRung_ok {side : String} {currentPrice limitPrice quantity : Decimal}
    (hside : side ∈ ["buy", "sell"]) (hprice : 0 < currentPrice)
    (hbooked : dailyNotional + limitPrice * quantity ≤ limits.dailyCap)
    (h : classifyRung limits screening dailyNotional side currentPrice limitPrice quantity
      preview = .ok charge) :
    charge.Fits limits dailyNotional (if side = "sell" ∧ limitPrice ≤ currentPrice then
      quantity * max limitPrice currentPrice else quantity * limitPrice) := by
  have hresting : ∀ {lossGuard : String} {marketable : Bool},
      chargeWithThesis screening dailyNotional (limitPrice * quantity) lossGuard marketable =
        .ok charge →
      ¬ (side = "sell" ∧ limitPrice ≤ currentPrice) →
      charge.Fits limits dailyNotional (if side = "sell" ∧ limitPrice ≤ currentPrice then
        quantity * max limitPrice currentPrice else quantity * limitPrice) := by
    intro lossGuard marketable hcharge hnot
    rw [if_neg hnot, mul_comm quantity]
    exact fits_of_charge hcharge hbooked
  unfold classifyRung at h
  dsimp only at h
  split at h
  next hbuy =>
    obtain ⟨-, h⟩ := raiseIf_bind_ok.mp h
    obtain ⟨-, h⟩ := raiseIf_bind_ok.mp h
    apply hresting h
    rintro ⟨hsell, -⟩
    rw [hbuy] at hsell
    exact absurd hsell (by decide)
  next hbuy =>
    have hsell : side = "sell" := by
      rcases List.mem_cons.mp hside with hmem | hmem
      · exact absurd hmem hbuy
      · exact List.mem_singleton.mp hmem
    obtain ⟨hdistance, h⟩ := raiseIf_bind_ok.mp h
    split at h
    next hoff =>
      -- Without the expanded mode a sell rests above the market.
      apply hresting h
      rintro ⟨-, hle⟩
      rw [if_neg hoff] at hdistance
      have hthreshold : currentPrice * (1 + limits.minDistancePct / 100) ≤ limitPrice := by
        by_contra hlt
        exact hdistance ⟨hoff, not_le.mp hlt⟩
      have hfraction := mul_pos hprice (div_pos limits.minDistancePct_pos
        (show (0 : ℚ) < 100 by norm_num))
      linarith [mul_add currentPrice 1 (limits.minDistancePct / 100)]
    next hon =>
      rw [if_pos (not_not.mp hon)] at h
      split at h
      · cases h
      · cases h
      · cases h
      · split at h
        next hle =>
          obtain ⟨u, hcaps, h⟩ := bind_ok_iff.mp h
          rw [add_zero, mul_one] at hle
          rw [if_pos ⟨hsell, hle⟩, mul_comm quantity]
          exact fits_of_charge h (withinCaps_ok hcaps)
        next hgt =>
          apply hresting h
          rintro ⟨-, hle⟩
          rw [add_zero, mul_one] at hgt
          exact hgt hle

theorem evaluateAutoApproveEligibility_ok (haction : group.terms.action ≠ "cancel")
    (h : evaluateAutoApproveEligibility policy limits screening dailyNotional group rung
      preview = .ok charge) :
    group.terms.action ∈ ["place", "replace"] ∧ 0 ≤ charge.notional ∧
      charge.Fits limits dailyNotional (rung.executionNotional preview.currentPrice) := by
  obtain ⟨-, h⟩ := raiseIf_bind_ok.mp h
  obtain ⟨hsupported, h⟩ := raiseIf_bind_ok.mp h
  obtain ⟨-, h⟩ := raiseIf_bind_ok.mp h
  obtain ⟨-, h⟩ := raiseIf_bind_ok.mp h
  obtain ⟨-, h⟩ := raiseIf_bind_ok.mp h
  obtain ⟨-, h⟩ := raiseIf_bind_ok.mp h
  obtain ⟨-, h⟩ := raiseIf_bind_ok.mp h
  obtain ⟨-, h⟩ := raiseIf_bind_ok.mp h
  rw [if_neg haction] at h
  obtain ⟨-, h⟩ := raiseIf_bind_ok.mp h
  dsimp only at h
  split at h
  next currentPrice limitPrice quantity hprice hlimit hquantity =>
    obtain ⟨hprice, hpos⟩ := Option.filter_eq_some_iff.mp hprice
    obtain ⟨hlimit, hlimitPos⟩ := Option.filter_eq_some_iff.mp hlimit
    obtain ⟨hquantity, hamount⟩ := Option.filter_eq_some_iff.mp hquantity
    cases hquantity
    obtain ⟨u, hcaps, h⟩ := bind_ok_iff.mp h
    obtain ⟨hside, h⟩ := raiseIf_bind_ok.mp h
    have hfits := classifyRung_ok (not_not.mp hside) (of_decide_eq_true hpos)
      (withinCaps_ok hcaps) h
    have hlimitPos := of_decide_eq_true hlimitPos
    have hamount := of_decide_eq_true hamount
    refine ⟨?_, ?_, ?_⟩
    · have hmem := not_not.mp hsupported
      simp only [List.mem_cons, List.not_mem_nil, or_false] at hmem ⊢
      tauto
    · rw [hfits.notional]
      split
      · exact (mul_pos hamount (lt_max_of_lt_left hlimitPos)).le
      · exact (mul_pos hamount hlimitPos).le
    · unfold OrderProposalRung.executionNotional
      rw [hlimit, hprice]
      exact hfits
  · cases h

def thousand : PolicyLimits where
  minDistancePct := 2
  perOrderCap := 1000
  dailyCap := 1000
  policyVersion := "2025-01-02"
  policyContentHash := some "0123456789ab"
  minDistancePct_pos := by decide
  perOrderCap_pos := by decide
  perOrderCap_le := by decide

def thousandADay : AutoApprovePolicy where
  limitsForMarket market := if market = "equity_us" then some thousand else none
  tossLiveVetoEnabled := true

def fourShares : OrderProposalRung where
  rungIndex := 0
  side := "buy"
  quantity := 4
  limitPrice := some 150
  notional := none
  updatedAt := seconds 1700050000

/-- A buy of four shares at 150 that waits for its approval. -/
def pendingBuy (proposalId : ProposalId) : OrderProposal where
  terms :=
    { rootProposalId := proposalId
      supersedesProposalId := none
      symbol := "AAPL"
      market := "equity_us"
      accountMode := "toss_live"
      side := "buy"
      orderType := "limit"
      action := "place"
      brokerAccountId := some "1"
      targetBrokerOrderId := none
      exitIntent := none
      exitReason := none
      retrospectiveId := none
      approvalIssueId := none
      validUntil := some (seconds 1700060000)
      createdAt := seconds 1700050000 }
  rungs := [fourShares]

def restingPreview : Preview where
  success := some true
  currentPrice := some 200
  price := some 150
  quantity := some 4

end KAssetTrader.Proposals
