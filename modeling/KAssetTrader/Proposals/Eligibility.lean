import KAssetTrader.Library.CodePoints
import KAssetTrader.Proposals.AutoApprove

/-!
What the classifier of automatic approvals reads off the texts of a proposal, and what its
acceptance means in the expanded mode. The serialisation of documents is a parameter.
-/

namespace KAssetTrader.Proposals.Eligibility

open CodePoints Documents Checked

section Texts

/-- The columns of a proposal in which tags are looked for, and the identifier of its target; a
column without a value is null. -/
structure ProposalTexts where
  rationale : Json
  sourceAsof : Json
  lotContext : Json
  thesis : Json
  strategy : Json
  exitReason : Json
  voidReason : Json
  targetBrokerOrderId : Json

def withoutRejections : Json → Json
  | .obj entries => .obj (entries.filter fun entry => entry.1 ≠ ofString "auto_approve_rejections")
  | value => value

/-- `_TAG_SCAN_FIELDS`, of those that have a value. -/
def ProposalTexts.scanned (texts : ProposalTexts) : List Json :=
  [texts.rationale, withoutRejections texts.sourceAsof, texts.lotContext, texts.thesis,
    texts.strategy, texts.exitReason, texts.voidReason].filter fun value => !value.isNull

def rendered (dumps : Json → Option Text) : Json → Option Text
  | .str text => some text
  | value => dumps value

def approvalRequiredTag : Text := ofString "policy_deviation"

def findApprovalRequiredTags (dumps : Json → Option Text) (texts : ProposalTexts) :
    List String :=
  match texts.scanned.mapM (rendered dumps) with
  | none => ["policy_deviation"]
  | some fields =>
    if approvalRequiredTag <:+: lowerAscii ([0xa].intercalate fields) then ["policy_deviation"]
    else []

def autoVetoThesisSummary : Json → Option Text
  | .str thesis =>
    let normalized : Text := [0x20].intercalate ((thesis.splitOnP isSpace).filter (· ≠ []))
    if normalized = [] then none
    else if 120 < normalized.length then some (normalized.take 119 ++ [0x2026])
    else some normalized
  | _ => none

def classifyTargetEvidence (texts : ProposalTexts) : Option String :=
  match texts.targetBrokerOrderId, texts.sourceAsof with
  | .str targetId, source =>
    if strip targetId = [] then some "order_id_missing"
    else
      match source.object?.bind fun entries =>
          (Object.get entries "target_order_snapshot").object? with
      | none | some [] => some "snapshot_missing"
      | some snapshot =>
        if (Object.get snapshot "broker_order_id").str?.map strip = some (strip targetId) then
          none
        else some "snapshot_mismatch"
  | _, _ => some "order_id_missing"

def screening (dumps : Json → Option Text) (texts : ProposalTexts) : Screening where
  tags := findApprovalRequiredTags dumps texts
  targetEvidence := classifyTargetEvidence texts
  thesis := autoVetoThesisSummary texts.thesis

variable {dumps : Json → Option Text} {texts : ProposalTexts}

theorem infix_intercalate (separator : Text) {field : Text} {fields : List Text}
    (h : field ∈ fields) : field <:+: separator.intercalate fields := by
  induction fields with
  | nil => cases h
  | cons first rest ih =>
    cases rest with
    | nil =>
      obtain rfl := List.mem_singleton.mp h
      simp
    | cons second rest =>
      rw [List.intercalate_cons_cons]
      obtain rfl | h := List.mem_cons.mp h
      · exact (List.prefix_append _ _).isInfix.trans (List.prefix_append _ _).isInfix
      · exact (ih h).trans (List.suffix_append _ _).isInfix

theorem untagged (h : findApprovalRequiredTags dumps texts = []) {field : Json}
    (hfield : field ∈ texts.scanned) :
    ∃ text, rendered dumps field = some text ∧ ¬ approvalRequiredTag <:+: lowerAscii text := by
  unfold findApprovalRequiredTags at h
  split at h
  · cases h
  next fields hfields =>
    split_ifs at h with htag
    have hsome := Checked.mapM_isSome_iff.mp (Option.isSome_of_eq_some hfields) field hfield
    obtain ⟨text, htext⟩ := Option.isSome_iff_exists.mp hsome
    refine ⟨text, htext, fun hin => htag (hin.trans ?_)⟩
    obtain ⟨before, after, heq⟩ := infix_intercalate [0xa]
      ((Checked.mem_of_mapM_eq_some hfields).mpr ⟨field, hfield, htext⟩)
    refine ⟨lowerAscii before, lowerAscii after, ?_⟩
    rw [← heq]
    simp only [lowerAscii, List.map_append]

end Texts

variable {limits : AutoApproveLimits} {dailyNotional : Decimal} {rung : OrderProposalRung}
  {preview : Preview} {sc : Screening}

section Orders

structure ExpandedLimits extends AutoApproveLimits where
  expanded : mode = "expanded"
  band_nonneg : 0 ≤ breakevenBandPct
  cost_nonneg : 0 ≤ roundTripCostBps

variable {charge : CapCharge} {side : String} {current limit quantity avg amount : Decimal}

def FitsCaps (limits : AutoApproveLimits) (dailyNotional amount : Decimal) : Prop :=
  amount ≤ limits.perOrderCap ∧ dailyNotional + amount ≤ limits.dailyCap

/-- A sell that is outside the band, and gains after the costs of both legs, by its own price
and by what the preview says. -/
def TakesProfit (limits : AutoApproveLimits) (preview : Preview) (limit quantity avg : Decimal) :
    Prop :=
  avg * limits.breakevenBandPct / 100 < |limit - avg| ∧
    ∀ gross ∈ (limit - avg) * quantity :: preview.realizedPnl.toList,
      max limit avg * quantity * limits.roundTripCostBps / 10000 < gross

def Passes (limits : AutoApproveLimits) (dailyNotional : Decimal) (side : String)
    (current limit quantity : Decimal) (preview : Preview) : Prop :=
  FitsCaps limits dailyNotional (limit * quantity) ∧
    (side = "buy" ∧ limit < current ∨ side = "sell" ∧
      (limit ≤ current → FitsCaps limits dailyNotional (max limit current * quantity)) ∧
      ∃ avg ∈ preview.avgBuyPrice, 0 < avg ∧ TakesProfit limits preview limit quantity avg)

theorem withinCaps_iff : (∃ u, withinCaps limits dailyNotional amount = .ok u) ↔
    FitsCaps limits dailyNotional amount := by
  unfold withinCaps FitsCaps
  simp only [raiseIf_bind_ok, not_lt]
  unfold raiseIf
  split_ifs with h
  · exact iff_of_false (by simp) fun hfits => absurd h (not_lt.mpr hfits.2)
  · simp [not_lt.mp h]

theorem chargeWithThesis_iff (sc : Screening) (lossGuard : String) (marketable : Bool) :
    (∃ charge, chargeWithThesis sc dailyNotional amount lossGuard marketable = .ok charge) ↔
      sc.thesis ≠ none := by
  unfold chargeWithThesis
  simp only [raiseIf_bind_ok]
  exact ⟨fun h => h.choose_spec.1, fun h => ⟨_, h, rfl⟩⟩

theorem classifySellProfit_iff :
    classifySellProfit limit quantity preview limits = .takeProfit ↔
      ∃ avg ∈ preview.avgBuyPrice, 0 < avg ∧ TakesProfit limits preview limit quantity avg := by
  unfold classifySellProfit
  cases hfilter : preview.avgBuyPrice.filter fun price => decide (0 < price) with
  | none =>
    refine iff_of_false nofun ?_
    rintro ⟨avg, havg, hpos, -⟩
    rw [Option.filter_eq_none_iff] at hfilter
    exact hfilter avg havg (decide_eq_true hpos)
  | some avg =>
    obtain ⟨havg, hpos⟩ := Option.filter_eq_some_iff.mp hfilter
    have hunique : (∃ price ∈ preview.avgBuyPrice, 0 < price ∧
        TakesProfit limits preview limit quantity price) ↔
        TakesProfit limits preview limit quantity avg := by
      constructor
      · rintro ⟨price, hprice, -, htakes⟩
        rw [havg] at hprice
        cases hprice
        exact htakes
      · exact fun h => ⟨avg, havg, of_decide_eq_true hpos, h⟩
    rw [hunique]
    unfold TakesProfit
    dsimp only
    split_ifs with hband hgain
    · exact iff_of_false nofun fun h => absurd hband (not_le.mpr h.1)
    all_goals
      rw [and_iff_right (not_le.mp hband), List.forall_mem_cons]
      cases hpnl : preview.realizedPnl with
      | none =>
        rw [hpnl] at hgain
        simp_all
      | some pnl =>
        rw [hpnl] at hgain
        simp_all

theorem classifyRung_iff (hmode : limits.mode = "expanded") (hside : side ∈ ["buy", "sell"])
    (hbooked : FitsCaps limits dailyNotional (limit * quantity)) :
    (∃ charge, classifyRung limits sc dailyNotional side current limit quantity preview =
        .ok charge) ↔
      sc.thesis ≠ none ∧ Passes limits dailyNotional side current limit quantity preview := by
  unfold classifyRung Passes
  simp only [hmode, if_true, sub_zero, add_zero, mul_one, not_true_eq_false, false_and, if_false,
    and_iff_right hbooked]
  obtain rfl | hside := List.mem_cons.mp hside
  · simp only [if_true, true_and, raiseIf_bind_ok, not_le, not_false_eq_true, exists_and_left]
    rw [chargeWithThesis_iff, and_comm]
    simp
  · obtain rfl := List.mem_singleton.mp hside
    have hbuy : ¬ ("sell" : String) = "buy" := by decide
    simp only [hbuy, if_false, raiseIf_bind_ok, not_false_eq_true, true_and, false_and, false_or,
      ← classifySellProfit_iff]
    cases hverdict : classifySellProfit limit quantity preview limits with
    | takeProfit =>
      by_cases hmarketable : limit ≤ current
      · simp only [hmarketable, if_true, true_implies, and_true, bind_ok_iff]
        rw [← withinCaps_iff, ← chargeWithThesis_iff sc "net_profit_proven" true]
        constructor
        · rintro ⟨charge, u, hu, hcharge⟩
          exact ⟨⟨charge, hcharge⟩, u, hu⟩
        · rintro ⟨⟨charge, hcharge⟩, u, hu⟩
          exact ⟨charge, u, hu, hcharge⟩
      · simp only [hmarketable, if_false, chargeWithThesis_iff, false_implies, and_true]
    | breakevenBand | notProfitable | unclassifiable =>
      simp [throw, throwThe, MonadExceptOf.throw]

end Orders

variable {policy : AutoApprovePolicy} {stricter : AutoApproveLimits} {later : Decimal}
  {group : OrderProposal}

structure OpenGates (policy : AutoApprovePolicy) (sc : Screening) (group : OrderProposal) :
    Prop where
  action : group.terms.action ∈ ["place", "replace", "cancel"]
  target : group.terms.action ∈ ["replace", "cancel"] → sc.targetEvidence = none
  limit : group.terms.action ≠ "cancel" → group.terms.orderType = "limit"
  exit : group.terms.exitIntent = none
  account : policy.isVetoCapableAccountMarket group.terms.accountMode group.terms.market = true
  tags : sc.tags = []
  thesis : sc.thesis ≠ none

def PassesOrder (limits : AutoApproveLimits) (dailyNotional : Decimal)
    (rung : OrderProposalRung) (preview : Preview) : Prop :=
  preview.success = some true ∧ ∃ current limit, preview.currentPrice = some current ∧
    rung.limitPrice = some limit ∧ 0 < current ∧ 0 < limit ∧ 0 < rung.quantity ∧
    Passes limits dailyNotional rung.side current limit rung.quantity preview

theorem evaluate_iff (hmode : limits.mode = "expanded") :
    (∃ charge, evaluateAutoApproveEligibility policy limits sc dailyNotional group rung preview =
        .ok charge) ↔
      OpenGates policy sc group ∧
        (group.terms.action ≠ "cancel" → PassesOrder limits dailyNotional rung preview) := by
  have hcharged : (∃ charge, evaluateAutoApproveEligibility policy limits sc dailyNotional group
      rung preview = .ok charge) ↔
        group.terms.action ∈ ["place", "replace", "cancel"] ∧
        (group.terms.action ∈ ["replace", "cancel"] → sc.targetEvidence = none) ∧
        (group.terms.action ≠ "cancel" → group.terms.orderType = "limit") ∧
        group.terms.exitIntent = none ∧
        policy.isVetoCapableAccountMarket group.terms.accountMode group.terms.market = true ∧
        sc.tags = [] ∧ sc.thesis ≠ none ∧
        (group.terms.action ≠ "cancel" → PassesOrder limits dailyNotional rung preview) := by
    have hexit : ¬ group.terms.exitIntent = some "loss_cut" ∧ group.terms.exitIntent = none ↔
        group.terms.exitIntent = none :=
      and_iff_right_of_imp fun h => by simp [h]
    unfold evaluateAutoApproveEligibility
    simp only [raiseIf_bind_ok, hmode, List.mem_cons, true_or, or_true, not_true_eq_false,
      not_false_eq_true, true_and, not_not, not_and, ne_eq, Bool.not_eq_false, exists_and_left]
    rw [← and_assoc (a := ¬ group.terms.exitIntent = some "loss_cut"), hexit]
    refine and_congr_right fun _ => and_congr_right fun _ => and_congr_right fun _ =>
      and_congr_right fun _ => and_congr_right fun _ => and_congr_right fun _ => ?_
    by_cases hcancel : group.terms.action = "cancel"
    · rw [if_pos hcancel, chargeWithThesis_iff]
      simp [hcancel]
    · simp only [hcancel, not_false_eq_true, true_implies, if_false, raiseIf_bind_ok, not_not,
        exists_and_left]
      unfold PassesOrder
      rw [and_left_comm]
      refine and_congr_right fun _ => ?_
      constructor
      · rintro ⟨charge, h⟩
        split at h
        next current limit quantity hcurrent hlimit hquantity =>
          obtain ⟨hcurrent, hcurrentPos⟩ := Option.filter_eq_some_iff.mp hcurrent
          obtain ⟨hlimit, hlimitPos⟩ := Option.filter_eq_some_iff.mp hlimit
          obtain ⟨hquantity, hquantityPos⟩ := Option.filter_eq_some_iff.mp hquantity
          cases hquantity
          obtain ⟨u, hcaps, h⟩ := bind_ok_iff.mp h
          obtain ⟨hside, h⟩ := raiseIf_bind_ok.mp h
          obtain ⟨hthesis, hpasses⟩ := (classifyRung_iff hmode
            (by simpa [or_iff_not_imp_left] using hside)
            (withinCaps_iff.mp ⟨u, hcaps⟩)).mp ⟨charge, h⟩
          exact ⟨hthesis, current, limit, hcurrent, hlimit, of_decide_eq_true hcurrentPos,
            of_decide_eq_true hlimitPos, of_decide_eq_true hquantityPos, hpasses⟩
        · cases h
      · rintro ⟨hthesis, current, limit, hcurrent, hlimit, hcurrentPos, hlimitPos, hquantityPos,
          hpasses⟩
        have hside : rung.side ∈ ["buy", "sell"] := by
          obtain ⟨hbuy, -⟩ | ⟨hsell, -⟩ := hpasses.2
          · simp [hbuy]
          · simp [hsell]
        obtain ⟨u, hcaps⟩ := withinCaps_iff.mpr hpasses.1
        obtain ⟨charge, hcharge⟩ := (classifyRung_iff hmode hside hpasses.1).mpr
          ⟨hthesis, hpasses⟩
        refine ⟨charge, ?_⟩
        simp only [hcurrent, hlimit, Option.filter_some, decide_eq_true hcurrentPos,
          decide_eq_true hlimitPos, decide_eq_true hquantityPos, if_true]
        rw [hcaps, ok_bind]
        exact raiseIf_bind_ok.mpr ⟨by simpa [or_iff_not_imp_left] using hside, hcharge⟩
  rw [hcharged]
  constructor
  · rintro ⟨haction, htarget, hlimit, hexit, haccount, htags, hthesis, horder⟩
    exact ⟨⟨haction, htarget, hlimit, hexit, haccount, htags, hthesis⟩, horder⟩
  · rintro ⟨⟨haction, htarget, hlimit, hexit, haccount, htags, hthesis⟩, horder⟩
    exact ⟨haction, htarget, hlimit, hexit, haccount, htags, hthesis, horder⟩

/-- Smaller caps, a higher total of the day, higher costs and a wider band. -/
structure Stricter (limits stricter : AutoApproveLimits) (dailyNotional later : Decimal) :
    Prop where
  perOrderCap : stricter.perOrderCap ≤ limits.perOrderCap
  dailyCap : stricter.dailyCap ≤ limits.dailyCap
  daily : dailyNotional ≤ later
  cost : limits.roundTripCostBps ≤ stricter.roundTripCostBps
  band : limits.breakevenBandPct ≤ stricter.breakevenBandPct

section

variable (h : Stricter limits stricter dailyNotional later)
include h

theorem Stricter.fits {amount : Decimal} (hfits : FitsCaps stricter later amount) :
    FitsCaps limits dailyNotional amount := by
  have hafter : dailyNotional + amount ≤ later + amount := by linarith [h.daily]
  exact ⟨hfits.1.trans h.perOrderCap, hafter.trans (hfits.2.trans h.dailyCap)⟩

theorem Stricter.takesProfit {limit quantity avg : Decimal} (havg : 0 < avg)
    (hquantity : 0 < quantity) (hprofit : TakesProfit stricter preview limit quantity avg) :
    TakesProfit limits preview limit quantity avg := by
  have hamount : 0 ≤ max limit avg * quantity :=
    mul_nonneg (havg.le.trans (le_max_right limit avg)) hquantity.le
  have hband : avg * limits.breakevenBandPct / 100 ≤ avg * stricter.breakevenBandPct / 100 := by
    have := mul_le_mul_of_nonneg_left h.band havg.le
    linarith
  have hcost := mul_le_mul_of_nonneg_left h.cost hamount
  refine ⟨hband.trans_lt hprofit.1, fun gross hgross => ?_⟩
  have := hprofit.2 gross hgross
  linarith

theorem Stricter.passesOrder (horder : PassesOrder stricter later rung preview) :
    PassesOrder limits dailyNotional rung preview := by
  obtain ⟨hsuccess, current, limit, hcurrent, hlimit, hpos, hlimitPos, hquantity, hfits,
    hside⟩ := horder
  refine ⟨hsuccess, current, limit, hcurrent, hlimit, hpos, hlimitPos, hquantity, h.fits hfits,
    ?_⟩
  obtain hbuy | ⟨hsell, hmarketable, avg, havg, havgPos, hprofit⟩ := hside
  · exact .inl hbuy
  · exact .inr ⟨hsell, fun hle => h.fits (hmarketable hle), avg, havg, havgPos,
      h.takesProfit havgPos hquantity hprofit⟩

end

structure Cleared (dumps : Json → Option Text) (texts : ProposalTexts) (limits : AutoApproveLimits)
    (dailyNotional : Decimal) (group : OrderProposal) (rung : OrderProposalRung)
    (preview : Preview) : Prop where
  limitOrder : group.terms.orderType = "limit"
  noExit : group.terms.exitIntent = none
  untagged : ∀ field ∈ texts.scanned, ∃ text, rendered dumps field = some text ∧
    ¬ approvalRequiredTag <:+: lowerAscii text
  priced : ∃ current limit, preview.currentPrice = some current ∧ rung.limitPrice = some limit ∧
    FitsCaps limits dailyNotional (limit * rung.quantity) ∧
    (rung.side = "buy" ∧ limit < current ∨ rung.side = "sell" ∧
      (limit ≤ current → FitsCaps limits dailyNotional (max limit current * rung.quantity)) ∧
      ∃ avg ∈ preview.avgBuyPrice, avg * limits.breakevenBandPct / 100 < limit - avg ∧
        TakesProfit limits preview limit rung.quantity avg)

/-- An acceptance in the expanded mode clears the order, and stricter limits or a higher total
accept no more. -/
structure SoundAcceptance (policy : AutoApprovePolicy) (dumps : Json → Option Text)
    (texts : ProposalTexts) (limits : ExpandedLimits) (dailyNotional : Decimal)
    (group : OrderProposal) (rung : OrderProposalRung) (preview : Preview) : Prop where
  cleared : ∀ charge, evaluateAutoApproveEligibility policy limits.toAutoApproveLimits
      (screening dumps texts) dailyNotional group rung preview = .ok charge →
    group.terms.action ≠ "cancel" →
    Cleared dumps texts limits.toAutoApproveLimits dailyNotional group rung preview
  monotone : ∀ (stricter : ExpandedLimits) (later : Decimal),
    Stricter limits.toAutoApproveLimits stricter.toAutoApproveLimits dailyNotional later →
    (∃ charge, evaluateAutoApproveEligibility policy stricter.toAutoApproveLimits
      (screening dumps texts) later group rung preview = .ok charge) →
    ∃ charge, evaluateAutoApproveEligibility policy limits.toAutoApproveLimits
      (screening dumps texts) dailyNotional group rung preview = .ok charge

/-- An accepted order has passed every gate, and what stricter limits accept, looser ones accept. -/
theorem acceptance_sound (policy : AutoApprovePolicy) (dumps : Json → Option Text)
    (texts : ProposalTexts) (limits : ExpandedLimits) (dailyNotional : Decimal)
    (group : OrderProposal) (rung : OrderProposalRung) (preview : Preview) :
    SoundAcceptance policy dumps texts limits dailyNotional group rung preview := by
  constructor
  · intro charge hcharge hplaced
    obtain ⟨hgates, horder⟩ := (evaluate_iff limits.expanded).mp ⟨charge, hcharge⟩
    obtain ⟨-, current, limit, hcurrent, hlimit, hpos, hlimitPos, hquantity, hfits, hside⟩ :=
      horder hplaced
    refine ⟨hgates.limit hplaced, hgates.exit, fun field => untagged hgates.tags,
      current, limit, hcurrent, hlimit, hfits, ?_⟩
    obtain hbuy | ⟨hsell, hmarketable, avg, havg, havgPos, hprofit⟩ := hside
    · exact .inl hbuy
    · refine .inr ⟨hsell, hmarketable, avg, havg, ?_, hprofit⟩
      -- A gain after costs that are not negative puts the price above the average.
      have hcost : 0 ≤ max limit avg * rung.quantity * limits.roundTripCostBps / 10000 :=
        div_nonneg (mul_nonneg (mul_nonneg (havgPos.le.trans (le_max_right limit avg))
          hquantity.le) limits.cost_nonneg) (by norm_num)
      have hgain := hcost.trans_lt (hprofit.2 _ List.mem_cons_self)
      have habove : 0 < limit - avg := (mul_pos_iff_of_pos_right hquantity).mp hgain
      rw [← abs_of_pos habove]
      exact hprofit.1
  · rintro stricter later hstricter haccepted
    obtain ⟨hgates, horder⟩ := (evaluate_iff stricter.expanded).mp haccepted
    exact (evaluate_iff limits.expanded).mpr
      ⟨hgates, fun hplaced => hstricter.passesOrder (horder hplaced)⟩

def thousandExpanded : ExpandedLimits where
  toAutoApproveLimits := { thousand.toAutoApproveLimits with mode := "expanded" }
  expanded := rfl
  band_nonneg := by decide
  cost_nonneg := by decide

def valueTexts : ProposalTexts :=
  ⟨.null, .null, .null, .str (ofString "value"), .null, .null, .null, .null⟩

/-- A buy of four shares at 150 is accepted below a price of 200. -/
theorem acceptance_sound_buy : ∃ charge,
    evaluateAutoApproveEligibility thousandADay thousandExpanded.toAutoApproveLimits
      (screening (fun _ => none) valueTexts) 0 (pendingBuy "a") fourShares restingPreview =
        .ok charge ∧ charge.notional = 600 ∧
    Cleared (fun _ => none) valueTexts thousandExpanded.toAutoApproveLimits 0 (pendingBuy "a")
      fourShares restingPreview := by
  obtain ⟨charge, hcharge, hnotional⟩ : ∃ charge,
      evaluateAutoApproveEligibility thousandADay thousandExpanded.toAutoApproveLimits
        (screening (fun _ => none) valueTexts) 0 (pendingBuy "a") fourShares restingPreview =
          .ok charge ∧ charge.notional = 600 :=
    exists_ok_of_check (by decide +kernel)
  refine ⟨charge, hcharge, hnotional, ?_⟩
  exact (acceptance_sound thousandADay (fun _ => none) valueTexts thousandExpanded 0
    (pendingBuy "a") fourShares restingPreview).cleared charge hcharge (by decide)

end KAssetTrader.Proposals.Eligibility
