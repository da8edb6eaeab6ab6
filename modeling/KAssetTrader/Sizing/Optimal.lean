import KAssetTrader.Library.Precision
import KAssetTrader.Sizing.PositionSize

/-!
What the sizer guarantees over exact arithmetic. A positive quantity is the greatest number
of whole lots that meets the five caps at once, scaled by the state of the account; and a
quantity is positive exactly when no reason is reported.
-/

namespace KAssetTrader.Sizing

open Position Decimal

/-- The caps of a purchase as bounds on amounts: what it risks, what the symbol and the
owner's budget may still take, and what the market trades. -/
structure WithinCaps (config : PositionSizingConfig) (request : PositionSizingInput)
    (quantity : Decimal) : Prop where
  risk : ∃ stop, request.strategyStop = some stop ∧
    quantity * (request.entryPrice - stop) ≤
      request.operatingBudget * request.riskPerTradeRate *
        config.regimeMultiplier request.regime
  symbol : quantity * request.entryPrice ≤
    request.operatingBudget * request.maxSymbolAllocation - request.currentSymbolInvested
  owner : quantity * request.entryPrice ≤ request.operatingBudget - request.budgetUsed
  volume : ∃ average, request.averageVolume = some average ∧
    quantity ≤ average * config.maxAverageVolumeParticipation
  turnover : ∃ average, request.averageTurnover = some average ∧
    quantity * request.entryPrice ≤ average * config.maxAverageTurnoverParticipation

def PositionSizingInput.withMultiplier (request : PositionSizingInput) (multiplier : Decimal)
    (hbetween : 0 ≤ multiplier ∧ multiplier ≤ 1) : PositionSizingInput :=
  { request with
    accountStateMultiplier := multiplier
    multiplier_between := hbetween }

structure BuySound (config : PositionSizingConfig) (request : PositionSizingInput)
    (result : PositionSizingResult) : Prop where
  lots : 0 < result.quantity → ∃ n : ℕ, result.quantity = n * config.lotSize request.market
  within : 0 < result.quantity → WithinCaps config request result.quantity
  maximal : 0 < result.quantity → request.accountStateMultiplier = 1 →
    ¬ WithinCaps config request (result.quantity + config.lotSize request.market)
  positive : 0 < result.quantity ↔ result.zeroReasons = []

/-- A sized sale; a holding is not negative, and a negative one sells nothing. -/
structure SellSound (request : PositionSizingInput) (result : PositionSizingResult) : Prop where
  held : 0 ≤ request.currentHoldingQuantity → result.quantity ≤ request.currentHoldingQuantity
  nothing : request.currentHoldingQuantity < 0 → result.quantity = 0

section Caps

variable {caps : List PositionSizeCap} {quantity : Decimal}

theorem le_smallestCap_iff (hcaps : caps ≠ []) :
    quantity ≤ smallestCap caps ↔ ∀ cap ∈ caps, quantity ≤ cap.quantity := by
  unfold smallestCap
  cases hmin : (caps.map (·.quantity)).min? with
  | none =>
    rw [List.min?_eq_none_iff, List.map_eq_nil_iff] at hmin
    exact absurd hmin hcaps
  | some smallest =>
    rw [Option.getD_some, List.le_min?_iff hmin, List.forall_mem_map]

end Caps

variable {config : PositionSizingConfig} {request : PositionSizingInput}

section Valid

theorem reasonWhen_eq_nil {failed : Bool} {code : PositionSizingZeroCode}
    {field detail : String} :
    reasonWhen failed code field detail = [] ↔ failed = false := by
  unfold reasonWhen
  cases failed with
  | true => simp
  | false => simp

structure ValidBuy (config : PositionSizingConfig) (request : PositionSizingInput)
    (stop averageVolume averageTurnover : Decimal) : Prop where
  entry : 0 < request.entryPrice
  stop_eq : request.strategyStop = some stop
  stop_lt : stop < request.entryPrice
  budget : 0 < request.operatingBudget
  rate : 0 < request.riskPerTradeRate
  multiplier : 0 < config.regimeMultiplier request.regime
  volume_eq : request.averageVolume = some averageVolume
  volume_pos : 0 < averageVolume
  turnover_eq : request.averageTurnover = some averageTurnover
  turnover_pos : 0 < averageTurnover

theorem stop_of_valid (h : stopReasons request = []) :
    ∃ stop, request.strategyStop = some stop ∧ stop < request.entryPrice := by
  unfold stopReasons at h
  split at h
  · cases h
  next stop hstop =>
    split at h
    · cases h
    · rw [reasonWhen_eq_nil, decide_eq_false_iff_not, not_le] at h
      exact ⟨stop, hstop, h⟩

theorem liquidity_of_valid {field : String} {average : Option Decimal}
    (h : liquidityReasons field average = []) :
    ∃ value, average = some value ∧ 0 < value := by
  unfold liquidityReasons at h
  split at h
  · cases h
  next value =>
    rw [reasonWhen_eq_nil, decide_eq_false_iff_not, not_le] at h
    exact ⟨value, rfl, h⟩

theorem regimeMultiplier_nonneg (config : PositionSizingConfig) (regime : MarketRegime) :
    0 ≤ config.regimeMultiplier regime := by
  obtain ⟨hbull, hbear, hsideways, hvolatile⟩ := config.multipliers_nonneg
  cases regime with
  | bull => exact hbull
  | bear => exact hbear
  | sideways => exact hsideways
  | volatile => exact hvolatile

theorem validBuy_of_reasons
    {sessionsOpenedSince : Market → Instant → Instant → Option ℤ}
    (hbase : baseReasons sessionsOpenedSince config request = [])
    (hbuy : buyReasons config request = []) :
    ∃ stop averageVolume averageTurnover,
      ValidBuy config request stop averageVolume averageTurnover := by
  unfold baseReasons at hbase
  unfold buyReasons at hbuy
  simp only [List.append_eq_nil_iff, reasonWhen_eq_nil, decide_eq_false_iff_not, not_le,
    not_or] at hbase hbuy
  obtain ⟨⟨⟨⟨⟨⟨⟨⟨⟨hstop, _⟩, hbudget⟩, _⟩, _⟩, _⟩, hrate⟩, hregime⟩, hvolume⟩, hturnover⟩ := hbuy
  obtain ⟨stop, hstop, hlt⟩ := stop_of_valid hstop
  obtain ⟨averageVolume, hvolume, hvolumePos⟩ := liquidity_of_valid hvolume
  obtain ⟨averageTurnover, hturnover, hturnoverPos⟩ := liquidity_of_valid hturnover
  exact ⟨stop, averageVolume, averageTurnover,
    { entry := hbase.1
      stop_eq := hstop
      stop_lt := hlt
      budget := hbudget
      rate := hrate.1
      multiplier := lt_of_le_of_ne (regimeMultiplier_nonneg config _) (Ne.symm hregime)
      volume_eq := hvolume
      volume_pos := hvolumePos
      turnover_eq := hturnover
      turnover_pos := hturnoverPos }⟩

/-- The caps of `_calculate_buy` over exact arithmetic. -/
def exactCaps (config : PositionSizingConfig) (request : PositionSizingInput)
    (stop averageVolume averageTurnover : Decimal) : List PositionSizeCap :=
  [⟨.riskBudget, request.operatingBudget * request.riskPerTradeRate *
      config.regimeMultiplier request.regime / (request.entryPrice - stop)⟩,
   ⟨.symbolAllocation, max 0 (request.operatingBudget * request.maxSymbolAllocation -
      request.currentSymbolInvested) / request.entryPrice⟩,
   ⟨.ownerBudget, max 0 (request.operatingBudget - request.budgetUsed) / request.entryPrice⟩,
   ⟨.averageVolume, averageVolume * config.maxAverageVolumeParticipation⟩,
   ⟨.averageTurnover, averageTurnover * config.maxAverageTurnoverParticipation /
      request.entryPrice⟩]

/-- Nothing of the owner's budget or of the symbol's allocation is left. -/
def Exhausted (request : PositionSizingInput) : Prop :=
  request.operatingBudget - request.budgetUsed ≤ 0 ∨
    request.operatingBudget * request.maxSymbolAllocation - request.currentSymbolInvested ≤ 0

variable {stop averageVolume averageTurnover : Decimal}

theorem exactCaps_ne_nil :
    exactCaps config request stop averageVolume averageTurnover ≠ [] :=
  List.cons_ne_nil _ _

variable (h : ValidBuy config request stop averageVolume averageTurnover)
include h

theorem ValidBuy.riskBudget_pos :
    0 < request.operatingBudget * request.riskPerTradeRate *
      config.regimeMultiplier request.regime :=
  mul_pos (mul_pos h.budget h.rate) h.multiplier

theorem ValidBuy.caps_nonneg :
    0 ≤ smallestCap (exactCaps config request stop averageVolume averageTurnover) := by
  obtain ⟨⟨hvolume, _⟩, hturnover, _⟩ := config.participation_bounded
  rw [le_smallestCap_iff exactCaps_ne_nil]
  intro cap hcap
  simp only [exactCaps, List.mem_cons, List.not_mem_nil, or_false] at hcap
  rcases hcap with rfl | rfl | rfl | rfl | rfl
  · exact div_nonneg h.riskBudget_pos.le (sub_nonneg.mpr h.stop_lt.le)
  · exact div_nonneg (le_max_left _ _) h.entry.le
  · exact div_nonneg (le_max_left _ _) h.entry.le
  · exact mul_nonneg h.volume_pos.le hvolume.le
  · exact div_nonneg (mul_nonneg h.turnover_pos.le hturnover.le) h.entry.le

/-- While something is left, the bounds on amounts are the caps on the quantity. -/
theorem ValidBuy.withinCaps_iff (hleft : ¬ Exhausted request) {quantity : Decimal} :
    WithinCaps config request quantity ↔
      quantity ≤ smallestCap (exactCaps config request stop averageVolume averageTurnover) := by
  obtain ⟨howner, hsymbol⟩ := not_or.mp hleft
  rw [not_le] at howner hsymbol
  rw [le_smallestCap_iff exactCaps_ne_nil]
  simp only [exactCaps, List.forall_mem_cons, List.not_mem_nil, false_imp_iff, implies_true,
    and_true, max_eq_right howner.le, max_eq_right hsymbol.le,
    le_div_iff₀ (sub_pos.mpr h.stop_lt), le_div_iff₀ h.entry]
  constructor
  · rintro ⟨⟨s, hs, hrisk⟩, hallocation, hbudget, ⟨v, hv, hvolume⟩, ⟨t, ht, hturnover⟩⟩
    cases h.stop_eq.symm.trans hs
    cases h.volume_eq.symm.trans hv
    cases h.turnover_eq.symm.trans ht
    exact ⟨hrisk, hallocation, hbudget, hvolume, hturnover⟩
  · rintro ⟨hrisk, hallocation, hbudget, hvolume, hturnover⟩
    exact ⟨⟨stop, h.stop_eq, hrisk⟩, hallocation, hbudget,
      ⟨averageVolume, h.volume_eq, hvolume⟩, ⟨averageTurnover, h.turnover_eq, hturnover⟩⟩

/-- The outcome of `_calculate_buy` for a purchase that passes every check. -/
theorem ValidBuy.calculateBuy :
    let result := calculateBuy .exact config request stop averageVolume averageTurnover
    let rounded := floorTo (config.lotSize request.market)
      (smallestCap (exactCaps config request stop averageVolume averageTurnover) *
        request.accountStateMultiplier)
    ((Exhausted request ∨ rounded ≤ 0) ∧ result.quantity = 0 ∧ result.zeroReasons ≠ []) ∨
      (¬ Exhausted request ∧ 0 < rounded ∧ result.quantity = rounded ∧
        result.zeroReasons = []) := by
  intro result rounded
  have hrisk := not_le.mpr h.riskBudget_pos
  by_cases howner : request.operatingBudget - request.budgetUsed ≤ 0
  · refine .inl ⟨.inl (.inl howner), ?_⟩
    simp [result, Sizing.calculateBuy, hrisk, max_eq_left howner]
  · by_cases hsymbol : request.operatingBudget * request.maxSymbolAllocation -
        request.currentSymbolInvested ≤ 0
    · refine .inl ⟨.inl (.inr hsymbol), ?_⟩
      simp [result, Sizing.calculateBuy, hrisk, max_eq_left hsymbol,
        max_eq_right (not_le.mp howner).le, howner]
    · have hleft : ¬ Exhausted request := not_or.mpr ⟨howner, hsymbol⟩
      have hmaxOwner := max_eq_right (not_le.mp howner).le
      have hmaxSymbol := max_eq_right (not_le.mp hsymbol).le
      have hquantity : result = Sizing.calculateBuy .exact config request stop averageVolume
        averageTurnover := rfl
      unfold Sizing.calculateBuy at hquantity
      simp only [Context.exact_mul, Context.exact_sub, Context.exact_div, if_neg hrisk,
        hmaxOwner, hmaxSymbol, if_neg howner, if_neg hsymbol] at hquantity
      have hrounded : rounded = roundToLot .exact
          (smallestCap (exactCaps config request stop averageVolume averageTurnover) *
            request.accountStateMultiplier) (config.lotSize request.market) := rfl
      simp only [exactCaps, hmaxOwner, hmaxSymbol] at hrounded
      rw [← hrounded] at hquantity
      by_cases hzero : rounded ≤ 0
      · rw [if_pos hzero] at hquantity
        refine .inl ⟨.inr hzero, ?_⟩
        rw [hquantity]
        exact ⟨rfl, List.cons_ne_nil _ _⟩
      · rw [if_neg hzero] at hquantity
        refine .inr ⟨hleft, not_le.mp hzero, ?_⟩
        rw [hquantity]
        exact ⟨rfl, rfl⟩

end Valid

section Results

variable {sessionsOpenedSince : Market → Instant → Instant → Option ℤ}

variable (config request sessionsOpenedSince) in
theorem calculatePositionSize_buy (haction : request.action = .buy) :
    ((calculatePositionSize .exact config request sessionsOpenedSince).quantity = 0 ∧
        (calculatePositionSize .exact config request sessionsOpenedSince).zeroReasons ≠ [] ∧
        (baseReasons sessionsOpenedSince config request ≠ [] ∨
          buyReasons config request ≠ [])) ∨
      ∃ stop averageVolume averageTurnover,
        ValidBuy config request stop averageVolume averageTurnover ∧
          (baseReasons sessionsOpenedSince config request = [] ∧
            buyReasons config request = []) ∧
          calculatePositionSize .exact config request sessionsOpenedSince =
            calculateBuy .exact config request stop averageVolume averageTurnover := by
  unfold calculatePositionSize
  simp only [haction]
  by_cases hreasons :
      baseReasons sessionsOpenedSince config request ++ buyReasons config request ≠ []
  · rw [if_pos hreasons]
    refine .inl ⟨rfl, hreasons, ?_⟩
    by_contra hnone
    push Not at hnone
    exact hreasons (List.append_eq_nil_iff.mpr hnone)
  · rw [if_neg hreasons]
    push Not at hreasons
    obtain ⟨hbase, hbuy⟩ := List.append_eq_nil_iff.mp hreasons
    obtain ⟨stop, averageVolume, averageTurnover, hvalid⟩ := validBuy_of_reasons hbase hbuy
    refine .inr ⟨stop, averageVolume, averageTurnover, hvalid, ⟨hbase, hbuy⟩, ?_⟩
    rw [hvalid.stop_eq, hvalid.volume_eq, hvalid.turnover_eq]
    rfl

theorem buySound (haction : request.action = .buy) :
    BuySound config request (calculatePositionSize .exact config request sessionsOpenedSince) := by
  have hlot := config.lotSize_pos request.market
  rcases calculatePositionSize_buy config request sessionsOpenedSince haction with
    ⟨hzero, hreasons, _⟩ | ⟨stop, averageVolume, averageTurnover, hvalid, _, hresult⟩
  · have hnot : ¬ 0 <
        (calculatePositionSize .exact config request sessionsOpenedSince).quantity := by
      rw [hzero]
      exact lt_irrefl 0
    exact ⟨fun h => absurd h hnot, fun h => absurd h hnot, fun h => absurd h hnot,
      ⟨fun h => absurd h hnot, fun h => absurd h hreasons⟩⟩
  · have hcaps := hvalid.caps_nonneg
    have hscaled := mul_nonneg hcaps request.multiplier_between.1
    rw [hresult]
    rcases hvalid.calculateBuy with ⟨_, hzero, hreasons⟩ | ⟨hleft, hpositive, hquantity, hnone⟩
    · have hnot : ¬ 0 <
          (calculateBuy .exact config request stop averageVolume averageTurnover).quantity := by
        rw [hzero]
        exact lt_irrefl 0
      exact ⟨fun h => absurd h hnot, fun h => absurd h hnot, fun h => absurd h hnot,
        ⟨fun h => absurd h hnot, fun h => absurd h hreasons⟩⟩
    · constructor
      · intro _
        rw [hquantity]
        exact floorTo_eq_natCast_mul hlot hscaled
      · intro _
        rw [hquantity, hvalid.withinCaps_iff hleft]
        refine (floorTo_le hlot hscaled).trans ?_
        exact mul_le_of_le_one_right hcaps request.multiplier_between.2
      · intro _ hone hmore
        rw [hquantity, hvalid.withinCaps_iff hleft, hone, mul_one] at hmore
        exact absurd (lt_floorTo_add hlot hcaps) (not_lt.mpr hmore)
      · rw [hquantity]
        exact ⟨fun _ => hnone, fun _ => hpositive⟩

theorem buy_quantity_nonneg (haction : request.action = .buy) :
    0 ≤ (calculatePositionSize .exact config request sessionsOpenedSince).quantity := by
  rcases calculatePositionSize_buy config request sessionsOpenedSince haction with
    ⟨hzero, _⟩ | ⟨_, _, _, hvalid, _, hresult⟩
  · exact hzero.ge
  · rw [hresult]
    rcases hvalid.calculateBuy with ⟨_, hzero, _⟩ | ⟨_, hpositive, hquantity, _⟩
    · exact hzero.ge
    · rw [hquantity]
      exact hpositive.le

/-- A larger account-state multiplier never buys less: the checks and the caps are those of
the same request, and the rounding is monotone. -/
theorem buy_mono (haction : request.action = .buy) {multiplier : Decimal}
    (hbetween : 0 ≤ multiplier ∧ multiplier ≤ 1)
    (hle : request.accountStateMultiplier ≤ multiplier) :
    (calculatePositionSize .exact config request sessionsOpenedSince).quantity ≤
      (calculatePositionSize .exact config (request.withMultiplier multiplier hbetween)
        sessionsOpenedSince).quantity := by
  have hlot := config.lotSize_pos request.market
  have hnonneg : 0 ≤ (calculatePositionSize .exact config
      (request.withMultiplier multiplier hbetween) sessionsOpenedSince).quantity :=
    buy_quantity_nonneg haction
  rcases calculatePositionSize_buy config request sessionsOpenedSince haction with
    ⟨hzero, _⟩ | ⟨stop, averageVolume, averageTurnover, hvalid, ⟨hbase, hbuy⟩, hresult⟩
  · rw [hzero]
    exact hnonneg
  · rcases hvalid.calculateBuy with ⟨_, hzero, _⟩ | ⟨hleft, hpositive, hquantity, _⟩
    · rw [hresult, hzero]
      exact hnonneg
    · have hcaps := hvalid.caps_nonneg
      have hscaled := mul_nonneg hcaps request.multiplier_between.1
      have hgrown := floorTo_mono hlot hscaled (mul_le_mul_of_nonneg_left hle hcaps)
      rcases calculatePositionSize_buy config (request.withMultiplier multiplier hbetween)
          sessionsOpenedSince haction with
        ⟨_, _, hreasons⟩ | ⟨stop', volume', turnover', hvalid', _, hresult'⟩
      · rcases hreasons with hfailed | hfailed
        · exact absurd hbase hfailed
        · exact absurd hbuy hfailed
      · cases hvalid.stop_eq.symm.trans hvalid'.stop_eq
        cases hvalid.volume_eq.symm.trans hvalid'.volume_eq
        cases hvalid.turnover_eq.symm.trans hvalid'.turnover_eq
        rw [hresult, hquantity, hresult']
        rcases hvalid'.calculateBuy with ⟨hblocked, _, _⟩ | ⟨_, _, hquantity', _⟩
        · rcases hblocked with hexhausted | hnothing
          · exact absurd hexhausted hleft
          · exact absurd (hpositive.trans_le hgrown) (not_lt.mpr hnothing)
        · rw [hquantity']
          exact hgrown

/-- `_calculate_sell` never sells more than is held. -/
theorem calculateSell_quantity_le (hholding : 0 < request.currentHoldingQuantity) :
    (calculateSell .exact config request).quantity ≤ request.currentHoldingQuantity := by
  have hlot := config.lotSize_pos request.market
  unfold calculateSell
  dsimp only
  split
  · exact hholding.le
  next hpositive =>
    rw [not_le] at hpositive
    generalize hcaps : smallestCap _ = smallest at hpositive ⊢
    have hle : smallest ≤ request.currentHoldingQuantity := by
      have hall := (le_smallestCap_iff (List.cons_ne_nil _ _)).mp hcaps.ge
      exact hall _ List.mem_cons_self
    rcases le_or_gt 0 smallest with hnonneg | hnegative
    · exact (floorTo_le hlot hnonneg).trans hle
    · exact absurd hpositive (not_lt.mpr (floorTo_nonpos hlot hnegative.le))

theorem sellSound (haction : request.action = .sell) :
    SellSound request (calculatePositionSize .exact config request sessionsOpenedSince) := by
  unfold calculatePositionSize
  simp only [haction]
  by_cases hreasons :
      baseReasons sessionsOpenedSince config request ++ sellReasons request ≠ []
  · rw [if_pos hreasons]
    exact ⟨fun hholding => hholding, fun _ => rfl⟩
  · rw [if_neg hreasons]
    push Not at hreasons
    have hsell := (List.append_eq_nil_iff.mp hreasons).2
    unfold sellReasons at hsell
    have hheld := (List.append_eq_nil_iff.mp hsell).1
    rw [reasonWhen_eq_nil, decide_eq_false_iff_not, not_le] at hheld
    refine ⟨fun _ => calculateSell_quantity_le hheld, fun hnegative => ?_⟩
    exact absurd hheld (not_lt.mpr hnegative.le)

end Results

/-- Over exact arithmetic a purchase is the greatest number of lots within all its caps when
the account is in its full state, it grows with that state, it is positive exactly when no
reason is given, and a sale never exceeds the holding. -/
theorem position_size_is_optimal (config : PositionSizingConfig)
    (request : PositionSizingInput)
    (sessionsOpenedSince : Market → Instant → Instant → Option ℤ) :
    (request.action = .buy →
      BuySound config request
          (calculatePositionSize .exact config request sessionsOpenedSince) ∧
        ∀ multiplier (hbetween : 0 ≤ multiplier ∧ multiplier ≤ 1),
          request.accountStateMultiplier ≤ multiplier →
          (calculatePositionSize .exact config request sessionsOpenedSince).quantity ≤
            (calculatePositionSize .exact config (request.withMultiplier multiplier hbetween)
              sessionsOpenedSince).quantity) ∧
    (request.action = .sell →
      SellSound request (calculatePositionSize .exact config request sessionsOpenedSince)) := by
  constructor
  · intro hbuy
    exact ⟨buySound hbuy, fun _ hbetween hle => buy_mono hbuy hbetween hle⟩
  · intro hsell
    exact sellSound hsell

theorem full_multiplier : (0 : Decimal) ≤ 1 ∧ (1 : Decimal) ≤ 1 := by norm_num

/-- A purchase at 100 with a stop at 90: the risk budget of 100 allows ten shares. -/
def tenShares : PositionSizingInput where
  action := .buy
  market := .krx
  entryPrice := 100
  priceAsOf := some 0
  evaluatedAt := some 0
  operatingBudget := 10000
  maxSymbolAllocation := 1 / 2
  riskPerTradeRate := 1 / 100
  regime := .bull
  strategyStop := some 90
  strategyAtr := some 5
  averageVolume := some 1000000
  averageTurnover := some 100000000
  multiplier_between := full_multiplier

/-- A request that its caps admit ten shares of. -/
theorem position_size_is_optimal_of_tenShares :
    (calculatePositionSize .exact default tenShares fun _ _ _ => some 1).quantity = 10 ∧
      BuySound default tenShares (calculatePositionSize .exact default tenShares fun _ _ _ =>
        some 1) := by
  constructor
  · decide +kernel
  · exact ((position_size_is_optimal default tenShares fun _ _ _ => some 1).1 rfl).1

section Looser

variable {other : PositionSizingInput} {sessionsOpenedSince : Market → Instant → Instant → Option ℤ}

/-- A purchase that passes the checks is no smaller than another in its market if it admits every
amount within the caps of the other, and the state of the account is no worse. -/
theorem looser_caps_buy_more (hbuy : request.action = .buy) (hother : other.action = .buy)
    (hmarket : other.market = request.market)
    (hstate : request.accountStateMultiplier ≤ other.accountStateMultiplier)
    (hbase : baseReasons sessionsOpenedSince config other = [])
    (hreasons : buyReasons config other = [])
    (hcaps : ∀ quantity, 0 < quantity → WithinCaps config request quantity →
      WithinCaps config other quantity) :
    (calculatePositionSize .exact config request sessionsOpenedSince).quantity ≤
      (calculatePositionSize .exact config other sessionsOpenedSince).quantity := by
  have hlot := config.lotSize_pos request.market
  have hnonneg : 0 ≤ (calculatePositionSize .exact config other sessionsOpenedSince).quantity :=
    buy_quantity_nonneg hother
  rcases calculatePositionSize_buy config request sessionsOpenedSince hbuy with
    ⟨hzero, _⟩ | ⟨stop, volume, turnover, hvalid, _, hresult⟩
  · rw [hzero]
    exact hnonneg
  rcases hvalid.calculateBuy with ⟨_, hzero, _⟩ | ⟨hleft, hpositive, hquantity, _⟩
  · rw [hresult, hzero]
    exact hnonneg
  have hmultiplier := request.multiplier_between.1
  have hcap : 0 < smallestCap (exactCaps config request stop volume turnover) := by
    by_contra hnot
    refine absurd hpositive (not_lt.mpr (floorTo_nonpos hlot ?_))
    exact mul_nonpos_of_nonpos_of_nonneg (not_lt.mp hnot) hmultiplier
  rcases calculatePositionSize_buy config other sessionsOpenedSince hother with
    ⟨_, _, hfailed⟩ | ⟨stop', volume', turnover', hvalid', _, hresult'⟩
  · rcases hfailed with hfailed | hfailed
    · exact absurd hbase hfailed
    · exact absurd hreasons hfailed
  have hwithin := hcaps _ hcap ((hvalid.withinCaps_iff hleft).mpr le_rfl)
  have hcost := mul_pos hcap hvalid'.entry
  have hleft' : ¬ Exhausted other :=
    not_or.mpr ⟨not_le.mpr (hcost.trans_le hwithin.owner),
      not_le.mpr (hcost.trans_le hwithin.symbol)⟩
  have hle := (hvalid'.withinCaps_iff hleft').mp hwithin
  have hgrown := floorTo_mono hlot (mul_nonneg hcap.le hmultiplier)
    (mul_le_mul hle hstate hmultiplier (hcap.le.trans hle))
  rw [hresult, hquantity, hresult']
  rcases hvalid'.calculateBuy with ⟨hblocked, _, _⟩ | ⟨_, _, hquantity', _⟩
  · rw [hmarket] at hblocked
    rcases hblocked with hexhausted | hnothing
    · exact absurd hexhausted hleft'
    · exact absurd (hpositive.trans_le hgrown) (not_lt.mpr hnothing)
  · rw [hquantity', hmarket]
    exact hgrown

/-- Twice the budget for the same purchase. -/
theorem looser_caps_buy_more_budget :
    (calculatePositionSize .exact default tenShares fun _ _ _ => some 1).quantity ≤
      (calculatePositionSize .exact default { tenShares with operatingBudget := 20000 }
        fun _ _ _ => some 1).quantity := by
  refine looser_caps_buy_more rfl rfl rfl le_rfl (by decide +kernel) (by decide +kernel) ?_
  rintro quantity - ⟨⟨stop, hstop, hrisk⟩, hsymbol, howner, hvolume, hturnover⟩
  refine ⟨⟨stop, hstop, hrisk.trans ?_⟩, hsymbol.trans ?_, howner.trans ?_, hvolume, hturnover⟩
  · exact mul_le_mul_of_nonneg_right (by norm_num [tenShares]) (regimeMultiplier_nonneg _ _)
  · norm_num [tenShares]
  · norm_num [tenShares]

end Looser

end KAssetTrader.Sizing
