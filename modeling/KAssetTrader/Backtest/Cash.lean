import KAssetTrader.Backtest.Books

/-!
The cash of a run. An entry spends no more than there is, up to a few
roundings. An exit pays its fee and its tax out of its proceeds, with no guard
when they are higher, so that cash can fall below zero by what they lack.
-/

namespace KAssetTrader.Backtest

open Position Sizing Checked

/-- What an exit adds to the cash. -/
def ExitFill.proceeds (ctx : Decimal.Context) (exit : ExitFill) : Decimal :=
  ctx.sub (ctx.sub (ctx.mul exit.exitPrice exit.quantity) exit.exitFee) exit.exitTax

/-- What the proceeds of an exit lack for its fee and its tax. -/
def ExitFill.shortfall (ctx : Decimal.Context) (exit : ExitFill) : Decimal :=
  max 0 (-exit.proceeds ctx)

/-- What an entry has spent. -/
def EntryFill.spent (entry : EntryFill) : Decimal := entry.price * entry.quantity + entry.fee

/-- A cost whose fee and tax any proceeds cover, with all their roundings. -/
def MarketExecutionCost.Covered (cost : MarketExecutionCost) (u : Decimal) : Prop :=
  cost.minFeeAbsolute = 0 ∧ cost.feeRate + cost.sellTaxRate ≤ 1 - 2 * u

variable {engine : Engine} {config : PortfolioBacktestConfig} {s t : RunState} {u : Decimal}

section Bounds

variable (h : engine.ctx.Within u)
include h

section Entry

variable {cost : MarketExecutionCost} {cash fillPrice quantity lotSize : Decimal}

theorem rated_factor (hrate : 0 ≤ cost.feeRate) :
    (1 - u) * (1 + cost.feeRate) ≤ engine.ctx.add 1 cost.feeRate :=
  h.le_round (add_nonneg zero_le_one hrate)

theorem affordable_pos (hpositive : 0 < quantity)
    (hle : quantity ≤ (1 + u) ^ 2 * affordableQuantity engine cost cash fillPrice) :
    0 < affordableQuantity engine cost cash fillPrice := by
  have hsquare : 0 < (1 + u) ^ 2 := by
    have hu := h.nonneg
    positivity
  exact (mul_pos_iff_of_pos_left hsquare).mp (hpositive.trans_le hle)

section Affordable

variable (hprice : 0 < fillPrice)
include hprice

theorem cash_pos (haffordable : 0 < affordableQuantity engine cost cash fillPrice) :
    0 < cash := by
  have hrate : 0 < engine.ctx.add 1 cost.feeRate :=
    h.round_pos (by linarith [cost.fee_between.1])
  unfold affordableQuantity at haffordable
  simp only at haffordable
  split at haffordable
  · have hrated : 0 < engine.ctx.mul fillPrice (engine.ctx.add 1 cost.feeRate) :=
      h.round_pos (mul_pos hprice hrate)
    exact (div_pos_iff_of_pos_right hrated).mp (h.pos_of_round_pos haffordable)
  · have hamount := (div_pos_iff_of_pos_right hprice).mp (h.pos_of_round_pos haffordable)
    have hshare := h.pos_of_round_pos (lt_min_iff.mp hamount).1
    exact (div_pos_iff_of_pos_right hrate).mp hshare

variable (hpositive : 0 < quantity)
include hpositive

/-- The price of a quantity with its rate, computed, exceeds the exact one by two roundings. -/
theorem rated_le {rate : Decimal} (hrate : 0 ≤ rate) :
    engine.ctx.mul fillPrice quantity + engine.ctx.mul (engine.ctx.mul fillPrice quantity) rate ≤
      (1 + u) ^ 2 * (fillPrice * quantity * (1 + rate)) := by
  have hu : 0 ≤ u := h.nonneg
  have hexact : 0 ≤ fillPrice * quantity := (mul_pos hprice hpositive).le
  have hnotional : engine.ctx.mul fillPrice quantity ≤ (1 + u) * (fillPrice * quantity) :=
    h.round_le hexact
  have hnonneg : 0 ≤ engine.ctx.mul fillPrice quantity := h.round_nonneg hexact
  have hfee : engine.ctx.mul (engine.ctx.mul fillPrice quantity) rate ≤
      (1 + u) * (engine.ctx.mul fillPrice quantity * rate) :=
    h.round_le (mul_nonneg hnonneg hrate)
  calc
    _ ≤ (1 + u) * (engine.ctx.mul fillPrice quantity * (1 + rate)) := by nlinarith
    _ ≤ (1 + u) * ((1 + u) * (fillPrice * quantity) * (1 + rate)) := by gcongr
    _ = _ := by ring

variable (hle : quantity ≤ (1 + u) ^ 2 * affordableQuantity engine cost cash fillPrice)
include hle

/-- With a minimum fee, the quantity is paid for by what is left after it and
by what is left after the rate. -/
theorem minimum_le (hminimum : cost.minFeeAbsolute ≠ 0) :
    fillPrice * quantity ≤ (1 + u) ^ 4 * (cash - cost.minFeeAbsolute) ∧
      (1 - u) * (fillPrice * quantity * (1 + cost.feeRate)) ≤ (1 + u) ^ 4 * cash := by
  have hu : 0 ≤ u := h.nonneg
  have hpos := affordable_pos h hpositive hle
  have hcash := cash_pos h hprice hpos
  have hfactor := rated_factor h cost.fee_between.1
  have hrate : 0 < engine.ctx.add 1 cost.feeRate :=
    h.round_pos (by linarith [cost.fee_between.1])
  simp only [affordableQuantity, if_neg hminimum] at hle hpos
  set amount := min (engine.ctx.div cash (engine.ctx.add 1 cost.feeRate))
    (max (engine.ctx.sub cash cost.minFeeAbsolute) 0)
  have hamount : 0 < amount := (div_pos_iff_of_pos_right hprice).mp (h.pos_of_round_pos hpos)
  have hpaid : fillPrice * quantity ≤ (1 + u) ^ 3 * amount :=
    calc
      fillPrice * quantity ≤ fillPrice * ((1 + u) ^ 2 * engine.ctx.div amount fillPrice) := by
        gcongr
      _ ≤ fillPrice * ((1 + u) ^ 2 * ((1 + u) * (amount / fillPrice))) := by
        have hdiv : engine.ctx.div amount fillPrice ≤ (1 + u) * (amount / fillPrice) :=
          h.round_le (div_nonneg hamount.le hprice.le)
        gcongr
      _ = (1 + u) ^ 3 * amount := by field_simp
  have hleft : amount ≤ (1 + u) * (cash - cost.minFeeAbsolute) := by
    have hmax : 0 < engine.ctx.sub cash cost.minFeeAbsolute :=
      (lt_max_iff.mp (lt_min_iff.mp hamount).2).resolve_right (lt_irrefl 0)
    calc
      amount ≤ max (engine.ctx.sub cash cost.minFeeAbsolute) 0 := min_le_right _ _
      _ = engine.ctx.sub cash cost.minFeeAbsolute := max_eq_left hmax.le
      _ ≤ (1 + u) * (cash - cost.minFeeAbsolute) := h.round_le (h.pos_of_round_pos hmax).le
  have hshare : (1 - u) * (amount * (1 + cost.feeRate)) ≤ (1 + u) * cash :=
    calc
      (1 - u) * (amount * (1 + cost.feeRate)) = amount * ((1 - u) * (1 + cost.feeRate)) := by ring
      _ ≤ amount * engine.ctx.add 1 cost.feeRate := by gcongr
      _ ≤ (1 + u) * (cash / engine.ctx.add 1 cost.feeRate) * engine.ctx.add 1 cost.feeRate := by
        have hdiv : amount ≤ (1 + u) * (cash / engine.ctx.add 1 cost.feeRate) :=
          (min_le_left _ _).trans (h.round_le (div_nonneg hcash.le hrate.le))
        gcongr
      _ = (1 + u) * cash := by field_simp
  constructor
  · calc
      fillPrice * quantity ≤ (1 + u) ^ 3 * amount := hpaid
      _ ≤ (1 + u) ^ 3 * ((1 + u) * (cash - cost.minFeeAbsolute)) := by gcongr
      _ = (1 + u) ^ 4 * (cash - cost.minFeeAbsolute) := by ring
  · have hfee := cost.fee_between.1
    have hpositive := h.one_sub_pos
    calc
      _ ≤ (1 - u) * ((1 + u) ^ 3 * amount * (1 + cost.feeRate)) := by gcongr
      _ = (1 + u) ^ 3 * ((1 - u) * (amount * (1 + cost.feeRate))) := by ring
      _ ≤ (1 + u) ^ 3 * ((1 + u) * cash) := by gcongr
      _ = (1 + u) ^ 4 * cash := by ring

theorem rate_only_le (hminimum : cost.minFeeAbsolute = 0) :
    (1 - u) ^ 2 * (fillPrice * quantity * (1 + cost.feeRate)) ≤ (1 + u) ^ 3 * cash := by
  have hu : 0 ≤ u := h.nonneg
  have hsub := h.one_sub_pos
  have hcash := cash_pos h hprice (affordable_pos h hpositive hle)
  have hfactor := rated_factor h cost.fee_between.1
  have hrate : 0 < engine.ctx.add 1 cost.feeRate :=
    h.round_pos (by linarith [cost.fee_between.1])
  have hunit : 0 < engine.ctx.mul fillPrice (engine.ctx.add 1 cost.feeRate) :=
    h.round_pos (mul_pos hprice hrate)
  have hprices : (1 - u) ^ 2 * (fillPrice * (1 + cost.feeRate)) ≤
      engine.ctx.mul fillPrice (engine.ctx.add 1 cost.feeRate) :=
    calc
      _ = (1 - u) * (fillPrice * ((1 - u) * (1 + cost.feeRate))) := by ring
      _ ≤ (1 - u) * (fillPrice * engine.ctx.add 1 cost.feeRate) := by gcongr
      _ ≤ _ := h.le_round (mul_pos hprice hrate).le
  simp only [affordableQuantity, if_pos hminimum] at hle
  have hdiv : engine.ctx.div cash (engine.ctx.mul fillPrice (engine.ctx.add 1 cost.feeRate)) ≤
      (1 + u) * (cash / engine.ctx.mul fillPrice (engine.ctx.add 1 cost.feeRate)) :=
    h.round_le (div_nonneg hcash.le hunit.le)
  calc
    _ = quantity * ((1 - u) ^ 2 * (fillPrice * (1 + cost.feeRate))) := by ring
    _ ≤ quantity * engine.ctx.mul fillPrice (engine.ctx.add 1 cost.feeRate) := by gcongr
    _ ≤ (1 + u) ^ 2 * ((1 + u) *
          (cash / engine.ctx.mul fillPrice (engine.ctx.add 1 cost.feeRate))) *
        engine.ctx.mul fillPrice (engine.ctx.add 1 cost.feeRate) := by
      have hquantity := hle.trans (mul_le_mul_of_nonneg_left hdiv (by positivity))
      gcongr
    _ = (1 + u) ^ 3 * cash := by field_simp

theorem affordable_paid :
    (1 - u) ^ 2 * (engine.ctx.mul fillPrice quantity +
      feeOn engine cost (engine.ctx.mul fillPrice quantity)) ≤ (1 + u) ^ 5 * cash := by
  have hu : 0 ≤ u := h.nonneg
  have hsub := h.one_sub_pos
  have hcash := cash_pos h hprice (affordable_pos h hpositive hle)
  have hrated := rated_le h hprice hpositive cost.fee_between.1
  have hpaid : (1 - u) ^ 2 * (fillPrice * quantity * (1 + cost.feeRate)) ≤
      (1 + u) ^ 3 * cash := by
    by_cases hminimum : cost.minFeeAbsolute = 0
    · exact rate_only_le h hprice hpositive hle hminimum
    · have hshare := (minimum_le h hprice hpositive hle hminimum).2
      calc
        _ = (1 - u) * ((1 - u) * (fillPrice * quantity * (1 + cost.feeRate))) := by ring
        _ ≤ (1 - u) * ((1 + u) ^ 4 * cash) := by gcongr
        _ = (1 - u ^ 2) * ((1 + u) ^ 3 * cash) := by ring
        _ ≤ 1 * ((1 + u) ^ 3 * cash) := by
          have hless : 1 - u ^ 2 ≤ 1 := by nlinarith
          gcongr
        _ = (1 + u) ^ 3 * cash := one_mul _
  have hnotional : 0 ≤ engine.ctx.mul fillPrice quantity :=
    h.round_nonneg (mul_pos hprice hpositive).le
  have hfee : 0 ≤ engine.ctx.mul (engine.ctx.mul fillPrice quantity) cost.feeRate :=
    h.round_nonneg (mul_nonneg hnotional cost.fee_between.1)
  have hrate : (1 - u) ^ 2 * (engine.ctx.mul fillPrice quantity +
      engine.ctx.mul (engine.ctx.mul fillPrice quantity) cost.feeRate) ≤ (1 + u) ^ 5 * cash :=
    calc
      _ ≤ (1 - u) ^ 2 * ((1 + u) ^ 2 * (fillPrice * quantity * (1 + cost.feeRate))) := by gcongr
      _ = (1 + u) ^ 2 * ((1 - u) ^ 2 * (fillPrice * quantity * (1 + cost.feeRate))) := by ring
      _ ≤ (1 + u) ^ 2 * ((1 + u) ^ 3 * cash) := by gcongr
      _ = (1 + u) ^ 5 * cash := by ring
  unfold feeOn
  rcases max_cases (engine.ctx.mul (engine.ctx.mul fillPrice quantity) cost.feeRate)
    cost.minFeeAbsolute with ⟨hmax, _⟩ | ⟨hmax, hbelow⟩
  · rw [hmax]
    exact hrate
  · have hminimum : 0 < cost.minFeeAbsolute := hfee.trans_lt hbelow
    have hleft := (minimum_le h hprice hpositive hle hminimum.ne').1
    rw [hmax]
    calc
      _ ≤ 1 * (engine.ctx.mul fillPrice quantity + cost.minFeeAbsolute) := by
        have hless : (1 - u) ^ 2 ≤ 1 := by nlinarith
        gcongr
      _ ≤ (1 + u) * ((1 + u) ^ 4 * (cash - cost.minFeeAbsolute)) + cost.minFeeAbsolute := by
        have hround : engine.ctx.mul fillPrice quantity ≤ (1 + u) * (fillPrice * quantity) :=
          h.round_le (mul_pos hprice hpositive).le
        rw [one_mul]
        gcongr
        exact hround.trans (by gcongr)
      _ = (1 + u) ^ 5 * cash - ((1 + u) ^ 5 - 1) * cost.minFeeAbsolute := by ring
      _ ≤ (1 + u) ^ 5 * cash := by
        have hpower : 1 ≤ (1 + u) ^ 5 := one_le_pow₀ (by linarith)
        nlinarith

end Affordable

omit h in
theorem nine_cubes_le (hu : 0 ≤ u) (hsmall : u ≤ 1 / 100) : 9 * (1 + u) ^ 3 ≤ 10 := by
  have hcube : (1 + u) ^ 3 ≤ (1 + 1 / 100) ^ 3 := by gcongr
  linarith

omit h in
theorem six_powers_le (hu : 0 ≤ u) (hsmall : u ≤ 1 / 100) :
    (1 + u) ^ 6 ≤ (1 - u) ^ 2 * (1 + 9 * u) := by
  have hrest : 15 + 20 * u + 15 * u ^ 2 + 6 * u ^ 3 + u ^ 4 ≤ 16 :=
    calc
      _ ≤ (15 + 20 * (1 / 100) + 15 * (1 / 100) ^ 2 + 6 * (1 / 100) ^ 3 + (1 / 100) ^ 4 :
        Decimal) := by
        gcongr
      _ ≤ 16 := by norm_num
  nlinarith [mul_nonneg (sq_nonneg u) (sub_nonneg.mpr hrest), mul_nonneg hu (sub_nonneg.mpr hsmall),
    mul_nonneg hu (sq_nonneg u)]

theorem spend_le {cash amount spend : Decimal} (hcash : 0 < cash)
    (hpaid : (1 - u) ^ 2 * amount ≤ (1 + u) ^ 5 * cash) (hspend : spend ≤ (1 + u) * amount) :
    spend ≤ (1 + 9 * u) * cash := by
  have hu : 0 ≤ u := h.nonneg
  have hsmall := h.small
  have hsquare : 0 < (1 - u) ^ 2 := pow_pos h.one_sub_pos 2
  refine le_of_mul_le_mul_left ?_ hsquare
  calc
    (1 - u) ^ 2 * spend ≤ (1 - u) ^ 2 * ((1 + u) * amount) := by gcongr
    _ = (1 + u) * ((1 - u) ^ 2 * amount) := by ring
    _ ≤ (1 + u) * ((1 + u) ^ 5 * cash) := by gcongr
    _ = (1 + u) ^ 6 * cash := by ring
    _ ≤ (1 - u) ^ 2 * (1 + 9 * u) * cash := by
      have hpower : (1 + u) ^ 6 ≤ (1 - u) ^ 2 * (1 + 9 * u) := six_powers_le hu hsmall
      gcongr
    _ = (1 - u) ^ 2 * ((1 + 9 * u) * cash) := by ring

/-- An entry leaves the cash below zero by a few roundings at most, of the cash
before it and of what it has spent. -/
theorem fillEntry_cash {order : PendingEntry} {signal : PortfolioSignal} {reference : OpenPrice}
    {bound : Decimal} {managerState : ManagedPositionState} (hprice : 0 < fillPrice)
      (hpositive : 0 < quantity)
    (hlot : 0 < lotSize) (hquantity : quantity = roundToLot engine.ctx (min bound
      (affordableQuantity engine (config.costFor order.key.market) s.cash fillPrice)) lotSize) :
    0 < s.cash ∧ ∃ entry,
      (fillEntry engine config s order signal reference fillPrice quantity managerState).entries =
        s.entries ++ [entry] ∧
      -(10 * u * s.cash) ≤
        (fillEntry engine config s order signal reference fillPrice quantity managerState).cash ∧
      -(10 * u * entry.spent) ≤
        (fillEntry engine config s order signal reference fillPrice quantity
          managerState).cash := by
  have hu : 0 ≤ u := h.nonneg
  have hsub := h.one_sub_pos
  have hbound := roundToLot_pos h hlot (hquantity ▸ hpositive)
  have hle : quantity ≤ (1 + u) ^ 2 *
      affordableQuantity engine (config.costFor order.key.market) s.cash fillPrice :=
    calc
      quantity ≤ (1 + u) ^ 2 * min bound
          (affordableQuantity engine (config.costFor order.key.market) s.cash fillPrice) :=
        hquantity.le.trans (roundToLot_le h hbound.le hlot)
      _ ≤ _ := by
        have hmin := min_le_right bound
          (affordableQuantity engine (config.costFor order.key.market) s.cash fillPrice)
        gcongr
  have hcash := cash_pos h hprice (affordable_pos h hpositive hle)
  have hpaid := affordable_paid h hprice hpositive hle
  have hnotional : 0 < fillPrice * quantity := mul_pos hprice hpositive
  have hround : engine.ctx.mul fillPrice quantity ≤ (1 + u) * (fillPrice * quantity) :=
    h.round_le hnotional.le
  have hfee : 0 ≤ feeOn engine (config.costFor order.key.market)
      (engine.ctx.mul fillPrice quantity) :=
    (config.costFor order.key.market).minimum_nonneg.trans (le_max_right _ _)
  simp only [fillEntry]
  generalize feeOn engine (config.costFor order.key.market)
    (engine.ctx.mul fillPrice quantity) = fee at hpaid hfee ⊢
  have hspend : engine.ctx.add (engine.ctx.mul fillPrice quantity) fee ≤
      (1 + u) * (engine.ctx.mul fillPrice quantity + fee) :=
    h.round_le (add_nonneg (h.round_nonneg hnotional.le) hfee)
  generalize engine.ctx.add (engine.ctx.mul fillPrice quantity) fee = spend at hspend ⊢
  have hwithin : spend ≤ (1 + 9 * u) * s.cash := spend_le h hcash hpaid hspend
  have hleft : -((1 + u) * (9 * u * s.cash)) ≤ engine.ctx.sub s.cash spend :=
    h.neg_le_round (by positivity) (by linarith)
  refine ⟨hcash, _, rfl, ?_, ?_⟩
  · nlinarith [mul_nonneg hu hcash.le, h.small]
  · rcases le_or_gt spend s.cash with hcovered | hover
    · have hspent : 0 ≤ 10 * u * (fillPrice * quantity + fee) := by positivity
      exact (neg_nonpos.mpr hspent).trans (h.round_nonneg (sub_nonneg.mpr hcovered))
    · have hmore : s.cash ≤ (1 + u) ^ 2 * (fillPrice * quantity + fee) :=
        calc
          s.cash ≤ (1 + u) * (engine.ctx.mul fillPrice quantity + fee) := hover.le.trans hspend
          _ ≤ (1 + u) * ((1 + u) * (fillPrice * quantity) + (1 + u) * fee) := by
            gcongr
            exact le_mul_of_one_le_left hfee (by linarith)
          _ = (1 + u) ^ 2 * (fillPrice * quantity + fee) := by ring
      refine le_trans (neg_le_neg ?_) hleft
      calc
        (1 + u) * (9 * u * s.cash) ≤
            (1 + u) * (9 * u * ((1 + u) ^ 2 * (fillPrice * quantity + fee))) := by gcongr
        _ = 9 * (1 + u) ^ 3 * (u * (fillPrice * quantity + fee)) := by ring
        _ ≤ 10 * (u * (fillPrice * quantity + fee)) := by
          have hcube := nine_cubes_le hu h.small
          gcongr
        _ = 10 * u * (fillPrice * quantity + fee) := by ring

end Entry

section Exit

variable (config : PortfolioBacktestConfig) (s : RunState) (order : PendingExit)
  (signal : PortfolioSignal) (reference : OpenPrice) (position : PortfolioPosition)
  (quantity : Decimal)

variable (engine) in
omit h in
theorem fillExit_cash :
    ∃ exit, (fillExit engine config s order signal reference position quantity).exits =
        s.exits ++ [exit] ∧
      (fillExit engine config s order signal reference position quantity).cash =
        engine.ctx.add s.cash (exit.proceeds engine.ctx) ∧
      exit.exitPrice =
        engine.ctx.mul reference.price (engine.ctx.sub 1 (config.slippageRate order.key.market)) ∧
      exit.quantity = quantity ∧
      exit.exitFee = feeOn engine (config.costFor order.key.market)
        (engine.ctx.mul exit.exitPrice exit.quantity) ∧
      exit.exitTax = engine.ctx.mul (engine.ctx.mul exit.exitPrice exit.quantity)
        (config.costFor order.key.market).sellTaxRate :=
  ⟨_, rfl, rfl, rfl, rfl, rfl, rfl⟩

theorem covered_proceeds {cost : MarketExecutionCost} (hcovered : cost.Covered u)
    {notional : Decimal} (hnotional : 0 ≤ notional) :
    0 ≤ engine.ctx.sub (engine.ctx.sub notional (feeOn engine cost notional))
      (engine.ctx.mul notional cost.sellTaxRate) := by
  have hu : 0 ≤ u := h.nonneg
  have hsub := h.one_sub_pos
  obtain ⟨hminimum, hrates⟩ := hcovered
  have hrate : 0 ≤ notional * cost.feeRate := mul_nonneg hnotional cost.fee_between.1
  have htaxed : 0 ≤ notional * cost.sellTaxRate := mul_nonneg hnotional cost.tax_between.1
  have hfee : engine.ctx.mul notional cost.feeRate ≤ (1 + u) * (notional * cost.feeRate) :=
    h.round_le hrate
  have htax : engine.ctx.mul notional cost.sellTaxRate ≤ (1 + u) * (notional * cost.sellTaxRate) :=
    h.round_le htaxed
  have hcosts : (1 + u) * (notional * cost.feeRate + notional * cost.sellTaxRate) ≤
      (1 - u) * notional :=
    calc
      _ = (1 + u) * (notional * (cost.feeRate + cost.sellTaxRate)) := by ring
      _ ≤ (1 + u) * (notional * (1 - 2 * u)) := by gcongr
      _ = (1 - u) * notional - 2 * u ^ 2 * notional := by ring
      _ ≤ (1 - u) * notional := sub_le_self _ (by positivity)
  have hnonneg : 0 ≤ engine.ctx.mul notional cost.feeRate := h.round_nonneg hrate
  rw [feeOn, hminimum, max_eq_left hnonneg]
  have hleft : (1 - u) * (notional - engine.ctx.mul notional cost.feeRate) ≤
      engine.ctx.sub notional (engine.ctx.mul notional cost.feeRate) :=
    h.le_round (by nlinarith)
  apply h.round_nonneg
  nlinarith

end Exit

/-- The cash of a state against what its exits have lacked and what its entries
have spent, for a context that moves no result by more than the fraction `u`. -/
structure RunState.CashBounded (ctx : Decimal.Context) (config : PortfolioBacktestConfig)
    (u : Decimal) (s : RunState) : Prop where
  bounded : ∀ limit, 0 ≤ limit → (∀ entry ∈ s.entries, entry.spent ≤ limit) →
    -((1 + u) ^ s.exits.length * ((s.exits.map (·.shortfall ctx)).sum + 10 * u * limit)) ≤ s.cash
  covered : (∀ market, (config.costFor market).Covered u) →
    ∀ exit ∈ s.exits, exit.shortfall ctx = 0

section Cash

variable {now : Instant}

omit h in
theorem shortfall_sum_nonneg (ctx : Decimal.Context) (exits : List ExitFill) :
    0 ≤ (exits.map (·.shortfall ctx)).sum :=
  List.sum_nonneg (List.forall_mem_map.mpr fun _ _ => le_max_left _ _)

/-- A fill moves the cash by its rounded value and costs, and all else leaves the cash alone. -/
theorem RunState.CashBounded.step (hs : s.CashBounded engine.ctx config u)
    (hstep : Step engine config now s t) : t.CashBounded engine.ctx config u := by
  have hu : 0 ≤ u := h.nonneg
  cases hstep with
  | same | record | skipEntry | skipExit | queueEntry | mark | manage | queueExit =>
    exact ⟨hs.bounded, hs.covered⟩
  | fillEntry _ _ _ _ hprice hpositive hlot hquantity =>
    obtain ⟨_, entry, hentries, _, hspent⟩ := fillEntry_cash h hprice hpositive hlot hquantity
    refine ⟨fun limit hnonneg hlimit => ?_, hs.covered⟩
    rw [hentries] at hlimit
    have hentry := hlimit entry (List.mem_append_right _ (List.mem_singleton_self entry))
    have hsum := shortfall_sum_nonneg engine.ctx s.exits
    have hpower : 1 ≤ (1 + u) ^ s.exits.length := one_le_pow₀ (by linarith)
    refine le_trans (neg_le_neg ?_) hspent
    calc
      10 * u * entry.spent ≤ 10 * u * limit := by gcongr
      _ ≤ (s.exits.map (·.shortfall engine.ctx)).sum + 10 * u * limit :=
        le_add_of_nonneg_left hsum
      _ ≤ _ := le_mul_of_one_le_left (add_nonneg hsum (by positivity)) hpower
  | @fillExit order signal reference position quantity _ _ _ hat _ hpositive =>
    obtain ⟨exit, hexits, hcash, hprice, hquantity, hfee, htax⟩ :=
      fillExit_cash engine config s order signal reference position quantity
    refine ⟨fun limit hnonneg hlimit => ?_, fun hcovered other hother => ?_⟩
    · have hbefore := hs.bounded limit hnonneg hlimit
      have hlacks : -exit.shortfall engine.ctx ≤ exit.proceeds engine.ctx :=
        neg_le.mp (le_max_right _ _)
      have hshortfall : 0 ≤ exit.shortfall engine.ctx := le_max_left _ _
      have hsum := shortfall_sum_nonneg engine.ctx s.exits
      have hpower : 1 ≤ (1 + u) ^ s.exits.length := one_le_pow₀ (by linarith)
      rw [hexits, hcash, List.map_append, List.sum_append, List.map_singleton,
        List.sum_singleton, List.length_append, List.length_singleton]
      have hdebt : 0 ≤ (1 + u) ^ s.exits.length *
          ((s.exits.map (·.shortfall engine.ctx)).sum + 10 * u * limit) +
            exit.shortfall engine.ctx := by
        positivity
      refine le_trans (neg_le_neg ?_) (h.neg_le_round hdebt (by linarith))
      calc
        _ ≤ (1 + u) * ((1 + u) ^ s.exits.length *
              ((s.exits.map (·.shortfall engine.ctx)).sum + 10 * u * limit) +
            (1 + u) ^ s.exits.length * exit.shortfall engine.ctx) := by
          gcongr
          exact le_mul_of_one_le_left hshortfall hpower
        _ = _ := by ring
    · rw [hexits] at hother
      rcases List.mem_append.mp hother with hold | hnew
      · exact hs.covered hcovered other hold
      · obtain rfl := List.mem_singleton.mp hnew
        have hslippage := (config.slippageRate_between order.key.market).2
        have hexit : 0 ≤ other.exitPrice := by
          rw [hprice]
          exact h.round_nonneg
            (mul_nonneg hat.positive.le (h.round_nonneg (by linarith)))
        have hnotional : 0 ≤ engine.ctx.mul other.exitPrice other.quantity :=
          h.round_nonneg (mul_nonneg hexit (hquantity ▸ hpositive.le))
        have hproceeds := covered_proceeds h (hcovered order.key.market) hnotional
        rw [ExitFill.shortfall, ExitFill.proceeds, hfee, htax]
        exact max_eq_left (neg_nonpos.mpr hproceeds)

theorem Trace.cashBounded (htrace : Trace engine config now s) :
    s.CashBounded engine.ctx config u := by
  refine htrace.invariant (P := fun _ s => s.CashBounded engine.ctx config u) (fun _ => ?_)
    (fun _ _ _ hs hstep => hs.step h hstep) fun _ _ _ hs _ => hs
  have hexits : (RunState.initial config.initialCash).exits = [] := rfl
  constructor
  · intro limit hnonneg _
    have hu := h.nonneg
    have hlimit : 0 ≤ 10 * u * limit := by positivity
    simp only [hexits, List.map_nil, List.sum_nil, List.length_nil, pow_zero, zero_add, one_mul]
    exact (neg_nonpos.mpr hlimit).trans config.cash_positive.le
  · simp [hexits]

end Cash

end Bounds

/-- The cash of a state lies below zero at most by what its exits have lacked
for their fees and taxes and by ten roundings of what an entry has spent, all of
it rounded again at every exit. No cash is lacking under costs without a minimum
fee whose rates leave two roundings, and an entry that is executed takes ten
roundings more than the cash at most. Over exact arithmetic `u` is zero. -/
theorem cash_bounded {b : PortfolioBacktest} (h : b.engine.ctx.Within u) {loop : Loop}
    (hreaches : b.Reaches loop) :
    (∀ limit, 0 ≤ limit → (∀ entry ∈ loop.state.entries, entry.spent ≤ limit) →
      -((1 + u) ^ loop.state.exits.length *
        ((loop.state.exits.map (·.shortfall b.engine.ctx)).sum + 10 * u * limit)) ≤
          loop.state.cash) ∧
    ((∀ market, (b.config.costFor market).Covered u) →
      ∀ exit ∈ loop.state.exits, exit.shortfall b.engine.ctx = 0) ∧
    ∀ opens order t, executeEntry b.engine b.config opens loop.state order = .ok t →
      t.entries ≠ loop.state.entries → -(10 * u * loop.state.cash) ≤ t.cash := by
  obtain ⟨now, htrace⟩ := reaches_trace hreaches
  have hcash := htrace.cashBounded h
  refine ⟨hcash.bounded, hcash.covered, fun opens order t ht hentered => ?_⟩
  obtain ⟨_, _, _, _, ⟨_, _, rfl⟩ |
    ⟨_, _, _, _, _, _, hprice, hpositive, hlot, hquantity, rfl⟩⟩ := executeEntry_cases ht
  · exact absurd rfl hentered
  · obtain ⟨_, _, _, hleft, _⟩ := fillEntry_cash h hprice hpositive hlot hquantity
    exact hleft

/-- A purchase at nine tenths with all the cash but a part in 10^27, at the working precision. -/
def narrowPurchase : PortfolioBacktest :=
  { crash with
    engine := { sampleEngine with ctx := .digits 28 }
    config :=
      { crash.config with
        initialCash := 99 / 10 - 1 / 10 ^ 27
        usCost := freeCost
        cash_positive := by norm_num }
    barsByCandidate := Dict.empty.set ⟨.us, "AAA"⟩
      [flatBar 1 (9 / 10), flatBar 2 (9 / 10), flatBar 3 (9 / 10)] }

/-- One entry of 9.9 in a context of 28 digits, and no exit. -/
theorem cash_bounded_narrow :
    ∃ loop : Loop, narrowPurchase.Reaches loop ∧ loop.state.entries.map (·.spent) = [99 / 10] ∧
      loop.state.exits = [] ∧
      -(10 * (10 ^ (1 - 28 : ℤ) / 2) * (99 / 10)) ≤ loop.state.cash := by
  obtain ⟨last, hlast, hspent, hexits⟩ := exists_ok_of_check (x := narrowPurchase.runLoop)
    (P := fun last => last.2.state.entries.map (·.spent) = [99 / 10] ∧
      last.2.state.exits.length = 0) (by decide +kernel)
  have hreaches := reaches_end hlast
  have hexits := List.eq_nil_of_length_eq_zero hexits
  have hbounded := (cash_bounded (Decimal.Context.digits_within (by decide)) hreaches).1
    (99 / 10) (by norm_num) fun entry hentry => by
      have hmem := List.mem_map_of_mem (f := (·.spent)) hentry
      rw [hspent] at hmem
      exact (List.mem_singleton.mp hmem).le
  refine ⟨last.2, hreaches, hspent, hexits, ?_⟩
  simpa [hexits] using hbounded

/-- A purchase with all the cash at a minimum fee of one, and a sale of the
position for less than the fee; and a purchase whose quantity is rounded up. -/
theorem crash_overdraws :
    (∃ loop : Loop, crash.Reaches loop ∧ crash.engine.ctx = .exact ∧ loop.state.cash < 0) ∧
    ∃ loop : Loop, narrowPurchase.Reaches loop ∧ loop.state.exits.length = 0 ∧
      loop.state.cash = -(1 / 10 ^ 27) := by
  constructor
  · obtain ⟨last, hlast, hcash⟩ := exists_ok_of_check (x := crash.runLoop)
      (P := fun last => last.2.state.cash < 0) (by decide +kernel)
    exact ⟨last.2, reaches_end hlast, rfl, hcash⟩
  · obtain ⟨last, hlast, hexits, hcash⟩ := exists_ok_of_check (x := narrowPurchase.runLoop)
      (P := fun last => last.2.state.exits.length = 0 ∧ last.2.state.cash = -(1 / 10 ^ 27))
      (by decide +kernel)
    exact ⟨last.2, reaches_end hlast, hexits, hcash⟩

end KAssetTrader.Backtest
