import KAssetTrader.Paper.Tables
import KAssetTrader.Position.State

/-!
The paper order of a recommendation, the trade that fills it, and the writes of
the order service: the order row is written column by column from the snapshot
that a session has loaded, so a stale session overwrites only what it changed.
-/

namespace KAssetTrader.Consumer

open Position
open Paper (OrderSide OrderStatus CorrelationId)

/-- The columns of `AndroidPaperOrder` that the consumers read and write. -/
structure PaperOrder where
  id : String
  clientOrderId : String
  side : OrderSide
  quantity : Decimal
  status : OrderStatus := .pending
  filledQuantity : Decimal := 0
  paperTradeId : Option ℤ := none

structure PaperTrade where
  id : ℤ
  correlationId : CorrelationId
  quantity : Decimal

/-- The account, as far as it decides on an execution: `held` is the quantity
of the position of the symbol, zero without a position. -/
structure PaperAccount where
  isActive : Bool
  cash : Decimal
  held : Decimal

/-- The id of the order, with the quantity filled before when that is not zero. -/
def PaperOrder.correlationId (order : PaperOrder) : CorrelationId :=
  if order.filledQuantity = 0 then .order order.id else .fill order.id order.filledQuantity

section Execution

def executionQuantityLot : Market → Decimal
  | .krx => 1
  | .us => 1 / 10000

def quantizeExecutionQuantity (quantity : Decimal) (market : Market) : Decimal :=
  Decimal.truncate (quantity / executionQuantityLot market) * executionQuantityLot market

/-- `execute_order` up to its commit: the quantity settled and the account after
it. `totalCost` is the settled total, fees included, at the resolved price. -/
def executeOrder (market : Market) (account : PaperAccount) (side : OrderSide)
    (quantity totalCost : Decimal) : Except String (Decimal × PaperAccount) :=
  let settled := quantizeExecutionQuantity quantity market
  if account.isActive = false then .error "Account is inactive"
  else if settled ≤ 0 then .error "Computed quantity is not positive"
  else match side with
    | .buy =>
      if account.cash < totalCost then .error "Insufficient balance"
      else .ok (settled, { account with
        cash := account.cash - totalCost, held := account.held + settled })
    | .sell =>
      if account.held = 0 then .error "No position to sell"
      else if account.held < settled then .error "Insufficient quantity to sell"
      else .ok (settled, { account with
        cash := account.cash + totalCost, held := account.held - settled })

variable {market : Market} {account after : PaperAccount} {side : OrderSide}
  {quantity totalCost settled : Decimal}

theorem executionQuantityLot_pos (market : Market) : 0 < executionQuantityLot market := by
  cases market <;> norm_num [executionQuantityLot]

theorem quantizeExecutionQuantity_le (market : Market) (hquantity : 0 ≤ quantity) :
    quantizeExecutionQuantity quantity market ≤ quantity := by
  have hlot := executionQuantityLot_pos market
  have htruncate := Decimal.truncate_le (div_nonneg hquantity hlot.le)
  calc quantizeExecutionQuantity quantity market
      ≤ quantity / executionQuantityLot market * executionQuantityLot market :=
        mul_le_mul_of_nonneg_right htruncate hlot.le
    _ = quantity := div_mul_cancel₀ quantity hlot.ne'

theorem lt_quantize_add_lot (market : Market) (hquantity : 0 ≤ quantity) :
    quantity < quantizeExecutionQuantity quantity market + executionQuantityLot market := by
  have hlot := executionQuantityLot_pos market
  have hquotient : 0 ≤ quantity / executionQuantityLot market := div_nonneg hquantity hlot.le
  have hlt : quantity / executionQuantityLot market <
      Decimal.truncate (quantity / executionQuantityLot market) + 1 := by
    simp only [Decimal.truncate, hquotient, if_true]
    exact Int.lt_floor_add_one _
  calc quantity = quantity / executionQuantityLot market * executionQuantityLot market :=
        (div_mul_cancel₀ quantity hlot.ne').symm
    _ < (Decimal.truncate (quantity / executionQuantityLot market) + 1) *
          executionQuantityLot market := mul_lt_mul_of_pos_right hlt hlot
    _ = quantizeExecutionQuantity quantity market + executionQuantityLot market := by
        rw [quantizeExecutionQuantity]
        ring

/-- Nothing more can be settled of what a settlement leaves. -/
theorem quantize_remainder (hquantity : 0 ≤ quantity) :
    quantizeExecutionQuantity (quantity - quantizeExecutionQuantity quantity market) market =
      0 := by
  have hlot := executionQuantityLot_pos market
  have hnonneg := sub_nonneg.mpr (quantizeExecutionQuantity_le market hquantity)
  have hlt := lt_quantize_add_lot market hquantity
  have hquotient : 0 ≤ (quantity - quantizeExecutionQuantity quantity market) /
      executionQuantityLot market := div_nonneg hnonneg hlot.le
  have hfloor : ⌊(quantity - quantizeExecutionQuantity quantity market) /
      executionQuantityLot market⌋ = 0 := by
    rw [Int.floor_eq_zero_iff]
    refine ⟨hquotient, ?_⟩
    rw [div_lt_one hlot]
    linarith
  conv_lhs => rw [quantizeExecutionQuantity]
  simp only [Decimal.truncate, hquotient, if_true, hfloor]
  simp

theorem lot_le_quantize (hpos : 0 < quantizeExecutionQuantity quantity market)
    (hquantity : 0 ≤ quantity) :
    executionQuantityLot market ≤ quantizeExecutionQuantity quantity market := by
  have hlot := executionQuantityLot_pos market
  have hquotient : 0 ≤ quantity / executionQuantityLot market := div_nonneg hquantity hlot.le
  simp only [quantizeExecutionQuantity, Decimal.truncate, hquotient, if_true] at hpos ⊢
  have hfloor : (0 : ℚ) < (⌊quantity / executionQuantityLot market⌋ : ℤ) :=
    (mul_pos_iff_of_pos_right hlot).mp hpos
  have hone : (1 : ℚ) ≤ (⌊quantity / executionQuantityLot market⌋ : ℤ) := by
    exact_mod_cast Int.cast_pos.mp hfloor
  nlinarith

theorem executeOrder_ok
    (hok : executeOrder market account side quantity totalCost = .ok (settled, after)) :
    settled = quantizeExecutionQuantity quantity market ∧ 0 < settled := by
  unfold executeOrder at hok
  simp only at hok
  split at hok
  · cases hok
  split at hok
  · cases hok
  next hpos =>
  cases side with
  | buy =>
    simp only at hok
    split at hok
    · cases hok
    · cases hok
      exact ⟨rfl, not_le.mp hpos⟩
  | sell =>
    simp only at hok
    split at hok
    · cases hok
    split at hok
    · cases hok
    · cases hok
      exact ⟨rfl, not_le.mp hpos⟩

end Execution

namespace PaperOrder

/-- The check of `_apply_trade_metadata` that nothing is left to write. -/
def hasTrade (order : PaperOrder) (trade : PaperTrade) : Bool :=
  order.paperTradeId = some trade.id &&
    (order.status = .filled || order.status = .partiallyFilled)

/-- `_apply_trade_metadata` in memory. -/
def withTrade (order : PaperOrder) (trade : PaperTrade) : Except String PaperOrder :=
  let totalFilled := order.filledQuantity + trade.quantity
  if order.quantity < totalFilled then .error "PAPER 체결 수량이 주문 수량을 초과했습니다."
  else .ok
    { order with
      status := if totalFilled = order.quantity then .filled else .partiallyFilled
      filledQuantity := totalFilled
      paperTradeId := some trade.id }

def reject (order : PaperOrder) : PaperOrder := { order with status := .rejected }

/-- The update of the stored row writes the columns that differ between the
snapshot as loaded and as modified. -/
def flush (stored loaded modified : PaperOrder) : PaperOrder :=
  { stored with
    status := if modified.status = loaded.status then stored.status else modified.status
    filledQuantity :=
      if modified.filledQuantity = loaded.filledQuantity then stored.filledQuantity
      else modified.filledQuantity
    paperTradeId :=
      if modified.paperTradeId = loaded.paperTradeId then stored.paperTradeId
      else modified.paperTradeId }

end PaperOrder

/-- What the row of an order can be: not filled yet, or filled by the trade of
the order, and then in the state that the quantity of the trade calls for. A
refused execution may have marked either as rejected. -/
def Settlement (trades : List PaperTrade) (order : PaperOrder) : Prop :=
  (order.filledQuantity = 0 ∧ order.paperTradeId = none ∧
      (order.status = .pending ∨ order.status = .rejected)) ∨
    ∃ trade ∈ trades, trade.correlationId = .order order.id ∧
      order.filledQuantity = trade.quantity ∧ order.paperTradeId = some trade.id ∧
      order.status ≠ .pending ∧ (order.status = .filled → trade.quantity = order.quantity)

structure OrderTrades (market : Market) (trades : List PaperTrade) (order : PaperOrder) :
    Prop where
  ordered : 0 < order.quantity
  settled : ∀ trade ∈ trades, trade.correlationId = .order order.id ∧
    trade.quantity = quantizeExecutionQuantity order.quantity market ∧ 0 < trade.quantity
  single : trades.length ≤ 1

variable {market : Market} {trades : List PaperTrade} {order stored modified : PaperOrder}
  {trade : PaperTrade}

theorem Settlement.mono {more : List PaperTrade} (h : Settlement trades order)
    (hsub : ∀ t ∈ trades, t ∈ more) : Settlement more order :=
  h.imp_right fun ⟨t, ht, hrest⟩ => ⟨t, hsub t ht, hrest⟩

theorem eq_of_length_le_one {α : Type*} {rows : List α} (h : rows.length ≤ 1) {row other : α}
    (hrow : row ∈ rows) (hother : other ∈ rows) : row = other := by
  obtain ⟨i, hi, rfl⟩ := List.mem_iff_getElem.mp hrow
  obtain ⟨j, hj, rfl⟩ := List.mem_iff_getElem.mp hother
  have hij : i = j := by omega
  subst hij
  rfl

theorem OrderTrades.withTrade_open (h : OrderTrades market trades order)
    (hsettlement : Settlement trades order) (htrade : trade ∈ trades)
    (hok : order.withTrade trade = .ok modified) :
    order.filledQuantity = 0 ∧ order.paperTradeId = none ∧
      (order.status = .pending ∨ order.status = .rejected) := by
  refine hsettlement.resolve_right fun ⟨other, hother, _, hfilled, _⟩ => ?_
  obtain ⟨-, hquantity, hpos⟩ := h.settled trade htrade
  obtain rfl := eq_of_length_le_one h.single hother htrade
  have hlot := lot_le_quantize (hquantity ▸ hpos) h.ordered.le
  have hlt := lt_quantize_add_lot market h.ordered.le
  simp only [PaperOrder.withTrade, hfilled] at hok
  split at hok
  · cases hok
  next hfits =>
    rw [hquantity] at hfits
    linarith

/-- The row after the metadata of a trade: filled exactly when the trade is of
the whole quantity, whatever the row was. -/
theorem OrderTrades.flush_withTrade (h : OrderTrades market trades order) (stored : PaperOrder)
    (hsettlement : Settlement trades order) (htrade : trade ∈ trades)
    (hok : order.withTrade trade = .ok modified) :
    stored.flush order modified =
        { stored with
          status := modified.status, filledQuantity := trade.quantity,
          paperTradeId := some trade.id } ∧
      modified.status = (if trade.quantity = order.quantity then .filled else .partiallyFilled) ∧
      modified.id = order.id ∧ modified.quantity = order.quantity ∧
      modified.filledQuantity = trade.quantity ∧ modified.paperTradeId = some trade.id := by
  obtain ⟨hfilled, hnone, hstatus⟩ := h.withTrade_open hsettlement htrade hok
  obtain ⟨-, -, hpos⟩ := h.settled trade htrade
  simp only [PaperOrder.withTrade, hfilled, zero_add] at hok
  split at hok
  · cases hok
  cases hok
  have hchanged : (if trade.quantity = order.quantity then OrderStatus.filled
      else .partiallyFilled) ≠ order.status := by
    split <;> rcases hstatus with hstatus | hstatus <;> simp [hstatus]
  refine ⟨?_, rfl, rfl, rfl, rfl, rfl⟩
  simp only [PaperOrder.flush, if_neg hchanged, hfilled, if_neg hpos.ne', hnone, reduceCtorEq,
    if_false]

theorem PaperOrder.flush_reject (stored loaded : PaperOrder) :
    stored.flush loaded loaded.reject =
      if loaded.status = .rejected then stored else stored.reject := by
  by_cases hstatus : loaded.status = .rejected
  · simp [PaperOrder.flush, PaperOrder.reject, hstatus]
  · simp [PaperOrder.flush, PaperOrder.reject, hstatus, Ne.symm hstatus]

theorem Settlement.reject (h : Settlement trades order) : Settlement trades order.reject := by
  rcases h with ⟨hfilled, hnone, -⟩ | ⟨trade, htrade, hcorrelation, hfilled, hid, -, -⟩
  · exact .inl ⟨hfilled, hnone, .inr rfl⟩
  · exact .inr ⟨trade, htrade, hcorrelation, hfilled, hid, by simp [PaperOrder.reject],
      by simp [PaperOrder.reject]⟩

end KAssetTrader.Consumer
