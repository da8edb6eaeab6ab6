import KAssetTrader.Library.Transition
import KAssetTrader.Paper.Reservations

/-!
The books of an account with resting orders, over any calls on it. Every call is a
change of the cash that the pending buys and the trades account for, with one exception:
a reset writes the initial capital over the ledger while pending buys still hold back
what they took from the old one.
-/

namespace KAssetTrader.Paper

open Checked Decimal Transition

variable {desk : LimitDesk} {accountId : ℤ}

section Calls

variable {resolveEquity : String → Option (EquityType × String)} {desk' : LimitDesk}

theorem orRaise_ok {α : Type} {x : Except Failure α} {a : α} (h : orRaise x = .ok a) :
    x = .ok a := by
  cases x with
  | ok b => exact congrArg Except.ok (Except.ok.inj h)
  | error e => cases h

structure PlacedRow (order : PaperPendingOrder) : Prop where
  kept : order.Kept
  pending : order.status = .pending
  unlinked : order.paperTradeId = none

inductive Placed (accountId : ℤ) (desk : LimitDesk) : LimitDesk → Prop
  | buy {account : PaperAccount} {cash : Numeric 20 4} {order : PaperPendingOrder} :
      desk.tables.accounts.get? accountId = some account → PlacedRow order →
      order.side = .buy → cash.value = account.cashKrw.value - order.reservedKrw.value →
      0 ≤ cash.value →
      Placed accountId desk { desk with
        tables := { desk.tables with
          accounts := desk.tables.accounts.modify accountId (·.withCash .krw cash) }
        orders := desk.orders.set desk.nextOrderId order
        nextOrderId := desk.nextOrderId + 1 }
  | sell {order : PaperPendingOrder} : PlacedRow order → order.side = .sell →
      Placed accountId desk { desk with
        orders := desk.orders.set desk.nextOrderId order
        nextOrderId := desk.nextOrderId + 1 }

variable {call : LimitCall}

variable {symbol : String} {price quantity : Decimal}

theorem pendingRow_ok {side : OrderSide} {price quantity reserved : Decimal}
    {order : PaperPendingOrder} (hprice : price.HasPlaces 8) (hquantity : quantity.HasPlaces 8)
    (hreserved : reserved.HasPlaces 4)
    (h : pendingRow call symbol side price quantity reserved = .ok order) :
    order.symbol = symbol ∧ order.side = side ∧ order.limitPrice.value = price ∧
      order.quantity.value = quantity ∧ order.reservedKrw.value = reserved ∧
      order.status = .pending ∧ order.paperTradeId = none := by
  unfold pendingRow at h
  split at h
  · cases h
  obtain ⟨limitColumn, hlimit, h⟩ := bind_ok_iff.mp h
  obtain ⟨quantityColumn, hcolumn, h⟩ := bind_ok_iff.mp h
  obtain ⟨reservedColumn, hheld, h⟩ := bind_ok_iff.mp h
  cases h
  exact ⟨rfl, rfl, storeColumn_exact hprice hlimit, storeColumn_exact hquantity hcolumn,
    storeColumn_exact hreserved hheld, rfl, rfl⟩

theorem cryptoFee_nonneg {gross fee : Decimal} (hgross : 0 ≤ gross)
    (h : calculateFee .crypto .buy gross = .ok fee) : 0 ≤ fee := by
  rw [quantizeMoney_ok h]
  exact quantizeHalfUp_nonneg (ctx_round_nonneg (mul_nonneg hgross (by norm_num)))

theorem placeBuy_ok {account : PaperAccount}
    (haccount : desk.tables.accounts.get? accountId = some account) (hcoin : IsCoin symbol)
    (hprice : price.HasPlaces 8) (hpos : 0 < price) (hquantity : quantity.HasPlaces 8)
    (h : placeBuy accountId desk account call symbol price quantity = .ok desk') :
    Placed accountId desk desk' := by
  obtain ⟨gross, hgross, h⟩ := bind_ok_iff.mp h
  obtain ⟨fee, hfee, h⟩ := bind_ok_iff.mp h
  obtain ⟨reserved, hreserved, h⟩ := bind_ok_iff.mp h
  split at h
  · cases h
  next hminimum =>
  split at h
  · cases h
  next henough =>
  obtain ⟨cash, hcash, h⟩ := bind_ok_iff.mp h
  obtain ⟨column, hcolumn, h⟩ := bind_ok_iff.mp h
  obtain ⟨order, horder, h⟩ := bind_ok_iff.mp h
  cases h
  have hgrossNonneg : 0 ≤ gross := le_trans (by norm_num [minCryptoKrw]) (not_lt.mp hminimum)
  have hfeeNonneg := cryptoFee_nonneg hgrossNonneg (orRaise_ok hfee)
  have hreservedPlaces := quantizeMoney_places (orRaise_ok hreserved)
  have hreservedNonneg : 0 ≤ reserved := by
    rw [quantizeMoney_ok (orRaise_ok hreserved)]
    exact quantizeHalfUp_nonneg (ctx_round_nonneg (add_nonneg hgrossNonneg hfeeNonneg))
  obtain ⟨hsymbol, hside, hlimit, hqty, hheld, hpending, hlink⟩ :=
    pendingRow_ok hprice hquantity hreservedPlaces (orRaise_ok horder)
  have hexact : column.value = account.cashKrw.value - reserved := by
    have hplaces := account.cashKrw.places.sub hreservedPlaces
    have hsize : |account.cashKrw.value - reserved| < 10 ^ 19 := by
      have hcashSize := column_size le_rfl account.cashKrw
      rw [abs_of_nonneg (sub_nonneg.mpr (not_lt.mp henough))]
      linarith [(abs_lt.mp hcashSize).2]
    have hmoney := orRaise_ok hcash
    rw [Context.sub, ctx_round (by norm_num) hplaces hsize] at hmoney
    obtain rfl := quantizeMoney_exact hplaces hmoney
    exact storeColumn_exact hplaces (orRaise_ok hcolumn)
  refine .buy haccount ⟨⟨hsymbol ▸ hcoin, hlimit ▸ hpos, fun _ => ⟨hheld ▸ hreservedNonneg, gross,
    fee, ?_, orRaise_ok hfee, ?_⟩⟩, hpending, hlink⟩ hside ?_ ?_
  · rw [hqty, hlimit]
    exact orRaise_ok hgross
  · rw [hheld]
    exact orRaise_ok hreserved
  · rw [hexact, hheld]
  · rw [hexact]
    exact sub_nonneg.mpr (not_lt.mp henough)

theorem placeSell_ok (hcoin : IsCoin symbol) (hprice : price.HasPlaces 8) (hpos : 0 < price)
    (hquantity : quantity.HasPlaces 8)
    (h : placeSell accountId desk call symbol price quantity = .ok desk') :
    Placed accountId desk desk' := by
  obtain ⟨gross, _, h⟩ := bind_ok_iff.mp h
  split at h
  · cases h
  split at h
  · cases h
  dsimp only at h
  split at h
  · cases h
  obtain ⟨order, horder, h⟩ := bind_ok_iff.mp h
  cases h
  obtain ⟨hsymbol, hside, hlimit, _, _, hpending, hlink⟩ :=
    pendingRow_ok hprice hquantity HasPlaces.zero (orRaise_ok horder)
  refine .sell ⟨⟨hsymbol ▸ hcoin, hlimit ▸ hpos, fun hbuy => ?_⟩, hpending, hlink⟩ hside
  rw [hside] at hbuy
  cases hbuy

theorem quantizeCryptoQty_places {x y : Decimal} (h : quantizeCryptoQty x = .ok y) :
    y.HasPlaces 8 := by
  unfold quantizeCryptoQty at h
  split at h
  · rw [← Except.ok.inj h]
    exact quantizeHalfUp_hasPlaces 8 x
  · cases h

theorem limitQuantity_places (h : limitQuantity call price = .ok quantity) :
    quantity.HasPlaces 8 := by
  unfold limitQuantity at h
  split at h
  · exact quantizeCryptoQty_places (orRaise_ok h)
  · split at h
    · cases h
    · obtain ⟨_, _, hquantity⟩ := bind_ok_iff.mp (orRaise_ok h)
      exact quantizeCryptoQty_places hquantity
  · cases h

/-- Placing an order takes the cost of a buy out of the ledger, to the last unit. -/
theorem placeLimitOrder_ok (h : placeLimitOrder resolveEquity accountId desk call = .ok desk') :
    Placed accountId desk desk' := by
  unfold placeLimitOrder at h
  split at h
  · cases h
  next side _ =>
  split at h
  · cases h
  next account haccount =>
  split at h
  · cases h
  split at h
  · cases h
  next instrumentType symbol hresolved =>
  split at h
  · cases h
  next htype =>
  rw [not_not.mp htype] at hresolved
  have hcoin := resolveMarketType_crypto hresolved
  obtain ⟨price, hprice, h⟩ := bind_ok_iff.mp h
  have hplaces := (quantizeMoney_places (orRaise_ok hprice)).mono (show 4 ≤ 8 by norm_num)
  split at h
  · cases h
  next hpos =>
  obtain ⟨quantity, hquantity, h⟩ := bind_ok_iff.mp h
  have hqty := limitQuantity_places hquantity
  split at h
  · cases h
  cases side with
  | buy => exact placeBuy_ok haccount hcoin hplaces (not_le.mp hpos) hqty h
  | sell => exact placeSell_ok hcoin hplaces (not_le.mp hpos) hqty h

theorem cancelPendingOrder_ok {orderId : ℕ} {now : Instant}
    (h : cancelPendingOrder accountId desk orderId now = .ok desk') :
    ∃ order account cash, desk.orders.get? orderId = some order ∧ order.status = .pending ∧
      desk.tables.accounts.get? accountId = some account ∧
      cash.value = account.cashKrw.value + order.held ∧
      desk' = { desk with
        tables := released accountId desk.tables cash
        orders := desk.orders.modify orderId fun row =>
          { row with status := .cancelled, cancelledAt := some now } } := by
  unfold cancelPendingOrder at h
  split at h
  · cases h
  next order horder =>
  split at h
  · cases h
  next hpending =>
  split at h
  · cases h
  next account haccount =>
  obtain ⟨cash, hcash, h⟩ := bind_ok_iff.mp h
  exact ⟨order, account, cash, horder, not_not.mp hpending, haccount,
    releasedCash_ok (orRaise_ok hcash) (not_not.mp hpending), (Except.ok.inj h).symm⟩

end Calls

def LimitDesk.since (desk : LimitDesk) : List PaperTrade := desk.tables.trades.drop desk.resetAt

/-- What the account should have: its initial capital, less the cost of the buys, and with
the proceeds of the sells, since the last reset. -/
def LimitDesk.booked (desk : LimitDesk) (accountId : ℤ) : Decimal :=
  desk.initialCapital.value - spentCash accountId .krw desk.since +
    receivedCash accountId .krw desk.since

def LimitDesk.HoldsBuy (desk : LimitDesk) : Prop :=
  ∃ id order, desk.orders.get? id = some order ∧ order.status = .pending ∧ order.side = .buy

structure CashKept (accountId : ℤ) (desk : LimitDesk) : Prop where
  ledger : ∃ account, desk.tables.accounts.get? accountId = some account ∧
    account.cashKrw.value + desk.reserved = desk.booked accountId ∧
      (desk.HoldsBuy → 0 ≤ account.cashKrw.value)
  resetAt : desk.resetAt ≤ desk.tables.trades.length

theorem booked_append {tables : Tables} {trade : PaperTrade}
    (hreset : desk.resetAt ≤ desk.tables.trades.length)
    (htrades : tables.trades = desk.tables.trades ++ [trade]) :
    LimitDesk.booked { desk with tables := tables } accountId = desk.booked accountId +
      if trade.accountId = accountId ∧ trade.currency = .krw then trade.cashFlow else 0 := by
  have happend := cashFlow_append desk.since trade accountId .krw
  have hsince : LimitDesk.since { desk with tables := tables } = desk.since ++ [trade] := by
    simp only [LimitDesk.since, htrades]
    exact List.drop_append_of_le_length hreset
  simp only [LimitDesk.booked, hsince]
  linarith

theorem reserved_set (order : PaperPendingOrder)
    (hfresh : desk.orders.get? desk.nextOrderId = none) :
    (desk.orders.set desk.nextOrderId order).total (fun _ order => order.held) =
      desk.reserved + order.held :=
  Dict.total_set _ _ hfresh

theorem reserved_modify {orderId : ℕ} {order : PaperPendingOrder}
    {f : PaperPendingOrder → PaperPendingOrder} (horder : desk.orders.get? orderId = some order) :
    (desk.orders.modify orderId f).total (fun _ order => order.held) =
      desk.reserved - order.held + (f order).held := by
  obtain ⟨hbefore, hafter⟩ := desk.orders.total_modify (fun _ order => order.held) f horder
  rw [hafter, LimitDesk.reserved, hbefore]
  ring

theorem PaperAccount.withCash_krw (account : PaperAccount) (cash : Numeric 20 4) :
    (account.withCash .krw cash).cashKrw = cash := rfl

theorem Executed.krw {db db' : Tables} {trade : PaperTrade} {account : PaperAccount}
    (h : Executed db trade db') (haccount : db.accounts.get? accountId = some account) :
    ∃ now, db'.accounts.get? accountId = some now ∧
      now.cashKrw.value = account.cashKrw.value +
        (if trade.accountId = accountId ∧ trade.currency = .krw then trade.cashFlow else 0) ∧
      (0 ≤ account.cashKrw.value → (trade.side = .sell → 0 ≤ trade.totalAmount.value) →
        0 ≤ now.cashKrw.value) := by
  obtain ⟨now, hnow, hcash⟩ := h.cash_after haccount
  refine ⟨now, hnow, hcash .krw, fun hnonneg hgross => ?_⟩
  have hledger : now.cashKrw.value = account.cashKrw.value + _ := hcash .krw
  by_cases hmine : trade.accountId = accountId ∧ trade.currency = .krw
  · rw [if_pos hmine] at hledger
    cases hside : trade.side with
    | buy =>
      obtain ⟨before, cash, hbefore, haccounts, _, hafford⟩ := h.cash
      have hwritten : db'.accounts.get? accountId = some (before.withCash .krw cash) := by
        rw [haccounts, Dict.get?_modify, if_pos hmine.1.symm, ← hmine.1, hbefore, hmine.2]
        rfl
      cases hnow.symm.trans hwritten
      exact hafford hside
    | sell =>
      have hlack := shortfall_le hside (hgross hside) h.fee h.currency
      rw [hmine.2] at hlack
      have hfee : trade.fee.value - trade.totalAmount.value ≤ 0 :=
        (le_max_right _ _).trans hlack
      rw [hledger, PaperTrade.cashFlow, hside]
      linarith
  · rw [if_neg hmine, add_zero] at hledger
    rw [hledger]
    exact hnonneg

end KAssetTrader.Paper
