import KAssetTrader.Paper.LimitBooks

/-!
Runs of calls on an account with resting orders. An order leaves the pending state once,
a filled order has one trade of its own, and the ledger with what the pending buys hold
back is what the trades account for, as long as no reset meets a pending buy.
-/

namespace KAssetTrader.Paper

open Dict Decimal Transition

variable {desk desk' : LimitDesk} {accountId : ℤ}

section Rows

structure RowsKept (desk : LimitDesk) : Prop where
  rows : ∀ id order, desk.orders.get? id = some order → order.Kept
  ids : ∀ id order, desk.orders.get? id = some order → id < desk.nextOrderId

structure FillsKept (accountId : ℤ) (desk : LimitDesk) : Prop where
  ids : ∀ trade ∈ desk.tables.trades, trade.id < desk.tables.nextTradeId
  idsNodup : (desk.tables.trades.map (·.id)).Nodup
  filled : ∀ orderId tradeId, (orderId, tradeId) ∈ desk.fills → ∃ order trade,
    desk.orders.get? orderId = some order ∧ order.status = .filled ∧
      trade ∈ desk.tables.trades ∧ trade.id = tradeId ∧ FillTrade accountId order trade
  recorded : ∀ orderId order, desk.orders.get? orderId = some order → order.status = .filled →
    ∃ tradeId, (orderId, tradeId) ∈ desk.fills
  orderOnce : (desk.fills.map (·.1)).Nodup
  tradeOnce : (desk.fills.map (·.2)).Nodup
  linked : ∀ orderId order tradeId, desk.orders.get? orderId = some order →
    order.paperTradeId = some tradeId → (orderId, tradeId) ∈ desk.fills

structure DeskKept (accountId : ℤ) (desk : LimitDesk) : Prop where
  cash : CashKept accountId desk
  rows : RowsKept desk
  fills : FillsKept accountId desk

theorem RowsKept.fresh (h : RowsKept desk) : desk.orders.get? desk.nextOrderId = none := by
  rw [Option.eq_none_iff_forall_ne_some]
  intro order horder
  exact absurd (h.ids _ order horder) (lt_irrefl _)

theorem RowsKept.modify {tables : Tables} {fills : List (ℕ × ℤ)} {orderId : ℕ}
    {f : PaperPendingOrder → PaperPendingOrder}
    (h : RowsKept desk) (hf : ∀ order : PaperPendingOrder, order.Kept → (f order).Kept) :
    RowsKept { desk with
      tables := tables, orders := desk.orders.modify orderId f, fills := fills } := by
  constructor
  · intro id order horder
    obtain ⟨before, hbefore, ⟨_, rfl⟩ | ⟨_, rfl⟩⟩ := of_get?_modify horder
    · exact hf before (h.rows id before hbefore)
    · exact h.rows id _ hbefore
  · intro id order horder
    obtain ⟨before, hbefore, _⟩ := of_get?_modify horder
    exact h.ids id before hbefore

theorem RowsKept.set (tables : Tables) {new : PaperPendingOrder} (h : RowsKept desk)
    (hnew : PlacedRow new) :
    RowsKept { desk with
      tables := tables
      orders := desk.orders.set desk.nextOrderId new
      nextOrderId := desk.nextOrderId + 1 } := by
  constructor
  · intro id order horder
    rcases of_get?_set horder with ⟨_, rfl⟩ | ⟨_, horder⟩
    · exact hnew.kept
    · exact h.rows id order horder
  · intro id order horder
    rcases of_get?_set horder with ⟨rfl, _⟩ | ⟨_, horder⟩
    · exact Nat.lt_succ_self _
    · exact Nat.lt_succ_of_lt (h.ids id order horder)

theorem RowsKept.place (h : RowsKept desk) (hplaced : Placed accountId desk desk') :
    RowsKept desk' := by
  cases hplaced with
  | buy _ hnew _ _ _ => exact h.set _ hnew
  | sell hnew _ => exact h.set desk.tables hnew

variable {db db' : Tables} {trade : PaperTrade} {order order' : PaperPendingOrder}

section

variable (h : Executed db trade db') (hid : trade.id = db.nextTradeId)
  (hids : ∀ row ∈ db.trades, row.id < db.nextTradeId)
include h hid hids

theorem Executed.ids_lt :
    ∀ row ∈ db'.trades, row.id < db'.nextTradeId := by
  intro row hrow
  rw [h.trades, List.mem_append, List.mem_singleton] at hrow
  rw [h.nextTradeId]
  rcases hrow with hold | rfl
  · exact (hids row hold).trans (lt_add_one _)
  · rw [hid]
    exact lt_add_one _

theorem Executed.ids_nodup (hnodup : (db.trades.map (·.id)).Nodup) :
    (db'.trades.map (·.id)).Nodup := by
  rw [h.trades, List.map_append, List.map_singleton, List.nodup_append]
  refine ⟨hnodup, List.nodup_singleton _, ?_⟩
  intro a ha b hb hab
  obtain ⟨row, hrow, rfl⟩ := List.mem_map.mp ha
  rw [List.mem_singleton.mp hb, hid] at hab
  exact absurd (hids row hrow) (hab ▸ lt_irrefl _)

end

theorem PaperPendingOrder.Kept.restated (h : order.Kept) (hsymbol : order'.symbol = order.symbol)
    (hside : order'.side = order.side) (hprice : order'.limitPrice = order.limitPrice)
    (hquantity : order'.quantity = order.quantity)
    (hreserved : order'.reservedKrw = order.reservedKrw) : order'.Kept := by
  refine ⟨hsymbol ▸ h.coin, hprice ▸ h.price_pos, fun hbuy => ?_⟩
  rw [hreserved, hquantity, hprice]
  exact h.reserves (hside.symm.trans hbuy)

theorem FillTrade.restated (h : FillTrade accountId order trade)
    (hsymbol : order'.symbol = order.symbol) (hside : order'.side = order.side)
    (hprice : order'.limitPrice = order.limitPrice) (hquantity : order'.quantity = order.quantity) :
    FillTrade accountId order' trade :=
  ⟨h.accountId, h.symbol.trans hsymbol.symm, h.side.trans hside.symm, h.currency,
    h.quantity.trans (congrArg _ hquantity.symm), h.price.trans (congrArg _ hprice.symm)⟩

theorem FillsKept.keep (h : FillsKept accountId desk)
    (hfills : desk'.fills = desk.fills)
    (hids : ∀ trade ∈ desk'.tables.trades, trade.id < desk'.tables.nextTradeId)
    (hnodup : (desk'.tables.trades.map (·.id)).Nodup)
    (htrades : ∀ trade ∈ desk.tables.trades, trade ∈ desk'.tables.trades)
    (hback : ∀ id order, desk'.orders.get? id = some order →
      order.status = .filled ∨ order.paperTradeId.isSome →
        ∃ before, desk.orders.get? id = some before ∧ before.status = order.status ∧
          before.paperTradeId = order.paperTradeId)
    (hforth : ∀ id order, desk.orders.get? id = some order → order.status = .filled →
      desk'.orders.get? id = some order) : FillsKept accountId desk' := by
  refine ⟨hids, hnodup, ?_, ?_, hfills ▸ h.orderOnce, hfills ▸ h.tradeOnce, ?_⟩
  · intro orderId tradeId hmem
    rw [hfills] at hmem
    obtain ⟨order, trade, horder, hfilled, htrade, hid, hfill⟩ := h.filled orderId tradeId hmem
    exact ⟨order, trade, hforth orderId order horder hfilled, hfilled, htrades trade htrade, hid,
      hfill⟩
  · intro orderId order horder hfilled
    obtain ⟨before, hbefore, hstatus, _⟩ := hback orderId order horder (.inl hfilled)
    rw [hfills]
    exact h.recorded orderId before hbefore (hstatus.trans hfilled)
  · intro orderId order tradeId horder hlink
    obtain ⟨before, hbefore, _, hsame⟩ := hback orderId order horder (.inr (by rw [hlink]; rfl))
    rw [hfills]
    exact h.linked orderId before tradeId hbefore (hsame.trans hlink)

end Rows

variable {resolveEquity : String → Option (EquityType × String)}

theorem get?_set_old {order new : PaperPendingOrder} {id : ℕ} (h : RowsKept desk)
    (horder : desk.orders.get? id = some order) :
    (desk.orders.set desk.nextOrderId new).get? id = some order := by
  rw [get?_set, if_neg (Nat.ne_of_lt (h.ids id order horder)), horder]

theorem DeskKept.place (h : DeskKept accountId desk) (hplaced : Placed accountId desk desk') :
    DeskKept accountId desk' := by
  obtain ⟨account, haccount, hcash, hfunded⟩ := h.cash.ledger
  have hrows := h.rows.place hplaced
  have hfills : ∀ {accounts : Dict ℤ PaperAccount} {new : PaperPendingOrder}, PlacedRow new →
      FillsKept accountId { desk with
        tables := { desk.tables with accounts := accounts }
        orders := desk.orders.set desk.nextOrderId new
        nextOrderId := desk.nextOrderId + 1 } := by
    intro accounts new hnew
    refine h.fills.keep rfl h.fills.ids h.fills.idsNodup (fun _ hmem => hmem) ?_
      fun id order horder _ => get?_set_old h.rows horder
    intro id order horder hdone
    rcases of_get?_set horder with ⟨_, rfl⟩ | ⟨_, horder⟩
    · rcases hdone with hfilled | hlinked
      · rw [hnew.pending] at hfilled
        cases hfilled
      · rw [hnew.unlinked] at hlinked
        cases hlinked
    · exact ⟨order, horder, rfl, rfl⟩
  cases hplaced with
  | @buy before cash order hbefore hnew hbuy hexact hnonneg =>
    cases haccount.symm.trans hbefore
    refine ⟨⟨⟨account.withCash .krw cash, ?_, ?_, fun _ => hnonneg⟩, h.cash.resetAt⟩, hrows,
      hfills hnew⟩
    · simp [get?_modify, haccount]
    · have hreserved := reserved_set order h.rows.fresh
      have hheld : order.held = order.reservedKrw.value := if_pos ⟨hnew.pending, hbuy⟩
      change cash.value + _ = desk.booked accountId
      rw [LimitDesk.reserved, hreserved, hheld, hexact, ← hcash]
      ring
  | @sell order hnew hsell =>
    have hheld : order.held = 0 := if_neg (fun hboth => by rw [hsell] at hboth; cases hboth.2)
    refine ⟨⟨⟨account, haccount, ?_, fun hholds => hfunded ?_⟩, h.cash.resetAt⟩, hrows,
      hfills hnew⟩
    · have hreserved := reserved_set order h.rows.fresh
      change account.cashKrw.value + _ = desk.booked accountId
      rw [LimitDesk.reserved, hreserved, hheld, add_zero, ← hcash]
    · obtain ⟨id, row, hrow, hpending, hbuy⟩ := hholds
      rcases of_get?_set hrow with ⟨_, rfl⟩ | ⟨_, hrow⟩
      · rw [hsell] at hbuy
        cases hbuy
      · exact ⟨id, row, hrow, hpending, hbuy⟩

theorem HoldsBuy.of_modify {tables : Tables} {fills : List (ℕ × ℤ)} {orderId : ℕ}
    {f : PaperPendingOrder → PaperPendingOrder}
    (hf : ∀ order, (f order).status = .pending → order.status = .pending ∧
      (f order).side = order.side)
    (h : LimitDesk.HoldsBuy { desk with
      tables := tables, orders := desk.orders.modify orderId f, fills := fills }) :
    desk.HoldsBuy := by
  obtain ⟨id, row, hrow, hpending, hbuy⟩ := h
  obtain ⟨before, hbefore, ⟨_, rfl⟩ | ⟨_, rfl⟩⟩ := of_get?_modify hrow
  · obtain ⟨hstatus, hside⟩ := hf before hpending
    exact ⟨id, before, hbefore, hstatus, hside.symm.trans hbuy⟩
  · exact ⟨id, _, hbefore, hpending, hbuy⟩

theorem PaperPendingOrder.Kept.held_nonneg {order : PaperPendingOrder} (h : order.Kept) :
    0 ≤ order.held := by
  unfold PaperPendingOrder.held
  split
  next hboth => exact (h.reserves hboth.2).1
  · exact le_rfl

theorem FillsKept.not_filled {orderId : ℕ} {order : PaperPendingOrder}
    (h : FillsKept accountId desk) (horder : desk.orders.get? orderId = some order)
    (hopen : order.status ≠ .filled) :
    (∀ tradeId, (orderId, tradeId) ∉ desk.fills) ∧ order.paperTradeId = none := by
  have hfills : ∀ tradeId, (orderId, tradeId) ∉ desk.fills := by
    intro tradeId hmem
    obtain ⟨row, _, hrow, hfilled, _⟩ := h.filled orderId tradeId hmem
    cases horder.symm.trans hrow
    exact hopen hfilled
  refine ⟨hfills, ?_⟩
  rw [Option.eq_none_iff_forall_ne_some]
  intro tradeId hlink
  exact hfills tradeId (h.linked orderId order tradeId horder hlink)

theorem DeskKept.cancel {orderId : ℕ} {now : Instant} (h : DeskKept accountId desk)
    (hok : cancelPendingOrder accountId desk orderId now = .ok desk') :
    DeskKept accountId desk' := by
  obtain ⟨order, account, cash, horder, hpending, haccount, hexact, rfl⟩ :=
    cancelPendingOrder_ok hok
  obtain ⟨before, hbefore, hcash, hfunded⟩ := h.cash.ledger
  cases haccount.symm.trans hbefore
  have hheldNonneg := (h.rows.rows orderId order horder).held_nonneg
  have hopen : order.status ≠ .filled := by
    rw [hpending]
    nofun
  refine ⟨⟨⟨account.withCash .krw cash, ?_, ?_, fun hholds => ?_⟩, h.cash.resetAt⟩, ?_, ?_⟩
  · simp [released, get?_modify, haccount]
  · have hreserved := reserved_modify (f := fun row : PaperPendingOrder =>
      { row with status := .cancelled, cancelledAt := some now }) horder
    have hnone : PaperPendingOrder.held
        { order with status := .cancelled, cancelledAt := some now } = 0 :=
      if_neg (fun hboth => by cases hboth.1)
    change cash.value + _ = desk.booked accountId
    rw [LimitDesk.reserved, hreserved, hnone, hexact, ← hcash]
    ring
  · have hnonneg := hfunded (HoldsBuy.of_modify (fun _ hp => by cases hp) hholds)
    change 0 ≤ cash.value
    rw [hexact]
    linarith
  · exact h.rows.modify fun _ hkept => hkept.restated rfl rfl rfl rfl rfl
  · refine h.fills.keep rfl h.fills.ids h.fills.idsNodup (fun _ hmem => hmem) ?_ ?_
    · intro id row hrow hdone
      obtain ⟨old, hold, ⟨rfl, rfl⟩ | ⟨_, rfl⟩⟩ := of_get?_modify hrow
      · cases horder.symm.trans hold
        rcases hdone with hfilled | hlinked
        · cases hfilled
        · change order.paperTradeId.isSome = true at hlinked
          rw [(h.fills.not_filled horder hopen).2] at hlinked
          cases hlinked
      · exact ⟨_, hold, rfl, rfl⟩
    · intro id row hrow hfilled
      have hne : id ≠ orderId := by
        rintro rfl
        cases horder.symm.trans hrow
        exact hopen hfilled
      change (desk.orders.modify orderId _).get? id = _
      rw [get?_modify, if_neg hne, hrow]

end KAssetTrader.Paper
