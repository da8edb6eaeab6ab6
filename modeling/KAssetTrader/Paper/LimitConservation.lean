import KAssetTrader.Paper.RestingFills

/-!
Conservation of the cash of an account with resting orders, over every run of calls that
does not overdraw the ledger behind a pending buy. A reset breaks it: the buy that is
pending keeps what it took from the cash before the reset, and cancelling or filling it
adds that to the new cash.
-/

namespace KAssetTrader.Paper

open Decimal Transition

variable {resolveEquity : String → Option (EquityType × String)} {accountId : ℤ}

variable {desk : LimitDesk} {orderId : ℕ}

section Turns

variable {candles : Option (List Candle)} {now : Instant}

variable (resolveEquity accountId desk orderId candles now) in
theorem reconcileOrder_cases :
    (reconcileOrder resolveEquity accountId desk orderId candles now).1 = desk ∨
      ∃ order tables, desk.orders.get? orderId = some order ∧ order.status = .pending ∧
        fillOrder resolveEquity accountId desk.tables order now = .ok tables ∧
        ((reconcileOrder resolveEquity accountId desk orderId candles now).1 =
            desk.withFill orderId tables now ∨
          ∃ tradeId, latestTradeId accountId tables.trades order.symbol order.side =
              some tradeId ∧
            (reconcileOrder resolveEquity accountId desk orderId candles now).1 =
              (desk.withFill orderId tables now).linked orderId order.correlationId tradeId) := by
  unfold reconcileOrder
  split
  next order candles horder =>
    split
    next hdue =>
      split
      · exact .inl rfl
      next tables hfill =>
        refine .inr ⟨order, tables, horder, hdue.1, hfill, ?_⟩
        split
        · exact .inl rfl
        next linked hlink =>
          rcases linkTrade_ok hlink with hsame | ⟨tradeId, hlatest, hlinked⟩
          · exact .inl hsame
          · exact .inr ⟨tradeId, hlatest, hlinked⟩
    · exact .inl rfl
  · exact .inl rfl

theorem reconcileFrom_induction {P : LimitDesk → Prop} {market : ℕ → Option (List Candle)}
    (hturn : ∀ desk orderId, P desk →
      P (reconcileOrder resolveEquity accountId desk orderId (market orderId) now).1)
    (ids : List ℕ) (hdesk : P desk) :
    P (reconcileFrom resolveEquity accountId market now ids desk) := by
  induction ids generalizing desk with
  | nil => exact hdesk
  | cons orderId rest ih =>
    have hafter := hturn desk orderId hdesk
    rw [reconcileFrom]
    split
    next after hrun =>
      rw [hrun] at hafter
      exact ih hafter
    next after hrun =>
      rw [hrun] at hafter
      exact hafter

theorem DeskKept.turn (h : DeskKept accountId desk) :
    DeskKept accountId (reconcileOrder resolveEquity accountId desk orderId candles now).1 := by
  rcases reconcileOrder_cases resolveEquity accountId desk orderId candles now with
    hsame | ⟨order, tables, horder, hpending, hfill, hfilled | ⟨tradeId, hlatest, hlinked⟩⟩
  · rw [hsame]
    exact h
  · rw [hfilled]
    exact h.fill horder hpending hfill
  · rw [hlinked]
    refine (h.fill horder hpending hfill).link ?_
    obtain ⟨_, _, trade, _, _, htrade, hid, _, hexecuted⟩ :=
      fillOrder_ok (h.rows.rows orderId order horder) hfill
    have hwritten : tables.trades = desk.tables.trades ++ [trade] := hexecuted.trades
    rw [hwritten, latestTradeId_append htrade, hid] at hlatest
    rw [← Option.some.inj hlatest]
    exact List.mem_cons_self

theorem DeskKept.turns (h : DeskKept accountId desk) (market : ℕ → Option (List Candle))
    (ids : List ℕ) :
    DeskKept accountId (reconcileFrom resolveEquity accountId market now ids desk) :=
  reconcileFrom_induction (fun _ _ hdesk => hdesk.turn) ids h

end Turns

variable {desk' : LimitDesk}

section Statuses

variable {desk'' : LimitDesk}

def StatusKept (desk desk' : LimitDesk) : Prop :=
  ∀ id order, desk.orders.get? id = some order → order.status ≠ .pending →
    ∃ row, desk'.orders.get? id = some row ∧ row.status = order.status

theorem StatusKept.refl (desk : LimitDesk) : StatusKept desk desk :=
  fun _ order horder _ => ⟨order, horder, rfl⟩

theorem StatusKept.trans (h : StatusKept desk desk') (h' : StatusKept desk' desk'') :
    StatusKept desk desk'' := by
  intro id order horder hdone
  obtain ⟨row, hrow, hstatus⟩ := h id order horder hdone
  obtain ⟨last, hlast, hsame⟩ := h' id row hrow (hstatus ▸ hdone)
  exact ⟨last, hlast, hsame.trans hstatus⟩

theorem StatusKept.of_orders (h : desk'.orders = desk.orders) : StatusKept desk desk' := by
  intro id order horder _
  exact ⟨order, h ▸ horder, rfl⟩

theorem StatusKept.of_modify {order : PaperPendingOrder}
    {f : PaperPendingOrder → PaperPendingOrder} (horder : desk.orders.get? orderId = some order)
    (hpending : order.status = .pending) (h : desk'.orders = desk.orders.modify orderId f) :
    StatusKept desk desk' := by
  intro id row hrow hdone
  have hne : id ≠ orderId := by
    rintro rfl
    cases horder.symm.trans hrow
    exact hdone hpending
  exact ⟨row, by rw [h, Dict.get?_modify, if_neg hne, hrow], rfl⟩

theorem StatusKept.link {correlationId : CorrelationId} {tradeId : ℤ} :
    StatusKept desk (desk.linked orderId correlationId tradeId) := by
  intro id row hrow _
  refine ⟨if id = orderId then { row with paperTradeId := some tradeId } else row, ?_, ?_⟩
  · change (desk.orders.modify orderId _).get? id = _
    rw [Dict.get?_modify, hrow]
    split <;> rfl
  · split <;> rfl

theorem StatusKept.place (hrows : RowsKept desk) (h : Placed accountId desk desk') :
    StatusKept desk desk' := by
  cases h with
  | buy _ _ _ _ _ => exact fun id order horder _ => ⟨order, get?_set_old hrows horder, rfl⟩
  | sell _ _ => exact fun id order horder _ => ⟨order, get?_set_old hrows horder, rfl⟩

theorem StatusKept.turn {candles : Option (List Candle)} {now : Instant} :
    StatusKept desk (reconcileOrder resolveEquity accountId desk orderId candles now).1 := by
  rcases reconcileOrder_cases resolveEquity accountId desk orderId candles now with
    hsame | ⟨order, tables, horder, hpending, _, hfilled | ⟨tradeId, _, hlinked⟩⟩
  · rw [hsame]
    exact .refl desk
  · rw [hfilled]
    exact .of_modify (f := (·.fill now)) horder hpending rfl
  · rw [hlinked]
    have hfilled : StatusKept desk (desk.withFill orderId tables now) :=
      .of_modify (f := (·.fill now)) horder hpending rfl
    exact hfilled.trans .link

end Statuses

section Calls

theorem holdsBuy_iff : desk.holdsBuy = true ↔ desk.HoldsBuy := by
  simp only [LimitDesk.holdsBuy, List.any_eq_true, decide_eq_true_eq]
  constructor
  · rintro ⟨⟨id, order⟩, hmem, hpending, hbuy⟩
    exact ⟨id, order, desk.orders.get?_eq_some.mpr hmem, hpending, hbuy⟩
  · rintro ⟨id, order, horder, hpending, hbuy⟩
    exact ⟨(id, order), desk.orders.get?_eq_some.mp horder, hpending, hbuy⟩

/-- Without a pending buy nothing is held back. -/
theorem reserved_eq_zero (h : ¬ desk.HoldsBuy) : desk.reserved = 0 := by
  apply List.sum_eq_zero
  intro held hmem
  obtain ⟨⟨id, order⟩, hentry, rfl⟩ := List.mem_map.mp hmem
  refine if_neg fun hbuy => h ?_
  exact ⟨id, order, desk.orders.get?_eq_some.mpr hentry, hbuy.1, hbuy.2⟩

theorem DeskKept.execute {tables : Tables} (h : DeskKept accountId desk)
    (hsame : tables = desk.tables ∨ ∃ trade, Executed desk.tables trade tables ∧
      trade.id = desk.tables.nextTradeId ∧
      (desk.HoldsBuy → trade.side = .sell → 0 ≤ trade.totalAmount.value)) :
    DeskKept accountId { desk with tables := tables } := by
  rcases hsame with rfl | ⟨trade, hexecuted, hid, hgross⟩
  · exact h
  obtain ⟨account, haccount, hledger, hfunded⟩ := h.cash.ledger
  obtain ⟨after, hafter, hmoved, hnonneg⟩ := hexecuted.krw haccount
  refine ⟨⟨⟨after, hafter, ?_, fun hholds => hnonneg (hfunded hholds) (hgross hholds)⟩, ?_⟩,
    ⟨h.rows.rows, h.rows.ids⟩, ?_⟩
  · rw [booked_append h.cash.resetAt hexecuted.trades, hmoved, ← hledger]
    change _ + desk.reserved = _
    ring
  · change desk.resetAt ≤ tables.trades.length
    rw [hexecuted.trades, List.length_append]
    exact h.cash.resetAt.trans (Nat.le_add_right _ _)
  · refine h.fills.keep rfl ?_ ?_ ?_ (fun id order horder _ => ⟨order, horder, rfl, rfl⟩)
      fun _ _ horder _ => horder
    · exact hexecuted.ids_lt hid h.fills.ids
    · exact hexecuted.ids_nodup hid h.fills.ids h.fills.idsNodup
    · intro row hrow
      change row ∈ tables.trades
      rw [hexecuted.trades]
      exact List.mem_append_left _ hrow

variable {now : Instant} {action : DeskAction}

theorem DeskKept.reset (h : DeskKept accountId desk) (hsafe : ¬ desk.HoldsBuy) :
    DeskKept accountId (resetAccount accountId desk now) := by
  obtain ⟨account, haccount, _, _⟩ := h.cash.ledger
  refine ⟨⟨⟨{ account with
    cashKrw := desk.initialCapital, cashUsd := desk.initialCapitalUsd }, ?_, ?_, ?_⟩, le_rfl⟩,
    ⟨h.rows.rows, h.rows.ids⟩, ?_⟩
  · simp [resetAccount, Dict.get?_modify, haccount]
  · have hnone : (resetAccount accountId desk now).reserved = 0 := reserved_eq_zero hsafe
    have hsince : (resetAccount accountId desk now).since = [] := List.drop_length
    rw [hnone, LimitDesk.booked, hsince]
    simp [spentCash, receivedCash, totalOver, resetAccount]
  · intro hholds
    exact absurd hholds hsafe
  · exact h.fills.keep rfl h.fills.ids h.fills.idsNodup (fun _ hmem => hmem)
      (fun id order horder _ => ⟨order, horder, rfl, rfl⟩) fun _ _ horder _ => horder

theorem DeskKept.start (h : DeskStart accountId desk) : DeskKept accountId desk := by
  obtain ⟨account, haccount, hcash⟩ := h.cash
  have hrow : ∀ {id order}, desk.orders.get? id ≠ some order := by
    intro id order horder
    rw [h.orders] at horder
    cases horder
  have hfill : ∀ {pair}, pair ∉ desk.fills := by
    intro pair hmem
    rw [h.fills] at hmem
    cases hmem
  have hidle : ¬ desk.HoldsBuy := fun ⟨_, _, horder, _⟩ => hrow horder
  have hsince : desk.since = [] := by
    rw [LimitDesk.since, h.resetAt, List.drop_length]
  refine ⟨⟨⟨account, haccount, ?_, fun hholds => absurd hholds hidle⟩, h.resetAt.le⟩,
    ⟨fun _ _ horder => absurd horder hrow, fun _ _ horder => absurd horder hrow⟩, ?_⟩
  · rw [reserved_eq_zero hidle, LimitDesk.booked, hsince, hcash]
    simp [spentCash, receivedCash, totalOver]
  · refine ⟨h.ids, h.idsNodup, fun _ _ hmem => absurd hmem hfill,
      fun _ _ horder => absurd horder hrow, ?_, ?_, fun _ _ _ horder => absurd horder hrow⟩
    · rw [h.fills]
      exact List.nodup_nil
    · rw [h.fills]
      exact List.nodup_nil

theorem sell_nonneg {call : OrderCall} {p : Preview} {trade : PaperTrade} {db : Tables}
    (hprices : sellsBelowZero call = false)
    (hp : previewOrder (resolveMarketType resolveEquity) db { call with accountId := accountId } =
      .ok p)
    (htrade : TradeOf db { call with accountId := accountId } p trade)
    (hsell : trade.side = .sell) : 0 ≤ trade.totalAmount.value := by
  obtain ⟨hpriced, _, _, hside, horderType, hprice, _⟩ := previewOrder_ok hp
  rw [htrade.totalAmount]
  apply hpriced.gross_nonneg
  have hcall : fillPrice call p.orderType = .ok p.price := hprice
  have hsides : OrderSide.ofText call.side = some .sell := by
    rw [← hsell, htrade.side]
    exact hside
  have horderTypes : OrderType.ofText call.orderType = some p.orderType := horderType
  simp only [sellsBelowZero, hsides, horderTypes, hcall, decide_eq_false_iff_not, not_lt] at hprices
  exact hprices

/-- A safe action keeps the cash, the rows and the fills of the desk. -/
theorem DeskKept.step (h : DeskKept accountId desk) (hsafe : deskSafe desk action)
    (hstep : LimitDesk.step resolveEquity accountId desk action = some desk') :
    DeskKept accountId desk' := by
  cases action with
  | place call =>
    cases hstep
    cases hplace : placeLimitOrder resolveEquity accountId desk call with
    | error refusal => exact h
    | ok placed => exact h.place (placeLimitOrder_ok hplace)
  | cancel orderId now =>
    cases hstep
    cases hcancel : cancelPendingOrder accountId desk orderId now with
    | error refusal => exact h
    | ok cancelled => exact h.cancel hcancel
  | reconcile market now =>
    cases hstep
    exact h.turns market _
  | execute call =>
    cases hstep
    apply h.execute
    have hafter : (placeOrder (resolveMarketType resolveEquity)
        { call with accountId := accountId }).after desk.tables = desk.tables ∨ _ :=
      placeOrder_after _
    rcases hafter with hsame | ⟨p, trade, hp, htrade, hexecuted⟩
    · exact .inl hsame
    · refine .inr ⟨trade, hexecuted, htrade.id, fun hholds hsell => ?_⟩
      rcases hsafe with hidle | hprices
      · rw [holdsBuy_iff.mpr hholds] at hidle
        cases hidle
      · exact sell_nonneg hprices hp htrade hsell
  | reset now =>
    cases hstep
    refine h.reset fun hholds => ?_
    have hidle : desk.holdsBuy = false := hsafe
    rw [holdsBuy_iff.mpr hholds] at hidle
    cases hidle

theorem RowsKept.reconcile {market : ℕ → Option (List Candle)} (ids : List ℕ) (h : RowsKept desk) :
    RowsKept (reconcileFrom resolveEquity accountId market now ids desk) := by
  refine reconcileFrom_induction (fun desk orderId hrows => ?_) ids h
  rcases reconcileOrder_cases resolveEquity accountId desk orderId (market orderId) now with
    hsame | ⟨order, tables, _, _, _, hfilled | ⟨tradeId, _, hlinked⟩⟩
  · rw [hsame]
    exact hrows
  · rw [hfilled]
    exact hrows.modify fun _ hkept => hkept.restated rfl rfl rfl rfl rfl
  · rw [hlinked]
    have hfilledRows : RowsKept (desk.withFill orderId tables now) :=
      hrows.modify fun _ hkept => hkept.restated rfl rfl rfl rfl rfl
    exact hfilledRows.modify fun _ hkept => hkept.restated rfl rfl rfl rfl rfl

/-- A step keeps the rows, and the status of every order that is no longer pending. -/
theorem RowsKept.step (h : RowsKept desk)
    (hstep : LimitDesk.step resolveEquity accountId desk action = some desk') :
    RowsKept desk' ∧ StatusKept desk desk' := by
  cases action with
  | place call =>
    cases hstep
    cases hplace : placeLimitOrder resolveEquity accountId desk call with
    | error refusal => exact ⟨h, .refl desk⟩
    | ok placed =>
      have hplaced := placeLimitOrder_ok hplace
      exact ⟨h.place hplaced, .place h hplaced⟩
  | cancel orderId now =>
    cases hstep
    cases hcancel : cancelPendingOrder accountId desk orderId now with
    | error refusal => exact ⟨h, .refl desk⟩
    | ok cancelled =>
      obtain ⟨order, _, _, horder, hpending, _, _, rfl⟩ := cancelPendingOrder_ok hcancel
      refine ⟨h.modify fun _ hkept => hkept.restated rfl rfl rfl rfl rfl, ?_⟩
      exact .of_modify (f := fun row =>
        { row with status := .cancelled, cancelledAt := some now }) horder hpending rfl
  | reconcile market now =>
    cases hstep
    refine ⟨h.reconcile _, ?_⟩
    exact reconcileFrom_induction (P := StatusKept desk)
      (fun _ _ hkept => hkept.trans .turn) _ (.refl desk)
  | execute call =>
    cases hstep
    exact ⟨⟨h.rows, h.ids⟩, .of_orders rfl⟩
  | reset now =>
    cases hstep
    exact ⟨⟨h.rows, h.ids⟩, .of_orders rfl⟩

end Calls

variable (resolveEquity : String → Option (EquityType × String)) (accountId : ℤ)

/-- What the books of an account with resting orders promise. -/
structure DeskSound (desk : LimitDesk) : Prop where
  cash : ∃ account, desk.tables.accounts.get? accountId = some account ∧
    account.cashKrw.value + desk.reserved = desk.booked accountId
  leavesOnce : ∀ later, Reachable (· = desk) (LimitDesk.step resolveEquity accountId) later →
    StatusKept desk later
  filled : ∀ orderId order, desk.orders.get? orderId = some order → order.status = .filled →
    ∃ trade ∈ desk.tables.trades, FillTrade accountId order trade ∧
      (∀ other ∈ desk.tables.trades, other.id = trade.id → other = trade) ∧
      ∀ tradeId, (orderId, tradeId) ∈ desk.fills ↔ tradeId = trade.id
  ownTrade : ∀ orderId orderId' tradeId, (orderId, tradeId) ∈ desk.fills →
    (orderId', tradeId) ∈ desk.fills → orderId = orderId'
  unfilled : ∀ orderId order, desk.orders.get? orderId = some order → order.status ≠ .filled →
    (∀ tradeId, (orderId, tradeId) ∉ desk.fills) ∧ order.paperTradeId = none
  funded : ∀ market ids turnAt orderId order now failure,
    let turn := reconcileFrom resolveEquity accountId market turnAt ids desk
    turn.orders.get? orderId = some order → order.status = .pending → order.side = .buy →
      fillOrder resolveEquity accountId turn.tables order now = .error failure → NotShort failure

variable {resolveEquity accountId} {desk : LimitDesk}

theorem RowsKept.leavesOnce (h : RowsKept desk) {later : LimitDesk}
    (hlater : Reachable (· = desk) (LimitDesk.step resolveEquity accountId) later) :
    StatusKept desk later := by
  have hboth : RowsKept later ∧ StatusKept desk later := by
    refine invariant (P := fun w => RowsKept w ∧ StatusKept desk w) ?_ ?_ hlater
    · rintro _ rfl
      exact ⟨h, .refl _⟩
    · intro before action after hkept _ hstep
      obtain ⟨hrows, hstatus⟩ := hkept.1.step hstep
      exact ⟨hrows, hkept.2.trans hstatus⟩
  exact hboth.2

theorem DeskKept.sound (h : DeskKept accountId desk) : DeskSound resolveEquity accountId desk := by
  obtain ⟨account, haccount, hledger, _⟩ := h.cash.ledger
  have htradeIds := h.fills.idsNodup
  refine ⟨⟨account, haccount, hledger⟩, fun _ => h.rows.leavesOnce, ?_, ?_, ?_, ?_⟩
  · intro orderId order horder hfilled
    obtain ⟨tradeId, hmem⟩ := h.fills.recorded orderId order horder hfilled
    obtain ⟨row, trade, hrow, _, htrade, rfl, hfill⟩ := h.fills.filled orderId tradeId hmem
    cases horder.symm.trans hrow
    refine ⟨trade, htrade, hfill, ?_, fun tradeId => ⟨fun hother => ?_, ?_⟩⟩
    · intro other hother hsame
      exact List.inj_on_of_nodup_map htradeIds hother htrade hsame
    · exact (Prod.mk.inj (List.inj_on_of_nodup_map h.fills.orderOnce hother hmem rfl)).2
    · rintro rfl
      exact hmem
  · intro orderId orderId' tradeId hfirst hsecond
    exact (Prod.mk.inj (List.inj_on_of_nodup_map h.fills.tradeOnce hfirst hsecond rfl)).1
  · intro orderId order horder hopen
    exact h.fills.not_filled horder hopen
  · intro market ids turnAt orderId order now failure turn horder hpending hbuy herror
    have hturn : DeskKept accountId turn := h.turns market ids
    refine fillOrder_notShort (hturn.rows.rows orderId order horder) hpending ?_ herror
    intro _ held hheld
    obtain ⟨account, haccount, _, hfunded⟩ := hturn.cash.ledger
    cases haccount.symm.trans hheld
    exact hfunded ⟨orderId, order, horder, hpending, hbuy⟩

instance decidableDeskSafe (desk : LimitDesk) : (action : DeskAction) →
    Decidable (deskSafe desk action)
  | .reset _ => inferInstanceAs (Decidable (desk.holdsBuy = false))
  | .execute call =>
    inferInstanceAs (Decidable (desk.holdsBuy = false ∨ sellsBelowZero call = false))
  | .place _ | .cancel _ _ | .reconcile _ _ => inferInstanceAs (Decidable True)

def coinsOnly : String → Option (EquityType × String) := fun _ => none

def millionDesk : LimitDesk where
  tables :=
    { accounts := Dict.empty.set 1
        { cashKrw := .ofUnits 10000000000 (by norm_num), cashUsd := .ofUnits 0 no_units }
      positions := .empty
      trades := []
      managed := []
      orders := .empty }
  initialCapital := .ofUnits 10000000000 (by norm_num)
  initialCapitalUsd := .ofUnits 0 no_units

theorem millionDesk_start : DeskStart 1 millionDesk where
  cash := ⟨_, rfl, rfl⟩
  orders := rfl
  fills := rfl
  resetAt := rfl
  ids := List.forall_mem_nil _
  idsNodup := List.nodup_nil

def limitOrder (side : String) (price : Decimal) : LimitCall where
  symbol := "KRW-BTC"
  side := side
  limitPrice := price
  quantity := some 1

/-- A buy fills below its limit, a second one is cancelled, the coin is sold in the
market, and the account is reset. -/
def limitDay : List DeskAction :=
  [.place (limitOrder "buy" 10000), .place (limitOrder "buy" 9000),
    .reconcile (fun _ => some [⟨none, 9500, 10500⟩]) 60, .cancel 2 120,
    .execute { accountId := 1, symbol := "KRW-BTC", side := "sell", orderType := "limit"
               price := some 11000, quantity := some 1 },
    .reset 180]

end KAssetTrader.Paper
