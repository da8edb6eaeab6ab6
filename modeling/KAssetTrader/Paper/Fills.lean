import KAssetTrader.Library.Transition
import KAssetTrader.Paper.Books
import KAssetTrader.Paper.Orders

/-!
Orders and the trades that fill them, over any run of calls that may stop after
any of their commits. An order stays matched with the trades of its correlation
ids as long as no amendment stops between the commit of its trade and the commit
of its order row: a later call then finds the trade only if the order is
pending, so that the amended order can still be cancelled.
-/

namespace KAssetTrader.Paper

open AndroidPaperOrder Session Checked Decimal

def PaperTrade.OfOrder (trade : PaperTrade) (orderId : String) : Prop :=
  match trade.correlationId with
  | some (.order id) => id = orderId
  | some (.fill id _) => id = orderId
  | _ => False

instance (trade : PaperTrade) (orderId : String) : Decidable (trade.OfOrder orderId) := by
  unfold PaperTrade.OfOrder
  split <;> infer_instance

def Tables.tradesOf (db : Tables) (orderId : String) : List PaperTrade :=
  db.trades.filter fun trade => trade.OfOrder orderId

structure PaperTrade.Fills (trade : PaperTrade) (order : AndroidPaperOrder) : Prop where
  correlationId : trade.correlationId = some (.order order.id)
  accountId : trade.accountId = order.paperAccountId
  quantity : trade.quantity.value = order.quantity

def AndroidPaperOrder.Matches (order : AndroidPaperOrder) (trades : List PaperTrade) : Prop :=
  match order.status with
  | .pending =>
    order.filledQuantity = 0 ∧ order.paperTradeId = none ∧
      (trades = [] ∨ ∃ trade : PaperTrade, trade.Fills order ∧ trades = [trade])
  | .open => order.filledQuantity = 0 ∧ order.paperTradeId = none ∧ trades = []
  | .partiallyFilled => False
  | .filled =>
    ∃ trade : PaperTrade, trades = [trade] ∧
      trade.correlationId = some (.order order.id) ∧
      order.filledQuantity = trade.quantity.value ∧
      order.averageFillPrice = some trade.price.value
  | .cancelled | .rejected => trades = []

variable {order row : AndroidPaperOrder}

structure AndroidPaperOrder.StoredAs (order row : AndroidPaperOrder) : Prop where
  id : row.id = order.id
  ownerUserId : row.ownerUserId = order.ownerUserId
  paperAccountId : row.paperAccountId = order.paperAccountId
  symbol : row.symbol = order.symbol
  status : row.status = order.status
  paperTradeId : row.paperTradeId = order.paperTradeId
  quantity : ∃ column : Numeric 20 8, storeColumn 20 8 order.quantity = .ok column ∧
    row.quantity = column.value
  filledQuantity : row.filledQuantity = order.filledQuantity.quantizeHalfUp 8
  averageFillPrice : row.averageFillPrice = order.averageFillPrice.map (quantizeHalfUp 8)

theorem AndroidPaperOrder.row_ok (h : order.row = .ok row) : order.StoredAs row := by
  obtain ⟨quantity, hquantity, h⟩ := bind_ok_iff.mp h
  obtain ⟨limit, -, h⟩ := bind_ok_iff.mp h
  obtain ⟨filled, hfilled, h⟩ := bind_ok_iff.mp h
  obtain ⟨average, haverage, h⟩ := bind_ok_iff.mp h
  cases h
  refine ⟨rfl, rfl, rfl, rfl, rfl, rfl, ⟨quantity, hquantity, rfl⟩,
    storeColumn_value hfilled, ?_⟩
  cases hprice : order.averageFillPrice with
  | none =>
    rw [hprice] at haverage
    cases haverage
    rfl
  | some price =>
    rw [hprice] at haverage
    obtain ⟨column, hcolumn, haverage⟩ := bind_ok_iff.mp haverage
    cases haverage
    simp [storeColumn_value hcolumn]

theorem AndroidPaperOrder.row_filled (h : order.row = .ok row) (status : OrderStatus)
    (quantity price : Numeric 20 8) (tradeId : Option ℤ) (reason : Option String) :
    ({ order with
        status := status, filledQuantity := quantity.value,
        averageFillPrice := some price.value, paperTradeId := tradeId,
        rejectReason := reason } : AndroidPaperOrder).row =
      .ok { row with
        status := status, filledQuantity := quantity.value,
        averageFillPrice := some price.value, paperTradeId := tradeId,
        rejectReason := reason } := by
  obtain ⟨stored, hstored, h⟩ := bind_ok_iff.mp h
  obtain ⟨limit, hlimit, h⟩ := bind_ok_iff.mp h
  obtain ⟨filled, -, h⟩ := bind_ok_iff.mp h
  obtain ⟨average, -, h⟩ := bind_ok_iff.mp h
  cases h
  simp only [row, hstored, hlimit, storeColumn_column, Option.mapM_some,
    ok_bind]
  rfl

theorem AndroidPaperOrder.row_status (h : order.row = .ok row) (status : OrderStatus)
    (reason : Option String) :
    ({ order with status := status, rejectReason := reason } : AndroidPaperOrder).row =
      .ok { row with status := status, rejectReason := reason } := by
  obtain ⟨stored, hstored, h⟩ := bind_ok_iff.mp h
  obtain ⟨limit, hlimit, h⟩ := bind_ok_iff.mp h
  obtain ⟨filled, hfilled, h⟩ := bind_ok_iff.mp h
  obtain ⟨average, haverage, h⟩ := bind_ok_iff.mp h
  cases h
  simp only [row, hstored, hlimit, hfilled, haverage, ok_bind]
  rfl

variable {Q : AndroidPaperOrder → SessionState Tables → Prop}
  {E : Failure → SessionState Tables → Prop} {s : SessionState Tables}

def Tables.withOrder (db : Tables) (orderId : String) (row : AndroidPaperOrder) : Tables :=
  { db with orders := db.orders.set orderId row }

theorem wp_storeOrder (herror : ∀ failure, order.row = .error failure → E failure s)
    (hok : ∀ row, order.row = .ok row →
      Q row ⟨s.view.withOrder order.id row, s.view.withOrder order.id row,
        s.commits ++ [s.view.withOrder order.id row]⟩) :
    Session.wp (storeOrder order) Q E s := by
  rw [storeOrder, wp_bind, saveOrder, wp_bind, wp_lift]
  refine ⟨fun row hrow => ?_, herror⟩
  rw [wp_modify, wp_bind, wp_commit, refresh, wp_bind,
    wp_read]
  simp only [Dict.get?_set, if_true]
  exact hok row hrow

theorem wp_getOrder {ownerUserId : ℤ} {orderId : String} (herror : ∀ failure, E failure s)
    (hok : ∀ order, s.view.orders.get? orderId = some order → order.ownerUserId = ownerUserId →
      Q order s) :
    Session.wp (getOrder ownerUserId orderId) Q E s := by
  rw [getOrder, wp_bind, wp_read]
  split
  · exact herror _
  next order horder =>
  apply wp_ite
  · intro howner
    exact hok order horder howner
  · intro _
    exact herror _

variable {trade : PaperTrade} {db db' : Tables}

section Trades

variable {other : PaperTrade}

theorem PaperTrade.Fills.ofOrder (h : trade.Fills order) : trade.OfOrder order.id := by
  rw [PaperTrade.OfOrder, h.correlationId]

theorem mem_tradesOf {orderId : String} :
    trade ∈ db.tradesOf orderId ↔ trade ∈ db.trades ∧ trade.OfOrder orderId := by
  simp [Tables.tradesOf]

theorem tradeByCorrelation_none (h : db.tradesOf order.id = []) :
    db.tradeByCorrelation order.paperAccountId (.order order.id) = none := by
  apply List.find?_eq_none.mpr
  intro trade htrade hfound
  have hof : trade.OfOrder order.id := by
    have hcorrelation : trade.correlationId = some (.order order.id) := by
      simpa using (of_decide_eq_true hfound).2
    rw [PaperTrade.OfOrder, hcorrelation]
  simpa [h] using mem_tradesOf.mpr ⟨htrade, hof⟩

theorem tradeByCorrelation_fills (h : db.tradesOf order.id = [trade]) (hfills : trade.Fills order) :
    db.tradeByCorrelation order.paperAccountId (.order order.id) = some trade := by
  have hmem : trade ∈ db.tradesOf order.id := h ▸ List.mem_singleton_self trade
  cases hfound : db.tradeByCorrelation order.paperAccountId (.order order.id) with
  | none =>
    have hnone := List.find?_eq_none.mp hfound trade (mem_tradesOf.mp hmem).1
    simp [hfills.accountId, hfills.correlationId] at hnone
  | some found =>
    have hcorrelation : found.correlationId = some (.order order.id) := by
      unfold Tables.tradeByCorrelation at hfound
      have hfind := List.find?_some hfound
      simp only [decide_eq_true_eq] at hfind
      exact hfind.2
    have hof : found.OfOrder order.id := by rw [PaperTrade.OfOrder, hcorrelation]
    have hfoundMem := mem_tradesOf.mpr ⟨List.mem_of_find?_eq_some hfound, hof⟩
    rw [h, List.mem_singleton] at hfoundMem
    rw [hfoundMem]

theorem Executed.tradesOf (h : Executed db trade db') (orderId : String) :
    db'.tradesOf orderId =
      if trade.OfOrder orderId then db.tradesOf orderId ++ [trade] else db.tradesOf orderId := by
  unfold Tables.tradesOf
  rw [h.trades, List.filter_append]
  by_cases hof : trade.OfOrder orderId
  · simp [hof]
  · simp [hof]

end Trades

section Filling

variable {resolveMarketType : String → Option (InstrumentType × String)}

def AndroidPaperOrder.filledBy (row : AndroidPaperOrder) (trade : PaperTrade) :
    AndroidPaperOrder :=
  { row with
    status := .filled, filledQuantity := trade.quantity.value,
    averageFillPrice := some trade.price.value, paperTradeId := some trade.id,
    rejectReason := none }

def AndroidPaperOrder.refused (row : AndroidPaperOrder) : AndroidPaperOrder :=
  { row with
    status := .rejected
    rejectReason := some "PAPER 주문 조건을 충족하지 못했습니다." }

theorem wp_applyTradeMetadata (hfilled : order.filledQuantity = 0)
    (hid : order.paperTradeId = none) (hfills : trade.Fills order)
    (hrow : order.row = .ok row)
    (hok : Q (row.filledBy trade)
      ⟨s.view.withOrder order.id (row.filledBy trade),
        s.view.withOrder order.id (row.filledBy trade),
        s.commits ++ [s.view.withOrder order.id (row.filledBy trade)]⟩) :
    Session.wp (applyTradeMetadata order trade) Q E s := by
  have htotal : ctx.add order.filledQuantity trade.quantity.value = trade.quantity.value := by
    have hsize := column_size (by norm_num) trade.quantity
    rw [hfilled, Context.add, zero_add]
    exact ctx_round (by norm_num) trade.quantity.places (hsize.trans (by norm_num))
  have haverage (total : Decimal) : averagePrice order trade total = .ok trade.price.value := by
    unfold averagePrice
    split
    · rw [if_neg (by simp [hfilled])]
    · rfl
  have hstored := row_filled hrow .filled trade.quantity trade.price
    (some trade.id) none
  have hnot : ¬ order.quantity < trade.quantity.value := by simp [hfills.quantity]
  rw [applyTradeMetadata, if_neg (by simp [hid])]
  simp only [htotal, haverage, if_neg hnot, if_pos hfills.quantity]
  rw [wp_bind, wp_lift]
  refine ⟨fun average haverage => ?_, by rintro _ ⟨⟩⟩
  cases haverage
  apply wp_storeOrder
  · intro failure hfailure
    rw [hstored] at hfailure
    cases hfailure
  · intro filled hfilled
    rw [hstored] at hfilled
    cases hfilled
    exact hok

variable (resolveMarketType) in
/-- An order whose whole quantity its instrument can settle. -/
def AndroidPaperOrder.Whole (order : AndroidPaperOrder) : Prop :=
  ∀ instrumentType symbol, resolveMarketType order.symbol = some (instrumentType, symbol) →
    settledQuantity instrumentType order.quantity = .ok order.quantity

variable (resolveMarketType) in
/-- An order of which nothing is filled, as a session holds it, with the row it
is stored as. -/
structure Unfilled (db : Tables) (order row : AndroidPaperOrder) : Prop where
  filled : order.filledQuantity = 0
  paperTradeId : order.paperTradeId = none
  row : order.row = .ok row
  whole : order.Whole resolveMarketType
  trades : db.tradesOf order.id = [] ∨
    ∃ trade : PaperTrade, trade.Fills order ∧ db.tradesOf order.id = [trade]

inductive FillOutcome (db : Tables) (order row : AndroidPaperOrder) : List Tables → Prop
  | unchanged : FillOutcome db order row []
  | refused : db.tradesOf order.id = [] →
      FillOutcome db order row [db.withOrder order.id row.refused]
  | applied {trade : PaperTrade} : db.tradesOf order.id = [trade] → trade.Fills order →
      FillOutcome db order row [db.withOrder order.id (row.filledBy trade)]
  | filled {trade : PaperTrade} {db' : Tables} : db.tradesOf order.id = [] →
      Executed db trade db' → trade.Fills order →
      FillOutcome db order row [db', db'.withOrder order.id (row.filledBy trade)]

theorem Unfilled.correlationId (h : Unfilled resolveMarketType db order row) :
    order.correlationId = .order order.id := if_pos h.filled

theorem Unfilled.fills (h : Unfilled resolveMarketType db order row) {marketPrice : Decimal}
    {p : Preview}
    (hp : previewOrder resolveMarketType db (fillCall order marketPrice order.quantity) = .ok p)
    (htrade : TradeOf db (fillCall order marketPrice order.quantity) p trade) :
    trade.Fills order := by
  obtain ⟨-, -, hresolved, -, -, -, asked, hasked, hsettled⟩ := previewOrder_ok hp
  obtain rfl : order.quantity = asked := Except.ok.inj hasked
  have hwhole := h.whole _ _ hresolved
  refine ⟨?_, htrade.accountId, ?_⟩
  · rw [htrade.correlationId]
    exact congrArg some h.correlationId
  · rw [htrade.quantity]
    exact Except.ok.inj (hsettled.symm.trans hwhole)

theorem wp_fill (h : Unfilled resolveMarketType s.view order row) (hstored : s.stored = s.view)
    {ownerUserId : ℤ} {marketPrice : Decimal} {fillQuantity : Option Decimal}
    (hquantity : fillQuantity.getD (ctx.sub order.quantity order.filledQuantity) = order.quantity)
    (hQ : ∀ filled t commits, FillOutcome s.view order row commits →
      t.commits = s.commits ++ commits → Q filled t)
    (hE : ∀ failure t commits, FillOutcome s.view order row commits →
      t.commits = s.commits ++ commits → E failure t) :
    Session.wp (fill resolveMarketType ownerUserId order marketPrice fillQuantity) Q E s := by
  have hraise (failure : Failure) (t : SessionState Tables) (ht : t.commits = s.commits) :
      E failure t := hE failure t [] .unchanged (by simpa using ht)
  unfold fill
  apply wp_ite
  · intro _
    exact hraise _ s rfl
  intro _
  rw [wp_bind, wp_read, h.correlationId]
  rcases h.trades with hnone | ⟨trade, hfills, htrades⟩
  · rw [tradeByCorrelation_none hnone]
    simp only [hquantity]
    rw [wp_bind, wp_tryCatch, wp_bind]
    apply wp_executeOrder
    · constructor
      · intro reason
        rw [wp_bind, handleUnfilled, wp_bind]
        have hrefused := row_status h.row .rejected
          (some "PAPER 주문 조건을 충족하지 못했습니다.")
        apply wp_storeOrder
        · intro failure _
          exact hraise failure s rfl
        · intro refused hrow
          rw [hrefused] at hrow
          cases hrow
          exact hE _ _ _ (.refused hnone) rfl
      · intro failure view hother
        rw [wp_bind]
        cases failure with
        | value reason => exact absurd rfl (hother reason)
        | integrity =>
          rw [handleUnfilled, wp_bind, wp_rollback, wp_bind,
            wp_read]
          simp only [hstored, h.correlationId, tradeByCorrelation_none hnone]
          exact hraise _ _ rfl
        | _ => exact hraise _ _ rfl
    · intro p pnl trade db' hp htrade hexecuted
      have hfills := h.fills hp htrade
      have htrades : db'.tradesOf order.id = [trade] := by
        rw [hexecuted.tradesOf, if_pos hfills.ofOrder, hnone, List.nil_append]
      rw [wp_pure]
      simp only
      rw [applyFill, wp_bind, wp_read, h.correlationId]
      simp only [tradeByCorrelation_fills htrades hfills]
      apply wp_applyTradeMetadata h.filled h.paperTradeId hfills h.row
      exact hQ _ _ _ (.filled hnone hexecuted hfills) (by simp)
  · rw [tradeByCorrelation_fills htrades hfills]
    apply wp_applyTradeMetadata h.filled h.paperTradeId hfills h.row
    exact hQ _ _ _ (.applied htrades hfills) rfl

end Filling

variable (resolveMarketType : String → Option (InstrumentType × String))

/-- Tables in which every order matches the trades of its correlation ids, and
no trade has those of an unknown order. -/
structure Sound (db : Tables) : Prop where
  keyed : ∀ id order, db.orders.get? id = some order → order.id = id
  matched : ∀ id order, db.orders.get? id = some order → order.Matches (db.tradesOf id)
  whole : ∀ id order, db.orders.get? id = some order → order.Whole resolveMarketType
  positive : ∀ id order, db.orders.get? id = some order → 0 < order.quantity
  stored : ∀ id order, db.orders.get? id = some order → order.row = .ok order
  unknown : ∀ id, db.orders.get? id = none → db.tradesOf id = []

variable {resolveMarketType} {commits : List Tables}

theorem Tables.withOrder_get? (db : Tables) (orderId id : String) (row : AndroidPaperOrder) :
    (db.withOrder orderId row).orders.get? id =
      if id = orderId then some row else db.orders.get? id := db.orders.get?_set

theorem Sound.update (h : Sound resolveMarketType db) (orderId : String)
    (row : AndroidPaperOrder)
    (hother : ∀ id, id ≠ orderId →
      db'.orders.get? id = db.orders.get? id ∧ db'.tradesOf id = db.tradesOf id)
    (hrow : db'.orders.get? orderId = some row) (hid : row.id = orderId)
    (hmatched : row.Matches (db'.tradesOf orderId)) (hwhole : row.Whole resolveMarketType)
    (hpositive : 0 < row.quantity) (hstored : row.row = .ok row) :
    Sound resolveMarketType db' := by
  have hcases {P : String → AndroidPaperOrder → Prop} (hnew : P orderId row)
      (hold : ∀ id order, id ≠ orderId → db.orders.get? id = some order → P id order) :
      ∀ id order, db'.orders.get? id = some order → P id order := by
    intro id order horder
    by_cases hsame : id = orderId
    · subst hsame
      cases hrow.symm.trans horder
      exact hnew
    · rw [(hother id hsame).1] at horder
      exact hold id order hsame horder
  refine ⟨hcases hid fun id order _ => h.keyed id order, ?_,
    hcases hwhole fun id order _ => h.whole id order,
    hcases hpositive fun id order _ => h.positive id order,
    hcases hstored fun id order _ => h.stored id order, ?_⟩
  · refine hcases (P := fun id order => order.Matches (db'.tradesOf id)) hmatched ?_
    intro id order hne horder
    rw [(hother id hne).2]
    exact h.matched id order horder
  · intro id hnone
    have hne : id ≠ orderId := by
      rintro rfl
      rw [hrow] at hnone
      cases hnone
    rw [(hother id hne).1] at hnone
    rw [(hother id hne).2]
    exact h.unknown id hnone

theorem AndroidPaperOrder.row_row (h : order.row = .ok row) : row.row = .ok row := by
  obtain ⟨stored, -, h⟩ := bind_ok_iff.mp h
  obtain ⟨limit, -, h⟩ := bind_ok_iff.mp h
  obtain ⟨filled, -, h⟩ := bind_ok_iff.mp h
  obtain ⟨average, -, h⟩ := bind_ok_iff.mp h
  cases h
  cases limit <;> cases average <;> simp [row, storeColumn_column]

theorem Sound.withOrder (h : Sound resolveMarketType db) (orderId : String)
    (row : AndroidPaperOrder) (hid : row.id = orderId)
    (hmatched : row.Matches (db.tradesOf orderId))
    (hwhole : row.Whole resolveMarketType) (hpositive : 0 < row.quantity)
    (hstored : row.row = .ok row) : Sound resolveMarketType (db.withOrder orderId row) := by
  refine h.update orderId row (fun id hne => ?_) (by simp [Tables.withOrder_get?]) hid hmatched
    hwhole hpositive hstored
  exact ⟨by simp [Tables.withOrder_get?, hne], rfl⟩

theorem Sound.otherTrade (h : Sound resolveMarketType db) (hexecuted : Executed db trade db')
    (hother : ∀ id, ¬ trade.OfOrder id) : Sound resolveMarketType db' := by
  have htrades (id : String) : db'.tradesOf id = db.tradesOf id := by
    rw [hexecuted.tradesOf, if_neg (hother id)]
  constructor
  · rw [hexecuted.orders]
    exact h.keyed
  · intro id order horder
    rw [hexecuted.orders] at horder
    rw [htrades]
    exact h.matched id order horder
  · rw [hexecuted.orders]
    exact h.whole
  · rw [hexecuted.orders]
    exact h.positive
  · rw [hexecuted.orders]
    exact h.stored
  · intro id hnone
    rw [hexecuted.orders] at hnone
    rw [htrades]
    exact h.unknown id hnone

theorem PaperTrade.Fills.ofOrder_iff (h : trade.Fills order) (id : String) :
    trade.OfOrder id ↔ id = order.id := by
  rw [PaperTrade.OfOrder, h.correlationId, eq_comm]

theorem Sound.filledBy (h : Sound resolveMarketType db)
    (hunfilled : Unfilled resolveMarketType db order row)
    (hrow : db.orders.get? order.id = some row)
    (hother : ∀ id, id ≠ order.id → db'.orders.get? id = db.orders.get? id ∧
      db'.tradesOf id = db.tradesOf id)
    (htrades : db'.tradesOf order.id = [trade]) (hfills : trade.Fills order) :
    Sound resolveMarketType (db'.withOrder order.id (row.filledBy trade)) := by
  have hstored := row_filled (row_row hunfilled.row) .filled
    trade.quantity trade.price (some trade.id) none
  have hid : row.id = order.id := h.keyed _ _ hrow
  have hwhole : row.Whole resolveMarketType := h.whole _ _ hrow
  have hpositive : 0 < row.quantity := h.positive _ _ hrow
  refine h.update order.id (row.filledBy trade) (fun id hne => ?_)
    (by simp [Tables.withOrder_get?]) hid ?_ hwhole hpositive hstored
  · exact ⟨by simp [Tables.withOrder_get?, hne, (hother id hne).1], (hother id hne).2⟩
  · refine ⟨trade, htrades, ?_, rfl, rfl⟩
    rw [hfills.correlationId, ← hid]
    rfl

theorem FillOutcome.sound (h : FillOutcome db order row commits)
    (hsound : Sound resolveMarketType db) (hunfilled : Unfilled resolveMarketType db order row)
    (hrow : db.orders.get? order.id = some row) :
    (∀ c ∈ commits, Sound resolveMarketType c) ∨
      row.status ≠ .pending ∧ ∃ c m, commits = [c, m] ∧ Sound resolveMarketType m := by
  cases h with
  | unchanged => exact .inl (by simp)
  | refused hnone =>
    refine .inl (List.forall_mem_singleton.mpr ?_)
    have hid : row.id = order.id := hsound.keyed _ _ hrow
    have hwhole : row.Whole resolveMarketType := hsound.whole _ _ hrow
    have hpositive : 0 < row.quantity := hsound.positive _ _ hrow
    exact hsound.withOrder order.id row.refused hid hnone hwhole hpositive
      (row_status (row_row hunfilled.row) _ _)
  | applied htrades hfills =>
    refine .inl (List.forall_mem_singleton.mpr ?_)
    exact hsound.filledBy hunfilled hrow (fun _ _ => ⟨rfl, rfl⟩) htrades hfills
  | @filled trade db' hnone hexecuted hfills =>
    have hother (id : String) (hne : id ≠ order.id) :
        db'.orders.get? id = db.orders.get? id ∧ db'.tradesOf id = db.tradesOf id := by
      rw [hexecuted.orders, hexecuted.tradesOf,
        if_neg (fun hof => hne ((hfills.ofOrder_iff id).mp hof))]
      exact ⟨rfl, rfl⟩
    have htrades : db'.tradesOf order.id = [trade] := by
      rw [hexecuted.tradesOf, if_pos hfills.ofOrder, hnone, List.nil_append]
    have hfilled := hsound.filledBy hunfilled hrow hother htrades hfills
    by_cases hpending : row.status = .pending
    · left
      intro c hc
      rcases List.mem_pair.mp hc with rfl | rfl
      · have hmatched := hsound.matched _ _ hrow
        simp only [AndroidPaperOrder.Matches, hpending] at hmatched
        obtain ⟨hzero, hid, -⟩ := hmatched
        have hstored := row_ok hunfilled.row
        obtain ⟨column, hcolumn, hquantity⟩ := hstored.quantity
        have hexact : row.quantity = order.quantity := by
          rw [← hfills.quantity, storeColumn_column] at hcolumn
          cases hcolumn
          rw [hquantity, hfills.quantity]
        refine hsound.update order.id row hother (hexecuted.orders ▸ hrow)
          (hsound.keyed _ _ hrow) ?_ (hsound.whole _ _ hrow) (hsound.positive _ _ hrow)
            (hsound.stored _ _ hrow)
        simp only [AndroidPaperOrder.Matches, hpending]
        refine ⟨hzero, hid, .inr ⟨trade, ⟨?_, ?_, ?_⟩, htrades⟩⟩
        · rw [hfills.correlationId, hstored.id]
        · rw [hfills.accountId, hstored.paperAccountId]
        · rw [hfills.quantity, hexact]
      · exact hfilled
    · exact .inr ⟨hpending, _, _, rfl, hfilled⟩

end KAssetTrader.Paper
