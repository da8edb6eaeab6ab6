import KAssetTrader.Paper.Books

/-!
How an executed trade is booked into the position of its symbol: a buy opens or averages it,
a sell reduces or closes it and realizes a profit against its average price. The columns of
the trade row say all of it, since their sums are computed exactly.
-/

namespace KAssetTrader.Paper

open Session Checked Decimal

section Booking

def realized (position : PaperPosition) (gross quantity fee : Decimal) : Except Failure Decimal :=
  quantizeMoney (ctx.sub (ctx.sub gross (ctx.mul position.avgPrice.value quantity)) fee)

/-- The position of a symbol before and after the settlement of a preview, and the profit. -/
inductive Costed (db : Tables) (p : Preview) :
    Option PaperPosition → Option Decimal → Option PaperPosition → Prop
  | bought {existing : Option PaperPosition} {position : PaperPosition} : p.side = .buy →
      boughtPosition db p existing = .ok position → Costed db p existing none (some position)
  | soldAll {position : PaperPosition} {pnl : Decimal} : p.side = .sell →
      realized position p.gross p.quantity p.fee = .ok pnl →
      position.quantity.value = p.quantity → Costed db p (some position) (some pnl) none
  | soldPart {position reduced : PaperPosition} {pnl : Decimal} : p.side = .sell →
      realized position p.gross p.quantity p.fee = .ok pnl →
      p.quantity < position.quantity.value →
      reducedPosition position p (ctx.mul position.avgPrice.value p.quantity) = .ok reduced →
      Costed db p (some position) (some pnl) (some reduced)

variable {accountId : ℤ} {account : PaperAccount} {p : Preview} {now : Instant}
  {s : SessionState Tables}

theorem wp_setCash_positions {currency : Currency} {amount : Decimal}
    {Q : PUnit → SessionState Tables → Prop}
    (hok : ∀ db : Tables, db.positions = s.view.positions →
      db.nextPositionId = s.view.nextPositionId → Q ⟨⟩ { s with view := db }) :
    Session.wp (setCash accountId currency amount) Q (fun _ _ => True) s := by
  rw [setCash, wp_bind, wp_lift]
  exact ⟨fun cash _ => hok _ rfl rfl, fun _ _ => trivial⟩

theorem boughtPosition_congr {db db' : Tables} (h : db'.nextPositionId = db.nextPositionId)
    (existing : Option PaperPosition) :
      boughtPosition db' p existing = boughtPosition db p existing := by
  cases existing with
  | none => simp only [boughtPosition, h]
  | some position => rfl

theorem wp_settleBuy_costed (hside : p.side = .buy) :
    Session.wp (settleBuy accountId account p)
      (fun pnl t => Costed s.view p (s.view.positions.get? (accountId, p.symbol)) pnl
        (t.view.positions.get? (accountId, p.symbol))) (fun _ _ => True) s := by
  unfold settleBuy
  apply wp_ite
  · intro _
    trivial
  intro _
  rw [wp_bind, wp_lift]
  refine ⟨fun paid _ => ?_, fun _ _ => trivial⟩
  rw [wp_bind]
  apply wp_setCash_positions
  intro db hpositions hnext
  rw [wp_bind, wp_read, wp_bind, wp_lift]
  refine ⟨fun position hposition => ?_, fun _ _ => trivial⟩
  rw [boughtPosition_congr hnext, hpositions] at hposition
  rw [wp_bind, wp_modify, wp_pure, Dict.get?_set, if_pos rfl]
  exact .bought hside hposition

theorem wp_settleSell_costed (hside : p.side = .sell) :
    Session.wp (settleSell accountId account p now)
      (fun pnl t => Costed s.view p (s.view.positions.get? (accountId, p.symbol)) pnl
        (t.view.positions.get? (accountId, p.symbol))) (fun _ _ => True) s := by
  unfold settleSell
  rw [wp_bind, wp_read]
  split
  · trivial
  next position hposition =>
  apply wp_ite
  · intro _
    trivial
  intro henough
  rw [wp_bind, wp_lift]
  refine ⟨fun credited _ => ?_, fun _ _ => trivial⟩
  rw [wp_bind]
  apply wp_setCash_positions
  intro db hpositions _
  rw [wp_bind, wp_lift]
  refine ⟨fun pnl hpnl => ?_, fun _ _ => trivial⟩
  rw [hposition, wp_bind]
  unfold releasePosition
  apply wp_ite
  · intro hall
    rw [wp_modify, wp_pure, Dict.get?_erase, if_pos rfl]
    exact .soldAll hside hpnl hall
  · intro hpart
    rw [wp_bind, wp_lift]
    refine ⟨fun reduced hreduced => ?_, fun _ _ => trivial⟩
    rw [wp_modify, wp_pure, Dict.get?_set, if_pos rfl]
    exact .soldPart hside hpnl (lt_of_le_of_ne (not_lt.mp henough) (Ne.symm hpart)) hreduced

theorem wp_settle_costed :
    Session.wp (settle accountId account p now)
      (fun pnl t => Costed s.view p (s.view.positions.get? (accountId, p.symbol)) pnl
        (t.view.positions.get? (accountId, p.symbol))) (fun _ _ => True) s := by
  unfold settle
  split
  next hside => exact wp_settleBuy_costed hside
  next hside => exact wp_settleSell_costed hside

end Booking

section Trades

/-- What an executed trade says of the position of its symbol before and after it. -/
inductive Booked (trade : PaperTrade) : Option PaperPosition → Option PaperPosition → Prop
  | opened {position : PaperPosition} {price : Decimal} :
      trade.side = .buy →
      quantizeMoney (ctx.mul trade.quantity.value price) = .ok trade.totalAmount.value →
      trade.price.value = price.quantizeHalfUp 8 →
      position.quantity = trade.quantity →
      position.avgPrice = trade.price →
      position.totalInvested = trade.totalAmount →
      Booked trade none (some position)
  | averaged {old position : PaperPosition} :
      trade.side = .buy →
      position.quantity.value = old.quantity.value + trade.quantity.value →
      position.totalInvested.value = old.totalInvested.value + trade.totalAmount.value →
      quantizeMoney (ctx.div position.totalInvested.value position.quantity.value) =
        .ok position.avgPrice.value →
      Booked trade (some old) (some position)
  | closed {old : PaperPosition} {pnl : Numeric 20 4} :
      trade.side = .sell → trade.realizedPnl = some pnl →
      realized old trade.totalAmount.value trade.quantity.value trade.fee.value = .ok pnl.value →
      old.quantity.value = trade.quantity.value →
      Booked trade (some old) none
  | reduced {old position : PaperPosition} {pnl : Numeric 20 4} :
      trade.side = .sell → trade.realizedPnl = some pnl →
      realized old trade.totalAmount.value trade.quantity.value trade.fee.value = .ok pnl.value →
      position.quantity.value = old.quantity.value - trade.quantity.value →
      0 < position.quantity.value →
      position.avgPrice = old.avgPrice →
      quantizeMoney (ctx.sub old.totalInvested.value
        (ctx.mul old.avgPrice.value trade.quantity.value)) = .ok position.totalInvested.value →
      Booked trade (some old) (some position)

variable {db settled : Tables} {o : OrderCall} {p : Preview} {pnl : Option Decimal}
  {trade : PaperTrade} {before after : Option PaperPosition}

theorem tradeRow_realizedPnl (h : tradeRow settled o p pnl = .ok trade) :
    pnl.mapM (storeColumn 20 4) = .ok trade.realizedPnl := by
  unfold tradeRow at h
  split at h
  · cases h
  split at h
  · cases h
  obtain ⟨quantity, -, h⟩ := bind_ok_iff.mp h
  obtain ⟨price, -, h⟩ := bind_ok_iff.mp h
  obtain ⟨total, -, h⟩ := bind_ok_iff.mp h
  obtain ⟨fee, -, h⟩ := bind_ok_iff.mp h
  obtain ⟨realizedPnl, hrealized, h⟩ := bind_ok_iff.mp h
  cases h
  exact hrealized

theorem stored_profit {position : PaperPosition} {gross quantity fee pnl : Decimal}
    (hpnl : realized position gross quantity fee = .ok pnl)
    (hrow : (some pnl).mapM (storeColumn 20 4) = .ok trade.realizedPnl) :
    ∃ column, trade.realizedPnl = some column ∧ column.value = pnl := by
  obtain ⟨column, hcolumn, hstored⟩ := bind_ok_iff.mp hrow
  exact ⟨column, (Except.ok.inj hstored).symm,
    storeColumn_exact (quantizeMoney_places hpnl) hcolumn⟩

theorem column_add_exact {scale : ℕ} (hlow : 4 ≤ scale) (hhigh : scale ≤ 9)
    (a b : Numeric 20 scale) : ctx.add a.value b.value = a.value + b.value := by
  have ha := column_size hlow a
  have hb := column_size hlow b
  exact ctx_round hhigh (a.places.add b.places) ((abs_add_le _ _).trans_lt (by linarith))

theorem divide_ok {a b ratio : Decimal} (h : divide a b = .ok ratio) : ctx.div a b = ratio := by
  unfold divide at h
  split at h
  · cases h
  · exact Except.ok.inj h

theorem boughtPosition_averaged {old position : PaperPosition}
    (hquantity : trade.quantity.value = p.quantity) (hgross : trade.totalAmount.value = p.gross)
    (h : boughtPosition db p (some old) = .ok position) :
    position.quantity.value = old.quantity.value + trade.quantity.value ∧
      position.totalInvested.value = old.totalInvested.value + trade.totalAmount.value ∧
      quantizeMoney (ctx.div position.totalInvested.value position.quantity.value) =
        .ok position.avgPrice.value := by
  obtain ⟨ratio, hratio, h⟩ := bind_ok_iff.mp h
  obtain ⟨rounded, hrounded, h⟩ := bind_ok_iff.mp h
  obtain ⟨average, haverage, h⟩ := bind_ok_iff.mp h
  obtain ⟨quantity, hstored, h⟩ := bind_ok_iff.mp h
  obtain ⟨total, htotal, h⟩ := bind_ok_iff.mp h
  cases h
  rw [← hgross, column_add_exact le_rfl (by norm_num)] at htotal hratio
  rw [← hquantity, column_add_exact (by norm_num) (by norm_num)] at hstored hratio
  have hshares := storeColumn_exact (old.quantity.places.add trade.quantity.places) hstored
  have hinvested := storeColumn_exact (old.totalInvested.places.add trade.totalAmount.places) htotal
  refine ⟨hshares, hinvested, ?_⟩
  have hplaces := quantizeMoney_places hrounded
  rw [storeColumn_exact (hplaces.mono (by norm_num)) haverage, hshares, hinvested,
    divide_ok hratio, hrounded]

theorem Costed.booked (hp : p.Priced) (h : Costed db p before pnl after)
    (htrade : TradeOf settled o p trade)
    (hrow : pnl.mapM (storeColumn 20 4) = .ok trade.realizedPnl) :
    Booked trade before after := by
  have hside := htrade.side
  cases h with
  | @bought _ position hbuy hposition =>
    rw [hbuy] at hside
    cases before with
    | none =>
      obtain ⟨quantity, hquantity, h⟩ := bind_ok_iff.mp hposition
      obtain ⟨average, haverage, h⟩ := bind_ok_iff.mp h
      obtain ⟨total, htotal, h⟩ := bind_ok_iff.mp h
      cases h
      have hgross := hp.gross
      rw [← htrade.quantity, ← htrade.totalAmount] at hgross
      refine .opened hside hgross htrade.price ?_ ?_ ?_
      · apply Numeric.ext
        rw [storeColumn_exact hp.quantity_places hquantity, htrade.quantity]
      · apply Numeric.ext
        rw [storeColumn_value haverage, htrade.price]
      · apply Numeric.ext
        rw [storeColumn_exact (quantizeMoney_places hp.gross) htotal, htrade.totalAmount]
    | some old =>
      obtain ⟨hquantity, hinvested, haverage⟩ :=
        boughtPosition_averaged htrade.quantity htrade.totalAmount hposition
      exact .averaged hside hquantity hinvested haverage
  | @soldAll position pnl hsell hpnl hall =>
    rw [hsell] at hside
    obtain ⟨column, hcolumn, hvalue⟩ := stored_profit hpnl hrow
    rw [← htrade.quantity, ← htrade.totalAmount, ← htrade.fee, ← hvalue] at hpnl
    exact .closed hside hcolumn hpnl (hall.trans htrade.quantity.symm)
  | @soldPart position reduced pnl hsell hpnl hless hreduced =>
    rw [hsell] at hside
    obtain ⟨column, hcolumn, hvalue⟩ := stored_profit hpnl hrow
    rw [← htrade.quantity, ← htrade.totalAmount, ← htrade.fee, ← hvalue] at hpnl
    have hleft := reducedPosition_ok htrade.quantity hreduced
    rw [← htrade.quantity] at hless hreduced
    obtain ⟨invested, hinvested, h⟩ := bind_ok_iff.mp hreduced
    obtain ⟨quantity, -, h⟩ := bind_ok_iff.mp h
    obtain ⟨total, htotal, h⟩ := bind_ok_iff.mp h
    cases h
    refine .reduced hside hcolumn hpnl hleft (by rw [hleft]; linarith) rfl ?_
    rw [hinvested, storeColumn_exact (quantizeMoney_places hinvested) htotal]

end Trades

variable {resolveMarketType : String → Option (InstrumentType × String)} {o : OrderCall}
  {s t : SessionState Tables} {execution : Execution} {db db' : Tables}

theorem wp_executeOrder_costed :
    Session.wp (executeOrder resolveMarketType o)
      (fun _ t => ∃ p settled pnl trade, previewOrder resolveMarketType s.view o = .ok p ∧
        Costed s.view p (s.view.positions.get? (o.accountId, p.symbol)) pnl
          (t.stored.positions.get? (o.accountId, p.symbol)) ∧
        tradeRow settled o p pnl = .ok trade ∧ t.stored.trades.getLast? = some trade)
      (fun _ _ => True) s := by
  unfold executeOrder
  rw [wp_bind, wp_read, wp_bind, wp_lift]
  refine ⟨fun p hp => ?_, fun _ _ => trivial⟩
  split
  · trivial
  rw [wp_bind]
  refine wp_mono wp_settle_costed (fun pnl t hcosted => ?_) fun _ _ _ => trivial
  rw [wp_bind, wp_read, wp_bind, wp_lift]
  refine ⟨fun trade htrade => ?_, fun _ _ => trivial⟩
  exact ⟨p, t.view, pnl, trade, hp, hcosted, htrade, List.getLast?_concat⟩

variable (resolveMarketType) in
def OrderBooked (db : Tables) (o : OrderCall) (db' : Tables) : Prop :=
  ∃ p trade, previewOrder resolveMarketType db o = .ok p ∧ TradeOf db o p trade ∧
    Executed db trade db' ∧
    Booked trade (db.positions.get? (trade.accountId, trade.symbol))
      (db'.positions.get? (trade.accountId, trade.symbol))

theorem wp_executeOrder_booked :
    Session.wp (executeOrder resolveMarketType o)
      (fun _ t => OrderBooked resolveMarketType db o t.stored)
      (fun failure t => t.stored = db ∧ ∀ reason, failure = .value reason → t.view = db)
      (Session.begin db) := by
  have hexecuted : wp (executeOrder resolveMarketType o)
      (fun _ t => ∃ p trade, previewOrder resolveMarketType db o = .ok p ∧
        TradeOf db o p trade ∧ Executed db trade t.stored)
      (fun failure t => t.stored = db ∧ ∀ reason, failure = .value reason → t.view = db)
      (begin db) := by
    apply wp_executeOrder
    · constructor
      · exact fun _ => ⟨rfl, fun _ _ => rfl⟩
      · exact fun failure view hother => ⟨rfl, fun reason h => absurd h (hother reason)⟩
    · intro p pnl trade db' hp htrade hexecuted
      exact ⟨p, trade, hp, htrade, hexecuted⟩
  refine wp_mono (wp_and hexecuted wp_executeOrder_costed) ?_ fun _ _ h => h.1
  rintro execution t ⟨⟨p, trade, hp, htrade, hexecuted⟩, p', settled, pnl, trade', hp', hcosted,
    hrow, hlast⟩
  cases hp.symm.trans hp'
  rw [hexecuted.trades, List.getLast?_concat] at hlast
  cases hlast
  refine ⟨p, trade, hp, htrade, hexecuted, ?_⟩
  rw [htrade.accountId, htrade.symbol]
  exact hcosted.booked (previewOrder_ok hp).1 htrade (tradeRow_realizedPnl hrow)

/-- What one order leaves stored: the tables as they were, or those of an executed trade that
is booked into the position of its symbol. -/
theorem placeOrder_booked (o : OrderCall) :
    (placeOrder resolveMarketType o).after db = db ∨
      OrderBooked resolveMarketType db o ((placeOrder resolveMarketType o).after db) := by
  have hwp : wp (placeOrder resolveMarketType o)
      (fun _ t => t.stored = db ∨ OrderBooked resolveMarketType db o t.stored)
      (fun _ t => t.stored = db ∨ OrderBooked resolveMarketType db o t.stored)
      (begin db) := by
    rw [placeOrder, wp_tryCatch]
    refine wp_mono wp_executeOrder_booked (fun _ _ h => .inr h) ?_
    rintro failure t ⟨hsame, hview⟩
    cases failure with
    | value reason => exact .inl (hview reason rfl)
    | _ => exact .inl hsame
  exact finish_of_wp hwp

end KAssetTrader.Paper
