import KAssetTrader.Paper.Trading

/-!
What an executed order does to the tables. The amounts of a trade are column
values, so the sums that move them through the cash ledgers and the positions
are computed exactly; the trade row alone then says what was settled. An order
that raises a `ValueError` has changed nothing, in the tables or in its session.
-/

namespace KAssetTrader.Paper

open Checked Session Decimal

section Arithmetic

variable {x y : Decimal}

theorem quantizeMoney_ok (h : quantizeMoney x = .ok y) : y = x.quantizeHalfUp 4 := by
  unfold quantizeMoney at h
  split at h
  · exact (Except.ok.inj h).symm
  · cases h

theorem quantizeMoney_places (h : quantizeMoney x = .ok y) : y.HasPlaces 4 := by
  rw [quantizeMoney_ok h]
  exact quantizeHalfUp_hasPlaces 4 x

theorem quantizeMoney_exact (hx : x.HasPlaces 4) (h : quantizeMoney x = .ok y) : y = x := by
  rw [quantizeMoney_ok h, hx.quantizeHalfUp]

/-- Sums of a few column values are within the working precision. -/
theorem ctx_round {places : ℕ} (hplaces : places ≤ 9) (hx : x.HasPlaces places)
    (hsize : |x| < 10 ^ 19) : ctx.round x = x := by
  refine Context.digits_round hx ?_
  calc |x| * 10 ^ places ≤ |x| * 10 ^ 9 := by
        gcongr
        · norm_num
    _ < 10 ^ 19 * 10 ^ 9 := by gcongr
    _ = 10 ^ precision := by norm_num [precision]

theorem column_size {scale : ℕ} (hscale : 4 ≤ scale) (a : Numeric 20 scale) :
    |a.value| < 10 ^ 16 :=
  a.size.trans_le (pow_le_pow_right₀ (by norm_num) (by omega))

theorem settledTotal_buy {gross fee : Numeric 20 4}
    (h : settledTotal .buy gross.value fee.value = .ok x) : x = gross.value + fee.value := by
  have hgross := column_size le_rfl gross
  have hfee := column_size le_rfl fee
  have hplaces := gross.places.add fee.places
  have hsize : |gross.value + fee.value| < 10 ^ 19 := (abs_add_le _ _).trans_lt (by linarith)
  simp only [settledTotal, Context.add, ctx_round (by norm_num) hplaces hsize] at h
  exact quantizeMoney_exact hplaces h

theorem settledTotal_sell {gross fee : Numeric 20 4}
    (h : settledTotal .sell gross.value fee.value = .ok x) : x = gross.value - fee.value := by
  have hgross := column_size le_rfl gross
  have hfee := column_size le_rfl fee
  have hplaces := gross.places.sub fee.places
  have hsize : |gross.value - fee.value| < 10 ^ 19 := (abs_sub _ _).trans_lt (by linarith)
  simp only [settledTotal, Context.sub, ctx_round (by norm_num) hplaces hsize] at h
  exact quantizeMoney_exact hplaces h

end Arithmetic

variable {o : OrderCall} {p : Preview}
  {resolveMarketType : String → Option (InstrumentType × String)} {db : Tables}

section Previews

/-- What a preview settles is a positive number of the smallest units of the
quantity columns, at amounts computed from it. -/
structure Preview.Priced (p : Preview) : Prop where
  quantity_pos : 0 < p.quantity
  quantity_places : p.quantity.HasPlaces 8
  gross : quantizeMoney (ctx.mul p.quantity p.price) = .ok p.gross
  fee : calculateFee p.instrumentType p.side p.gross = .ok p.fee
  totalCost : settledTotal p.side p.gross p.fee = .ok p.totalCost
  currency : p.currency = positionCurrency p.instrumentType

variable {instrumentType : InstrumentType}

theorem settledQuantity_places {asked quantity : Decimal}
    (h : settledQuantity instrumentType asked = .ok quantity) : quantity.HasPlaces 8 := by
  unfold settledQuantity at h
  split at h
  · unfold quantizeCryptoQty at h
    split at h
    · rw [← Except.ok.inj h]
      exact quantizeHalfUp_hasPlaces 8 asked
    · cases h
  · rw [← Except.ok.inj h, quantizeExecutionQuantity]
    obtain ⟨lots, hlots⟩ : ∃ lots : ℤ,
        truncate (ctx.div asked (executionQuantityLot instrumentType)) = lots := by
      unfold truncate
      split
      · exact ⟨_, rfl⟩
      · exact ⟨_, rfl⟩
    rw [hlots]
    have hplaces : HasPlaces 4 (lots * executionQuantityLot instrumentType) := by
      unfold executionQuantityLot
      split
      · exact ⟨lots, by ring⟩
      · exact ⟨lots * 10 ^ 4, by push_cast; ring⟩
    exact hplaces.mono (by norm_num)

theorem previewAmounts_ok {symbol : String} {side : OrderSide} {orderType : OrderType}
    {quantity price : Decimal} (hpos : 0 < quantity) (hplaces : quantity.HasPlaces 8)
    (h : previewAmounts symbol instrumentType side orderType quantity price = .ok p) :
    p.Priced ∧ p.side = side ∧ p.orderType = orderType ∧ p.instrumentType = instrumentType ∧
      p.symbol = symbol ∧ p.quantity = quantity ∧ p.price = price := by
  obtain ⟨gross, hgross, h⟩ := bind_ok_iff.mp h
  obtain ⟨fee, hfee, h⟩ := bind_ok_iff.mp h
  obtain ⟨total, htotal, h⟩ := bind_ok_iff.mp h
  cases h
  exact ⟨⟨hpos, hplaces, hgross, hfee, htotal, rfl⟩, rfl, rfl, rfl, rfl, rfl, rfl⟩

theorem previewOrder_ok (h : previewOrder resolveMarketType db o = .ok p) :
    p.Priced ∧ (∃ account, db.accounts.get? o.accountId = some account ∧
      account.isActive = true) ∧
      resolveMarketType o.symbol = some (p.instrumentType, p.symbol) ∧
      OrderSide.ofText o.side = some p.side ∧ OrderType.ofText o.orderType = some p.orderType ∧
      fillPrice o p.orderType = .ok p.price ∧
      ∃ asked, askedQuantity o p.price = .ok asked ∧
        settledQuantity p.instrumentType asked = .ok p.quantity := by
  unfold previewOrder at h
  split at h
  · cases h
  next side hside =>
  split at h
  · cases h
  next orderType horderType =>
  split at h
  · cases h
  split at h
  · cases h
  next account haccount =>
  split at h
  · cases h
  next hactive =>
  split at h
  · cases h
  next instrumentType symbol hresolved =>
  obtain ⟨price, hprice, h⟩ := bind_ok_iff.mp h
  obtain ⟨asked, hasked, h⟩ := bind_ok_iff.mp h
  obtain ⟨quantity, hquantity, h⟩ := bind_ok_iff.mp h
  split at h
  · cases h
  next hpos =>
  obtain ⟨hpriced, rfl, rfl, rfl, rfl, rfl, rfl⟩ :=
    previewAmounts_ok (not_le.mp hpos) (settledQuantity_places hquantity) h
  exact ⟨hpriced, ⟨account, haccount, by simpa using hactive⟩, hresolved, hside, horderType,
    hprice, asked, hasked, hquantity⟩

end Previews

variable {s : SessionState Tables} {now : Instant} {account : PaperAccount}

section Settlements

def Tables.held (db : Tables) (accountId : ℤ) (symbol : String) : Decimal :=
  ((db.positions.get? (accountId, symbol)).map (·.quantity.value)).getD 0

/-- The change that the settlement of a preview makes before its trade row is
written, from the values that the session computes. -/
inductive Moved (db : Tables) (accountId : ℤ) (account : PaperAccount) (p : Preview)
    (now : Instant) : Option Decimal → Tables → Prop
  | bought {paid : Decimal} {cash : Numeric 20 4} {position : PaperPosition} :
      p.side = .buy → p.totalCost ≤ (account.cash p.currency).value →
      quantizeMoney (ctx.sub (account.cash p.currency).value p.totalCost) = .ok paid →
      storeColumn 20 4 paid = .ok cash →
      boughtPosition db p (db.positions.get? (accountId, p.symbol)) = .ok position →
      Moved db accountId account p now none
        { db with
          accounts := db.accounts.modify accountId (·.withCash p.currency cash)
          positions := db.positions.set (accountId, p.symbol) position
          nextPositionId := max db.nextPositionId (position.id + 1) }
  | soldAll {credited pnl : Decimal} {cash : Numeric 20 4} {position : PaperPosition} :
      p.side = .sell → db.positions.get? (accountId, p.symbol) = some position →
      quantizeMoney (ctx.add (account.cash p.currency).value p.totalCost) = .ok credited →
      storeColumn 20 4 credited = .ok cash →
      position.quantity.value = p.quantity →
      Moved db accountId account p now (some pnl)
        { db with
          accounts := db.accounts.modify accountId (·.withCash p.currency cash)
          positions := db.positions.erase (accountId, p.symbol)
          managed := closeManaged db.managed position.id now }
  | soldPart {credited pnl costBasis : Decimal} {cash : Numeric 20 4}
      {position reduced : PaperPosition} :
      p.side = .sell → db.positions.get? (accountId, p.symbol) = some position →
      quantizeMoney (ctx.add (account.cash p.currency).value p.totalCost) = .ok credited →
      storeColumn 20 4 credited = .ok cash →
      p.quantity < position.quantity.value →
      reducedPosition position p costBasis = .ok reduced →
      Moved db accountId account p now (some pnl)
        { db with
          accounts := db.accounts.modify accountId (·.withCash p.currency cash)
          positions := db.positions.set (accountId, p.symbol) reduced }

/-- What a session may be left with when a call raises: untouched by a
`ValueError`, with any view of its own after another failure. -/
structure Unsettled (E : Failure → SessionState Tables → Prop) (s : SessionState Tables) :
    Prop where
  value : ∀ reason, E (.value reason) s
  other : ∀ failure view, (∀ reason, failure ≠ .value reason) → E failure { s with view := view }

variable {E : Failure → SessionState Tables → Prop}

theorem Unsettled.raise (h : Unsettled E s) {failure : Failure} : E failure s := by
  cases failure with
  | value reason => exact h.value reason
  | _ => exact h.other _ s.view nofun

/-- A computation that raises no `ValueError`. -/
def Quiet {α : Type} (x : Except Failure α) : Prop :=
  ∀ failure, x = .error failure → ∀ reason, failure ≠ .value reason

section Quiet

variable {α β : Type}

theorem Quiet.ok (a : α) : Quiet (.ok a) := nofun

theorem Quiet.bind {x : Except Failure α} {f : α → Except Failure β} (hx : Quiet x)
    (hf : ∀ a, Quiet (f a)) : Quiet (x >>= f) := by
  intro failure hfailure
  rcases bind_error_iff.mp hfailure with herror | ⟨a, -, herror⟩
  · exact hx failure herror
  · exact hf a failure herror

theorem quiet_storeColumn (precision scale : ℕ) (x : Decimal) :
    Quiet (storeColumn precision scale x) := by
  intro failure hfailure
  rw [storeColumn_raises hfailure]
  nofun

theorem quiet_quantizeMoney (x : Decimal) : Quiet (quantizeMoney x) := by
  intro failure hfailure
  unfold quantizeMoney at hfailure
  split at hfailure
  · cases hfailure
  · rw [← Except.error.inj hfailure]
    nofun

theorem quiet_divide (x y : Decimal) : Quiet (divide x y) := by
  intro failure hfailure
  unfold divide at hfailure
  split at hfailure
  · rw [← Except.error.inj hfailure]
    nofun
  · cases hfailure

theorem quiet_boughtPosition (db : Tables) (p : Preview) (existing : Option PaperPosition) :
    Quiet (boughtPosition db p existing) := by
  cases existing with
  | none =>
    refine (quiet_storeColumn 20 8 _).bind fun quantity => ?_
    refine (quiet_storeColumn 20 8 _).bind fun average => ?_
    exact (quiet_storeColumn 20 4 _).bind fun total => .ok _
  | some position =>
    refine (quiet_divide _ _).bind fun average => ?_
    refine (quiet_quantizeMoney _).bind fun average => ?_
    refine (quiet_storeColumn 20 8 _).bind fun average => ?_
    refine (quiet_storeColumn 20 8 _).bind fun quantity => ?_
    exact (quiet_storeColumn 20 4 _).bind fun total => .ok _

theorem quiet_reducedPosition (position : PaperPosition) (p : Preview) (costBasis : Decimal) :
    Quiet (reducedPosition position p costBasis) := by
  refine (quiet_quantizeMoney _).bind fun invested => ?_
  refine (quiet_storeColumn 20 8 _).bind fun quantity => ?_
  exact (quiet_storeColumn 20 4 _).bind fun total => .ok _

theorem quiet_tradeRow (db : Tables) (o : OrderCall) (p : Preview) (pnl : Option Decimal) :
    Quiet (tradeRow db o p pnl) := by
  have hpnl : Quiet (pnl.mapM (storeColumn 20 4)) := by
    cases pnl with
    | none => exact .ok _
    | some pnl => exact (quiet_storeColumn 20 4 pnl).bind fun column => .ok _
  unfold tradeRow
  split
  · intro failure hfailure
    rw [← Except.error.inj hfailure]
    nofun
  split
  · intro failure hfailure
    rw [← Except.error.inj hfailure]
    nofun
  · refine (quiet_storeColumn 20 8 _).bind fun quantity => ?_
    refine (quiet_storeColumn 20 8 _).bind fun price => ?_
    refine (quiet_storeColumn 20 4 _).bind fun total => ?_
    refine (quiet_storeColumn 20 4 _).bind fun fee => ?_
    exact hpnl.bind fun pnl => .ok _

end Quiet

theorem Unsettled.lift {α : Type} (h : Unsettled E s) {view : Tables} {x : Except Failure α}
    (hquiet : Quiet x) {Q : α → SessionState Tables → Prop}
    (hok : ∀ a, x = .ok a → Q a { s with view := view }) :
    Session.wp (Session.lift x) Q E { s with view := view } := by
  rw [wp_lift]
  exact ⟨hok, fun failure hfailure => h.other failure view (hquiet failure hfailure)⟩

variable {accountId : ℤ} {Q : Option Decimal → SessionState Tables → Prop}

variable (hE : Unsettled E s)
include hE

theorem wp_setCash {currency : Currency} {amount : Decimal} {Q : PUnit → SessionState Tables → Prop}
    (hok : ∀ cash, storeColumn 20 4 amount = .ok cash → Q ⟨⟩ { s with view := { s.view with
      accounts := s.view.accounts.modify accountId (·.withCash currency cash) } }) :
    Session.wp (setCash accountId currency amount) Q E s := by
  rw [setCash, wp_bind]
  apply hE.lift (quiet_storeColumn 20 4 amount)
  intro cash hcash
  exact hok cash hcash

theorem wp_settleBuy (hside : p.side = .buy)
    (hok : ∀ pnl settled, Moved s.view accountId account p now pnl settled → Q pnl { s with view :=
      settled }) :
    Session.wp (settleBuy accountId account p) Q E s := by
  unfold settleBuy
  apply wp_ite
  · intro _
    exact hE.value _
  intro henough
  rw [wp_bind]
  apply hE.lift (quiet_quantizeMoney _)
  intro paid hpaid
  rw [wp_bind]
  apply wp_setCash hE
  intro cash hcash
  rw [wp_bind, wp_read, wp_bind]
  apply hE.lift (quiet_boughtPosition _ _ _)
  intro position hposition
  exact hok _ _ (.bought hside (not_lt.mp henough) hpaid hcash hposition)

theorem wp_settleSell (hside : p.side = .sell)
    (hok : ∀ pnl settled, Moved s.view accountId account p now pnl settled → Q pnl { s with view :=
      settled }) :
    Session.wp (settleSell accountId account p now) Q E s := by
  unfold settleSell
  rw [wp_bind, wp_read]
  split
  · exact hE.value _
  next position hposition =>
  apply wp_ite
  · intro _
    exact hE.value _
  intro henough
  rw [wp_bind]
  apply hE.lift (quiet_quantizeMoney _)
  intro credited hcredited
  rw [wp_bind]
  apply wp_setCash hE
  intro cash hcash
  rw [wp_bind]
  apply hE.lift (quiet_quantizeMoney _)
  intro pnl _
  rw [wp_bind]
  unfold releasePosition
  apply wp_ite
  · intro hall
    exact hok _ _ (.soldAll hside hposition hcredited hcash hall)
  · intro hpart
    rw [wp_bind]
    apply hE.lift (quiet_reducedPosition _ _ _)
    intro reduced hreduced
    exact hok _ _ (.soldPart hside hposition hcredited hcash
      (lt_of_le_of_ne (not_lt.mp henough) (Ne.symm hpart)) hreduced)

theorem wp_settle
    (hok : ∀ pnl settled, Moved s.view accountId account p now pnl settled → Q pnl { s with view :=
      settled }) :
    Session.wp (settle accountId account p now) Q E s := by
  unfold settle
  split
  next hside => exact wp_settleBuy hE hside hok
  next hside => exact wp_settleSell hE hside hok

end Settlements

section Trades

def PaperTrade.cashFlow (trade : PaperTrade) : Decimal :=
  match trade.side with
  | .buy => -(trade.totalAmount.value + trade.fee.value)
  | .sell => trade.totalAmount.value - trade.fee.value

def PaperTrade.shares (trade : PaperTrade) : Decimal :=
  match trade.side with
  | .buy => trade.quantity.value
  | .sell => -trade.quantity.value

structure TradeOf (db : Tables) (o : OrderCall) (p : Preview) (trade : PaperTrade) : Prop where
  id : trade.id = db.nextTradeId
  accountId : trade.accountId = o.accountId
  symbol : trade.symbol = p.symbol
  side : trade.side = p.side
  currency : trade.currency = p.currency
  instrumentType : trade.instrumentType = p.instrumentType
  quantity : trade.quantity.value = p.quantity
  price : trade.price.value = p.price.quantizeHalfUp 8
  totalAmount : trade.totalAmount.value = p.gross
  fee : trade.fee.value = p.fee
  correlationId : trade.correlationId = o.correlationId
  fresh : o.correlationId.isSome → ∀ other ∈ db.trades, other.accountId = o.accountId →
    other.correlationId ≠ o.correlationId

/-- What an executed call leaves in the tables, in the terms of its trade row. -/
structure Executed (db : Tables) (trade : PaperTrade) (db' : Tables) : Prop where
  trades : db'.trades = db.trades ++ [trade]
  nextTradeId : db'.nextTradeId = db.nextTradeId + 1
  orders : db'.orders = db.orders
  quantity_pos : 0 < trade.quantity.value
  fee : calculateFee trade.instrumentType trade.side trade.totalAmount.value =
    .ok trade.fee.value
  currency : trade.currency = positionCurrency trade.instrumentType
  cash : ∃ account cash, db.accounts.get? trade.accountId = some account ∧
    db'.accounts = db.accounts.modify trade.accountId (·.withCash trade.currency cash) ∧
    cash.value = (account.cash trade.currency).value + trade.cashFlow ∧
    (trade.side = .buy → 0 ≤ cash.value)
  elsewhere : ∀ key, key ≠ (trade.accountId, trade.symbol) →
    db'.positions.get? key = db.positions.get? key
  held : db'.held trade.accountId trade.symbol =
    db.held trade.accountId trade.symbol + trade.shares
  reduced : trade.side = .sell → ∀ position,
    db'.positions.get? (trade.accountId, trade.symbol) = some position →
    0 < position.quantity.value
  covered : trade.side = .sell →
    trade.quantity.value ≤ db.held trade.accountId trade.symbol

variable {settled : Tables} {pnl : Option Decimal} {trade : PaperTrade}

theorem tradeRow_ok (hp : p.Priced) (h : tradeRow db o p pnl = .ok trade) :
    TradeOf db o p trade := by
  unfold tradeRow at h
  split at h
  · cases h
  split at h
  · cases h
  next hallowed =>
  push Not at hallowed
  obtain ⟨quantity, hquantity, h⟩ := bind_ok_iff.mp h
  obtain ⟨price, hprice, h⟩ := bind_ok_iff.mp h
  obtain ⟨total, htotal, h⟩ := bind_ok_iff.mp h
  obtain ⟨fee, hfee, h⟩ := bind_ok_iff.mp h
  obtain ⟨realized, -, h⟩ := bind_ok_iff.mp h
  cases h
  have hfeePlaces : p.fee.HasPlaces 4 := by
    have hfee := hp.fee
    unfold calculateFee at hfee
    split at hfee
    · split at hfee <;> exact quantizeMoney_places hfee
    · exact quantizeMoney_places hfee
    · exact quantizeMoney_places hfee
    · cases hfee
    · cases hfee
  exact {
    id := rfl
    accountId := rfl
    symbol := rfl
    side := rfl
    currency := rfl
    instrumentType := rfl
    quantity := storeColumn_exact hp.quantity_places hquantity
    price := storeColumn_value hprice
    totalAmount := storeColumn_exact (quantizeMoney_places hp.gross) htotal
    fee := storeColumn_exact hfeePlaces hfee
    correlationId := rfl
    fresh := hallowed.2.2 }

theorem PaperTrade.cashFlow_places (trade : PaperTrade) : trade.cashFlow.HasPlaces 4 := by
  unfold PaperTrade.cashFlow
  split
  · exact (trade.totalAmount.places.add trade.fee.places).neg
  · exact trade.totalAmount.places.sub trade.fee.places

theorem PaperTrade.cashFlow_size (trade : PaperTrade) : |trade.cashFlow| < 10 ^ 17 := by
  have hgross := column_size le_rfl trade.totalAmount
  have hfee := column_size le_rfl trade.fee
  unfold PaperTrade.cashFlow
  split
  · rw [abs_neg]
    exact (abs_add_le _ _).trans_lt (by linarith)
  · exact (abs_sub _ _).trans_lt (by linarith)

theorem cash_exact {available cash : Numeric 20 4} {moved : Decimal}
    (hmoved : quantizeMoney (ctx.round (available.value + trade.cashFlow)) = .ok moved)
    (hcash : storeColumn 20 4 moved = .ok cash) :
    cash.value = available.value + trade.cashFlow := by
  have hplaces := available.places.add trade.cashFlow_places
  have hsize : |available.value + trade.cashFlow| < 10 ^ 19 := by
    have havailable := column_size le_rfl available
    have hflow := trade.cashFlow_size
    exact (abs_add_le _ _).trans_lt (by linarith)
  rw [ctx_round (by norm_num) hplaces hsize] at hmoved
  obtain rfl := quantizeMoney_exact hplaces hmoved
  exact storeColumn_exact hplaces hcash

theorem TradeOf.cashFlow_buy (hp : p.Priced) (h : TradeOf settled o p trade)
    (hside : p.side = .buy) : trade.cashFlow = -p.totalCost := by
  have htotal := hp.totalCost
  rw [hside, ← h.totalAmount, ← h.fee] at htotal
  rw [settledTotal_buy htotal]
  simp [PaperTrade.cashFlow, h.side, hside]

theorem TradeOf.cashFlow_sell (hp : p.Priced) (h : TradeOf settled o p trade)
    (hside : p.side = .sell) : trade.cashFlow = p.totalCost := by
  have htotal := hp.totalCost
  rw [hside, ← h.totalAmount, ← h.fee] at htotal
  rw [settledTotal_sell htotal]
  simp [PaperTrade.cashFlow, h.side, hside]

theorem shares_exact (quantity change : Numeric 20 8) {x : Decimal} {column : Numeric 20 8}
    (hx : x = quantity.value + change.value ∨ x = quantity.value - change.value)
    (hcolumn : storeColumn 20 8 (ctx.round x) = .ok column) : column.value = x := by
  have hquantity := column_size (by norm_num) quantity
  have hchange := column_size (by norm_num) change
  have hplaces : x.HasPlaces 8 := by
    rcases hx with rfl | rfl
    · exact quantity.places.add change.places
    · exact quantity.places.sub change.places
  have hsize : |x| < 10 ^ 19 := by
    rcases hx with rfl | rfl
    · exact (abs_add_le _ _).trans_lt (by linarith)
    · exact (abs_sub _ _).trans_lt (by linarith)
  rw [ctx_round (by norm_num) hplaces hsize] at hcolumn
  exact storeColumn_exact hplaces hcolumn

theorem boughtPosition_ok {existing : Option PaperPosition} {position : PaperPosition}
    (hquantity : trade.quantity.value = p.quantity)
    (h : boughtPosition db p existing = .ok position) :
    position.quantity.value =
      (existing.map (·.quantity.value)).getD 0 + trade.quantity.value := by
  cases existing with
  | none =>
    obtain ⟨quantity, hstored, h⟩ := bind_ok_iff.mp h
    obtain ⟨average, -, h⟩ := bind_ok_iff.mp h
    obtain ⟨total, -, h⟩ := bind_ok_iff.mp h
    cases h
    rw [← hquantity] at hstored
    simpa using storeColumn_exact trade.quantity.places hstored
  | some old =>
    obtain ⟨_, -, h⟩ := bind_ok_iff.mp h
    obtain ⟨_, -, h⟩ := bind_ok_iff.mp h
    obtain ⟨average, -, h⟩ := bind_ok_iff.mp h
    obtain ⟨quantity, hstored, h⟩ := bind_ok_iff.mp h
    obtain ⟨total, -, h⟩ := bind_ok_iff.mp h
    cases h
    rw [← hquantity] at hstored
    exact shares_exact old.quantity trade.quantity (.inl rfl) hstored

theorem reducedPosition_ok {position reduced : PaperPosition} {costBasis : Decimal}
    (hquantity : trade.quantity.value = p.quantity)
    (h : reducedPosition position p costBasis = .ok reduced) :
    reduced.quantity.value = position.quantity.value - trade.quantity.value := by
  obtain ⟨_, -, h⟩ := bind_ok_iff.mp h
  obtain ⟨quantity, hstored, h⟩ := bind_ok_iff.mp h
  obtain ⟨total, -, h⟩ := bind_ok_iff.mp h
  cases h
  rw [← hquantity] at hstored
  exact shares_exact position.quantity trade.quantity (.inr rfl) hstored

theorem Moved.cash (hp : p.Priced) (h : Moved db o.accountId account p now pnl settled)
    (htrade : TradeOf settled o p trade) :
    ∃ cash, settled.accounts =
        db.accounts.modify trade.accountId (·.withCash trade.currency cash) ∧
      cash.value = (account.cash trade.currency).value + trade.cashFlow ∧
      (trade.side = .buy → 0 ≤ cash.value) := by
  rw [htrade.accountId, htrade.currency, htrade.side]
  cases h with
  | @bought paid cash position hside henough hpaid hcash hposition =>
    have hflow := htrade.cashFlow_buy hp hside
    have hexact : cash.value = (account.cash p.currency).value + trade.cashFlow := by
      refine cash_exact ?_ hcash
      rw [hflow, ← sub_eq_add_neg]
      exact hpaid
    refine ⟨cash, rfl, hexact, fun _ => ?_⟩
    rw [hexact, hflow]
    linarith
  | @soldAll credited pnl cash position hside hposition hcredited hcash hall =>
    have hflow := htrade.cashFlow_sell hp hside
    refine ⟨cash, rfl, cash_exact ?_ hcash, fun hbuy => absurd hbuy (by simp [hside])⟩
    rw [hflow]
    exact hcredited
  | @soldPart credited pnl costBasis cash position reduced hside hposition hcredited hcash hless
      hreduced =>
      have hflow := htrade.cashFlow_sell hp hside
      refine ⟨cash, rfl, cash_exact ?_ hcash, fun hbuy => absurd hbuy (by simp [hside])⟩
      rw [hflow]
      exact hcredited

theorem Moved.executed (hp : p.Priced) (haccount : db.accounts.get? o.accountId = some account)
    (h : Moved db o.accountId account p now pnl settled) (htrade : TradeOf settled o p trade) :
    Executed db trade { settled with
      trades := settled.trades ++ [trade], nextTradeId := settled.nextTradeId + 1 } := by
  obtain ⟨cash, haccounts, hcash, hafford⟩ := h.cash hp htrade
  have hledger : ∃ account cash, db.accounts.get? trade.accountId = some account ∧
      settled.accounts = db.accounts.modify trade.accountId (·.withCash trade.currency cash) ∧
      cash.value = (account.cash trade.currency).value + trade.cashFlow ∧
      (trade.side = .buy → 0 ≤ cash.value) :=
    ⟨account, cash, htrade.accountId ▸ haccount, haccounts, hcash, hafford⟩
  have hpos : 0 < trade.quantity.value := htrade.quantity ▸ hp.quantity_pos
  have hfee : calculateFee trade.instrumentType trade.side trade.totalAmount.value =
      .ok trade.fee.value := by
    rw [htrade.instrumentType, htrade.side, htrade.totalAmount, htrade.fee, hp.fee]
  have hcurrency : trade.currency = positionCurrency trade.instrumentType := by
    rw [htrade.currency, htrade.instrumentType, hp.currency]
  have hkey : (trade.accountId, trade.symbol) = (o.accountId, p.symbol) := by
    rw [htrade.accountId, htrade.symbol]
  cases h with
  | @bought paid cash position hside henough hpaid hcash hposition =>
    have hbuy : trade.side = .buy := htrade.side.trans hside
    have hbought := boughtPosition_ok htrade.quantity hposition
    refine ⟨rfl, rfl, rfl, hpos, hfee, hcurrency, hledger, ?_, ?_, ?_, ?_⟩
    · intro key hne
      rw [hkey] at hne
      simp [Dict.get?_set, hne]
    · simp only [Tables.held, hkey, Dict.get?_set, if_true, Option.map_some, Option.getD_some,
        PaperTrade.shares, hbuy]
      exact hbought
    · intro hsell
      simp [hbuy] at hsell
    · intro hsell
      simp [hbuy] at hsell
  | @soldAll credited pnl cash position hside hposition hcredited hcash hall =>
    have hsell : trade.side = .sell := htrade.side.trans hside
    have hheld : db.held trade.accountId trade.symbol = trade.quantity.value := by
      simp [Tables.held, hkey, hposition, hall, htrade.quantity]
    refine ⟨rfl, rfl, rfl, hpos, hfee, hcurrency, hledger, ?_, ?_, ?_, fun _ => hheld.ge⟩
    · intro key hne
      rw [hkey] at hne
      simp [Dict.get?_erase, hne]
    · rw [hheld]
      simp [Tables.held, hkey, Dict.get?_erase, PaperTrade.shares, hsell]
    · intro _ row hrow
      simp [hkey, Dict.get?_erase] at hrow
  | @soldPart credited pnl costBasis cash position reduced hside hposition hcredited hcash hless
      hreduced =>
      have hsell : trade.side = .sell := htrade.side.trans hside
      have hheld : db.held trade.accountId trade.symbol = position.quantity.value := by
        simp [Tables.held, hkey, hposition]
      have hleft := reducedPosition_ok htrade.quantity hreduced
      rw [← htrade.quantity] at hless
      refine ⟨rfl, rfl, rfl, hpos, hfee, hcurrency, hledger, ?_, ?_, ?_, fun _ => hheld ▸ hless.le⟩
      · intro key hne
        rw [hkey] at hne
        simp [Dict.get?_set, hne]
      · rw [hheld]
        simp only [Tables.held, hkey, Dict.get?_set, if_true, Option.map_some, Option.getD_some,
          PaperTrade.shares, hsell, hleft, sub_eq_add_neg]
      · intro _ row hrow
        simp only [hkey, Dict.get?_set, if_true, Option.some.injEq] at hrow
        rw [← hrow, hleft]
        linarith

theorem Moved.tradeOf {accountId : ℤ} (h : Moved db accountId account p now pnl settled)
    (htrade : TradeOf settled o p trade) :
    TradeOf db o p trade := by
  cases h with
  | bought => exact { htrade with }
  | soldAll => exact { htrade with }
  | soldPart => exact { htrade with }

end Trades

theorem wp_executeOrder {Q : Execution → SessionState Tables → Prop}
    {E : Failure → SessionState Tables → Prop} (hE : Unsettled E s)
    (hok : ∀ p pnl trade db', previewOrder resolveMarketType s.view o = .ok p →
      TradeOf s.view o p trade → Executed s.view trade db' →
      Q ⟨p, pnl⟩ ⟨db', db', s.commits ++ [db']⟩) :
    Session.wp (executeOrder resolveMarketType o) Q E s := by
  unfold executeOrder
  rw [wp_bind, wp_read, wp_bind, wp_lift]
  refine ⟨fun p hp => ?_, fun failure _ => hE.raise⟩
  obtain ⟨hpriced, -⟩ := previewOrder_ok hp
  split
  · exact hE.raise
  next account haccount =>
  rw [wp_bind]
  apply wp_settle hE
  intro pnl settled hmoved
  rw [wp_bind, wp_read, wp_bind]
  apply hE.lift (quiet_tradeRow _ _ _ _)
  intro trade htrade
  have hrow := tradeRow_ok hpriced htrade
  exact hok p pnl trade _ hp (hmoved.tradeOf hrow) (hmoved.executed hpriced haccount hrow)

/-- What one order leaves stored, the caller committing after a `ValueError`:
the tables as they were, or those of an executed trade. -/
theorem placeOrder_after (o : OrderCall) :
    (placeOrder resolveMarketType o).after db = db ∨
      ∃ p trade, previewOrder resolveMarketType db o = .ok p ∧ TradeOf db o p trade ∧
        Executed db trade ((placeOrder resolveMarketType o).after db) := by
  have hwp : wp (placeOrder resolveMarketType o)
      (fun _ t => t.stored = db ∨ ∃ p trade, previewOrder resolveMarketType db o = .ok p ∧
        TradeOf db o p trade ∧ Executed db trade t.stored)
      (fun _ t => t.stored = db ∨ ∃ p trade, previewOrder resolveMarketType db o = .ok p ∧
        TradeOf db o p trade ∧ Executed db trade t.stored) (begin db) := by
    rw [placeOrder, wp_tryCatch]
    apply wp_executeOrder
    · constructor
      · intro reason
        exact .inl rfl
      · intro failure view hother
        cases failure with
        | value reason => exact absurd rfl (hother reason)
        | _ => exact .inl rfl
    · intro p pnl trade db' hp htrade hexecuted
      exact .inr ⟨p, trade, hp, htrade, hexecuted⟩
  exact finish_of_wp hwp

variable {reason : Refusal} {t : SessionState Tables}

theorem executeOrder_refused (h : executeOrder resolveMarketType o s = .error (.value reason) t) :
    t = s := by
  have hwp : wp (executeOrder resolveMarketType o) (fun _ _ => True)
      (fun failure t => ∀ reason, failure = .value reason → t = s) s := by
    apply wp_executeOrder
    · constructor
      · intro _ _ _
        rfl
      · intro failure view hother reason hreason
        exact absurd hreason (hother reason)
    · intros
      trivial
  exact wp_error hwp h reason rfl

theorem placeOrder_refused
    (h : executeOrder resolveMarketType o (Session.begin db) = .error (.value reason) t) :
    (placeOrder resolveMarketType o).after db = db := by
  obtain rfl := executeOrder_refused h
  have hwp : wp (placeOrder resolveMarketType o) (fun _ t => t.stored = db)
      (fun _ t => t.stored = db) (begin db) := by
    rw [placeOrder, wp_tryCatch]
    exact wp_of_error h rfl
  exact finish_of_wp hwp

end KAssetTrader.Paper
