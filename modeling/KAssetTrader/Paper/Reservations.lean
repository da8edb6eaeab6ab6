import KAssetTrader.Paper.LimitOrders

/-!
The cash of an account with resting orders. What the pending buys hold back and what is
left in the ledger add up to the initial capital and the flow of the trades since the
last reset. The cost that a buy holds back is the cost that its fill settles, because
both are computed from the stored row.
-/

namespace KAssetTrader.Paper

open Session Checked Decimal
open Unicode (upper upper_upper strip_upper)

variable {resolveEquity : String → Option (EquityType × String)}

section Symbols

theorem isCryptoMarket_upper (symbol : String) :
    isCryptoMarket (upper symbol) = isCryptoMarket symbol := by
  simp only [isCryptoMarket, strip_upper, upper_upper]

def IsCoin (symbol : String) : Prop := isCryptoMarket symbol = true ∧ upper symbol = symbol

variable {symbol resolved : String}

theorem resolveMarketType_crypto
    (h : resolveMarketType resolveEquity symbol = some (.crypto, resolved)) : IsCoin resolved := by
  unfold resolveMarketType at h
  split at h
  next hcoin =>
    cases h
    exact ⟨(isCryptoMarket_upper symbol).trans hcoin, upper_upper symbol⟩
  · obtain ⟨⟨equity, found⟩, _, heq⟩ := Option.map_eq_some_iff.mp h
    cases equity <;> cases heq

theorem IsCoin.resolve (h : IsCoin symbol) :
    resolveMarketType resolveEquity symbol = some (.crypto, symbol) := by
  rw [resolveMarketType, if_pos h.1, h.2]

end Symbols

variable {p : Preview}

section Amounts

variable {x : Decimal}

theorem ctx_round_nonneg (hx : 0 ≤ x) : 0 ≤ ctx.round x := by
  change 0 ≤ roundDigits precision x
  have hpow : (0 : ℚ) < 10 ^ (Int.log 10 |x| + 1 - (precision : ℤ)) := by positivity
  have hround := roundHalfEven_nonneg (div_nonneg hx hpow.le)
  unfold roundDigits
  have hcast : (0 : ℚ) ≤ roundHalfEven (x / 10 ^ (Int.log 10 |x| + 1 - (precision : ℤ))) := by
    exact_mod_cast hround
  exact mul_nonneg hcast hpow.le

theorem Preview.Priced.gross_nonneg (hp : p.Priced) (hprice : 0 ≤ p.price) : 0 ≤ p.gross := by
  rw [quantizeMoney_ok hp.gross]
  apply quantizeHalfUp_nonneg
  exact ctx_round_nonneg (mul_nonneg hp.quantity_pos.le hprice)

end Amounts

variable {now : Instant} {order : PaperPendingOrder} {tables : Tables} {accountId : ℤ}

/-- What the stored row of an order keeps. A buy holds back the cost of its own quantity
at its own limit price. -/
structure PaperPendingOrder.Kept (order : PaperPendingOrder) : Prop where
  coin : IsCoin order.symbol
  price_pos : 0 < order.limitPrice.value
  reserves : order.side = .buy → 0 ≤ order.reservedKrw.value ∧ ∃ gross fee,
    quantizeMoney (ctx.mul order.quantity.value order.limitPrice.value) = .ok gross ∧
      calculateFee .crypto .buy gross = .ok fee ∧
      settledTotal .buy gross fee = .ok order.reservedKrw.value

theorem fill_preview (h : order.Kept)
    (hp : previewOrder (resolveMarketType resolveEquity) tables
      (restingFillCall accountId order now) = .ok p) :
    p.side = order.side ∧ p.symbol = order.symbol ∧ p.instrumentType = .crypto ∧
      p.currency = .krw ∧ p.quantity = order.quantity.value ∧ p.price = order.limitPrice.value ∧
      (order.side = .buy → p.totalCost = order.reservedKrw.value) := by
  obtain ⟨hpriced, _, hresolved, hside, horderType, hprice, asked, hasked, hquantity⟩ :=
    previewOrder_ok hp
  have hcoin : some (.crypto, order.symbol) = some (p.instrumentType, p.symbol) :=
    h.coin.resolve.symm.trans hresolved
  have htype : p.instrumentType = .crypto := (congrArg Prod.fst (Option.some.inj hcoin)).symm
  have hsymbol : p.symbol = order.symbol := (congrArg Prod.snd (Option.some.inj hcoin)).symm
  have hsides : p.side = order.side := by
    have htext : OrderSide.ofText order.side.text = some order.side := by
      cases order.side <;> decide +kernel
    exact (Option.some.inj (htext.symm.trans hside)).symm
  have hlimit : p.orderType = .limit := by
    have htext : OrderType.ofText "limit" = some .limit := by decide +kernel
    exact (Option.some.inj (htext.symm.trans horderType)).symm
  have hprices : p.price = order.limitPrice.value := by
    rw [hlimit] at hprice
    exact (Except.ok.inj hprice).symm
  have hquantities : p.quantity = order.quantity.value := by
    obtain rfl : order.quantity.value = asked := Except.ok.inj hasked
    rw [htype, settledQuantity, quantizeCryptoQty] at hquantity
    split at hquantity
    · rw [← Except.ok.inj hquantity, order.quantity.places.quantizeHalfUp]
    · cases hquantity
  refine ⟨hsides, hsymbol, htype, ?_, hquantities, hprices, fun hbuy => ?_⟩
  · rw [hpriced.currency, htype]
    rfl
  · obtain ⟨_, gross, fee, hgross, hfee, htotal⟩ := h.reserves hbuy
    have hgross' := hpriced.gross
    rw [hquantities, hprices, hgross] at hgross'
    cases hgross'
    have hfee' := hpriced.fee
    rw [htype, hsides, hbuy, hfee] at hfee'
    cases hfee'
    have htotal' := hpriced.totalCost
    rw [hsides, hbuy, htotal] at htotal'
    exact (Except.ok.inj htotal').symm

structure FillTrade (accountId : ℤ) (order : PaperPendingOrder) (trade : PaperTrade) :
    Prop where
  accountId : trade.accountId = accountId
  symbol : trade.symbol = order.symbol
  side : trade.side = order.side
  currency : trade.currency = .krw
  quantity : trade.quantity.value = order.quantity.value
  price : trade.price.value = order.limitPrice.value

theorem releasedCash_ok {account : PaperAccount} {cash : Numeric 20 4}
    (h : releasedCash account order = .ok cash) (hpending : order.status = .pending) :
    cash.value = account.cashKrw.value + order.held := by
  unfold releasedCash at h
  unfold PaperPendingOrder.held
  split at h
  next hbuy =>
    obtain ⟨sum, hsum, hcash⟩ := bind_ok_iff.mp h
    have hplaces := account.cashKrw.places.add order.reservedKrw.places
    have hsize : |account.cashKrw.value + order.reservedKrw.value| < 10 ^ 19 := by
      have hleft := column_size le_rfl account.cashKrw
      have hright := column_size le_rfl order.reservedKrw
      exact (abs_add_le _ _).trans_lt (by linarith)
    rw [Context.add, ctx_round (by norm_num) hplaces hsize] at hsum
    obtain rfl := quantizeMoney_exact hplaces hsum
    rw [if_pos ⟨hpending, hbuy⟩]
    exact storeColumn_exact hplaces hcash
  next hsell =>
    rw [if_neg (fun hboth => by rw [hsell] at hboth; cases hboth.2), add_zero]
    rw [← Except.ok.inj h]

theorem fillOrder_ok {tables' : Tables} (h : order.Kept)
    (hok : fillOrder resolveEquity accountId tables order now = .ok tables') :
    ∃ account cash trade, tables.accounts.get? accountId = some account ∧
      releasedCash account order = .ok cash ∧ FillTrade accountId order trade ∧
      trade.id = tables.nextTradeId ∧
      0 ≤ trade.totalAmount.value ∧ Executed (released accountId tables cash) trade tables' := by
  unfold fillOrder at hok
  split at hok
  · cases hok
  next account haccount =>
  obtain ⟨cash, hcash, hok⟩ := bind_ok_iff.mp hok
  split at hok
  next execution s hrun =>
    cases hok
    have hwp : wp (executeOrder (resolveMarketType resolveEquity)
        (restingFillCall accountId order now))
        (fun _ s => ∃ trade, FillTrade accountId order trade ∧ trade.id = tables.nextTradeId ∧
          0 ≤ trade.totalAmount.value ∧
          Executed (released accountId tables cash) trade s.stored)
        (fun _ _ => True) { stored := tables, view := released accountId tables cash } := by
      apply wp_executeOrder ⟨fun _ => trivial, fun _ _ _ => trivial⟩
      intro p pnl trade db' hp htrade hexecuted
      obtain ⟨hside, hsymbol, _, hcurrency, hquantity, hprice, _⟩ := fill_preview h hp
      refine ⟨trade, ⟨htrade.accountId, htrade.symbol.trans hsymbol, htrade.side.trans hside,
        htrade.currency.trans hcurrency, htrade.quantity.trans hquantity, ?_⟩, htrade.id, ?_,
        hexecuted⟩
      · rw [htrade.price, hprice, order.limitPrice.places.quantizeHalfUp]
      · rw [htrade.totalAmount]
        exact (previewOrder_ok hp).1.gross_nonneg (hprice ▸ h.price_pos.le)
    obtain ⟨trade, hfill, hid, hgross, hexecuted⟩ := wp_ok hwp hrun
    exact ⟨account, cash, trade, haccount, hcash, hfill, hid, hgross, hexecuted⟩
  · cases hok

def NotShort (failure : Failure) : Prop :=
  ∀ currency available needed, failure ≠ .value (.insufficientBalance currency available needed)

theorem Quiet.notShort {α : Type} {x : Except Failure α} (h : Quiet x) {failure : Failure}
    (hx : x = .error failure) : NotShort failure :=
  fun _ _ _ => h failure hx _

theorem NotShort.bind {α β : Type} {x : Except Failure α} {f : α → Except Failure β}
    {failure : Failure} (h : (x >>= f) = .error failure)
    (hx : ∀ e, x = .error e → NotShort e) (hf : ∀ a e, f a = .error e → NotShort e) :
    NotShort failure := by
  rcases bind_error_iff.mp h with hx' | ⟨a, _, hfa⟩
  · exact hx failure hx'
  · exact hf a failure hfa

variable {resolve : String → Option (InstrumentType × String)} {o : OrderCall} {failure : Failure}

theorem calculateFee_notShort {instrumentType : InstrumentType} {side : OrderSide}
    {amount : Decimal} (h : calculateFee instrumentType side amount = .error failure) :
    NotShort failure := by
  unfold calculateFee at h
  split at h
  · split at h
    · exact (quiet_quantizeMoney _).notShort h
    · exact (quiet_quantizeMoney _).notShort h
  · exact (quiet_quantizeMoney _).notShort h
  · exact (quiet_quantizeMoney _).notShort h
  · cases h
    nofun
  · cases h
    nofun

theorem previewAmounts_notShort {symbol : String} {instrumentType : InstrumentType}
    {side : OrderSide} {orderType : OrderType} {quantity price : Decimal}
    (h : previewAmounts symbol instrumentType side orderType quantity price = .error failure) :
    NotShort failure := by
  refine NotShort.bind h (fun _ => (quiet_quantizeMoney _).notShort) fun gross e hgross => ?_
  refine NotShort.bind hgross (fun _ => calculateFee_notShort) fun fee e hfee => ?_
  refine NotShort.bind hfee (fun _ htotal => ?_) fun _ _ hok => by cases hok
  cases side with
  | buy => exact (quiet_quantizeMoney _).notShort htotal
  | sell => exact (quiet_quantizeMoney _).notShort htotal

theorem previewOrder_notShort (hprice : ∀ e, o.currentPrice = .error e → NotShort e)
    (h : previewOrder resolve tables o = .error failure) : NotShort failure := by
  unfold previewOrder at h
  split at h
  · cases h
    rintro _ _ _ ⟨⟩
  split at h
  · cases h
    rintro _ _ _ ⟨⟩
  split at h
  · cases h
    rintro _ _ _ ⟨⟩
  split at h
  · cases h
    rintro _ _ _ ⟨⟩
  split at h
  · cases h
    rintro _ _ _ ⟨⟩
  split at h
  · cases h
    rintro _ _ _ ⟨⟩
  next instrumentType symbol _ =>
  refine NotShort.bind h (fun e herror => ?_) fun price e hrest => ?_
  · unfold fillPrice at herror
    split at herror
    · split at herror
      · cases herror
        rintro _ _ _ ⟨⟩
      · cases herror
    · split at herror
      · unfold validateResolvedMarketPrice at herror
        split at herror
        · cases herror
          rintro _ _ _ ⟨⟩
        · cases herror
      · exact hprice e herror
  refine NotShort.bind hrest (fun e herror => ?_) fun asked e hrest => ?_
  · unfold askedQuantity at herror
    split at herror
    · cases herror
    · exact (quiet_divide _ _).notShort herror
    · cases herror
      rintro _ _ _ ⟨⟩
  refine NotShort.bind hrest (fun e herror => ?_) fun quantity e hrest => ?_
  · unfold settledQuantity at herror
    split at herror
    · unfold quantizeCryptoQty at herror
      split at herror
      · cases herror
      · cases herror
        rintro _ _ _ ⟨⟩
    · cases herror
  split at hrest
  · cases hrest
    rintro _ _ _ ⟨⟩
  · exact previewAmounts_notShort hrest

theorem wp_settle_covered {accountId : ℤ} {account : PaperAccount} {now : Instant}
    {s : SessionState Tables}
    (hcovered : p.side = .buy → p.totalCost ≤ (account.cash p.currency).value) :
    Session.wp (settle accountId account p now) (fun _ _ => True)
      (fun failure _ => NotShort failure) s := by
  have hsetCash : ∀ {currency amount s}, wp (setCash accountId currency amount)
      (fun _ _ => True) (fun failure _ => NotShort failure) s := by
    intro currency amount s
    rw [setCash, wp_bind, wp_lift]
    exact ⟨fun _ _ => trivial, fun e => (quiet_storeColumn 20 4 _).notShort⟩
  unfold settle
  split
  next hside =>
    unfold settleBuy
    apply wp_ite
    · intro hshort
      exact absurd (hcovered hside) (not_le.mpr hshort)
    intro _
    apply wp_lift_bind
    · intro paid _
      rw [wp_bind]
      refine wp_mono hsetCash (fun _ t _ => ?_) fun _ _ h => h
      rw [wp_bind, wp_read]
      apply wp_lift_bind
      · exact fun _ _ => trivial
      · exact fun e => (quiet_boughtPosition _ _ _).notShort
    · exact fun e => (quiet_quantizeMoney _).notShort
  · unfold settleSell
    rw [wp_bind, wp_read]
    split
    · rintro _ _ _ ⟨⟩
    next position _ =>
    apply wp_ite
    · intro _
      rintro _ _ _ ⟨⟩
    intro _
    apply wp_lift_bind
    · intro credited _
      rw [wp_bind]
      refine wp_mono hsetCash (fun _ t _ => ?_) fun _ _ h => h
      apply wp_lift_bind
      · intro pnl _
        rw [wp_bind]
        unfold releasePosition
        apply wp_ite
        · exact fun _ => trivial
        · intro _
          apply wp_lift_bind
          · exact fun _ _ => trivial
          · exact fun e => (quiet_reducedPosition _ _ _).notShort
      · exact fun e => (quiet_quantizeMoney _).notShort
    · exact fun e => (quiet_quantizeMoney _).notShort

theorem fillOrder_notShort (h : order.Kept) (hpending : order.status = .pending)
    (hfunded : order.side = .buy → ∀ account, tables.accounts.get? accountId = some account →
      0 ≤ account.cashKrw.value)
    (herror : fillOrder resolveEquity accountId tables order now = .error failure) :
    NotShort failure := by
  unfold fillOrder at herror
  split at herror
  · cases herror
    nofun
  next account haccount =>
  rcases bind_error_iff.mp herror with hcash | ⟨cash, hcash, hrest⟩
  · unfold releasedCash at hcash
    split at hcash
    · exact ((quiet_quantizeMoney _).bind fun _ => quiet_storeColumn 20 4 _).notShort hcash
    · cases hcash
  split at hrest
  · cases hrest
  next e s hrun =>
  cases hrest
  have hwp : wp (executeOrder (resolveMarketType resolveEquity)
      (restingFillCall accountId order now)) (fun _ _ => True) (fun failure _ => NotShort failure)
      { stored := tables, view := released accountId tables cash } := by
    unfold executeOrder
    rw [wp_bind, wp_read]
    apply wp_lift_bind
    · intro p hp
      split
      · exact nofun
      next before hbefore =>
      rw [wp_bind]
      have hcovered : p.side = .buy → p.totalCost ≤ (before.cash p.currency).value := by
        intro hside
        obtain ⟨hsame, _, _, hcurrency, _, _, hcost⟩ := fill_preview h hp
        have hbuy := hsame.symm.trans hside
        have hledger : before.cash p.currency = cash := by
          simp only [released, Dict.get?_modify, restingFillCall, if_true, haccount,
            Option.map_some, Option.some.injEq] at hbefore
          rw [← hbefore, hcurrency, PaperAccount.withCash_cash, if_pos rfl]
        have hheld : order.held = order.reservedKrw.value := if_pos ⟨hpending, hbuy⟩
        rw [hcost hbuy, hledger, releasedCash_ok hcash hpending, hheld]
        linarith [hfunded hbuy account haccount]
      refine wp_mono (wp_settle_covered hcovered) (fun pnl t _ => ?_)
        fun _ _ hshort => hshort
      rw [wp_bind, wp_read]
      apply wp_lift_bind
      · exact fun _ _ => trivial
      · exact fun e => (quiet_tradeRow _ _ _ _).notShort
    · exact fun e => previewOrder_notShort fun e hprice => by cases hprice; nofun
  exact wp_error hwp hrun

end KAssetTrader.Paper
