import KAssetTrader.Paper.Ledger

/-!
The books of paper trading over a run of orders, accepted or refused. The
executed trades account for every change of the cash ledgers and the positions,
and no position is ever sold below zero. A sell is credited with its gross
amount less its fee, with no guard when the fee is higher, so a cash ledger can
fall below zero by what the gross amounts lacked.
-/

namespace KAssetTrader.Paper

open PaperAccount Session

def totalOver (P : PaperTrade → Prop) [DecidablePred P] (value : PaperTrade → Decimal)
    (trades : List PaperTrade) : Decimal :=
  ((trades.filter fun trade => P trade).map value).sum

theorem totalOver_append_singleton (P : PaperTrade → Prop) [DecidablePred P]
    (value : PaperTrade → Decimal) (trades : List PaperTrade) (trade : PaperTrade) :
    totalOver P value (trades ++ [trade]) =
      totalOver P value trades + if P trade then value trade else 0 := by
  unfold totalOver
  rw [List.filter_append, List.map_append, List.sum_append]
  by_cases hP : P trade
  · simp [hP]
  · simp [hP]

def tradedShares (side : OrderSide) (accountId : ℤ) (symbol : String)
    (trades : List PaperTrade) : Decimal :=
  totalOver (fun trade => trade.side = side ∧ trade.accountId = accountId ∧ trade.symbol = symbol)
    (·.quantity.value) trades

def spentCash (accountId : ℤ) (currency : Currency) (trades : List PaperTrade) : Decimal :=
  totalOver
    (fun trade => trade.side = .buy ∧ trade.accountId = accountId ∧ trade.currency = currency)
    (fun trade => trade.totalAmount.value + trade.fee.value) trades

def receivedCash (accountId : ℤ) (currency : Currency) (trades : List PaperTrade) : Decimal :=
  totalOver
    (fun trade => trade.side = .sell ∧ trade.accountId = accountId ∧ trade.currency = currency)
    (fun trade => trade.totalAmount.value - trade.fee.value) trades

/-- What the gross amount of a sell lacks for its fee. -/
def PaperTrade.shortfall (trade : PaperTrade) : Decimal :=
  max 0 (trade.fee.value - trade.totalAmount.value)

def cashShortfall (accountId : ℤ) (currency : Currency) (trades : List PaperTrade) : Decimal :=
  totalOver
    (fun trade => trade.side = .sell ∧ trade.accountId = accountId ∧ trade.currency = currency)
    (·.shortfall) trades

def Tables.PositionsPositive (db : Tables) : Prop :=
  ∀ key position, db.positions.get? key = some position → 0 < position.quantity.value

/-- The books of the trades executed since `start`. -/
structure Balanced (start db : Tables) (executed : List PaperTrade) : Prop where
  trades : db.trades = start.trades ++ executed
  positive : db.PositionsPositive
  shares : ∀ accountId symbol, db.held accountId symbol =
    start.held accountId symbol + tradedShares .buy accountId symbol executed -
      tradedShares .sell accountId symbol executed
  cash : ∀ accountId account, start.accounts.get? accountId = some account →
    ∃ now, db.accounts.get? accountId = some now ∧ ∀ currency,
      (now.cash currency).value = (account.cash currency).value -
        spentCash accountId currency executed + receivedCash accountId currency executed

variable {executed : List PaperTrade} {trade : PaperTrade} {start db db' : Tables} {accountId : ℤ}

section Steps

variable {symbol : String}

theorem Tables.PositionsPositive.held_nonneg (h : db.PositionsPositive) (accountId : ℤ)
    (symbol : String) : 0 ≤ db.held accountId symbol := by
  unfold Tables.held
  cases hposition : db.positions.get? (accountId, symbol) with
  | none => simp
  | some position => simpa using (h _ position hposition).le

theorem Executed.positive (h : Executed db trade db') (hpositive : db.PositionsPositive) :
    db'.PositionsPositive := by
  intro key position hposition
  by_cases hkey : key = (trade.accountId, trade.symbol)
  · subst hkey
    cases hside : trade.side with
    | sell => exact h.reduced hside position hposition
    | buy =>
      have hheld := h.held
      simp only [Tables.held, hposition, Option.map_some, Option.getD_some] at hheld
      rw [hheld, PaperTrade.shares, hside]
      have hnonneg := hpositive.held_nonneg trade.accountId trade.symbol
      have hquantity := h.quantity_pos
      simp only [Tables.held] at hnonneg ⊢
      linarith
  · rw [h.elsewhere key hkey] at hposition
    exact hpositive key position hposition

theorem Executed.held_after (h : Executed db trade db') :
    db'.held accountId symbol = db.held accountId symbol +
      if trade.accountId = accountId ∧ trade.symbol = symbol then trade.shares else 0 := by
  by_cases hkey : trade.accountId = accountId ∧ trade.symbol = symbol
  · obtain ⟨rfl, rfl⟩ := hkey
    simpa using h.held
  · have hne : (accountId, symbol) ≠ (trade.accountId, trade.symbol) := by
      rintro ⟨⟩
      exact hkey ⟨rfl, rfl⟩
    simp [Tables.held, h.elsewhere _ hne, hkey]

theorem Executed.cash_after (h : Executed db trade db') {account : PaperAccount}
    (haccount : db.accounts.get? accountId = some account) :
    ∃ now, db'.accounts.get? accountId = some now ∧ ∀ currency,
      (now.cash currency).value = (account.cash currency).value +
        if trade.accountId = accountId ∧ trade.currency = currency then trade.cashFlow else 0 := by
  obtain ⟨moved, cash, hmoved, haccounts, hcash, -⟩ := h.cash
  rw [haccounts, Dict.get?_modify, haccount]
  by_cases hid : accountId = trade.accountId
  · subst hid
    obtain rfl : moved = account := Option.some.inj (hmoved.symm.trans haccount)
    refine ⟨moved.withCash trade.currency cash, by simp, fun currency => ?_⟩
    rw [withCash_cash]
    by_cases hcurrency : currency = trade.currency
    · subst hcurrency
      simpa using hcash
    · simp [hcurrency, Ne.symm hcurrency]
  · exact ⟨account, by simp [hid], fun currency => by simp [Ne.symm hid]⟩

theorem Balanced.refl (hpositive : start.PositionsPositive) : Balanced start start [] where
  trades := (List.append_nil _).symm
  positive := hpositive
  shares := by simp [tradedShares, totalOver]
  cash := by
    intro accountId account haccount
    exact ⟨account, haccount, by simp [spentCash, receivedCash, totalOver]⟩

theorem tradedShares_append (executed : List PaperTrade) (trade : PaperTrade) (accountId : ℤ)
    (symbol : String) :
    tradedShares .buy accountId symbol (executed ++ [trade]) -
        tradedShares .sell accountId symbol (executed ++ [trade]) =
      tradedShares .buy accountId symbol executed -
          tradedShares .sell accountId symbol executed +
        if trade.accountId = accountId ∧ trade.symbol = symbol then trade.shares else 0 := by
  simp only [tradedShares, totalOver_append_singleton, PaperTrade.shares]
  cases trade.side with
  | buy =>
    simp only [true_and, reduceCtorEq, false_and, if_false]
    ring
  | sell =>
    simp only [true_and, reduceCtorEq, false_and, if_false]
    split
    · ring
    · ring

theorem cashFlow_append (executed : List PaperTrade) (trade : PaperTrade) (accountId : ℤ)
    (currency : Currency) :
    receivedCash accountId currency (executed ++ [trade]) -
        spentCash accountId currency (executed ++ [trade]) =
      receivedCash accountId currency executed - spentCash accountId currency executed +
        if trade.accountId = accountId ∧ trade.currency = currency then trade.cashFlow else 0 := by
  simp only [receivedCash, spentCash, totalOver_append_singleton, PaperTrade.cashFlow]
  cases trade.side with
  | buy =>
    simp only [true_and, reduceCtorEq, false_and, if_false]
    split
    · ring
    · ring
  | sell =>
    simp only [true_and, reduceCtorEq, false_and, if_false]
    ring

/-- A trade moves the shares of its own position by its quantity. -/
theorem Balanced.step (hbooks : Balanced start db executed) (h : Executed db trade db') :
    Balanced start db' (executed ++ [trade]) where
  trades := by rw [h.trades, hbooks.trades, List.append_assoc]
  positive := h.positive hbooks.positive
  shares := by
    intro accountId symbol
    have happend := tradedShares_append executed trade accountId symbol
    rw [h.held_after, hbooks.shares]
    linarith
  cash := by
    intro accountId account haccount
    obtain ⟨before, hbefore, hcash⟩ := hbooks.cash accountId account haccount
    obtain ⟨now, hnow, hflow⟩ := h.cash_after hbefore
    refine ⟨now, hnow, fun currency => ?_⟩
    have happend := cashFlow_append executed trade accountId currency
    rw [hflow, hcash]
    linarith

end Steps

section Cash

open Decimal

variable {currency : Currency}

theorem PaperTrade.shortfall_nonneg (trade : PaperTrade) : 0 ≤ trade.shortfall := le_max_left _ _

theorem totalOver_nonneg (P : PaperTrade → Prop) [DecidablePred P] {value : PaperTrade → Decimal}
    (hvalue : ∀ trade, 0 ≤ value trade) (trades : List PaperTrade) :
    0 ≤ totalOver P value trades := by
  apply List.sum_nonneg
  intro x hx
  obtain ⟨trade, -, rfl⟩ := List.mem_map.mp hx
  exact hvalue trade

theorem fee_exact (gross : Numeric 20 4) (rate : Decimal) (hrate : rate.HasPlaces 5)
    (hpos : 0 ≤ rate) (hsize : rate ≤ 1) :
    ctx.mul gross.value rate = gross.value * rate ∧ (gross.value * rate).HasPlaces 9 ∧
      |gross.value * rate| < 10 ^ 16 := by
  have hplaces : (gross.value * rate).HasPlaces 9 := by
    obtain ⟨units, hunits⟩ := gross.places
    obtain ⟨rateUnits, rfl⟩ := hrate
    exact ⟨units * rateUnits, by rw [hunits]; push_cast; ring⟩
  have hbound : |gross.value * rate| < 10 ^ 16 := by
    rw [abs_mul, abs_of_nonneg hpos]
    calc |gross.value| * rate ≤ |gross.value| * 1 := by gcongr
      _ < 10 ^ 16 := by linarith [column_size le_rfl gross]
  exact ⟨ctx_round le_rfl hplaces (hbound.trans (by norm_num)), hplaces, hbound⟩

/-- A sell of a nonnegative gross amount lacks nothing, but for the minimum fee
of the dollar ledger. -/
theorem shortfall_le (hsell : trade.side = .sell) (hgross : 0 ≤ trade.totalAmount.value)
    (hfee : calculateFee trade.instrumentType trade.side trade.totalAmount.value =
      .ok trade.fee.value)
    (hcurrency : trade.currency = positionCurrency trade.instrumentType) :
    trade.shortfall ≤ match trade.currency with
      | .krw => 0
      | .usd => 1 := by
  have hplaces := trade.totalAmount.places
  rw [hsell] at hfee
  rw [hcurrency]
  cases htype : trade.instrumentType with
  | equityKr =>
    rw [htype] at hfee
    obtain ⟨hmul, hmulPlaces, hmulSize⟩ := fee_exact trade.totalAmount (15 / 100000)
      ⟨15, by norm_num⟩ (by norm_num) (by norm_num)
    obtain ⟨htax, htaxPlaces, htaxSize⟩ := fee_exact trade.totalAmount (18 / 10000)
      ⟨180, by norm_num⟩ (by norm_num) (by norm_num)
    have hsum := ctx_round le_rfl (hmulPlaces.add htaxPlaces)
      ((abs_add_le _ _).trans_lt (by linarith))
    simp only [calculateFee, hmul, htax, Context.add, hsum] at hfee
    apply max_le le_rfl
    rw [quantizeMoney_ok hfee, sub_nonpos]
    exact quantizeHalfUp_le (by positivity) hplaces (by linarith)
  | equityUs =>
    rw [htype] at hfee
    obtain ⟨hmul, -, -⟩ := fee_exact trade.totalAmount (7 / 10000)
      ⟨70, by norm_num⟩ (by norm_num) (by norm_num)
    simp only [calculateFee, hmul] at hfee
    have hone : HasPlaces 4 1 := ⟨10 ^ 4, by norm_num⟩
    apply max_le zero_le_one
    rw [quantizeMoney_ok hfee, sub_le_iff_le_add]
    refine quantizeHalfUp_le (by positivity) (hone.add hplaces) ?_
    exact max_le (by linarith) (by linarith)
  | crypto =>
    rw [htype] at hfee
    obtain ⟨hmul, -, -⟩ := fee_exact trade.totalAmount (5 / 10000)
      ⟨50, by norm_num⟩ (by norm_num) (by norm_num)
    simp only [calculateFee, hmul] at hfee
    apply max_le le_rfl
    rw [quantizeMoney_ok hfee, sub_nonpos]
    exact quantizeHalfUp_le (by positivity) hplaces (by linarith)
  | forex => simp [htype, calculateFee] at hfee
  | index => simp [htype, calculateFee] at hfee

def CashBounded (db : Tables) (executed : List PaperTrade) : Prop :=
  ∀ accountId account, db.accounts.get? accountId = some account → ∀ currency,
    -cashShortfall accountId currency executed ≤ (account.cash currency).value

theorem cashShortfall_append (trade : PaperTrade) :
    cashShortfall accountId currency (executed ++ [trade]) =
      cashShortfall accountId currency executed +
        if trade.side = .sell ∧ trade.accountId = accountId ∧ trade.currency = currency then
          trade.shortfall else 0 :=
  totalOver_append_singleton _ _ _ _

/-- Only a sell that falls short of its costs takes the cash below zero. -/
theorem CashBounded.step (hbounded : CashBounded db executed) (h : Executed db trade db') :
    CashBounded db' (executed ++ [trade]) := by
  intro accountId now hnow currency
  obtain ⟨moved, cash, hmoved, haccounts, hcash, hafford⟩ := h.cash
  have hsum : 0 ≤ cashShortfall accountId currency executed :=
    totalOver_nonneg _ PaperTrade.shortfall_nonneg executed
  have hshort := trade.shortfall_nonneg
  rw [cashShortfall_append]
  rw [haccounts, Dict.get?_modify] at hnow
  split at hnow
  next hid =>
    subst hid
    rw [hmoved] at hnow
    cases hnow
    have hbefore := hbounded _ moved hmoved currency
    rw [withCash_cash]
    by_cases hcurrency : currency = trade.currency
    · subst hcurrency
      rw [if_pos rfl]
      cases hside : trade.side with
      | buy =>
        have hnonneg := hafford hside
        simp only [reduceCtorEq, false_and, if_false]
        linarith
      | sell =>
        have hlack : trade.fee.value - trade.totalAmount.value ≤ trade.shortfall :=
          le_max_right _ _
        rw [hcash, PaperTrade.cashFlow, hside]
        simp only [and_self, if_true]
        linarith
    · rw [if_neg hcurrency, if_neg (fun hsame => hcurrency hsame.2.2.symm)]
      linarith
  next hid =>
    have hbefore := hbounded accountId now hnow currency
    rw [if_neg (fun hsame => hid hsame.2.1.symm)]
    linarith

end Cash

section Runs

variable {resolveMarketType : String → Option (InstrumentType × String)} {start : Tables}

theorem runOrders_snoc (orders : List OrderCall) (o : OrderCall) :
    runOrders resolveMarketType start (orders ++ [o]) =
      (placeOrder resolveMarketType o).after (runOrders resolveMarketType start orders) := by
  simp [runOrders]

variable (resolveMarketType) in
theorem runOrders_invariant {P : Tables → List PaperTrade → Prop} (hstart : P start [])
    (hstep : ∀ db trade db' executed, Executed db trade db' → P db executed →
      P db' (executed ++ [trade])) (orders : List OrderCall) :
    ∃ executed, P (runOrders resolveMarketType start orders) executed := by
  induction orders using List.reverseRecOn with
  | nil => exact ⟨[], hstart⟩
  | append_singleton orders o ih =>
    obtain ⟨executed, hP⟩ := ih
    rw [runOrders_snoc]
    rcases placeOrder_after o with hsame | ⟨p, trade, -, -, hexecuted⟩
    · rw [hsame]
      exact ⟨executed, hP⟩
    · exact ⟨executed ++ [trade], hstep _ trade _ executed hexecuted hP⟩

end Runs

theorem no_units : |((0 : ℤ) / 10 ^ 4 : ℚ)| < 10 ^ (20 - 4) := by norm_num

def smallAccount : PaperAccount where
  cashKrw := .ofUnits 0 no_units
  cashUsd := .ofUnits 15000 (by norm_num)

def smallTables : Tables where
  accounts := Dict.empty.set 1 smallAccount
  positions := .empty
  trades := []
  managed := []
  orders := .empty

def usOnly (symbol : String) : Option (InstrumentType × String) := some (.equityUs, symbol)

def hundredth (side : String) : OrderCall where
  accountId := 1
  symbol := "AAPL"
  side := side
  orderType := "limit"
  quantity := some (1 / 100)
  price := some 50

theorem smallTables_positive : smallTables.PositionsPositive := by
  intro key position h
  simp [smallTables] at h

theorem smallTables_nonneg (accountId : ℤ) (account : PaperAccount)
    (h : smallTables.accounts.get? accountId = some account) (currency : Currency) :
    0 ≤ (account.cash currency).value := by
  simp only [smallTables, Dict.get?_set, Dict.get?_empty] at h
  split at h
  · cases h
    cases currency with
    | krw => norm_num [cash, smallAccount, Numeric.ofUnits]
    | usd => norm_num [cash, smallAccount, Numeric.ofUnits]
  · cases h

end KAssetTrader.Paper
