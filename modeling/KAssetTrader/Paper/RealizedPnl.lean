import KAssetTrader.Library.Precision
import KAssetTrader.Paper.Booking

/-!
The realized profit of the sells of one symbol against the cash that its trades moved. What
a position has invested is kept next to its average price, so the cash and the invested
amount together follow the profits and the fees but for the roundings: that of the average
price, which a later sell multiplies by its quantity, and those of the amounts of money.
-/

namespace KAssetTrader.Paper

open Decimal

variable {position : PaperPosition}

section Roundings

def halfUnit : Decimal := 1 / 2 / 10 ^ 4

/-- What the roundings of one trade to units of money may move, with those of the working
context. -/
def moneyRounding : Decimal := 1 / 10 ^ 4 + 1 / 10 ^ 9

theorem ctx_close (x : Decimal) : |ctx.round x - x| ≤ 5 / 10 ^ 28 * |x| := by
  have hwithin := (Context.digits_within (show 3 ≤ precision by decide)).close x
  norm_num [precision] at hwithin ⊢
  exact hwithin

theorem abs_le_of_round (x : Decimal) : |x| ≤ |ctx.round x| + 5 / 10 ^ 28 * |x| := by
  have hclose := ctx_close x
  have htriangle := abs_sub_abs_le_abs_sub x (ctx.round x)
  rw [abs_sub_comm] at htriangle
  linarith

theorem quantizeMoney_close {x y : Decimal} (h : quantizeMoney x = .ok y) : |y - x| ≤ halfUnit := by
  rw [quantizeMoney_ok h]
  exact abs_quantizeHalfUp_sub_le 4 x

variable {gross fee pnl invested left : Numeric 20 4} {quantity : Decimal}

/-- The cost of a sell whose profit fits its column, and its profit. -/
theorem realized_close
    (h : realized position gross.value quantity fee.value = .ok pnl.value) :
    |position.avgPrice.value * quantity| ≤ 10 ^ 17 ∧
      |pnl.value - (gross.value - position.avgPrice.value * quantity - fee.value)| ≤
        moneyRounding / 2 := by
  have hmoney := quantizeMoney_close h
  unfold Context.sub Context.mul at hmoney
  generalize hcost : position.avgPrice.value * quantity = cost at *
  generalize hrounded : ctx.round cost = rounded at *
  have hcostClose := ctx_close cost
  have hcostSize := abs_le_of_round cost
  have hlessClose := ctx_close (gross.value - rounded)
  have hlessSize := abs_le_of_round (gross.value - rounded)
  generalize hless : ctx.round (gross.value - rounded) = less at *
  have hnetClose := ctx_close (less - fee.value)
  have hnetSize := abs_le_of_round (less - fee.value)
  generalize hnet : ctx.round (less - fee.value) = net at *
  rw [hrounded] at hcostClose hcostSize
  have hgrossSize := column_size le_rfl gross
  have hfeeSize := column_size le_rfl fee
  have hpnlSize := column_size le_rfl pnl
  have hnetBound : |net| ≤ |pnl.value| + |pnl.value - net| := by
    have := abs_sub_abs_le_abs_sub net pnl.value
    rw [abs_sub_comm] at this
    linarith
  have hlessBound : |less| ≤ |less - fee.value| + |fee.value| := by
    have := abs_sub_abs_le_abs_sub less fee.value
    linarith
  have hroundedBound : |rounded| ≤ |gross.value - rounded| + |gross.value| := by
    have := abs_sub_abs_le_abs_sub rounded gross.value
    rw [abs_sub_comm] at this
    linarith
  norm_num [halfUnit] at *
  constructor
  · linarith
  · have hmoneySides := abs_le.mp hmoney
    rw [abs_le] at hcostClose hlessClose hnetClose ⊢
    norm_num [moneyRounding]
    constructor <;> linarith

theorem left_close (hcost : |position.avgPrice.value * quantity| ≤ 10 ^ 17)
    (h : quantizeMoney (ctx.sub invested.value (ctx.mul position.avgPrice.value quantity)) =
      .ok left.value) :
    |left.value - (invested.value - position.avgPrice.value * quantity)| ≤ moneyRounding / 2 := by
  have hmoney := quantizeMoney_close h
  unfold Context.sub Context.mul at hmoney
  generalize position.avgPrice.value * quantity = cost at *
  have hcostClose := ctx_close cost
  generalize hrounded : ctx.round cost = rounded at *
  have hleftClose := ctx_close (invested.value - rounded)
  generalize hleft : ctx.round (invested.value - rounded) = less at *
  have hinvestedSize := column_size le_rfl invested
  have hroundedBound : |rounded| ≤ |cost| + |rounded - cost| := by
    have := abs_sub_abs_le_abs_sub rounded cost
    linarith
  have hlessBound : |invested.value - rounded| ≤ |invested.value| + |rounded| := abs_sub _ _
  norm_num [halfUnit] at *
  rw [abs_le] at hmoney hleftClose ⊢
  have hcostClose := abs_le.mp hcostClose
  norm_num [moneyRounding]
  constructor <;> linarith

variable {shares average : Numeric 20 8}

/-- The cost of a first buy at the price that its position keeps. -/
theorem opened_close {price : Decimal} (hshares : 0 < shares.value)
    (hgross : quantizeMoney (ctx.mul shares.value price) = .ok gross.value)
    (haverage : average.value = price.quantizeHalfUp 8) :
    |average.value * shares.value - gross.value| ≤ halfUnit * shares.value + moneyRounding := by
  have hmoney := quantizeMoney_close hgross
  unfold Context.mul at hmoney
  have hprice : |average.value - price| ≤ 1 / 2 / 10 ^ 8 := by
    rw [haverage]
    exact abs_quantizeHalfUp_sub_le 8 price
  have hkept : |(average.value - price) * shares.value| ≤ 1 / 2 / 10 ^ 8 * shares.value := by
    rw [abs_mul, abs_of_pos hshares]
    gcongr
  have hcostClose := ctx_close (shares.value * price)
  have hcostSize := abs_le_of_round (shares.value * price)
  generalize hrounded : ctx.round (shares.value * price) = rounded at *
  have hgrossSize := column_size le_rfl gross
  have hroundedBound : |rounded| ≤ |gross.value| + |gross.value - rounded| := by
    have := abs_sub_abs_le_abs_sub rounded gross.value
    rw [abs_sub_comm] at this
    linarith
  have hmoneySides := abs_le.mp hmoney
  have hkept := abs_le.mp hkept
  have hcostClose := abs_le.mp hcostClose
  rw [abs_le]
  norm_num [halfUnit, moneyRounding] at *
  constructor <;> linarith

theorem averaged_close (hshares : 0 < shares.value)
    (h : quantizeMoney (ctx.div invested.value shares.value) = .ok average.value) :
    |average.value * shares.value - invested.value| ≤ halfUnit * shares.value + moneyRounding := by
  have hmoney := quantizeMoney_close h
  unfold Context.div at hmoney
  have hratioClose := ctx_close (invested.value / shares.value)
  have hinvestedSize := column_size le_rfl invested
  have hclose : |average.value - invested.value / shares.value| ≤
      halfUnit + 5 / 10 ^ 28 * |invested.value / shares.value| :=
    (abs_sub_le _ (ctx.round (invested.value / shares.value)) _).trans
      (add_le_add hmoney hratioClose)
  have hscaled : average.value * shares.value - invested.value =
      (average.value - invested.value / shares.value) * shares.value := by
    rw [sub_mul, div_mul_cancel₀ _ hshares.ne']
  have hratio : |invested.value / shares.value| * shares.value = |invested.value| := by
    rw [abs_div, abs_of_pos hshares, div_mul_cancel₀ _ hshares.ne']
  rw [hscaled, abs_mul, abs_of_pos hshares]
  calc |average.value - invested.value / shares.value| * shares.value
      ≤ (halfUnit + 5 / 10 ^ 28 * |invested.value / shares.value|) * shares.value := by gcongr
    _ = halfUnit * shares.value + 5 / 10 ^ 28 * |invested.value| := by
        rw [add_mul, mul_assoc, hratio]
    _ ≤ halfUnit * shares.value + moneyRounding := by
        norm_num [moneyRounding] at hinvestedSize ⊢
        linarith

end Roundings

variable {trade : PaperTrade}

section Cycles

def investedIn (position : Option PaperPosition) : Decimal :=
  (position.map (·.totalInvested.value)).getD 0

/-- What the average price of a position says beyond what it has invested. -/
def PaperPosition.drift (position : PaperPosition) : Decimal :=
  position.avgPrice.value * position.quantity.value - position.totalInvested.value

/-- The profit of a trade: that of a sell, or minus the fee of a buy. -/
def PaperTrade.profit (trade : PaperTrade) : Decimal :=
  match trade.side with
  | .buy => -trade.fee.value
  | .sell => (trade.realizedPnl.map (·.value)).getD 0

/-- What a trade moved in cash and invested beyond its profit. -/
def residue (trade : PaperTrade) (before after : Option PaperPosition) : Decimal :=
  trade.cashFlow + investedIn after - investedIn before - trade.profit

def PaperTrade.sold (trade : PaperTrade) : Decimal :=
  match trade.side with
  | .buy => 0
  | .sell => trade.quantity.value

/-- How far the residues of some trades have come. While a position is held, the drift that it
had after its last buy counts against the shares that are still to be sold. -/
inductive Close (total sold : Decimal) (count : ℕ) : Option PaperPosition → Prop
  | flat : |total| ≤ halfUnit * sold + count * moneyRounding → Close total sold count none
  | held {position : PaperPosition} (start soldSince : Decimal) (sells : ℕ) :
      0 < position.quantity.value →
      |total + position.drift - start| ≤
        halfUnit * (sold - soldSince) + (count - 1 - sells / 2) * moneyRounding →
      |position.drift - start| ≤ sells / 2 * moneyRounding →
      |start| ≤ halfUnit * (position.quantity.value + soldSince) + moneyRounding →
      0 ≤ soldSince → Close total sold count (some position)

variable {total sold : Decimal} {count : ℕ} {before after : Option PaperPosition}

theorem Close.bound (h : Close total sold count before) (hclosed : before = none) :
    |total| ≤ halfUnit * sold + count * moneyRounding := by
  cases h with
  | flat hbound => exact hbound
  | held => cases hclosed

/-- A trade keeps the bounds: a buy has no residue, and a sell the roundings of its profit and
of what it leaves invested. -/
theorem Close.step (h : Close total sold count before) (hbooked : Booked trade before after)
    (hpos : 0 < trade.quantity.value) :
    Close (total + residue trade before after) (sold + trade.sold) (count + 1) after := by
  have hunit : 0 < moneyRounding := by norm_num [moneyRounding]
  have hhalf : 0 < halfUnit := by norm_num [halfUnit]
  cases hbooked with
  | @opened position price hside hgross hprice hquantity haverage hinvested =>
    have hresidue : residue trade none (some position) = 0 := by
      simp only [residue, PaperTrade.cashFlow, PaperTrade.profit, hside, investedIn, hinvested,
        Option.map_some, Option.map_none, Option.getD_some, Option.getD_none]
      ring
    have hsold : trade.sold = 0 := by simp only [PaperTrade.sold, hside]
    have hstart := opened_close hpos hgross hprice
    rw [← haverage, ← hquantity, ← hinvested] at hstart
    cases h with
    | flat hbound =>
      rw [hresidue, hsold, add_zero, add_zero]
      refine .held position.drift 0 0 (hquantity ▸ hpos) ?_ ?_ ?_ le_rfl
      · push_cast
        rw [add_sub_cancel_right]
        linarith
      · simp
      · rw [add_zero]
        exact hstart
  | @averaged old position hside hquantity hinvested haverage =>
    have hresidue : residue trade (some old) (some position) = 0 := by
      simp only [residue, PaperTrade.cashFlow, PaperTrade.profit, hside, investedIn, hinvested,
        Option.map_some, Option.getD_some]
      ring
    have hsold : trade.sold = 0 := by simp only [PaperTrade.sold, hside]
    cases h with
    | held start soldSince sells hheld htotal hdrift hstart hsince =>
      have hmore : 0 < position.quantity.value := by
        rw [hquantity]
        exact add_pos hheld hpos
      rw [hresidue, hsold, add_zero, add_zero]
      refine .held position.drift 0 0 hmore ?_ ?_ ?_ le_rfl
      · have hall : |total| ≤ |total + old.drift - start| + |old.drift - start| := by
          have hsplit : total = total + old.drift - start - (old.drift - start) := by ring
          calc |total| = |total + old.drift - start - (old.drift - start)| := by rw [← hsplit]
            _ ≤ |total + old.drift - start| + |old.drift - start| := abs_sub _ _
        have hless : 0 ≤ halfUnit * soldSince := mul_nonneg hhalf.le hsince
        push_cast
        rw [add_sub_cancel_right]
        linarith
      · simp
      · rw [add_zero]
        exact averaged_close hmore haverage
  | @closed old pnl hside hrealized hpnl hall =>
    obtain ⟨-, hpnlClose⟩ := realized_close hpnl
    have hresidue : residue trade (some old) none = old.drift - (pnl.value -
        (trade.totalAmount.value - old.avgPrice.value * trade.quantity.value -
          trade.fee.value)) := by
      simp only [residue, PaperTrade.cashFlow, PaperTrade.profit, hside, hrealized, investedIn,
        Option.map_some, Option.map_none, Option.getD_some, Option.getD_none,
        PaperPosition.drift, hall]
      ring
    have hsold : trade.sold = trade.quantity.value := by simp only [PaperTrade.sold, hside]
    cases h with
    | held start soldSince sells hheld htotal hdrift hstart hsince =>
      refine .flat ?_
      rw [hresidue, hsold, ← hall]
      rw [← hall] at hpnlClose
      generalize pnl.value - (trade.totalAmount.value -
        old.avgPrice.value * old.quantity.value - trade.fee.value) = rounding at *
      have hsum : |total + (old.drift - rounding)| ≤
          |total + old.drift - start| + |start| + |rounding| := by
        have hsplit : total + (old.drift - rounding) =
            total + old.drift - start + start - rounding := by ring
        rw [hsplit]
        exact (abs_sub _ _).trans (add_le_add_left (abs_add_le _ _) _)
      have hsells : (0 : ℚ) ≤ sells / 2 * moneyRounding := by positivity
      push_cast
      linarith
  | @reduced old position pnl hside hrealized hpnl hquantity hleft haverage hinvested =>
    obtain ⟨hcost, hpnlClose⟩ := realized_close hpnl
    have hleftClose := left_close hcost hinvested
    have hsold : trade.sold = trade.quantity.value := by simp only [PaperTrade.sold, hside]
    have hdriftStep : position.drift = old.drift - (position.totalInvested.value -
        (old.totalInvested.value - old.avgPrice.value * trade.quantity.value)) := by
      simp only [PaperPosition.drift, haverage, hquantity]
      ring
    have hresidue : residue trade (some old) (some position) + position.drift =
        old.drift - (pnl.value - (trade.totalAmount.value -
          old.avgPrice.value * trade.quantity.value - trade.fee.value)) := by
      rw [hdriftStep]
      simp only [residue, PaperTrade.cashFlow, PaperTrade.profit, hside, hrealized, investedIn,
        Option.map_some, Option.getD_some]
      ring
    cases h with
    | held start soldSince sells hheld htotal hdrift hstart hsince =>
      generalize pnl.value - (trade.totalAmount.value -
        old.avgPrice.value * trade.quantity.value - trade.fee.value) = rounding at *
      generalize position.totalInvested.value - (old.totalInvested.value -
        old.avgPrice.value * trade.quantity.value) = moved at *
      refine .held start (soldSince + trade.quantity.value) (sells + 1) hleft ?_ ?_ ?_
        (by linarith)
      · have hsplit : total + residue trade (some old) (some position) + position.drift -
            start = total + old.drift - start - rounding := by linarith
        rw [hsplit, hsold]
        have hsum := abs_sub (total + old.drift - start) rounding
        push_cast
        linarith
      · rw [hdriftStep]
        have hsplit : old.drift - moved - start = old.drift - start - moved := by ring
        rw [hsplit]
        have hsum := abs_sub (old.drift - start) moved
        push_cast
        linarith
      · rw [hquantity]
        have hsplit : old.quantity.value - trade.quantity.value +
            (soldSince + trade.quantity.value) = old.quantity.value + soldSince := by ring
        rw [hsplit]
        exact hstart

end Cycles

section SingleBuys

def sharesLeft (trades : List PaperTrade) : Decimal := (trades.map (·.shares)).sum

def lastBuyPrice (trades : List PaperTrade) : Decimal :=
  ((trades.filter (·.side = .buy)).getLast?.map (·.price.value)).getD 0

/-- Each buy opens a position, and the products of the buy price with the quantities bought and
sold are whole numbers of units of money. -/
def SingleBuys (trades : List PaperTrade) : Prop :=
  ∀ before trade later, trades = before ++ trade :: later →
    match trade.side with
    | .buy => sharesLeft before = 0 ∧
        trade.totalAmount.value = trade.price.value * trade.quantity.value
    | .sell => HasPlaces 4 (lastBuyPrice before * trade.quantity.value)

variable {trade : PaperTrade} {sold : Numeric 20 8}

theorem SingleBuys.before {trades : List PaperTrade} (h : SingleBuys (trades ++ [trade])) :
    SingleBuys trades := by
  rintro before other later rfl
  exact h before other (later ++ [trade]) (by simp)

theorem sharesLeft_append (trades : List PaperTrade) (trade : PaperTrade) :
    sharesLeft (trades ++ [trade]) = sharesLeft trades + trade.shares := by
  simp [sharesLeft]

theorem lastBuyPrice_buy (trades : List PaperTrade) (h : trade.side = .buy) :
    lastBuyPrice (trades ++ [trade]) = trade.price.value := by
  simp [lastBuyPrice, List.filter_append, h]

theorem lastBuyPrice_sell (trades : List PaperTrade) (h : trade.side = .sell) :
    lastBuyPrice (trades ++ [trade]) = lastBuyPrice trades := by
  simp [lastBuyPrice, List.filter_append, h]

/-- The books of trades without any rounding: no residue, and a position that has invested its
shares at the price of its buy. -/
inductive Exact (total : Decimal) (trades : List PaperTrade) : Option PaperPosition → Prop
  | flat : total = 0 → sharesLeft trades = 0 → Exact total trades none
  | held {position : PaperPosition} : total = 0 → 0 < position.quantity.value →
      sharesLeft trades = position.quantity.value →
      position.avgPrice.value = lastBuyPrice trades → position.drift = 0 →
      Exact total trades (some position)

theorem cost_exact (hplaces : HasPlaces 4 (position.avgPrice.value * sold.value))
    (hpos : 0 < sold.value) (hcovered : sold.value ≤ position.quantity.value)
    (hdrift : position.drift = 0) :
    ctx.mul position.avgPrice.value sold.value = position.avgPrice.value * sold.value ∧
      |position.avgPrice.value * sold.value| < 10 ^ 16 := by
  have hsize : |position.avgPrice.value * sold.value| < 10 ^ 16 := by
    calc |position.avgPrice.value * sold.value|
        = |position.avgPrice.value| * sold.value := by rw [abs_mul, abs_of_pos hpos]
      _ ≤ |position.avgPrice.value| * position.quantity.value := by gcongr
      _ = |position.totalInvested.value| := by
          rw [← abs_of_pos (hpos.trans_le hcovered), ← abs_mul, sub_eq_zero.mp hdrift]
      _ < 10 ^ 16 := column_size le_rfl _
  exact ⟨ctx_round (by norm_num) hplaces (hsize.trans (by norm_num)), hsize⟩

theorem realized_exact {gross fee : Numeric 20 4} {pnl cost : Decimal}
    (hcost : ctx.mul position.avgPrice.value sold.value = cost) (hplaces : HasPlaces 4 cost)
    (hsize : |cost| < 10 ^ 16) (h : realized position gross.value sold.value fee.value = .ok pnl) :
    pnl = gross.value - cost - fee.value := by
  have hgross := column_size le_rfl gross
  have hfee := column_size le_rfl fee
  have hless : |gross.value - cost| < 2 * 10 ^ 16 := (abs_sub _ _).trans_lt (by linarith)
  have hlessPlaces := gross.places.sub hplaces
  have hnet : |gross.value - cost - fee.value| < 10 ^ 19 := (abs_sub _ _).trans_lt (by linarith)
  have hnetPlaces := hlessPlaces.sub fee.places
  unfold realized Context.sub at h
  rw [hcost, ctx_round (by norm_num) hlessPlaces (by linarith),
    ctx_round (by norm_num) hnetPlaces hnet] at h
  exact quantizeMoney_exact hnetPlaces h

variable {total : Decimal} {trades : List PaperTrade} {before after : Option PaperPosition}

/-- Where every buy was sold before the next one, a trade leaves no residue. -/
theorem Exact.step (h : Exact total trades before) (hbooked : Booked trade before after)
    (hpos : 0 < trade.quantity.value) (hsingle : SingleBuys (trades ++ [trade])) :
    Exact (total + residue trade before after) (trades ++ [trade]) after := by
  have hplain := hsingle trades trade [] rfl
  cases hbooked with
  | @opened position price hside hgross hprice hquantity haverage hinvested =>
    rw [hside] at hplain
    obtain ⟨hnone, hproduct⟩ := hplain
    have hresidue : residue trade none (some position) = 0 := by
      simp only [residue, PaperTrade.cashFlow, PaperTrade.profit, hside, investedIn, hinvested,
        Option.map_some, Option.map_none, Option.getD_some, Option.getD_none]
      ring
    cases h with
    | flat htotal =>
      refine .held (by rw [hresidue, htotal, add_zero]) (hquantity ▸ hpos) ?_ ?_ ?_
      · rw [sharesLeft_append, hnone, zero_add, PaperTrade.shares, hside, hquantity]
      · rw [lastBuyPrice_buy trades hside, haverage]
      · rw [PaperPosition.drift, haverage, hquantity, hinvested, hproduct, sub_self]
  | @averaged old position hside hquantity hinvested haverage =>
    rw [hside] at hplain
    cases h with
    | held htotal hheld hshares => exact absurd hplain.1 (hshares ▸ hheld.ne')
  | @closed old pnl hside hrealized hpnl hall =>
    rw [hside] at hplain
    cases h with
    | held htotal hheld hshares haverage hdrift =>
      simp only at hplain
      rw [← haverage] at hplain
      obtain ⟨hcost, hsize⟩ := cost_exact hplain hpos hall.ge hdrift
      have hprofit := realized_exact hcost hplain hsize hpnl
      have hspent : old.avgPrice.value * trade.quantity.value = old.totalInvested.value := by
        rw [← hall]
        exact sub_eq_zero.mp hdrift
      refine .flat ?_ ?_
      · simp only [residue, PaperTrade.cashFlow, PaperTrade.profit, hside, hrealized,
          investedIn, Option.map_some, Option.map_none, Option.getD_some, Option.getD_none]
        rw [htotal, hprofit, hspent]
        ring
      · rw [sharesLeft_append, hshares, PaperTrade.shares, hside, hall]
        ring
  | @reduced old position pnl hside hrealized hpnl hquantity hleft haverage hinvested =>
    rw [hside] at hplain
    cases h with
    | held htotal hheld hshares hprice hdrift =>
      simp only at hplain
      rw [← hprice] at hplain
      have hcovered : trade.quantity.value ≤ old.quantity.value := by linarith
      obtain ⟨hcost, hsize⟩ := cost_exact hplain hpos hcovered hdrift
      have hprofit := realized_exact hcost hplain hsize hpnl
      have hinvestedSize := column_size le_rfl old.totalInvested
      have hplaces := old.totalInvested.places.sub hplain
      have hrest : |old.totalInvested.value - old.avgPrice.value * trade.quantity.value| <
          10 ^ 19 := (abs_sub _ _).trans_lt (by linarith)
      rw [hcost, Context.sub, ctx_round (by norm_num) hplaces hrest] at hinvested
      have hremains := quantizeMoney_exact hplaces hinvested
      refine .held ?_ hleft ?_ ?_ ?_
      · simp only [residue, PaperTrade.cashFlow, PaperTrade.profit, hside, hrealized,
          investedIn, Option.map_some, Option.getD_some]
        rw [htotal, hprofit, hremains]
        ring
      · rw [sharesLeft_append, hshares, PaperTrade.shares, hside, hquantity]
        ring
      · rw [lastBuyPrice_sell trades hside, haverage, hprice]
      · unfold PaperPosition.drift at hdrift ⊢
        rw [haverage, hquantity, hremains, mul_sub]
        linarith

end SingleBuys

section Runs

def realizedTotal (trades : List PaperTrade) : Decimal :=
  totalOver (·.side = .sell) (fun trade => (trade.realizedPnl.map (·.value)).getD 0) trades

def buyFees (trades : List PaperTrade) : Decimal :=
  totalOver (·.side = .buy) (·.fee.value) trades

def soldShares (trades : List PaperTrade) : Decimal :=
  totalOver (·.side = .sell) (·.quantity.value) trades

theorem profit_append (trades : List PaperTrade) (trade : PaperTrade) :
    realizedTotal (trades ++ [trade]) - buyFees (trades ++ [trade]) =
      realizedTotal trades - buyFees trades + trade.profit := by
  unfold realizedTotal buyFees PaperTrade.profit
  rw [totalOver_append_singleton, totalOver_append_singleton]
  cases trade.side with
  | buy =>
    simp only [reduceCtorEq, if_false, if_true]
    ring
  | sell =>
    simp only [reduceCtorEq, if_false, if_true]
    ring

theorem soldShares_append (trades : List PaperTrade) (trade : PaperTrade) :
    soldShares (trades ++ [trade]) = soldShares trades + trade.sold := by
  unfold soldShares PaperTrade.sold
  rw [totalOver_append_singleton]
  cases trade.side with
  | buy => simp
  | sell => simp

def OneSymbol (resolveMarketType : String → Option (InstrumentType × String)) (accountId : ℤ)
    (instrumentType : InstrumentType) (symbol : String) (orders : List OrderCall) : Prop :=
  ∀ o ∈ orders, o.accountId = accountId ∧
    resolveMarketType o.symbol = some (instrumentType, symbol)

variable {resolveMarketType : String → Option (InstrumentType × String)} {start : Tables}
  {accountId : ℤ} {instrumentType : InstrumentType} {symbol : String} {account : PaperAccount}

/-- The books of one symbol after some trades since its account held `account`. -/
structure Reconciled (start db : Tables) (accountId : ℤ) (currency : Currency) (symbol : String)
    (account : PaperAccount) (executed : List PaperTrade) where
  now : PaperAccount
  found : db.accounts.get? accountId = some now
  trades : db.trades = start.trades ++ executed
  close : Close ((now.cash currency).value - (account.cash currency).value +
      investedIn (db.positions.get? (accountId, symbol)) -
      (realizedTotal executed - buyFees executed))
    (soldShares executed) executed.length (db.positions.get? (accountId, symbol))
  exact : SingleBuys executed →
    Exact ((now.cash currency).value - (account.cash currency).value +
        investedIn (db.positions.get? (accountId, symbol)) -
        (realizedTotal executed - buyFees executed))
      executed (db.positions.get? (accountId, symbol))

/-- The books are reconciled after one trade more of the symbol. -/
theorem Reconciled.step {db db' : Tables} {currency : Currency} {executed : List PaperTrade}
    {trade : PaperTrade} (h : Reconciled start db accountId currency symbol account executed)
    (hexecuted : Executed db trade db') (haccountId : trade.accountId = accountId)
    (hcurrency : trade.currency = currency)
    (hbooked : Booked trade (db.positions.get? (accountId, symbol))
      (db'.positions.get? (accountId, symbol))) :
    Nonempty (Reconciled start db' accountId currency symbol account (executed ++ [trade])) := by
  obtain ⟨now, hnow, hcash⟩ := hexecuted.cash_after h.found
  have hmoved := hcash currency
  rw [if_pos ⟨haccountId, hcurrency⟩] at hmoved
  have htotal : (now.cash currency).value - (account.cash currency).value +
      investedIn (db'.positions.get? (accountId, symbol)) -
      (realizedTotal (executed ++ [trade]) - buyFees (executed ++ [trade])) =
      (h.now.cash currency).value - (account.cash currency).value +
      investedIn (db.positions.get? (accountId, symbol)) -
      (realizedTotal executed - buyFees executed) +
      residue trade (db.positions.get? (accountId, symbol))
        (db'.positions.get? (accountId, symbol)) := by
    rw [profit_append, hmoved]
    unfold residue
    ring
  have hpos := hexecuted.quantity_pos
  refine ⟨⟨now, hnow, by rw [hexecuted.trades, h.trades, List.append_assoc], ?_, ?_⟩⟩
  · rw [htotal, soldShares_append, List.length_append, List.length_singleton]
    exact h.close.step hbooked hpos
  · intro hsingle
    rw [htotal]
    exact (h.exact hsingle.before).step hbooked hpos hsingle

theorem runOrders_reconciled (haccount : start.accounts.get? accountId = some account)
    (hflat : start.positions.get? (accountId, symbol) = none) {orders : List OrderCall}
    (horders : OneSymbol resolveMarketType accountId instrumentType symbol orders) :
    ∃ executed, Nonempty (Reconciled start (runOrders resolveMarketType start orders) accountId
      (positionCurrency instrumentType) symbol account executed) := by
  induction orders using List.reverseRecOn with
  | nil =>
    refine ⟨[], ⟨⟨account, haccount, (List.append_nil _).symm, ?_, fun _ => ?_⟩⟩⟩
    · change Close _ _ _ (start.positions.get? (accountId, symbol))
      rw [hflat]
      refine .flat ?_
      simp [runOrders, hflat, investedIn, realizedTotal, buyFees, soldShares, totalOver]
    · change Exact _ _ (start.positions.get? (accountId, symbol))
      rw [hflat]
      refine .flat ?_ rfl
      simp [runOrders, hflat, investedIn, realizedTotal, buyFees, totalOver]
  | append_singleton orders o ih =>
    obtain ⟨executed, ⟨hbooks⟩⟩ := ih fun other hmem => horders other (List.mem_append_left _ hmem)
    obtain ⟨haccountId, hresolve⟩ := horders o (by simp)
    rw [runOrders_snoc]
    rcases placeOrder_booked o with hsame | ⟨p, trade, hp, htrade, hexecuted, hbooked⟩
    · rw [hsame]
      exact ⟨executed, ⟨hbooks⟩⟩
    · obtain ⟨hpriced, -, hresolved, -⟩ := previewOrder_ok hp
      rw [hresolve, Option.some.injEq, Prod.mk.injEq] at hresolved
      obtain ⟨htype, hsymbol⟩ := hresolved
      have hid := htrade.accountId.trans haccountId
      have hname := htrade.symbol.trans hsymbol.symm
      have hcurrency : trade.currency = positionCurrency instrumentType := by
        rw [htrade.currency, hpriced.currency, htype]
      rw [hid, hname] at hbooked
      exact ⟨executed ++ [trade], hbooks.step hexecuted hid hcurrency hbooked⟩

end Runs

def fiveDollars : PaperAccount where
  cashKrw := .ofUnits 0 no_units
  cashUsd := .ofUnits 50000 (by norm_num)

def fiveDollarTables : Tables where
  accounts := Dict.empty.set 1 fiveDollars
  positions := .empty
  trades := []
  managed := []
  orders := .empty

def dollarOrder (side : String) (quantity price : Decimal) : OrderCall where
  accountId := 1
  symbol := "AAPL"
  side := side
  orderType := "limit"
  quantity := some quantity
  price := some price

def wholeShare : List OrderCall := [dollarOrder "buy" 1 1, dollarOrder "sell" 1 2]

/-- A share for a price of four decimals, sold in halves. -/
def twoHalves : List OrderCall :=
  [dollarOrder "buy" 1 (10001 / 10000), dollarOrder "sell" (1 / 2) 2, dollarOrder "sell" (1 / 2) 2]

theorem singleBuys_pair {bought sold : PaperTrade} (hbuy : bought.side = .buy)
    (hsell : sold.side = .sell)
    (hgross : bought.totalAmount.value = bought.price.value * bought.quantity.value)
    (hcost : HasPlaces 4 (bought.price.value * sold.quantity.value)) :
    SingleBuys [bought, sold] := by
  intro before trade later h
  rcases before with _ | ⟨first, _ | ⟨second, rest⟩⟩
  · obtain ⟨rfl, rfl⟩ := List.cons.inj h
    rw [hbuy]
    exact ⟨rfl, hgross⟩
  · obtain ⟨rfl, hrest⟩ := List.cons.inj h
    obtain ⟨rfl, -⟩ := List.cons.inj hrest
    rw [hsell]
    have hprice : lastBuyPrice [bought] = bought.price.value := lastBuyPrice_buy [] hbuy
    simpa only [hprice] using hcost
  · have hlength := congrArg List.length h
    simp at hlength

end KAssetTrader.Paper
