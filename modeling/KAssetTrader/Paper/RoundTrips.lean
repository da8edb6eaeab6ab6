import KAssetTrader.Library.Checked
import KAssetTrader.Library.Groups
import KAssetTrader.Library.Rounding
import KAssetTrader.Paper.Tables

/-!
The round trips of an account: the trades of each symbol in the order of their
execution, folded into a book that opens with a buy and closes when it is flat.
A book that is still held after a sell reports the part that was sold. The sums
of fewer trades than the working precision can add up are not rounded, so that
the books conserve quantities, realized profits and buy fees up to the rounding
of the one part that is reported, and the trips of one symbol are those of its
own trades alone.
-/

namespace KAssetTrader.Paper

open Checked

/-- A trade that was executed: an order has a quantity. -/
structure ExecutedTrade extends PaperTrade where
  executedAt : Instant
  quantity_pos : 0 < quantity.value

/-- The calendar date in Korea, nine hours ahead of UTC, counted in days. -/
def kstDate (moment : Instant) : ℤ := (moment + 9 * 3600 * 1000000) / (86400 * 1000000)

/-- A round trip, with its profit before it is made a float. `buyFee` is the
part of the buy fees that the profit is net of. -/
structure RoundTrip where
  symbol : String
  instrumentType : InstrumentType
  currency : Currency
  entryDate : Instant
  exitDate : Instant
  holdingDays : ℤ
  quantity : Decimal
  costBasis : Decimal
  pnlAmount : Decimal
  returnRatePct : Decimal
  pnl : Decimal
  entryReason : String
  exitReason : String
  buyFee : Decimal

/-- The book of one symbol while its trades are replayed. -/
structure TripBook where
  positionQty : Decimal := 0
  buyCost : Decimal := 0
  buyQuantity : Decimal := 0
  buyFee : Decimal := 0
  soldQuantity : Decimal := 0
  realizedSum : Decimal := 0
  totalPnl : Decimal := 0
  entryDate : Option Instant := none
  entryReason : String := ""
  lastExitDate : Option Instant := none
  lastSellReason : String := ""
  deriving DecidableEq

/-- `realized_pnl or 0`. -/
def PaperTrade.realized (trade : PaperTrade) : Decimal :=
  (trade.realizedPnl.map (·.value)).getD 0

section Build

-- The significant digits of the decimal context: the code works with 28.
variable (digits : ℕ)

def roundTripRow (symbol : String) (instrumentType : InstrumentType) (entryDate exitDate : Instant)
    (quantity costBasis pnl : Decimal) (entryReason exitReason : String) (buyFee : Decimal) :
    Except String RoundTrip := do
  let ctx := Decimal.Context.digits digits
  let returnRatePct ← (if 0 < costBasis then
      Decimal.quantizeHalfUpWithin digits 2 (ctx.mul (ctx.div pnl costBasis) 100)
    else .ok 0)
  let costAmount ← Decimal.quantizeHalfUpWithin digits 4 costBasis
  let pnlAmount ← Decimal.quantizeHalfUpWithin digits 4 pnl
  return {
    symbol, instrumentType, entryDate, exitDate, quantity, pnlAmount, returnRatePct, pnl
    entryReason, exitReason, buyFee
    currency := positionCurrency instrumentType
    holdingDays := max (kstDate exitDate - kstDate entryDate) 0
    costBasis := costAmount }

/-- A buy; one at a flat position opens the book anew. -/
def TripBook.buy (book : TripBook) (t : ExecutedTrade) : TripBook :=
  let ctx := Decimal.Context.digits digits
  let opened : TripBook :=
    if book.positionQty ≤ 0 then
      { book with
        entryDate := some t.executedAt, entryReason := t.reason, buyCost := 0, buyQuantity := 0
        buyFee := 0, soldQuantity := 0, realizedSum := 0, totalPnl := 0 }
    else book
  { opened with
    positionQty := ctx.add opened.positionQty t.quantity.value
    buyQuantity := ctx.add opened.buyQuantity t.quantity.value
    buyCost := ctx.add opened.buyCost
      (ctx.add (ctx.mul t.quantity.value t.price.value) t.fee.value)
    buyFee := ctx.add opened.buyFee t.fee.value
    totalPnl := ctx.sub opened.totalPnl t.fee.value }

def TripBook.sell (book : TripBook) (t : ExecutedTrade) : TripBook :=
  let ctx := Decimal.Context.digits digits
  { book with
    positionQty := ctx.sub book.positionQty t.quantity.value
    soldQuantity := ctx.add book.soldQuantity t.quantity.value
    realizedSum := ctx.add book.realizedSum t.realized
    totalPnl := ctx.add book.totalPnl t.realized
    lastExitDate := some t.executedAt
    lastSellReason := t.reason }

def TripBook.trade (symbol : String) (instrumentType : InstrumentType)
    (s : TripBook × List RoundTrip) (t : ExecutedTrade) :
    Except String (TripBook × List RoundTrip) :=
  match t.side with
  | .buy => .ok (s.1.buy digits t, s.2)
  | .sell =>
    if s.1.positionQty ≤ 0 then .ok s
    else
      let book := s.1.sell digits t
      match book.entryDate, book.lastExitDate with
      | some entryDate, some exitDate =>
        if book.positionQty ≤ 0 then do
          let trip ← roundTripRow digits symbol instrumentType entryDate exitDate
            book.buyQuantity book.buyCost book.totalPnl book.entryReason book.lastSellReason
            book.buyFee
          return ({}, s.2 ++ [trip])
        else .ok (book, s.2)
      | _, _ => .ok (book, s.2)

/-- The trip of a book that is still held, for the part that was sold. -/
def TripBook.openTrip (symbol : String) (instrumentType : InstrumentType) (book : TripBook) :
    Except String (List RoundTrip) :=
  match book.entryDate, book.lastExitDate with
  | some entryDate, some exitDate =>
    if 0 < book.positionQty ∧ 0 < book.soldQuantity ∧ 0 < book.buyQuantity then do
      let ctx := Decimal.Context.digits digits
      let soldShare := min (ctx.div book.soldQuantity book.buyQuantity) 1
      let buyFee := ctx.mul book.buyFee soldShare
      let trip ← roundTripRow digits symbol instrumentType entryDate exitDate book.soldQuantity
        (ctx.mul book.buyCost soldShare) (ctx.sub book.realizedSum buyFee) book.entryReason
        book.lastSellReason buyFee
      return [trip]
    else .ok []
  | _, _ => .ok []

def symbolTrips (symbol : String) (indexed : List ExecutedTrade) :
    Except String (List RoundTrip) :=
  match indexed with
  | [] => .ok []
  | first :: _ => do
      let s ← indexed.foldlM (TripBook.trade digits symbol first.instrumentType) ({}, [])
      let openTrip ← s.1.openTrip digits symbol first.instrumentType
      return s.2 ++ openTrip

def RoundTrip.le (a b : RoundTrip) : Prop :=
  a.exitDate < b.exitDate ∨ (a.exitDate = b.exitDate ∧ a.symbol ≤ b.symbol)

instance (a b : RoundTrip) : Decidable (a.le b) := inferInstanceAs (Decidable (_ ∨ _))

def tradesOf (symbol : String) (trades : List ExecutedTrade) : List ExecutedTrade :=
  trades.filter (·.symbol = symbol)

def tradedSymbols (trades : List ExecutedTrade) : List String :=
  (trades.map (·.symbol)).eraseDups

def buildRoundTrips (trades : List ExecutedTrade) : Except String (List RoundTrip) := do
  let roundTrips ← (tradedSymbols trades).mapM fun symbol =>
    symbolTrips digits symbol
      ((tradesOf symbol trades).insertionSort fun a b => a.executedAt ≤ b.executedAt)
  return roundTrips.flatten.insertionSort RoundTrip.le

structure ClosedTradeTotal where
  currency : Currency
  tradeCount : ℕ
  winCount : ℕ
  realizedPnl : Decimal
  costBasis : Decimal
  returnRate : Decimal

def closedTradeTotal (currency : Currency) (bucket : List RoundTrip) :
    Except String ClosedTradeTotal := do
  let ctx := Decimal.Context.digits digits
  let cost ← Decimal.quantizeHalfUpWithin digits 4 (ctx.sum (bucket.map (·.costBasis)))
  let pnl ← Decimal.quantizeHalfUpWithin digits 4 (ctx.sum (bucket.map (·.pnlAmount)))
  let returnRate ← (if 0 < cost then
      Decimal.quantizeHalfUpWithin digits 2 (ctx.mul (ctx.div pnl cost) 100)
    else .ok 0)
  return {
    currency, returnRate
    tradeCount := bucket.length
    winCount := bucket.countP (0 < ·.pnlAmount)
    realizedPnl := pnl
    costBasis := cost }

/-- `_closed_trade_totals`, for the currencies that occur. -/
def closedTradeTotals (roundTrips : List RoundTrip) : Except String (List ClosedTradeTotal) :=
  ([Currency.krw, Currency.usd].filter fun currency =>
    roundTrips.any (·.currency = currency)).mapM fun currency =>
      closedTradeTotal digits currency (roundTrips.filter (·.currency = currency))

end Build

variable {digits : ℕ} {t : ExecutedTrade} {instrumentType : InstrumentType}
  {trades : List ExecutedTrade} {symbol : String} {s s' : TripBook × List RoundTrip}
  {trip : RoundTrip}

section Rows

/-- What a row says of its book. -/
structure RoundTrip.IsRow (trip : RoundTrip) (symbol : String) (exitDate : Instant)
    (quantity pnl buyFee : Decimal) : Prop where
  symbol : trip.symbol = symbol
  exitDate : trip.exitDate = exitDate
  quantity : trip.quantity = quantity
  pnl : trip.pnl = pnl
  buyFee : trip.buyFee = buyFee
  pnlAmount : trip.pnlAmount = Decimal.quantizeHalfUp 4 trip.pnl

theorem roundTripRow_ok {entryDate exitDate : Instant} {quantity costBasis pnl buyFee : Decimal}
    {entryReason exitReason : String}
    (hok : roundTripRow digits symbol instrumentType entryDate exitDate quantity costBasis pnl
      entryReason exitReason buyFee = .ok trip) :
    trip.IsRow symbol exitDate quantity pnl buyFee := by
  obtain ⟨rate, _, hok⟩ := bind_ok_iff.mp hok
  obtain ⟨cost, _, hok⟩ := bind_ok_iff.mp hok
  obtain ⟨amount, hamount, hok⟩ := bind_ok_iff.mp hok
  cases hok
  exact ⟨rfl, rfl, rfl, rfl, rfl, Decimal.quantizeHalfUpWithin_ok hamount⟩

/-- What one trade does to the book of its symbol. -/
theorem trade_cases (hok : TripBook.trade digits symbol instrumentType s t = .ok s') :
    (t.side = .buy ∧ s' = (s.1.buy digits t, s.2)) ∨
    (t.side = .sell ∧ s.1.positionQty ≤ 0 ∧ s' = s) ∨
    (t.side = .sell ∧ 0 < s.1.positionQty ∧ s' = (s.1.sell digits t, s.2) ∧
      (s.1.entryDate.isSome → 0 < (s.1.sell digits t).positionQty)) ∨
    (t.side = .sell ∧ 0 < s.1.positionQty ∧ (s.1.sell digits t).positionQty ≤ 0 ∧
      ∃ trip, s' = ({}, s.2 ++ [trip]) ∧
        trip.IsRow symbol t.executedAt s.1.buyQuantity (s.1.sell digits t).totalPnl
          s.1.buyFee) := by
  unfold TripBook.trade at hok
  cases hside : t.side with
  | buy =>
    rw [hside] at hok
    exact .inl ⟨rfl, (Except.ok.inj hok).symm⟩
  | sell =>
    rw [hside] at hok
    refine .inr ?_
    dsimp only at hok
    split at hok
    next hflat => exact .inl ⟨rfl, hflat, (Except.ok.inj hok).symm⟩
    next hheld =>
      refine .inr ?_
      split at hok
      next entryDate exitDate hentry hexit =>
        obtain rfl : t.executedAt = exitDate := Option.some.inj hexit
        split at hok
        next hclosed =>
          obtain ⟨trip, hrow, hok⟩ := bind_ok_iff.mp hok
          cases hok
          exact .inr ⟨rfl, not_le.mp hheld, hclosed, trip, rfl, roundTripRow_ok hrow⟩
        next hopen =>
          exact .inl ⟨rfl, not_le.mp hheld, (Except.ok.inj hok).symm,
            fun _ => not_le.mp hopen⟩
      next hnone =>
        refine .inl ⟨rfl, not_le.mp hheld, (Except.ok.inj hok).symm, fun hentered => ?_⟩
        obtain ⟨entryDate, hentry⟩ := Option.isSome_iff_exists.mp hentered
        exact absurd rfl (hnone entryDate t.executedAt hentry)

/-- A book that is still held reports its sold part, or nothing. -/
theorem openTrip_cases {book : TripBook} {trips : List RoundTrip}
    (hok : book.openTrip digits symbol instrumentType = .ok trips) :
    (trips = [] ∧ (book.entryDate.isSome → book.lastExitDate.isSome → 0 < book.positionQty →
      0 < book.buyQuantity → book.soldQuantity ≤ 0)) ∨
    ∃ trip exitDate buyFee, trips = [trip] ∧ book.lastExitDate = some exitDate ∧
      0 < book.soldQuantity ∧ 0 < book.buyQuantity ∧
      buyFee = (Decimal.Context.digits digits).mul book.buyFee
        (min ((Decimal.Context.digits digits).div book.soldQuantity book.buyQuantity) 1) ∧
      trip.IsRow symbol exitDate book.soldQuantity
        ((Decimal.Context.digits digits).sub book.realizedSum buyFee) buyFee := by
  unfold TripBook.openTrip at hok
  split at hok
  next entryDate exitDate hentry hexit =>
    split at hok
    next hopen =>
      obtain ⟨trip, hrow, hok⟩ := bind_ok_iff.mp hok
      cases hok
      exact .inr ⟨trip, exitDate, _, rfl, hexit, hopen.2.1, hopen.2.2, rfl,
        roundTripRow_ok hrow⟩
    next hclosed =>
      refine .inl ⟨(Except.ok.inj hok).symm, fun _ _ hheld hbought => ?_⟩
      by_contra hsold
      exact hclosed ⟨hheld, not_le.mp hsold, hbought⟩
  next hnone =>
    refine .inl ⟨(Except.ok.inj hok).symm, fun hentered hexited => ?_⟩
    obtain ⟨entryDate, hentry⟩ := Option.isSome_iff_exists.mp hentered
    obtain ⟨exitDate, hexit⟩ := Option.isSome_iff_exists.mp hexited
    exact absurd hexit (hnone entryDate exitDate hentry)

end Rows

section Order

/-- What holds of the trips of one symbol after its trades up to a moment: they
are in order, and none of them exits after the moment or the last sell of the
book. -/
structure TripsOrdered (symbol : String) (s : TripBook × List RoundTrip) (moment : Instant) :
    Prop where
  symbols : ∀ trip ∈ s.2, trip.symbol = symbol
  exits : ∀ trip ∈ s.2, trip.exitDate ≤ moment
  sorted : s.2.Pairwise RoundTrip.le
  beforeLast : ∀ exit ∈ s.1.lastExitDate, ∀ trip ∈ s.2, trip.exitDate ≤ exit

theorem TripsOrdered.later {moment later : Instant} (h : TripsOrdered symbol s moment)
    (hle : moment ≤ later) : TripsOrdered symbol s later where
  symbols := h.symbols
  exits := fun trip htrip => (h.exits trip htrip).trans hle
  sorted := h.sorted
  beforeLast := h.beforeLast

variable {moment : Instant}

section

variable (h : TripsOrdered symbol s moment)
include h

theorem TripsOrdered.append (hsymbol : trip.symbol = symbol)
    (hexit : ∀ before ∈ s.2, before.exitDate ≤ trip.exitDate) :
    (s.2 ++ [trip]).Pairwise RoundTrip.le := by
  apply List.pairwise_append.mpr
  refine ⟨h.sorted, List.pairwise_singleton _ _, ?_⟩
  intro before hbefore after hafter
  obtain rfl := List.mem_singleton.mp hafter
  rcases (hexit before hbefore).lt_or_eq with hlt | heq
  · exact .inl hlt
  · have hsame : before.symbol = after.symbol := (h.symbols before hbefore).trans hsymbol.symm
    exact .inr ⟨heq, hsame ▸ String.le_refl _⟩

/-- A trade keeps the trips in order, whether it buys, sells or closes the book. -/
theorem TripsOrdered.trade (hlater : moment ≤ t.executedAt)
    (hok : TripBook.trade digits symbol instrumentType s t = .ok s') :
    TripsOrdered symbol s' t.executedAt := by
  have hnow := h.later hlater
  rcases trade_cases hok with ⟨_, rfl⟩ | ⟨_, _, rfl⟩ | ⟨_, _, rfl, _⟩ |
    ⟨_, _, _, trip, rfl, hrow⟩
  · refine ⟨hnow.symbols, hnow.exits, hnow.sorted, ?_⟩
    have hsame : (s.1.buy digits t).lastExitDate = s.1.lastExitDate := by
      unfold TripBook.buy
      dsimp only
      split <;> rfl
    rw [hsame]
    exact hnow.beforeLast
  · exact hnow
  · refine ⟨hnow.symbols, hnow.exits, hnow.sorted, ?_⟩
    intro exit hexit
    obtain rfl := Option.mem_some_iff.mp hexit
    exact hnow.exits
  · have hexit : ∀ before ∈ s.2, before.exitDate ≤ trip.exitDate := by
      rw [hrow.exitDate]
      exact hnow.exits
    refine ⟨?_, ?_, hnow.append hrow.symbol hexit, ?_⟩
    · intro other hother
      rcases List.mem_append.mp hother with hold | hnew
      · exact hnow.symbols other hold
      · obtain rfl := List.mem_singleton.mp hnew
        exact hrow.symbol
    · intro other hother
      rcases List.mem_append.mp hother with hold | hnew
      · exact hnow.exits other hold
      · obtain rfl := List.mem_singleton.mp hnew
        exact hrow.exitDate.le
    · intro exit hexit
      cases hexit

/-- Trades in the order of time give trips in that order. -/
theorem TripsOrdered.run (hfirst : ∀ t ∈ trades, moment ≤ t.executedAt)
    (hordered : trades.Pairwise fun a b => a.executedAt ≤ b.executedAt)
    (hok : trades.foldlM (TripBook.trade digits symbol instrumentType) s = .ok s') :
    ∃ later, TripsOrdered symbol s' later := by
  induction trades generalizing s moment with
  | nil =>
    cases hok
    exact ⟨moment, h⟩
  | cons t rest ih =>
    rw [List.foldlM_cons] at hok
    obtain ⟨next, hnext, hok⟩ := bind_ok_iff.mp hok
    obtain ⟨hrest, hordered⟩ := List.pairwise_cons.mp hordered
    exact ih (h.trade (hfirst t List.mem_cons_self) hnext) hrest hordered hok

theorem TripsOrdered.finish {openTrip : List RoundTrip}
    (hok : s.1.openTrip digits symbol instrumentType = .ok openTrip) :
    (∀ trip ∈ s.2 ++ openTrip, trip.symbol = symbol) ∧
      (s.2 ++ openTrip).Pairwise RoundTrip.le := by
  rcases openTrip_cases hok with ⟨rfl, _⟩ | ⟨trip, exitDate, _, rfl, hexit, _, _, _, hrow⟩
  · rw [List.append_nil]
    exact ⟨h.symbols, h.sorted⟩
  · refine ⟨?_, h.append hrow.symbol (hrow.exitDate ▸ h.beforeLast exitDate hexit)⟩
    intro other hother
    rcases List.mem_append.mp hother with hold | hnew
    · exact h.symbols other hold
    · obtain rfl := List.mem_singleton.mp hnew
      exact hrow.symbol

end

variable (hordered : trades.Pairwise fun a b => a.executedAt ≤ b.executedAt)
include hordered

theorem symbolTrips_ordered {trips : List RoundTrip}
    (hok : symbolTrips digits symbol trades = .ok trips) :
    (∀ trip ∈ trips, trip.symbol = symbol) ∧ trips.Pairwise RoundTrip.le := by
  cases trades with
  | nil =>
    cases hok
    exact ⟨List.forall_mem_nil _, List.Pairwise.nil⟩
  | cons first rest =>
    obtain ⟨s, hrun, hok⟩ := bind_ok_iff.mp hok
    obtain ⟨openTrip, hopen, hok⟩ := bind_ok_iff.mp hok
    cases hok
    have hstart : TripsOrdered symbol ({}, []) first.executedAt :=
      ⟨List.forall_mem_nil _, List.forall_mem_nil _,
        List.Pairwise.nil, fun _ h => nomatch h⟩
    have hfirst : ∀ t ∈ first :: rest, first.executedAt ≤ t.executedAt := by
      intro t ht
      rcases List.mem_cons.mp ht with rfl | ht
      · exact le_rfl
      · exact (List.pairwise_cons.mp hordered).1 t ht
    obtain ⟨later, hlater⟩ := hstart.run hfirst hordered hrun
    exact hlater.finish hopen

theorem tradesOf_ordered (symbol : String) :
    (tradesOf symbol trades).Pairwise fun a b => a.executedAt ≤ b.executedAt :=
  hordered.filter _

theorem buildRoundTrips_eq :
    buildRoundTrips digits trades =
      (fun roundTrips => roundTrips.flatten.insertionSort RoundTrip.le) <$>
        (tradedSymbols trades).mapM fun symbol =>
          symbolTrips digits symbol (tradesOf symbol trades) := by
  have hsorted : ∀ symbol : String,
      ((tradesOf symbol trades).insertionSort fun a b => a.executedAt ≤ b.executedAt) =
        tradesOf symbol trades := fun symbol => (tradesOf_ordered hordered symbol).insertionSort_eq
  unfold buildRoundTrips
  simp only [hsorted]
  rfl

omit hordered in
theorem tradesOf_missing (hmissing : symbol ∉ tradedSymbols trades) :
    tradesOf symbol trades = [] := by
  apply List.filter_eq_nil_iff.mpr
  intro t ht hsymbol
  apply hmissing
  rw [tradedSymbols, List.mem_eraseDups]
  exact List.mem_map.mpr ⟨t, ht, by simpa using hsymbol⟩

/-- The trips are built when those of every symbol are. -/
theorem buildRoundTrips_ok_iff :
    (∃ trips, buildRoundTrips digits trades = .ok trips) ↔
      ∀ symbol, ∃ own, symbolTrips digits symbol (tradesOf symbol trades) = .ok own := by
  rw [buildRoundTrips_eq hordered, map_ok_iff, mapM_ok_iff]
  refine ⟨fun h symbol => ?_, fun h symbol _ => h symbol⟩
  by_cases htraded : symbol ∈ tradedSymbols trades
  · exact h symbol htraded
  · rw [tradesOf_missing htraded]
    exact ⟨[], rfl⟩

/-- The trips of a symbol among all trips are those of its own trades. -/
theorem filter_buildRoundTrips {trips : List RoundTrip}
    (hok : buildRoundTrips digits trades = .ok trips) (symbol : String) :
    symbolTrips digits symbol (tradesOf symbol trades) =
      .ok (trips.filter fun trip => decide (trip.symbol = symbol)) := by
  have hall := (buildRoundTrips_ok_iff hordered).mp ⟨trips, hok⟩
  choose own hown using hall
  rw [buildRoundTrips_eq hordered] at hok
  obtain ⟨groups, hgroups, rfl⟩ := map_eq_ok_iff.mp hok
  have hgroups := (map_of_mapM_ok (g := own) (P := fun _ => True)
    (fun symbol trips h => ⟨Except.ok.inj (h.symm.trans (hown symbol)), trivial⟩) hgroups).1
  have hmissing : symbol ∉ tradedSymbols trades → own symbol = [] := by
    intro hmissing
    have hnone := hown symbol
    rw [tradesOf_missing hmissing] at hnone
    exact (Except.ok.inj hnone).symm
  have hgroup : ((tradedSymbols trades).flatMap own).filter
      (fun trip => decide (trip.symbol = symbol)) = own symbol :=
    Groups.filter_flatMap_group
      (fun symbol => (symbolTrips_ordered (tradesOf_ordered hordered symbol) (hown symbol)).1)
      (Groups.nodup_eraseDups _) hmissing
  rw [hown symbol, hgroups, ← List.flatMap_def, Groups.filter_insertionSort, hgroup]
  rw [hgroup]
  exact (symbolTrips_ordered (tradesOf_ordered hordered symbol) (hown symbol)).2

end Order

section Sums

/-- A value of so many places whose magnitude is known from what it is the sum of. -/
structure IsSum (places : ℕ) (size x : Decimal) : Prop where
  hasPlaces : Decimal.HasPlaces places x
  magnitude : |x| ≤ size

variable {places : ℕ} {size more x y : Decimal}

theorem IsSum.zero (hsize : 0 ≤ size) : IsSum places size 0 where
  hasPlaces := Decimal.HasPlaces.zero
  magnitude := by rwa [abs_zero]

theorem IsSum.column {precision : ℕ} (value : Numeric precision places) :
    IsSum places |value.value| value.value :=
  ⟨value.places, le_rfl⟩

theorem IsSum.mono (h : IsSum places size x) (hmore : 0 ≤ more) :
    IsSum places (size + more) x :=
  ⟨h.hasPlaces, h.magnitude.trans (le_add_of_nonneg_right hmore)⟩

theorem IsSum.add (h : IsSum places size x) (hy : IsSum places more y) :
    IsSum places (size + more) (x + y) :=
  ⟨h.hasPlaces.add hy.hasPlaces, (abs_add_le x y).trans (add_le_add h.magnitude hy.magnitude)⟩

theorem IsSum.sub (h : IsSum places size x) (hy : IsSum places more y) :
    IsSum places (size + more) (x - y) :=
  ⟨h.hasPlaces.sub hy.hasPlaces, (abs_sub x y).trans (add_le_add h.magnitude hy.magnitude)⟩

/-- A context that has the digits for it does not round a sum. -/
theorem IsSum.round (h : IsSum places size x) (hroom : size * 10 ^ places < 10 ^ digits) :
    (Decimal.Context.digits digits).round x = x := by
  apply Decimal.Context.digits_round h.hasPlaces
  have hmagnitude := h.magnitude
  exact lt_of_le_of_lt (by gcongr) hroom

end Sums

section Conservation

def sideTotal (side : OrderSide) (amount : ExecutedTrade → Decimal) (trades : List ExecutedTrade) :
    Decimal :=
  ((trades.filter (·.side = side)).map amount).sum

def ExecutedTrade.qty (t : ExecutedTrade) : Decimal := t.quantity.value

def ExecutedTrade.paidFee (t : ExecutedTrade) : Decimal := t.fee.value

def ExecutedTrade.profit (t : ExecutedTrade) : Decimal := t.realized

/-- Trades of one symbol never sell more than was bought before. -/
def NeverShort (trades : List ExecutedTrade) : Prop :=
  ∀ front, front <+: trades → sideTotal .sell (·.qty) front ≤ sideTotal .buy (·.qty) front

/-- The money that the trips of a symbol account for, whatever its sign. -/
def turnover (trades : List ExecutedTrade) : Decimal :=
  sideTotal .sell (|·.profit|) trades + sideTotal .buy (|·.paidFee|) trades

/-- The quantities of all trades together. -/
def volume (trades : List ExecutedTrade) : Decimal := (trades.map (·.qty)).sum

/-- The context holds the sums of the quantities and of the money with all their places. -/
structure Held (digits : ℕ) (trades : List ExecutedTrade) : Prop where
  quantity : volume trades * 10 ^ 8 < 10 ^ digits
  money : turnover trades * 10 ^ 4 < 10 ^ digits

/-- No buy was paid to be placed. -/
def FeesPaid (trades : List ExecutedTrade) : Prop := ∀ t ∈ trades, t.side = .buy → 0 ≤ t.paidFee

variable {done : List ExecutedTrade}

theorem sideTotal_append (side : OrderSide) (amount : ExecutedTrade → Decimal)
    (done : List ExecutedTrade) (t : ExecutedTrade) :
    sideTotal side amount (done ++ [t]) =
      sideTotal side amount done + if t.side = side then amount t else 0 := by
  unfold sideTotal
  by_cases hside : t.side = side <;> simp [List.filter_append, hside]

/-- What the counters of a book hold are sums of so many quantities and so much money. -/
structure TripBook.Counts (book : TripBook) (quantity money : Decimal) : Prop where
  positionQty : IsSum 8 quantity book.positionQty
  buyQuantity : IsSum 8 quantity book.buyQuantity
  soldQuantity : IsSum 8 quantity book.soldQuantity
  buyFee : IsSum 4 money book.buyFee
  realizedSum : IsSum 4 money book.realizedSum
  totalPnl : IsSum 4 money book.totalPnl

/-- The book of a symbol and its trips account for the trades that are done. -/
structure BookKept (s : TripBook × List RoundTrip) (done : List ExecutedTrade) : Prop where
  position : s.1.positionQty = sideTotal .buy (·.qty) done - sideTotal .sell (·.qty) done
  held : 0 ≤ s.1.positionQty
  remaining : s.1.buyQuantity = s.1.soldQuantity + s.1.positionQty
  sold_nonneg : 0 ≤ s.1.soldQuantity
  net : s.1.totalPnl = s.1.realizedSum - s.1.buyFee
  idle : s.1.positionQty = 0 → s.1.soldQuantity = 0 ∧ s.1.buyFee = 0
  unsold : s.1.soldQuantity = 0 → s.1.realizedSum = 0
  entered : 0 < s.1.positionQty → s.1.entryDate.isSome
  exited : 0 < s.1.soldQuantity → s.1.lastExitDate.isSome
  quantities : (s.2.map (·.quantity)).sum + s.1.soldQuantity = sideTotal .sell (·.qty) done
  profits : (s.2.map (·.pnl)).sum + (s.2.map (·.buyFee)).sum + s.1.realizedSum =
    sideTotal .sell (·.profit) done
  fees : (s.2.map (·.buyFee)).sum + s.1.buyFee = sideTotal .buy (·.paidFee) done
  turned : |s.1.realizedSum| + |s.1.buyFee| ≤ turnover done
  charged : FeesPaid done → 0 ≤ s.1.buyFee ∧ 0 ≤ (s.2.map (·.buyFee)).sum
  reported : ∀ trip ∈ s.2, trip.pnlAmount = trip.pnl
  counts : s.1.Counts (volume done) (turnover done)

theorem ExecutedTrade.profit_sum (t : ExecutedTrade) : IsSum 4 |t.profit| t.profit := by
  unfold ExecutedTrade.profit PaperTrade.realized
  cases t.realizedPnl with
  | none => exact IsSum.zero (abs_nonneg _)
  | some amount => exact IsSum.column amount

theorem ExecutedTrade.qty_sum (t : ExecutedTrade) : IsSum 8 t.qty t.qty :=
  ⟨t.quantity.places, (abs_of_pos t.quantity_pos).le⟩

theorem TripBook.Counts.empty {quantity money : Decimal} (hquantity : 0 ≤ quantity)
    (hmoney : 0 ≤ money) : TripBook.Counts {} quantity money where
  positionQty := IsSum.zero hquantity
  buyQuantity := IsSum.zero hquantity
  soldQuantity := IsSum.zero hquantity
  buyFee := IsSum.zero hmoney
  realizedSum := IsSum.zero hmoney
  totalPnl := IsSum.zero hmoney

theorem turnover_nonneg (done : List ExecutedTrade) : 0 ≤ turnover done :=
  add_nonneg (List.sum_nonneg (List.forall_mem_map.mpr fun _ _ => abs_nonneg _))
    (List.sum_nonneg (List.forall_mem_map.mpr fun _ _ => abs_nonneg _))

theorem volume_nonneg (done : List ExecutedTrade) : 0 ≤ volume done :=
  List.sum_nonneg (List.forall_mem_map.mpr fun t _ => t.quantity_pos.le)

theorem volume_append (done later : List ExecutedTrade) :
    volume (done ++ later) = volume done + volume later := by
  rw [volume, List.map_append, List.sum_append]
  rfl

theorem turnover_append (done later : List ExecutedTrade) :
    turnover (done ++ later) = turnover done + turnover later := by
  unfold turnover sideTotal
  simp only [List.filter_append, List.map_append, List.sum_append]
  ring

theorem volume_trade : volume (done ++ [t]) = volume done + t.qty := by
  rw [volume_append, volume, volume, List.map_singleton, List.sum_singleton]

theorem turnover_buy (hside : t.side = .buy) :
    turnover (done ++ [t]) = turnover done + |t.paidFee| := by
  rw [turnover, sideTotal_append, sideTotal_append, if_pos hside,
    if_neg (by rw [hside]; decide), turnover]
  ring

theorem turnover_sell (hside : t.side = .sell) :
    turnover (done ++ [t]) = turnover done + |t.profit| := by
  rw [turnover, sideTotal_append, sideTotal_append, if_pos hside,
    if_neg (by rw [hside]; decide), turnover]
  ring

theorem Held.before {later : List ExecutedTrade} (h : Held digits (done ++ later)) :
    Held digits done := by
  obtain ⟨hquantity, hmoney⟩ := h
  rw [volume_append] at hquantity
  rw [turnover_append] at hmoney
  have hvolume := volume_nonneg later
  have hturnover := turnover_nonneg later
  constructor <;> linarith

theorem BookKept.start : BookKept ({}, []) [] := by
  constructor <;> simp [sideTotal, turnover, volume, TripBook.Counts.empty]

theorem FeesPaid.before (h : FeesPaid (done ++ [t])) : FeesPaid done :=
  fun other hother => h other (List.mem_append_left _ hother)

/-- What a sell has changed where nothing was rounded. -/
structure TripBook.Sold (book after : TripBook) (t : ExecutedTrade) : Prop where
  positionQty : after.positionQty = book.positionQty - t.qty
  soldQuantity : after.soldQuantity = book.soldQuantity + t.qty
  realizedSum : after.realizedSum = book.realizedSum + t.profit
  totalPnl : after.totalPnl = book.totalPnl + t.profit

/-- What a buy has changed, likewise. -/
structure TripBook.Bought (book after : TripBook) (t : ExecutedTrade) : Prop where
  positionQty : after.positionQty = book.positionQty + t.qty
  buyQuantity : after.buyQuantity = book.buyQuantity + t.qty
  buyFee : after.buyFee = book.buyFee + t.paidFee
  totalPnl : after.totalPnl = book.totalPnl - t.paidFee
  soldQuantity : after.soldQuantity = book.soldQuantity
  realizedSum : after.realizedSum = book.realizedSum
  entryDate : after.entryDate.isSome
  lastExitDate : after.lastExitDate = book.lastExitDate

section

variable {quantity money : Decimal} {book : TripBook} (hcounts : book.Counts quantity money)
  (hroom : (quantity + t.qty) * 10 ^ 8 < 10 ^ digits)
include hcounts hroom

/-- A sell is booked without a rounding while there is room for one more trade. -/
theorem TripBook.Counts.sell (hmoney : (money + |t.profit|) * 10 ^ 4 < 10 ^ digits) :
    (book.sell digits t).Counts (quantity + t.qty) (money + |t.profit|) ∧
      book.Sold (book.sell digits t) t := by
  have hposition := hcounts.positionQty.sub t.qty_sum
  have hsold := hcounts.soldQuantity.add t.qty_sum
  have hrealized := hcounts.realizedSum.add t.profit_sum
  have htotal := hcounts.totalPnl.add t.profit_sum
  have hbook : book.Sold (book.sell digits t) t :=
    ⟨hposition.round hroom, hsold.round hroom, hrealized.round hmoney, htotal.round hmoney⟩
  refine ⟨⟨?_, hcounts.buyQuantity.mono t.quantity_pos.le, ?_,
    hcounts.buyFee.mono (abs_nonneg _), ?_, ?_⟩, hbook⟩
  · exact hbook.positionQty.symm ▸ hposition
  · exact hbook.soldQuantity.symm ▸ hsold
  · exact hbook.realizedSum.symm ▸ hrealized
  · exact hbook.totalPnl.symm ▸ htotal

/-- A buy is booked without a rounding, and the book that it opens anew had
nothing to forget. -/
theorem TripBook.Counts.buy (hmoney : (money + |t.paidFee|) * 10 ^ 4 < 10 ^ digits)
    (hflat : book.positionQty ≤ 0 → book.buyQuantity = 0 ∧ book.buyFee = 0 ∧
      book.soldQuantity = 0 ∧ book.realizedSum = 0 ∧ book.totalPnl = 0)
    (hentered : 0 < book.positionQty → book.entryDate.isSome) :
    (book.buy digits t).Counts (quantity + t.qty) (money + |t.paidFee|) ∧
      book.Bought (book.buy digits t) t := by
  have hposition := hcounts.positionQty.add t.qty_sum
  have hbought := hcounts.buyQuantity.add t.qty_sum
  have hfee := hcounts.buyFee.add (IsSum.column t.fee)
  have htotal := hcounts.totalPnl.sub (IsSum.column t.fee)
  have hbook : book.Bought (book.buy digits t) t := by
    unfold TripBook.buy
    dsimp only
    split
    next hzero =>
      obtain ⟨hbuyQuantity, hbuyFee, hsold, hrealized, htotalPnl⟩ := hflat hzero
      refine ⟨hposition.round hroom, ?_, ?_, ?_, hsold.symm, hrealized.symm, rfl, rfl⟩
      · rw [hbuyQuantity] at hbought ⊢
        exact hbought.round hroom
      · rw [hbuyFee] at hfee ⊢
        exact hfee.round hmoney
      · rw [htotalPnl] at htotal ⊢
        exact htotal.round hmoney
    next hheld =>
      exact ⟨hposition.round hroom, hbought.round hroom,
        hfee.round hmoney, htotal.round hmoney, rfl, rfl,
        hentered (not_le.mp hheld), rfl⟩
  refine ⟨?_, hbook⟩
  refine ⟨hbook.positionQty.symm ▸ hposition, hbook.buyQuantity.symm ▸ hbought, ?_,
    hbook.buyFee.symm ▸ hfee, ?_, hbook.totalPnl.symm ▸ htotal⟩
  · exact hbook.soldQuantity.symm ▸ hcounts.soldQuantity.mono t.quantity_pos.le
  · exact hbook.realizedSum.symm ▸ hcounts.realizedSum.mono (abs_nonneg _)

end

section

variable (h : BookKept s done) (hroom : Held digits (done ++ [t]))
include h hroom

theorem BookKept.buy (hside : t.side = .buy) :
    BookKept (s.1.buy digits t, s.2) (done ++ [t]) := by
  have hqty : 0 < t.qty := t.quantity_pos
  have hflat (hzero : s.1.positionQty ≤ 0) : s.1.buyQuantity = 0 ∧ s.1.buyFee = 0 ∧
      s.1.soldQuantity = 0 ∧ s.1.realizedSum = 0 ∧ s.1.totalPnl = 0 := by
    have hzero : s.1.positionQty = 0 := le_antisymm hzero h.held
    obtain ⟨hsold, hbuyFee⟩ := h.idle hzero
    have hrealized := h.unsold hsold
    exact ⟨by rw [h.remaining, hsold, hzero, add_zero], hbuyFee, hsold, hrealized,
      by rw [h.net, hrealized, hbuyFee, sub_zero]⟩
  obtain ⟨hcounts, hposition, hbought, hbuyFee, htotal, hsold, hrealized, hentry, hexit⟩ :=
    h.counts.buy (volume_trade ▸ hroom.quantity) (turnover_buy hside ▸ hroom.money) hflat
      h.entered
  have hbuys (amount : ExecutedTrade → Decimal) :
      sideTotal .buy amount (done ++ [t]) = sideTotal .buy amount done + amount t := by
    rw [sideTotal_append, if_pos hside]
  have hsells (amount : ExecutedTrade → Decimal) :
      sideTotal .sell amount (done ++ [t]) = sideTotal .sell amount done := by
    rw [sideTotal_append, if_neg (by rw [hside]; decide), add_zero]
  refine ⟨?_, ?_, ?_, ?_, ?_, ?_, ?_, fun _ => hentry, ?_, ?_, ?_, ?_, ?_, ?_, h.reported, ?_⟩
  · rw [hposition, h.position, hbuys, hsells]
    ring
  · rw [hposition]
    linarith [h.held]
  · rw [hbought, hsold, hposition, h.remaining]
    ring
  · rw [hsold]
    exact h.sold_nonneg
  · rw [htotal, hrealized, hbuyFee, h.net]
    ring
  · intro hzero
    rw [hposition] at hzero
    linarith [h.held]
  · rw [hsold, hrealized]
    exact h.unsold
  · rw [hsold, hexit]
    exact h.exited
  · rw [hsold, h.quantities, hsells]
  · rw [hrealized, h.profits, hsells]
  · rw [hbuyFee, ← add_assoc, h.fees, hbuys]
  · rw [hrealized, hbuyFee, turnover_buy hside]
    have hturned := h.turned
    have hmore := abs_add_le s.1.buyFee t.paidFee
    linarith
  · intro hpaid
    obtain ⟨hbook, htrips⟩ := h.charged hpaid.before
    have hfee := hpaid t (List.mem_append_right _ (List.mem_singleton_self t)) hside
    rw [hbuyFee]
    exact ⟨add_nonneg hbook hfee, htrips⟩
  · rw [volume_trade, turnover_buy hside]
    exact hcounts

section

variable (hside : t.side = .sell) (hheld : 0 < s.1.positionQty)
  (hlong : sideTotal .sell (·.qty) (done ++ [t]) ≤ sideTotal .buy (·.qty) (done ++ [t]))
include hside

variable (done) in
omit h hroom in
theorem sideTotal_sold (amount : ExecutedTrade → Decimal) :
    sideTotal .buy amount (done ++ [t]) = sideTotal .buy amount done ∧
      sideTotal .sell amount (done ++ [t]) = sideTotal .sell amount done + amount t := by
  rw [sideTotal_append, sideTotal_append, if_pos hside, if_neg (by rw [hside]; decide), add_zero]
  exact ⟨rfl, rfl⟩

theorem BookKept.sellCounts :
    (s.1.sell digits t).Counts (volume done + t.qty) (turnover done + |t.profit|) ∧
      s.1.Sold (s.1.sell digits t) t :=
  h.counts.sell (volume_trade ▸ hroom.quantity) (turnover_sell hside ▸ hroom.money)

include hlong in
theorem BookKept.left : 0 ≤ (s.1.sell digits t).positionQty := by
  obtain ⟨_, hposition, _⟩ := h.sellCounts hroom hside
  obtain ⟨hbuys, hsells⟩ := sideTotal_sold done hside (·.qty)
  rw [hbuys, hsells] at hlong
  rw [hposition, h.position]
  linarith

include hheld in
theorem BookKept.sold (hstill : 0 < (s.1.sell digits t).positionQty) :
    BookKept (s.1.sell digits t, s.2) (done ++ [t]) := by
  have hqty : 0 < t.qty := t.quantity_pos
  obtain ⟨hcounts, hposition, hsold, hrealized, htotal⟩ := h.sellCounts hroom hside
  have hpos : 0 < s.1.soldQuantity + t.qty := add_pos_of_nonneg_of_pos h.sold_nonneg hqty
  have hsides (amount : ExecutedTrade → Decimal) := sideTotal_sold done hside amount
  have hbought : (s.1.sell digits t).buyQuantity = s.1.buyQuantity := rfl
  have hbuyFee : (s.1.sell digits t).buyFee = s.1.buyFee := rfl
  refine ⟨?_, hstill.le, ?_, ?_, ?_, fun hzero => absurd hzero hstill.ne', ?_,
    fun _ => h.entered hheld, fun _ => rfl, ?_, ?_, ?_, ?_, ?_, h.reported, ?_⟩
  · rw [hposition, h.position, (hsides _).1, (hsides _).2]
    ring
  · rw [hbought, hsold, hposition, h.remaining]
    ring
  · rw [hsold]
    exact hpos.le
  · rw [htotal, hrealized, hbuyFee, h.net]
    ring
  · intro hzero
    rw [hsold] at hzero
    exact absurd hzero hpos.ne'
  · rw [hsold, ← add_assoc, h.quantities, (hsides _).2]
  · rw [hrealized, ← add_assoc, h.profits, (hsides _).2]
  · rw [hbuyFee, h.fees, (hsides _).1]
  · rw [hrealized, hbuyFee, turnover_sell hside]
    have hturned := h.turned
    have hmore := abs_add_le s.1.realizedSum t.profit
    linarith
  · exact fun hpaid => h.charged hpaid.before
  · rw [volume_trade, turnover_sell hside]
    exact hcounts

theorem BookKept.closed (hflat : (s.1.sell digits t).positionQty = 0)
    (hrow : trip.IsRow symbol t.executedAt s.1.buyQuantity (s.1.sell digits t).totalPnl
      s.1.buyFee) : BookKept ({}, s.2 ++ [trip]) (done ++ [t]) := by
  obtain ⟨hcounts, hposition, _, _, htotal⟩ := h.sellCounts hroom hside
  have hsides (amount : ExecutedTrade → Decimal) := sideTotal_sold done hside amount
  have hall : s.1.positionQty = t.qty := by
    rw [hposition] at hflat
    exact sub_eq_zero.mp hflat
  have hquantity : trip.quantity = s.1.soldQuantity + t.qty := by
    rw [hrow.quantity, h.remaining, hall]
  have hpnl : trip.pnl = s.1.realizedSum + t.profit - s.1.buyFee := by
    rw [hrow.pnl, htotal, h.net]
    ring
  have hplaces : Decimal.HasPlaces 4 trip.pnl := hrow.pnl ▸ hcounts.totalPnl.hasPlaces
  have hmap (f : RoundTrip → Decimal) :
      ((s.2 ++ [trip]).map f).sum = (s.2.map f).sum + f trip := by
    rw [List.map_append, List.sum_append, List.map_singleton, List.sum_singleton]
  refine ⟨?_, le_rfl, (add_zero 0).symm, le_rfl, (sub_zero 0).symm, fun _ => ⟨rfl, rfl⟩,
    fun _ => rfl, fun hpos => absurd hpos (lt_irrefl 0), fun hpos => absurd hpos (lt_irrefl 0),
    ?_, ?_, ?_, ?_, ?_, ?_, TripBook.Counts.empty (volume_nonneg _) (turnover_nonneg _)⟩
  · rw [(hsides _).1, (hsides _).2]
    have hposition := h.position
    show 0 = _
    linarith
  · rw [hmap, (hsides _).2, ← h.quantities, hquantity]
    show _ + 0 = _
    ring
  · rw [hmap, hmap, (hsides _).2, ← h.profits, hpnl, hrow.buyFee]
    show _ + 0 = _
    ring
  · rw [hmap, (hsides _).1, ← h.fees, hrow.buyFee]
    exact add_zero _
  · show |(0 : Decimal)| + |(0 : Decimal)| ≤ _
    rw [abs_zero, add_zero]
    exact turnover_nonneg _
  · intro hpaid
    obtain ⟨hbook, htrips⟩ := h.charged hpaid.before
    rw [hmap, hrow.buyFee]
    exact ⟨le_rfl, add_nonneg htrips hbook⟩
  · intro closed hclosed
    rcases List.mem_append.mp hclosed with hold | hnew
    · exact h.reported closed hold
    · obtain rfl := List.mem_singleton.mp hnew
      rw [hrow.pnlAmount, hplaces.quantizeHalfUp]

end

/-- A trade keeps the account: a sell is never more than the book holds. -/
theorem BookKept.trade
    (hlong : sideTotal .sell (·.qty) (done ++ [t]) ≤ sideTotal .buy (·.qty) (done ++ [t]))
    (hok : TripBook.trade digits symbol instrumentType s t = .ok s') :
    BookKept s' (done ++ [t]) := by
  have hqty : 0 < t.qty := t.quantity_pos
  rcases trade_cases hok with ⟨hside, rfl⟩ | ⟨hside, hflat, rfl⟩ | ⟨hside, hheld, rfl, hopen⟩ |
    ⟨hside, hheld, hclosed, trip, rfl, hrow⟩
  · exact h.buy hroom hside
  · have hleft := h.left hroom hside hlong
    obtain ⟨_, hposition, _⟩ := h.sellCounts hroom hside
    rw [hposition] at hleft
    linarith
  · exact h.sold hroom hside hheld (hopen (h.entered hheld))
  · exact h.closed hroom hside (le_antisymm hclosed (h.left hroom hside hlong)) hrow

end

/-- What buys have brought and sells have taken is in the book or in the trips. -/
theorem BookKept.run (h : BookKept s done) (hshort : NeverShort (done ++ trades))
    (hroom : Held digits (done ++ trades))
    (hok : trades.foldlM (TripBook.trade digits symbol instrumentType) s = .ok s') :
    BookKept s' (done ++ trades) := by
  induction trades generalizing s done with
  | nil =>
    cases hok
    simpa using h
  | cons t rest ih =>
    rw [List.foldlM_cons] at hok
    obtain ⟨next, hnext, hok⟩ := bind_ok_iff.mp hok
    have happend : done ++ t :: rest = done ++ [t] ++ rest := by simp
    rw [happend] at hshort hroom ⊢
    exact ih (h.trade hroom.before (hshort _ (List.prefix_append _ _)) hnext) hshort hroom hok

/-- What the round trips of a symbol add up to. The profit of the one trip that
is still open is the difference of its realized profit and of its part of the
buy fees, rounded to the digits of the context, and is reported to four places. -/
structure TripsConserve (digits : ℕ) (symbol : String) (trades : List ExecutedTrade)
    (trips : List RoundTrip) : Prop where
  quantity : (trips.map (·.quantity)).sum = sideTotal .sell (·.qty) (tradesOf symbol trades)
  profit : |(trips.map (·.pnl)).sum -
      (sideTotal .sell (·.profit) (tradesOf symbol trades) - (trips.map (·.buyFee)).sum)| ≤
    10 ^ (1 - digits : ℤ) / 2 * turnover (tradesOf symbol trades)
  attributed : FeesPaid (tradesOf symbol trades) → 0 ≤ (trips.map (·.buyFee)).sum ∧
    (trips.map (·.buyFee)).sum ≤ sideTotal .buy (·.paidFee) (tradesOf symbol trades)
  reported : |(trips.map (·.pnlAmount)).sum - (trips.map (·.pnl)).sum| ≤ 1 / 2 / 10 ^ 4

section

variable (hdigits : 3 ≤ digits)
include hdigits

/-- A share of a sum lies between zero and the sum, on whichever side it is. -/
theorem share_between {size amount share : Decimal} (hsum : IsSum 4 size amount)
    (hroom : size * 10 ^ 4 < 10 ^ digits) (hnonneg : 0 ≤ share) (hle : share ≤ 1) :
    (0 ≤ amount → 0 ≤ (Decimal.Context.digits digits).mul amount share ∧
        (Decimal.Context.digits digits).mul amount share ≤ amount) ∧
      |(Decimal.Context.digits digits).mul amount share| ≤ |amount| := by
  have hrounds := Decimal.Context.digits_rounds hdigits
  have hround := hsum.round hroom
  have hzero := hrounds.round_zero
  rcases le_total 0 amount with hpos | hneg
  · have hlow : 0 ≤ (Decimal.Context.digits digits).mul amount share := by
      have hmono := hrounds.monotone (mul_nonneg hpos hnonneg)
      rwa [hzero] at hmono
    have hhigh : (Decimal.Context.digits digits).mul amount share ≤ amount := by
      have hmono := hrounds.monotone (mul_le_of_le_one_right hpos hle)
      rwa [hround] at hmono
    refine ⟨fun _ => ⟨hlow, hhigh⟩, ?_⟩
    rwa [abs_of_nonneg hlow, abs_of_nonneg hpos]
  · have hhigh : (Decimal.Context.digits digits).mul amount share ≤ 0 := by
      have hmono := hrounds.monotone (mul_nonpos_of_nonpos_of_nonneg hneg hnonneg)
      rwa [hzero] at hmono
    have hlow : amount ≤ (Decimal.Context.digits digits).mul amount share := by
      have hmono := hrounds.monotone (le_mul_of_le_one_right hneg hle)
      rwa [hround] at hmono
    refine ⟨fun hpos => ?_, ?_⟩
    · obtain rfl := le_antisymm hneg hpos
      exact ⟨hlow, hhigh⟩
    · rw [abs_of_nonpos hhigh, abs_of_nonpos hneg]
      exact neg_le_neg hlow

/-- The trip of the part that was sold takes over what an open book accounts
for, less the buy fees of the part that is still held. -/
theorem BookKept.finish (h : BookKept s (tradesOf symbol trades))
    (hroom : Held digits (tradesOf symbol trades)) {openTrip : List RoundTrip}
    (hok : s.1.openTrip digits symbol instrumentType = .ok openTrip) :
    TripsConserve digits symbol trades (s.2 ++ openTrip) := by
  have hquantities := h.quantities
  have hprofits := h.profits
  have hfees := h.fees
  have hunit : (0 : ℚ) ≤ 10 ^ (1 - digits : ℤ) / 2 := by positivity
  have hturnover := turnover_nonneg (tradesOf symbol trades)
  have hreported : (s.2.map (·.pnlAmount)).sum = (s.2.map (·.pnl)).sum :=
    congrArg List.sum (List.map_congr_left h.reported)
  rcases openTrip_cases hok with ⟨rfl, hnone⟩ |
    ⟨trip, exitDate, buyFee, rfl, hexit, hsold, hbought, hbuyFee, hrow⟩
  · have hunsold : s.1.soldQuantity = 0 := by
      rcases h.sold_nonneg.eq_or_lt with hzero | hsome
      · exact hzero.symm
      · have hheld : 0 < s.1.positionQty := by
          rcases h.held.eq_or_lt with hzero | hpos
          · exact absurd (h.idle hzero.symm).1 hsome.ne'
          · exact hpos
        have hbought : 0 < s.1.buyQuantity := by
          rw [h.remaining]
          exact add_pos hsome hheld
        have hsold := hnone (h.entered hheld) (h.exited hsome) hheld hbought
        exact le_antisymm hsold h.sold_nonneg
    rw [hunsold, add_zero] at hquantities
    rw [h.unsold hunsold, add_zero] at hprofits
    rw [List.append_nil]
    refine ⟨hquantities, ?_, fun hpaid => ?_, ?_⟩
    · rw [← hprofits, add_sub_cancel_right, sub_self, abs_zero]
      exact mul_nonneg hunit hturnover
    · obtain ⟨hbook, htrips⟩ := h.charged hpaid
      exact ⟨htrips, by linarith⟩
    · rw [hreported, sub_self, abs_zero]
      norm_num
  · have hrounds := Decimal.Context.digits_rounds hdigits
    have hshare : 0 ≤ (Decimal.Context.digits digits).div s.1.soldQuantity s.1.buyQuantity :=
      hrounds.round_nonneg (div_nonneg hsold.le hbought.le)
    have hcharged := share_between hdigits h.counts.buyFee hroom.money (le_min hshare zero_le_one)
      (min_le_right _ 1)
    rw [← hbuyFee] at hcharged
    obtain ⟨hcharged, hmagnitude⟩ := hcharged
    have hmap (f : RoundTrip → Decimal) :
        ((s.2 ++ [trip]).map f).sum = (s.2.map f).sum + f trip := by
      rw [List.map_append, List.sum_append, List.map_singleton, List.sum_singleton]
    refine ⟨?_, ?_, fun hpaid => ?_, ?_⟩
    · rw [hmap, hrow.quantity]
      exact hquantities
    · rw [hmap, hmap, hrow.pnl, hrow.buyFee, ← hprofits]
      calc
        _ = |(Decimal.Context.digits digits).sub s.1.realizedSum buyFee -
              (s.1.realizedSum - buyFee)| := by
          congr 1
          ring
        _ ≤ 10 ^ (1 - digits : ℤ) / 2 * |s.1.realizedSum - buyFee| := hrounds.close _
        _ ≤ 10 ^ (1 - digits : ℤ) / 2 * turnover (tradesOf symbol trades) := by
          have hturned := h.turned
          have hsub := abs_sub s.1.realizedSum buyFee
          gcongr
          linarith
    · obtain ⟨hbook, htrips⟩ := h.charged hpaid
      obtain ⟨hlow, hhigh⟩ := hcharged hbook
      rw [hmap, hrow.buyFee]
      exact ⟨add_nonneg htrips hlow, by linarith⟩
    · rw [hmap, hmap, hreported, add_sub_add_left_eq_sub, hrow.pnlAmount]
      exact Decimal.abs_quantizeHalfUp_sub_le 4 _

theorem symbolTrips_conserve (hshort : NeverShort (tradesOf symbol trades))
    (hroom : Held digits (tradesOf symbol trades)) {trips : List RoundTrip}
    (hok : symbolTrips digits symbol (tradesOf symbol trades) = .ok trips) :
    TripsConserve digits symbol trades trips := by
  cases hown : tradesOf symbol trades with
  | nil =>
    rw [hown] at hok
    cases hok
    refine ⟨?_, ?_, ?_, ?_⟩ <;> simp [hown, sideTotal, turnover]
    positivity
  | cons first rest =>
    rw [hown] at hok
    obtain ⟨s, hrun, hok⟩ := bind_ok_iff.mp hok
    obtain ⟨openTrip, hopen, hok⟩ := bind_ok_iff.mp hok
    cases hok
    have hkept : BookKept s ([] ++ (first :: rest)) :=
      BookKept.start.run (by rwa [hown] at hshort) (by rwa [hown] at hroom) hrun
    rw [List.nil_append, ← hown] at hkept
    exact hkept.finish hdigits hroom hopen

end

end Conservation

section Totals

theorem symbolTrips_rows {trades : List ExecutedTrade} {trips : List RoundTrip}
    (hok : symbolTrips digits symbol trades = .ok trips) :
    ∀ trip ∈ trips, trip.pnlAmount = Decimal.quantizeHalfUp 4 trip.pnl := by
  cases trades with
  | nil =>
    cases hok
    exact List.forall_mem_nil _
  | cons first rest =>
    obtain ⟨s, hrun, hok⟩ := bind_ok_iff.mp hok
    obtain ⟨openTrip, hopen, hok⟩ := bind_ok_iff.mp hok
    cases hok
    have hclosed : ∀ trip ∈ s.2, trip.pnlAmount = Decimal.quantizeHalfUp 4 trip.pnl := by
      refine foldlM_invariant (P := fun s : TripBook × List RoundTrip =>
        ∀ trip ∈ s.2, trip.pnlAmount = Decimal.quantizeHalfUp 4 trip.pnl)
        (fun s t s' _ hs hstep => ?_) (List.forall_mem_nil _) hrun
      rcases trade_cases hstep with ⟨_, rfl⟩ | ⟨_, _, rfl⟩ | ⟨_, _, rfl, _⟩ |
        ⟨_, _, _, trip, rfl, hrow⟩
      · exact hs
      · exact hs
      · exact hs
      · intro other hother
        rcases List.mem_append.mp hother with hold | hnew
        · exact hs other hold
        · obtain rfl := List.mem_singleton.mp hnew
          exact hrow.pnlAmount
    intro trip htrip
    rcases List.mem_append.mp htrip with hold | hnew
    · exact hclosed trip hold
    · rcases openTrip_cases hopen with ⟨rfl, _⟩ | ⟨row, _, _, rfl, _, _, _, _, hrow⟩
      · exact absurd hnew List.not_mem_nil
      · obtain rfl := List.mem_singleton.mp hnew
        exact hrow.pnlAmount

theorem closedTradeTotals_realizedPnl {roundTrips : List RoundTrip}
    {totals : List ClosedTradeTotal}
    (hrows : ∀ trip ∈ roundTrips, Decimal.HasPlaces 4 trip.pnlAmount)
    (hok : closedTradeTotals digits roundTrips = .ok totals) :
    ∀ total ∈ totals,
      ((roundTrips.filter (·.currency = total.currency)).map (|·.pnlAmount|)).sum * 10 ^ 4 <
        10 ^ digits →
      total.realizedPnl =
        ((roundTrips.filter (·.currency = total.currency)).map (·.pnlAmount)).sum := by
  intro total htotal hfits
  obtain ⟨currency, -, hbucket⟩ := exists_of_mem_mapM_ok hok htotal
  obtain ⟨cost, _, hbucket⟩ := bind_ok_iff.mp hbucket
  obtain ⟨pnl, hpnl, hbucket⟩ := bind_ok_iff.mp hbucket
  obtain ⟨rate, _, hbucket⟩ := bind_ok_iff.mp hbucket
  cases hbucket
  have hplaces : ∀ amount ∈ (roundTrips.filter (·.currency = currency)).map (·.pnlAmount),
      Decimal.HasPlaces 4 amount :=
    List.forall_mem_map.mpr fun trip htrip => hrows trip (List.mem_filter.mp htrip).1
  have hsum := Decimal.Context.digits_sum hplaces (by simpa [Function.comp_def] using hfits)
  rw [Decimal.quantizeHalfUpWithin_ok hpnl, hsum.1]
  exact hsum.2.quantizeHalfUp

end Totals

instance (trades : List ExecutedTrade) : Decidable (NeverShort trades) :=
  decidable_of_iff (∀ front ∈ trades.inits,
    sideTotal .sell (·.qty) front ≤ sideTotal .buy (·.qty) front)
    (by simp only [NeverShort, List.mem_inits])

/-- The round trips of a symbol add up to what was sold: to its quantity, and up
to the rounding of one trip to its realized profit less the buy fees charged to
the trips, which are no more than the buy fees paid unless one of these was
negative. They depend on the trades of the symbol only, no order of the other
trades makes the code raise, and what they report adds up to the totals of
their currencies. -/
theorem round_trips_conserve (hdigits : 3 ≤ digits)
    (hordered : trades.Pairwise fun a b => a.executedAt ≤ b.executedAt) {trips : List RoundTrip}
    (hok : buildRoundTrips digits trades = .ok trips) (symbol : String)
    (hshort : NeverShort (tradesOf symbol trades)) (hheld : Held digits (tradesOf symbol trades)) :
    TripsConserve digits symbol trades
        (trips.filter fun trip => decide (trip.symbol = symbol)) ∧
      (∀ others otherTrips, (others.Pairwise fun a b => a.executedAt ≤ b.executedAt) →
        buildRoundTrips digits others = .ok otherTrips →
        tradesOf symbol others = tradesOf symbol trades →
        (otherTrips.filter fun trip => decide (trip.symbol = symbol)) =
          trips.filter fun trip => decide (trip.symbol = symbol)) ∧
      (∀ others, (others.Pairwise fun a b => a.executedAt ≤ b.executedAt) →
        (∀ symbol, tradesOf symbol others = tradesOf symbol trades) →
        ∃ otherTrips, buildRoundTrips digits others = .ok otherTrips) ∧
      ∀ totals, closedTradeTotals digits trips = .ok totals → ∀ total ∈ totals,
        ((trips.filter (·.currency = total.currency)).map (|·.pnlAmount|)).sum * 10 ^ 4 <
          10 ^ digits →
        total.realizedPnl =
          ((trips.filter (·.currency = total.currency)).map (·.pnlAmount)).sum := by
  have hown := filter_buildRoundTrips hordered hok
  refine ⟨symbolTrips_conserve hdigits hshort hheld (hown symbol), ?_, ?_, ?_⟩
  · intro others otherTrips hothers hotherTrips hsame
    have hother := filter_buildRoundTrips hothers hotherTrips symbol
    rw [hsame, hown symbol] at hother
    exact (Except.ok.inj hother).symm
  · intro others hothers hsame
    apply (buildRoundTrips_ok_iff hothers).mpr
    intro symbol
    rw [hsame symbol]
    exact ⟨_, hown symbol⟩
  · intro totals htotals
    refine closedTradeTotals_realizedPnl (fun trip htrip => ?_) htotals
    have hrow := symbolTrips_rows (hown trip.symbol) trip
      (List.mem_filter.mpr ⟨htrip, decide_eq_true rfl⟩)
    rw [hrow]
    exact Decimal.quantizeHalfUp_hasPlaces 4 _

def executed (symbol : String) (side : OrderSide) (executedAt : Instant)
    (quantity price : Numeric 20 8) (fee : Numeric 20 4) (realizedPnl : Option (Numeric 20 4))
    (hquantity : 0 < quantity.value := by decide +kernel) : ExecutedTrade where
  id := 1
  accountId := 1
  symbol
  instrumentType := .equityKr
  side
  orderType := .limit
  quantity
  price
  totalAmount := .ofUnits 0 (by decide +kernel)
  fee
  currency := .krw
  realizedPnl
  executedAt
  quantity_pos := hquantity

def shares (count : Fin 10) : Numeric 20 8 :=
  .ofUnits (count * 10 ^ 8) (by revert count; decide +kernel)

def won (amount : Fin 1000) : Numeric 20 4 :=
  .ofUnits (amount * 10 ^ 4) (by revert amount; decide +kernel)

def hundredWon : Numeric 20 8 := .ofUnits (100 * 10 ^ 8) (by decide +kernel)

/-- Two shares of one symbol of which one is sold, between the trades of
another. -/
def interleavedTrades : List ExecutedTrade :=
  [executed "005930" .buy 0 (shares 1) hundredWon (won 1) none,
    executed "000660" .buy 1 (shares 1) hundredWon (won 1) none,
    executed "005930" .buy 2 (shares 1) hundredWon (won 1) none,
    executed "005930" .sell 3 (shares 1) hundredWon (won 1) (some (won 10)),
    executed "000660" .sell 4 (shares 1) hundredWon (won 1) none]

/-- Trades of two symbols that interleave. -/
theorem round_trips_conserve_interleaved :
    ∃ trips, buildRoundTrips 28 interleavedTrades = .ok trips ∧ trips.length = 2 ∧
      TripsConserve 28 "005930" interleavedTrades
        (trips.filter fun trip => decide (trip.symbol = "005930")) := by
  obtain ⟨trips, hok, hlength⟩ := exists_ok_of_check (x := buildRoundTrips 28 interleavedTrades)
    (P := fun trips => trips.length = 2) (by decide +kernel)
  exact ⟨trips, hok, hlength, (round_trips_conserve (by decide) (by decide +kernel) hok "005930"
    (by decide +kernel) ⟨by decide +kernel, by decide +kernel⟩).1⟩

section Full

/-- A column with all its digits, of so many places. -/
def row (places : ℕ) : Decimal := (10 ^ 20 - 1 : ℤ) / 10 ^ places

/-- As many shares as a trade can have, at the lowest price and without a fee. -/
def fullTrade (side : OrderSide) : ExecutedTrade :=
  executed "000660" side 0 (.ofUnits (10 ^ 20 - 1) (by decide +kernel))
    (.ofUnits 1 (by decide +kernel)) (won 0) none

def fullTrades (count : ℕ) : List ExecutedTrade :=
  List.replicate count (fullTrade .buy) ++ List.replicate count (fullTrade .sell)

def boughtRows (count : ℕ) : TripBook where
  positionQty := count * row 8
  buyCost := count * row 16
  buyQuantity := count * row 8
  entryDate := some 0

/-- The book after one buy more than the digits can add up. -/
def overfull : TripBook := (boughtRows (10 ^ 8)).buy 28 (fullTrade .buy)

def leftRows (left sold : ℕ) : TripBook where
  positionQty := left * row 8 + 1 / 10 ^ 8
  buyCost := overfull.buyCost
  buyQuantity := overfull.buyQuantity
  soldQuantity := sold * row 8
  entryDate := some 0
  lastExitDate := match sold with
    | 0 => none
    | _ + 1 => some 0

theorem round_rows (places count : ℕ) (rest : ℤ)
    (hsize : |(count * (10 ^ 20 - 1) + rest : ℤ)| < 10 ^ 28) :
    (Decimal.Context.digits 28).round (count * row places + rest / 10 ^ places) =
      count * row places + rest / 10 ^ places := by
  have hunits : (count * row places + rest / 10 ^ places : ℚ) =
      ((count * (10 ^ 20 - 1) + rest : ℤ) : ℚ) / 10 ^ places := by
    unfold row
    push_cast
    ring
  rw [hunits]
  apply Decimal.Context.digits_round ⟨_, rfl⟩
  have hpow : (0 : ℚ) < 10 ^ places := by positivity
  rw [abs_div, abs_of_pos hpow, div_mul_cancel₀ _ hpow.ne']
  exact_mod_cast hsize

theorem add_row {places count : ℕ} (hcount : count < 10 ^ 8) :
    (Decimal.Context.digits 28).add (count * row places) (row places) =
      (count + 1 : ℕ) * row places := by
  have hround := round_rows places (count + 1) 0
    (by rw [abs_of_nonneg (by push_cast; omega)]; push_cast; omega)
  rw [Int.cast_zero, zero_div, add_zero] at hround
  rw [← hround]
  show (Decimal.Context.digits 28).round _ = _
  congr 1
  push_cast
  ring

theorem buy_row {count : ℕ} (hcount : count < 10 ^ 8) :
    (boughtRows count).buy 28 (fullTrade .buy) = boughtRows (count + 1) := by
  have hquantity : (fullTrade .buy).quantity.value = row 8 := by decide +kernel
  have hprice : (Decimal.Context.digits 28).add ((Decimal.Context.digits 28).mul (row 8)
      (fullTrade .buy).price.value) 0 = row 16 := by decide +kernel
  have hfee : (fullTrade .buy).fee.value = 0 := by decide +kernel
  have hadd : (Decimal.Context.digits 28).add 0 0 = 0 := by decide +kernel
  have hsub : (Decimal.Context.digits 28).sub 0 0 = 0 := by decide +kernel
  have hopened : (if (boughtRows count).positionQty ≤ 0 then
      { boughtRows count with
        entryDate := some (fullTrade .buy).executedAt, entryReason := (fullTrade .buy).reason
        buyCost := 0, buyQuantity := 0, buyFee := 0, soldQuantity := 0, realizedSum := 0
        totalPnl := 0 }
      else boughtRows count) = boughtRows count := by
    rcases count.eq_zero_or_pos with rfl | hpos
    · decide +kernel
    · have hheld : 0 < (boughtRows count).positionQty :=
        mul_pos (by exact_mod_cast hpos) (by decide +kernel)
      rw [if_neg (not_le.mpr hheld)]
  unfold TripBook.buy
  simp only [hopened, hfee, hquantity]
  simp only [boughtRows, add_row hcount, hprice, hadd, hsub]

theorem buy_rows (count : ℕ) (hcount : count < 10 ^ 8) :
    (List.replicate (count + 1) (fullTrade .buy)).foldlM
      (TripBook.trade 28 "000660" .equityKr) ({}, []) = .ok (boughtRows (count + 1), []) := by
  induction count with
  | zero =>
    have hfirst : ({} : TripBook).buy 28 (fullTrade .buy) = boughtRows 1 := by decide +kernel
    rw [zero_add, List.replicate_one, List.foldlM_cons]
    exact congrArg (fun book => Except.ok (book, [])) hfirst
  | succ count ih =>
    rw [List.replicate_succ', List.foldlM_append, ih (by omega), ok_bind, List.foldlM_cons]
    exact congrArg (fun book => Except.ok (book, [])) (buy_row hcount)

/-- A sell that leaves a position only changes the book. -/
theorem trade_sell {book : TripBook} {trips : List RoundTrip} (hside : t.side = .sell)
    (hentered : book.entryDate.isSome) (hheld : 0 < book.positionQty)
    (hleft : 0 < (book.sell digits t).positionQty) :
    TripBook.trade digits symbol instrumentType (book, trips) t =
      .ok (book.sell digits t, trips) := by
  obtain ⟨entryDate, hentry⟩ := Option.isSome_iff_exists.mp hentered
  have hentry' : (book.sell digits t).entryDate = some entryDate := hentry
  have hexit : (book.sell digits t).lastExitDate = some t.executedAt := rfl
  simp only [TripBook.trade, hside, not_le.mpr hheld, if_false, hentry', hexit, not_le.mpr hleft]

theorem sell_row (left sold : ℕ) (hleft : left ≤ 10 ^ 8) (hsold : sold < 10 ^ 8) :
    (leftRows (left + 1) sold).sell 28 (fullTrade .sell) = leftRows left (sold + 1) := by
  have hquantity : (fullTrade .sell).quantity.value = row 8 := by decide +kernel
  have hposition : (Decimal.Context.digits 28).sub ((left + 1 : ℕ) * row 8 + 1 / 10 ^ 8) (row 8) =
      left * row 8 + 1 / 10 ^ 8 := by
    have hround := round_rows 8 left 1
      (by rw [abs_of_nonneg (by omega)]; omega)
    rw [Int.cast_one] at hround
    rw [← hround]
    show (Decimal.Context.digits 28).round _ = _
    congr 1
    push_cast
    ring
  have hprofit : (Decimal.Context.digits 28).add 0 (fullTrade .sell).realized = 0 := by
    decide +kernel
  unfold TripBook.sell
  simp only [leftRows, hquantity, hposition, add_row hsold, hprofit]
  rfl

theorem sell_rows (sold : ℕ) (hsold : sold ≤ 10 ^ 8) :
    (List.replicate sold (fullTrade .sell)).foldlM
      (TripBook.trade 28 "000660" .equityKr) (leftRows (10 ^ 8 + 1) 0, []) =
        .ok (leftRows (10 ^ 8 + 1 - sold) sold, []) := by
  induction sold with
  | zero => rfl
  | succ sold ih =>
    obtain ⟨left, hleft⟩ : ∃ left, 10 ^ 8 + 1 - sold = left + 1 := ⟨10 ^ 8 - sold, by omega⟩
    have hnext : 10 ^ 8 + 1 - (sold + 1) = left := by omega
    have hheld (left sold : ℕ) : 0 < (leftRows left sold).positionQty := by
      have hrow : 0 ≤ row 8 := by decide +kernel
      show 0 < left * row 8 + 1 / 10 ^ 8
      positivity
    have hrow := sell_row left sold (by omega) (by omega)
    rw [List.replicate_succ', List.foldlM_append, ih (by omega), ok_bind, List.foldlM_cons,
      hleft, hnext, trade_sell rfl rfl (hheld _ _) (by rw [hrow]; exact hheld _ _), hrow]
    rfl

/-- The book that is left after everything was sold: it holds the rounding of the
last buy. -/
def leftOver : TripBook := (leftRows 1 (10 ^ 8)).sell 28 (fullTrade .sell)

/-- A buy and its sells leave nothing but the rounding. -/
theorem full_run :
    (fullTrades (10 ^ 8 + 1)).foldlM (TripBook.trade 28 "000660" .equityKr) ({}, []) =
      .ok (leftOver, []) := by
  have hbought := buy_rows (10 ^ 8 - 1) (by norm_num)
  have hcount : 10 ^ 8 - 1 + 1 = 10 ^ 8 := by norm_num
  have hover : overfull = leftRows (10 ^ 8 + 1) 0 := by decide +kernel
  have hbuys : (List.replicate (10 ^ 8 + 1) (fullTrade .buy)).foldlM
      (TripBook.trade 28 "000660" .equityKr) ({}, []) = .ok (leftRows (10 ^ 8 + 1) 0, []) := by
    rw [hcount] at hbought
    rw [List.replicate_succ', List.foldlM_append, hbought, ok_bind, List.foldlM_cons]
    exact congrArg (fun book => Except.ok (book, [])) hover
  have hsells := sell_rows (10 ^ 8) le_rfl
  have hone : 10 ^ 8 + 1 - 10 ^ 8 = 1 := by norm_num
  rw [hone] at hsells
  have hheld : 0 < (leftRows 1 (10 ^ 8)).positionQty := by decide +kernel
  have hleft : 0 < ((leftRows 1 (10 ^ 8)).sell 28 (fullTrade .sell)).positionQty := by
    decide +kernel
  rw [fullTrades, List.foldlM_append, hbuys, ok_bind, List.replicate_succ', List.foldlM_append,
    hsells, ok_bind, List.foldlM_cons, trade_sell rfl rfl hheld hleft, ok_bind]
  rfl

theorem full_trips :
    ∃ trip, symbolTrips 28 "000660" (fullTrades (10 ^ 8 + 1)) = .ok [trip] ∧
      trip.quantity = (10 ^ 8 + 1 : ℕ) * row 8 + 1 / 10 ^ 8 := by
  obtain ⟨trips, hopen, htrips⟩ := exists_ok_of_check
    (x := leftOver.openTrip 28 "000660" .equityKr)
    (P := fun trips => trips.map (·.quantity) = [(10 ^ 8 + 1 : ℕ) * row 8 + 1 / 10 ^ 8])
    (by decide +kernel)
  obtain ⟨trip, rfl, hquantity⟩ := List.map_eq_singleton_iff.mp htrips
  refine ⟨trip, ?_, hquantity⟩
  have hrun := full_run
  have hcons : fullTrades (10 ^ 8 + 1) = fullTrade .buy ::
      (List.replicate (10 ^ 8) (fullTrade .buy) ++
        List.replicate (10 ^ 8 + 1) (fullTrade .sell)) := by
    rw [fullTrades, List.replicate_succ, List.cons_append]
  rw [hcons] at hrun ⊢
  unfold symbolTrips
  simp only
  have hkind : (fullTrade .buy).instrumentType = .equityKr := rfl
  rw [hkind, hrun, ok_bind, hopen]
  rfl

theorem fullTrades_side (side : OrderSide) (amount : ExecutedTrade → Decimal) (buys sells : ℕ) :
    sideTotal side amount
        (List.replicate buys (fullTrade .buy) ++ List.replicate sells (fullTrade .sell)) =
      (match side with | .buy => buys | .sell => sells : ℕ) * amount (fullTrade side) := by
  have hbuy : (fullTrade .buy).side = .buy := rfl
  have hsell : (fullTrade .sell).side = .sell := rfl
  cases side <;>
    simp [sideTotal, List.filter_append, hbuy, hsell, nsmul_eq_mul]

theorem fullTrades_neverShort (count : ℕ) : NeverShort (fullTrades count) := by
  intro front hfront
  rw [fullTrades, List.prefix_iff_eq_take] at hfront
  rw [hfront, List.take_append, List.take_replicate, List.take_replicate, fullTrades_side,
    fullTrades_side, List.length_replicate]
  have hqty : (fullTrade .sell).qty = (fullTrade .buy).qty := rfl
  have hnonneg : 0 ≤ (fullTrade .buy).qty := (fullTrade .buy).quantity_pos.le
  rw [hqty]
  have hle : min (front.length - count) count ≤ min front.length count := by omega
  dsimp only
  gcongr

end Full

/-- Three shares of which one is sold, whose fee leaves a third. -/
def partTrades : List ExecutedTrade :=
  [executed "005930" .buy 0 (shares 3) hundredWon (won 1) none,
    executed "005930" .sell 1 (shares 1) hundredWon (won 1) (some (won 10))]

/-- Two shares bought at a negative limit price, of which one is sold. -/
def paidTrades : List ExecutedTrade :=
  [executed "005930" .buy 0 (shares 2) (.ofUnits (-150000 * 10 ^ 8) (by decide +kernel))
      (.ofUnits (-450 * 10 ^ 4) (by decide +kernel)) none,
    executed "005930" .sell 1 (shares 1) hundredWon (won 1) (some (won 10))]

/-- A purchase that has cost next to nothing, sold at a profit without measure. -/
def dearTrades : List ExecutedTrade :=
  [executed "005930" .buy 0 (.ofUnits 1 (by decide +kernel)) (.ofUnits 1 (by decide +kernel))
      (won 0) none,
    executed "005930" .sell 1 (.ofUnits 1 (by decide +kernel)) hundredWon (won 0)
      (some (.ofUnits (10 ^ 19) (by decide +kernel)))]

/-- A third of a fee is rounded; a negative fee is charged in part; a rate of
return can have more digits than the context; and what is sold is not counted to
the last share where the digits do not hold its sum. -/
theorem round_trips_lose :
    (∃ trips, buildRoundTrips 28 partTrades = .ok trips ∧ NeverShort partTrades ∧
      (trips.map (·.pnl)).sum ≠
        sideTotal .sell (·.profit) partTrades - (trips.map (·.buyFee)).sum) ∧
    (∃ trips, buildRoundTrips 28 paidTrades = .ok trips ∧ NeverShort paidTrades ∧
      sideTotal .buy (·.paidFee) paidTrades < (trips.map (·.buyFee)).sum) ∧
    (NeverShort dearTrades ∧ buildRoundTrips 28 dearTrades = .error "InvalidOperation") ∧
    ∃ trips, buildRoundTrips 28 (fullTrades (10 ^ 8 + 1)) = .ok trips ∧
      NeverShort (fullTrades (10 ^ 8 + 1)) ∧
      ((trips.filter fun trip => decide (trip.symbol = "000660")).map (·.quantity)).sum ≠
        sideTotal .sell (·.qty) (fullTrades (10 ^ 8 + 1)) := by
  refine ⟨?_, ?_, ⟨by decide +kernel, eq_error_of_check (by decide +kernel)⟩, ?_⟩
  · exact exists_ok_of_check (by decide +kernel)
  · exact exists_ok_of_check (by decide +kernel)
  · obtain ⟨trip, hown, hquantity⟩ := full_trips
    have hall : ∀ t ∈ fullTrades (10 ^ 8 + 1), t.symbol = "000660" ∧ t.executedAt = 0 := by
      intro t ht
      rcases List.mem_append.mp ht with hbuy | hsell
      · obtain rfl := List.eq_of_mem_replicate hbuy
        exact ⟨rfl, rfl⟩
      · obtain rfl := List.eq_of_mem_replicate hsell
        exact ⟨rfl, rfl⟩
    have hordered : (fullTrades (10 ^ 8 + 1)).Pairwise fun a b => a.executedAt ≤ b.executedAt :=
      List.pairwise_of_forall_mem_list fun a ha b hb => by rw [(hall a ha).2, (hall b hb).2]
    have htrades : tradesOf "000660" (fullTrades (10 ^ 8 + 1)) = fullTrades (10 ^ 8 + 1) :=
      List.filter_eq_self.mpr fun t ht => decide_eq_true (hall t ht).1
    obtain ⟨trips, htrips⟩ : ∃ trips,
        buildRoundTrips 28 (fullTrades (10 ^ 8 + 1)) = .ok trips := by
      refine (buildRoundTrips_ok_iff hordered).mpr fun symbol => ?_
      by_cases hsymbol : symbol = "000660"
      · rw [hsymbol, htrades]
        exact ⟨_, hown⟩
      · have hnone : tradesOf symbol (fullTrades (10 ^ 8 + 1)) = [] :=
          List.filter_eq_nil_iff.mpr fun t ht hsame =>
            hsymbol ((of_decide_eq_true hsame).symm.trans (hall t ht).1)
        rw [hnone]
        exact ⟨[], rfl⟩
    refine ⟨trips, htrips, fullTrades_neverShort _, ?_⟩
    have hsame := filter_buildRoundTrips hordered htrips "000660"
    rw [htrades, hown] at hsame
    rw [← Except.ok.inj hsame, List.map_singleton, List.sum_singleton, hquantity, fullTrades,
      fullTrades_side]
    decide +kernel

end KAssetTrader.Paper
