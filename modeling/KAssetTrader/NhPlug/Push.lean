import KAssetTrader.Library.CodePoints
import KAssetTrader.Tape.TapeWindow

/-!
Pushes of the feed: the fields of a message are read by hand from texts, a trade or a book
is made of them, and a field that is missing or wrong gives no value. The check before `int`
accepts more digits than `int` does, so a counter field can raise.
-/

namespace KAssetTrader.NhPlug

open Checked CodePoints

/-- A JSON value; a number is held by the text that `str` gives of it. -/
inductive Json where
  | null
  | bool (value : Bool)
  | number (text : Text)
  | str (text : Text)
  | arr (items : List Json)
  | obj (entries : List (Text × Json))

abbrev Body := List (Text × Json)

/-- What is raised and not caught: a nesting that is too deep, a `ValueError`, or an operation
of decimal arithmetic without a result. -/
inductive Raised where
  | recursion
  | value
  | arithmetic

namespace Json

def truthy : Json → Bool
  | .null => false
  | .bool value => value
  | .number text => text ∉ [ofString "0", ofString "0.0", ofString "-0.0"]
  | .str text => text ≠ []
  | .arr items => !items.isEmpty
  | .obj entries => !entries.isEmpty

/-- `isinstance(value, Mapping)`. -/
def mapping? : Json → Option Body
  | .obj entries => some entries
  | _ => none

theorem eq_obj_of_mapping? {value : Json} {body : Body} (h : value.mapping? = some body) :
    value = .obj body := by
  cases value with
  | obj entries => rw [Option.some.inj h]
  | null => cases h
  | bool value => cases h
  | number text => cases h
  | str text => cases h
  | arr items => cases h

def isText (value : Json) (text : String) : Bool :=
  match value with
  | .str other => other = ofString text
  | _ => false

end Json

def Body.get? (body : Body) (key : String) : Option Json := body.lookup (ofString key)

structure TradePush where
  symbol : Text
  exchangeTime : ℤ
  price : Decimal
  cumulativeVolume : ℤ
  cumulativeBuyVolume : Option ℤ
  cumulativeSellVolume : Option ℤ
  sessionVwap : Option Decimal

structure BookPush where
  symbol : Text
  exchangeTime : ℤ
  bestBid : Option Decimal
  bestAsk : Option Decimal
  bestBidSize : Option ℤ
  bestAskSize : Option ℤ
  totalBidSize : Option ℤ
  totalAskSize : Option ℤ
  depth : List Tape.BookLevel

inductive Push where
  | trade (tick : TradePush)
  | book (tick : BookPush)

def Push.symbol : Push → Text
  | .trade tick => tick.symbol
  | .book tick => tick.symbol

inductive Channel where
  | trade
  | book

def channelOf (header : Body) : Option Channel :=
  match header.get? "tr_cd" with
  | none => none
  | some channel =>
    if channel.isText "oc" then some .trade
    else if channel.isText "ob" then some .book
    else none

section Fields

-- `str` of an array or an object, which shows its items.
variable (repr : Json → Text)

/-- `str(value)`. -/
def Json.text : Json → Text
  | .null => ofString "None"
  | .bool value => ofString (if value then "True" else "False")
  | .number text => text
  | .str text => text
  | value => repr value

def fieldText (body : Body) (key : String) : Option Text :=
  match body.get? key with
  | none | some .null => none
  | some raw =>
    let value := strip (raw.text repr)
    if value = [] then none else some value

def positiveDecimal (body : Body) (key : String) : Option Decimal :=
  match fieldText repr body key with
  | none => none
  | some raw =>
    match decimalOf raw with
    | some (.finite n) => if n.value ≤ 0 then none else some n.value
    | _ => none

def nonNegativeInt (body : Body) (key : String) : Except Raised (Option ℤ) :=
  match fieldText repr body key with
  | none => .ok none
  | some raw =>
    if isDigits raw = false then .ok none
    else match intOf raw with
      | none => .error .value
      | some value => .ok (some value)

/-- `_exchange_time`, since midnight in the unit of instants. -/
def exchangeTime (raw : Option Text) : Option ℤ := do
  let digits := (← raw).filter (· ≠ 0x3a)
  if digits.length ≠ 6 ∨ isDigits digits = false then none
  else
    let hour ← intOf (digits.take 2)
    let minute ← intOf ((digits.drop 2).take 2)
    let second ← intOf ((digits.drop 4).take 2)
    if 23 < hour ∨ 59 < minute ∨ 59 < second then none
    else some (Tape.seconds (hour * 3600 + minute * 60 + second))

/-- The symbol of a push: its code, or else the key of its registration. -/
def pushSymbol (header body : Body) : Option Text :=
  (fieldText repr body "code").or
    (match header.get? "tr_key" with
    | none => none
    | some key => if key.truthy then some (strip (key.text repr)) else none)

def levelPrefixes : List String :=
  ["", "P_", "S_", "S4_", "S5_", "S6_", "S7_", "S8_", "S9_", "S10_"]

def bookLevel (body : Body) (level : String) : Except Raised Tape.BookLevel := do
  return {
    bid := positiveDecimal repr body (level ++ "bid")
    ask := positiveDecimal repr body (level ++ "offer")
    bidSize := ← nonNegativeInt repr body (level ++ "bidrem")
    askSize := ← nonNegativeInt repr body (level ++ "offerrem") }

def tradePush (symbol : Text) (body : Body) : Except Raised (Option TradePush) := do
  let exchangeTime := exchangeTime (fieldText repr body "time")
  let price := positiveDecimal repr body "price"
  let volume ← nonNegativeInt repr body "volume"
  match exchangeTime, price, volume with
  | some exchangeTime, some price, some cumulativeVolume =>
    return some {
      symbol, exchangeTime, price, cumulativeVolume
      cumulativeBuyVolume := ← nonNegativeInt repr body "bidvolall"
      cumulativeSellVolume := ← nonNegativeInt repr body "offvolall"
      sessionVwap := positiveDecimal repr body "avgprice" }
  | _, _, _ => return none

def bookPush (symbol : Text) (body : Body) : Except Raised (Option BookPush) :=
  match exchangeTime (fieldText repr body "hotime") with
  | none => .ok none
  | some exchangeTime => do
      return some {
        symbol, exchangeTime
        bestBid := positiveDecimal repr body "bid"
        bestAsk := positiveDecimal repr body "offer"
        bestBidSize := ← nonNegativeInt repr body "bidrem"
        bestAskSize := ← nonNegativeInt repr body "offerrem"
        totalBidSize := ← nonNegativeInt repr body "T_bidrem"
        totalAskSize := ← nonNegativeInt repr body "T_offerrem"
        depth := ← levelPrefixes.mapM (bookLevel repr body) }

/-- The part of `parse_push` that a trade and a book have in common: the channel, the symbol
and the body. -/
def pushHead (message : Body) : Option (Channel × Text × Body) :=
  match (message.get? "header").bind Json.mapping?, (message.get? "body").bind Json.mapping? with
  | some header, some body =>
    match pushSymbol repr header body with
    | none => none
    | some symbol =>
      if symbol.length ≠ 6 then none
      else (channelOf header).map fun channel => (channel, symbol, body)
  | _, _ => none

/-- `parse_push`, of the entries of a message. -/
def parsePush (message : Body) : Except Raised (Option Push) :=
  match pushHead repr message with
  | none => .ok none
  | some (.trade, symbol, body) => (·.map .trade) <$> tradePush repr symbol body
  | some (.book, symbol, body) => (·.map .book) <$> bookPush repr symbol body

end Fields

variable {repr : Json → Text} {body : Body} {key : String}

theorem positiveDecimal_pos {x : Decimal} (h : positiveDecimal repr body key = some x) :
    0 < x := by
  unfold positiveDecimal at h
  split at h
  · cases h
  split at h
  · split at h
    · cases h
    · next hpos =>
      rw [← Option.some.inj h]
      exact not_le.mp hpos
  · cases h

variable {n : ℤ} {symbol : Text} {level : String} {message : Body}

theorem nonNegativeInt_nonneg (h : nonNegativeInt repr body key = .ok (some n)) :
    0 ≤ n := by
  unfold nonNegativeInt at h
  split at h
  · cases h
  split at h
  · cases h
  split at h
  · cases h
  · next value hvalue =>
    cases Except.ok.inj h
    exact intOf_nonneg hvalue

/-- The text of a field, where it is a counter at all, is one that `int` reads. -/
def Converts (repr : Json → Text) (body : Body) (key : String) : Prop :=
  ∀ text, fieldText repr body key = some text → isDigits text → Convertible text

/-- A counter field is read exactly when `int` reads its digits. -/
theorem nonNegativeInt_ok_iff :
    (∃ value, nonNegativeInt repr body key = .ok value) ↔ Converts repr body key := by
  unfold nonNegativeInt Converts
  cases htext : fieldText repr body key with
  | none => simp
  | some text =>
    by_cases hdigits : isDigits text = true
    · simp only [hdigits, Bool.true_eq_false, if_false, Option.some.injEq, forall_eq',
        forall_true_left, ← intOf_isSome_iff]
      cases hint : intOf text with
      | none => simp
      | some value => simp
    · simp [hdigits]

def bookCounters : List String :=
  ["T_bidrem", "T_offerrem"] ++
    levelPrefixes.flatMap fun level => [level ++ "bidrem", level ++ "offerrem"]

/-- The counters of a trade that are read can be read. The two sums are read only after the
other fields were found. -/
def TradeConverts (repr : Json → Text) (body : Body) : Prop :=
  Converts repr body "volume" ∧
    ((exchangeTime (fieldText repr body "time")).isSome →
      (positiveDecimal repr body "price").isSome →
      (∃ text, fieldText repr body "volume" = some text ∧ isDigits text) →
      Converts repr body "bidvolall" ∧ Converts repr body "offvolall")

def BookConverts (repr : Json → Text) (body : Body) : Prop :=
  (exchangeTime (fieldText repr body "hotime")).isSome →
    ∀ key ∈ bookCounters, Converts repr body key

def CountersConvert (repr : Json → Text) (message : Body) : Prop :=
  ∀ head, pushHead repr message = some head →
    match head with
    | (.trade, _, body) => TradeConverts repr body
    | (.book, _, body) => BookConverts repr body

theorem nonNegativeInt_eq_some (h : nonNegativeInt repr body key = .ok (some n)) :
    ∃ text, fieldText repr body key = some text ∧ isDigits text := by
  unfold nonNegativeInt at h
  split at h
  · cases h
  · next text htext =>
    split at h
    · cases h
    next hdigits => exact ⟨text, htext, by simpa using hdigits⟩

theorem nonNegativeInt_eq_none (h : nonNegativeInt repr body key = .ok none) :
    ¬ ∃ text, fieldText repr body key = some text ∧ isDigits text := by
  rintro ⟨text, htext, hdigits⟩
  unfold nonNegativeInt at h
  simp only [htext, hdigits, Bool.true_eq_false, if_false] at h
  split at h
  · cases h
  · cases h

theorem tradePush_ok_iff :
    (∃ tick, tradePush repr symbol body = .ok tick) ↔ TradeConverts repr body := by
  unfold tradePush TradeConverts
  rw [← nonNegativeInt_ok_iff]
  cases hvolume : nonNegativeInt repr body "volume" with
  | error raised => simp
  | ok volume =>
    cases htime : exchangeTime (fieldText repr body "time") with
    | none => simp [pure, Except.pure]
    | some moment =>
      cases hprice : positiveDecimal repr body "price" with
      | none => simp [pure, Except.pure]
      | some price =>
        cases volume with
        | none => simp [nonNegativeInt_eq_none hvolume, pure, Except.pure]
        | some volume =>
          rw [← nonNegativeInt_ok_iff, ← nonNegativeInt_ok_iff]
          have hdigits := nonNegativeInt_eq_some hvolume
          cases nonNegativeInt repr body "bidvolall" with
          | error raised => simp [hdigits]
          | ok buy =>
            cases nonNegativeInt repr body "offvolall" with
            | error raised => simp [hdigits]
            | ok sell => simp [hdigits, pure, Except.pure]

theorem bookLevel_ok_iff :
    (∃ found, bookLevel repr body level = .ok found) ↔
      Converts repr body (level ++ "bidrem") ∧ Converts repr body (level ++ "offerrem") := by
  unfold bookLevel
  rw [← nonNegativeInt_ok_iff, ← nonNegativeInt_ok_iff]
  cases nonNegativeInt repr body (level ++ "bidrem") with
  | error raised => simp
  | ok bidSize =>
    cases nonNegativeInt repr body (level ++ "offerrem") with
    | error raised => simp
    | ok askSize => simp [pure, Except.pure]

theorem levels_ok_iff :
    (∃ depth, levelPrefixes.mapM (bookLevel repr body) = .ok depth) ↔
      ∀ level ∈ levelPrefixes,
        Converts repr body (level ++ "bidrem") ∧ Converts repr body (level ++ "offerrem") := by
  rw [mapM_ok_iff]
  exact forall₂_congr fun level _ => bookLevel_ok_iff

theorem bookCounters_convert_iff :
    (∀ key ∈ bookCounters, Converts repr body key) ↔
      (Converts repr body "T_bidrem" ∧ Converts repr body "T_offerrem") ∧
        ∀ level ∈ levelPrefixes,
          Converts repr body (level ++ "bidrem") ∧ Converts repr body (level ++ "offerrem") := by
  simp only [bookCounters, List.forall_mem_append, List.forall_mem_cons, List.forall_mem_flatMap,
    List.not_mem_nil, false_imp_iff, implies_true, and_true]

theorem bookPush_ok_iff :
    (∃ tick, bookPush repr symbol body = .ok tick) ↔ BookConverts repr body := by
  unfold bookPush BookConverts
  cases exchangeTime (fieldText repr body "hotime") with
  | none => simp
  | some moment =>
    rw [bookCounters_convert_iff]
    simp only [Option.isSome_some, forall_true_left]
    constructor
    · rintro ⟨tick, h⟩
      obtain ⟨bidSize, -, h⟩ := bind_ok_iff.mp h
      obtain ⟨askSize, -, h⟩ := bind_ok_iff.mp h
      obtain ⟨totalBid, hbid, h⟩ := bind_ok_iff.mp h
      obtain ⟨totalAsk, hask, h⟩ := bind_ok_iff.mp h
      obtain ⟨depth, hdepth, -⟩ := bind_ok_iff.mp h
      exact ⟨⟨nonNegativeInt_ok_iff.mp ⟨_, hbid⟩, nonNegativeInt_ok_iff.mp ⟨_, hask⟩⟩,
        levels_ok_iff.mp ⟨_, hdepth⟩⟩
    · rintro ⟨⟨hbid, hask⟩, hlevels⟩
      -- The best sizes are those of the first level.
      obtain ⟨hfirstBid, hfirstAsk⟩ := hlevels "" (by simp [levelPrefixes])
      obtain ⟨bidSize, hbidSize⟩ := nonNegativeInt_ok_iff.mpr hfirstBid
      obtain ⟨askSize, haskSize⟩ := nonNegativeInt_ok_iff.mpr hfirstAsk
      obtain ⟨totalBid, htotalBid⟩ := nonNegativeInt_ok_iff.mpr hbid
      obtain ⟨totalAsk, htotalAsk⟩ := nonNegativeInt_ok_iff.mpr hask
      obtain ⟨depth, hdepth⟩ := levels_ok_iff.mpr hlevels
      rw [String.empty_append] at hbidSize haskSize
      rw [hbidSize, haskSize, htotalBid, htotalAsk, hdepth]
      exact ⟨_, rfl⟩

theorem parsePush_ok_iff :
    (∃ tick, parsePush repr message = .ok tick) ↔ CountersConvert repr message := by
  unfold parsePush CountersConvert
  cases pushHead repr message with
  | none => simp
  | some head =>
    obtain ⟨channel, symbol, body⟩ := head
    simp only [Option.some.injEq, forall_eq']
    cases channel with
    | trade => exact map_ok_iff.trans tradePush_ok_iff
    | book => exact map_ok_iff.trans bookPush_ok_iff

/-- A price that is positive, counters that are not negative. -/
structure TradePush.Valid (tick : TradePush) : Prop where
  price : 0 < tick.price
  volume : 0 ≤ tick.cumulativeVolume
  buyVolume : ∀ volume ∈ tick.cumulativeBuyVolume, 0 ≤ volume
  sellVolume : ∀ volume ∈ tick.cumulativeSellVolume, 0 ≤ volume
  vwap : ∀ vwap ∈ tick.sessionVwap, 0 < vwap

structure LevelValid (level : Tape.BookLevel) : Prop where
  bid : ∀ price ∈ level.bid, 0 < price
  ask : ∀ price ∈ level.ask, 0 < price
  bidSize : ∀ size ∈ level.bidSize, 0 ≤ size
  askSize : ∀ size ∈ level.askSize, 0 ≤ size

structure BookPush.Valid (tick : BookPush) : Prop where
  bestBid : ∀ price ∈ tick.bestBid, 0 < price
  bestAsk : ∀ price ∈ tick.bestAsk, 0 < price
  bestBidSize : ∀ size ∈ tick.bestBidSize, 0 ≤ size
  bestAskSize : ∀ size ∈ tick.bestAskSize, 0 ≤ size
  totalBidSize : ∀ size ∈ tick.totalBidSize, 0 ≤ size
  totalAskSize : ∀ size ∈ tick.totalAskSize, 0 ≤ size
  depth : ∀ level ∈ tick.depth, LevelValid level

def Push.Valid : Push → Prop
  | .trade tick => tick.Valid
  | .book tick => tick.Valid

theorem counter_nonneg {counter : Option ℤ} (h : nonNegativeInt repr body key = .ok counter) :
    ∀ n ∈ counter, 0 ≤ n := by
  rintro n rfl
  exact nonNegativeInt_nonneg h

theorem price_pos {repr : Json → Text} {body : Body} {key : String} :
    ∀ price ∈ positiveDecimal repr body key, 0 < price :=
  fun _ => positiveDecimal_pos

theorem tradePush_valid {tick : TradePush} (h : tradePush repr symbol body = .ok (some tick)) :
    tick.Valid := by
  unfold tradePush at h
  obtain ⟨volume, hvolume, h⟩ := bind_ok_iff.mp h
  split at h
  next moment price cumulativeVolume htime hprice =>
    obtain ⟨buy, hbuy, h⟩ := bind_ok_iff.mp h
    obtain ⟨sell, hsell, h⟩ := bind_ok_iff.mp h
    cases Except.ok.inj h
    exact {
      price := positiveDecimal_pos hprice
      volume := nonNegativeInt_nonneg hvolume
      buyVolume := counter_nonneg hbuy
      sellVolume := counter_nonneg hsell
      vwap := price_pos }
  · cases h

theorem bookLevel_valid {found : Tape.BookLevel} (h : bookLevel repr body level = .ok found) :
    LevelValid found := by
  unfold bookLevel at h
  obtain ⟨bidSize, hbid, h⟩ := bind_ok_iff.mp h
  obtain ⟨askSize, hask, h⟩ := bind_ok_iff.mp h
  cases h
  exact {
    bid := price_pos
    ask := price_pos
    bidSize := counter_nonneg hbid
    askSize := counter_nonneg hask }

theorem bookPush_valid {tick : BookPush} (h : bookPush repr symbol body = .ok (some tick)) :
    tick.Valid := by
  unfold bookPush at h
  split at h
  · cases h
  obtain ⟨bidSize, hbidSize, h⟩ := bind_ok_iff.mp h
  obtain ⟨askSize, haskSize, h⟩ := bind_ok_iff.mp h
  obtain ⟨totalBid, hbid, h⟩ := bind_ok_iff.mp h
  obtain ⟨totalAsk, hask, h⟩ := bind_ok_iff.mp h
  obtain ⟨depth, hdepth, h⟩ := bind_ok_iff.mp h
  cases Except.ok.inj h
  exact {
    bestBid := price_pos
    bestAsk := price_pos
    bestBidSize := counter_nonneg hbidSize
    bestAskSize := counter_nonneg haskSize
    totalBidSize := counter_nonneg hbid
    totalAskSize := counter_nonneg hask
    depth := fun level hlevel => by
      obtain ⟨name, -, hname⟩ := exists_of_mem_mapM_ok hdepth hlevel
      exact bookLevel_valid hname }

theorem parsePush_valid {tick : Push} (h : parsePush repr message = .ok (some tick)) :
    tick.Valid := by
  unfold parsePush at h
  split at h
  · cases h
  · obtain ⟨found, hfound, h⟩ := map_eq_ok_iff.mp h
    obtain ⟨trade, rfl, rfl⟩ := Option.map_eq_some_iff.mp h
    exact tradePush_valid hfound
  · obtain ⟨found, hfound, h⟩ := map_eq_ok_iff.mp h
    obtain ⟨book, rfl, rfl⟩ := Option.map_eq_some_iff.mp h
    exact bookPush_valid hfound

end KAssetTrader.NhPlug
