import KAssetTrader.Library.Numeric
import KAssetTrader.Library.Window

/-!
The observation window of one symbol: trades and books as they are received, the
conditions under which a frame is dropped or the window is reset, the trimming
after each accepted frame, and the snapshot that summarizes the window.
-/

namespace KAssetTrader.Tape

def seconds (n : ℤ) : ℤ := n * 1000000

structure RealtimeTapeConfig where
  observationSeconds : ℤ := 60
  minimumTrades : ℤ := 3
  maxBookAgeSeconds : ℤ := 60
  maxTradeAgeSeconds : ℤ := 60
  maxSnapshotAgeSeconds : ℤ := 3
  maxExchangeClockSkewSeconds : ℤ := 60
  entryMinVolumePower : Decimal := 100
  maxMedianSpreadBps : Decimal := 50

structure TradeTick where
  symbol : String
  receivedAt : Datetime
  /-- The wall clock of the exchange, since midnight. -/
  exchangeTime : ℤ
  price : Decimal
  cumulativeVolume : ℤ
  cumulativeBuyVolume : Option ℤ
  cumulativeSellVolume : Option ℤ
  sessionVwap : Option Decimal

structure BookLevel where
  bid : Option Decimal
  ask : Option Decimal
  bidSize : Option ℤ
  askSize : Option ℤ

structure BookTick where
  symbol : String
  receivedAt : Datetime
  exchangeTime : ℤ
  bestBid : Option Decimal
  bestAsk : Option Decimal
  totalBidSize : Option ℤ
  totalAskSize : Option ℤ
  depth : List BookLevel := []

inductive VolumePowerState where
  | ratio
  | buyOnly
  | unavailable
  deriving DecidableEq

structure TradeSample where
  receivedAt : Instant
  price : Decimal
  cumulativeVolume : ℤ
  cumulativeBuyVolume : Option ℤ
  cumulativeSellVolume : Option ℤ
  sessionVwap : Option Decimal

structure BookSample where
  receivedAt : Instant
  exchangeTime : ℤ
  valid : Bool
  spreadBps : Option Decimal
  bestBid : Option Decimal
  bestAsk : Option Decimal
  tick : BookTick

/-- Korean time is nine hours ahead of UTC. -/
def kst (moment : Instant) : ℤ := moment + seconds (9 * 3600)

/-- `_session_date`, counted in days. -/
def sessionDate (moment : Instant) : ℤ := kst moment / seconds 86400

/-- `_exchange_skew_seconds`, in the unit of instants. -/
def exchangeSkew (receivedAt : Instant) (exchangeTime : ℤ) : ℤ :=
  |kst receivedAt % seconds 86400 - exchangeTime|

variable (ctx : Decimal.Context)

def counterWentBackwards : Option ℤ → Option ℤ → Bool
  | some previous, some current => current < previous
  | _, _ => false

def bookQuality (bestBid bestAsk : Option Decimal) : Bool × Option Decimal :=
  match bestBid, bestAsk with
  | some bid, some ask =>
    if bid ≤ 0 ∨ ask ≤ 0 then (false, none)
    else if ask ≤ bid then (false, none)
    else
      let mid := ctx.div (ctx.add bid ask) 2
      (true, some (ctx.mul (ctx.div (ctx.sub ask bid) mid) 10000))
  | _, _ => (false, none)

/-- `quantize(Decimal("0.01"))` at the working precision. -/
def quantizeCents (x : Decimal) : Except String Decimal := x.quantizeWithin 28 2

def volumePower (baseline last : Option TradeSample) :
    Except String (VolumePowerState × Option Decimal × Option ℤ × Option ℤ) :=
  match baseline, last with
  | some baseline, some last =>
    match baseline.cumulativeBuyVolume, baseline.cumulativeSellVolume,
      last.cumulativeBuyVolume, last.cumulativeSellVolume with
    | some firstBuy, some firstSell, some lastBuy, some lastSell =>
      let buyDelta := lastBuy - firstBuy
      let sellDelta := lastSell - firstSell
      if buyDelta < 0 ∨ sellDelta < 0 then
        .ok (.unavailable, none, some buyDelta, some sellDelta)
      else if sellDelta = 0 then
        if 0 < buyDelta then .ok (.buyOnly, none, some buyDelta, some sellDelta)
        else .ok (.unavailable, none, some buyDelta, some sellDelta)
      else do
        let power ← quantizeCents (ctx.mul (ctx.div buyDelta sellDelta) 100)
        return (.ratio, some power, some buyDelta, some sellDelta)
    | _, _, _, _ => .ok (.unavailable, none, none, none)
  | _, _ => .ok (.unavailable, none, none, none)

/-- `statistics.median`; the mean of the two middle values of an even number. -/
def median (values : List Decimal) : Decimal :=
  let sorted := values.mergeSort (fun a b => decide (a ≤ b))
  let middle := values.length / 2
  if values.length % 2 = 1 then sorted.getD middle 0
  else ctx.div (ctx.add (sorted.getD (middle - 1) 0) (sorted.getD middle 0)) 2

/-- The median of the spreads, in hundredths, where there is one. -/
def medianSpread (spreads : List Decimal) : Except String (Option Decimal) :=
  if spreads = [] then .ok none else some <$> quantizeCents (median ctx spreads)

structure TapeSnapshot where
  symbol : String
  asOf : Instant
  sessionDate : ℤ
  coverageStartedAt : Option Instant
  lastTradeAt : Option Instant
  lastBookAt : Option Instant
  tradeCount : ℕ
  bookCount : ℕ
  invalidBookCount : ℕ
  medianSpreadBps : Option Decimal
  volumePowerState : VolumePowerState
  volumePower : Option Decimal
  buyVolumeDelta : Option ℤ
  sellVolumeDelta : Option ℤ
  priceChange : Option Decimal
  lastPrice : Option Decimal
  sessionVwap : Option Decimal
  bestBid : Option Decimal
  bestAsk : Option Decimal
  bookDepth : List BookLevel
  totalBidSize : Option ℤ
  totalAskSize : Option ℤ
  droppedFrames : ℕ
  resets : ℕ
  lastResetReason : Option String

namespace TapeSnapshot

/-- `coverage_seconds`, in the unit of instants. -/
def coverage (s : TapeSnapshot) (now : Instant) : ℤ :=
  match s.coverageStartedAt with
  | none => 0
  | some started => max 0 (now - started)

end TapeSnapshot

structure TapeWindow where
  symbol : String
  config : RealtimeTapeConfig := {}
  trades : List TradeSample := []
  books : List BookSample := []
  sessionDate : Option ℤ := none
  firstTradeAt : Option Instant := none
  firstBookAt : Option Instant := none
  lastTrade : Option TradeSample := none
  lastBook : Option BookSample := none
  dropped : ℕ := 0
  resets : ℕ := 0
  lastResetReason : Option String := none

namespace TapeWindow

def reset (w : TapeWindow) (reason : String) : TapeWindow :=
  { w with
    trades := []
    books := []
    firstTradeAt := none
    firstBookAt := none
    lastTrade := none
    lastBook := none
    resets := w.resets + 1
    lastResetReason := some reason }

def enterSession (w : TapeWindow) (receivedAt : Instant) : TapeWindow :=
  let session := Tape.sessionDate receivedAt
  match w.sessionDate with
  | none => { w with sessionDate := some session }
  | some current =>
    if session ≠ current then { w with sessionDate := some session }.reset "session_changed"
    else w

def skewed (w : TapeWindow) (receivedAt : Instant) (exchangeTime : ℤ) : Bool :=
  decide (seconds w.config.maxExchangeClockSkewSeconds < exchangeSkew receivedAt exchangeTime)

/-- The start of the window that ends at `now`. -/
def horizon (w : TapeWindow) (now : Instant) : Instant :=
  now - seconds w.config.observationSeconds

/-- `_trim`. The trade just before the window stays as the baseline. -/
def trim (w : TapeWindow) (now : Instant) : TapeWindow :=
  { w with
    trades := Window.trimBaseline (·.receivedAt) (w.horizon now) w.trades
    books := Window.trimBefore (·.receivedAt) (w.horizon now) w.books }

def drop (w : TapeWindow) : TapeWindow := { w with dropped := w.dropped + 1 }

/-- The end of `on_trade`, for a sample that is kept. -/
def addTrade (w : TapeWindow) (sample : TradeSample) : TapeWindow :=
  { w with
    trades := w.trades ++ [sample]
    lastTrade := some sample
    firstTradeAt := w.firstTradeAt.or (some sample.receivedAt) }.trim sample.receivedAt

/-- The end of `on_book`, for a sample that is kept. -/
def addBook (w : TapeWindow) (sample : BookSample) : TapeWindow :=
  { w with
    books := w.books ++ [sample]
    lastBook := some sample
    firstBookAt := w.firstBookAt.or (some sample.receivedAt) }.trim sample.receivedAt

end TapeWindow

def TradeTick.sample (tick : TradeTick) (receivedAt : Instant) : TradeSample :=
  ⟨receivedAt, tick.price, tick.cumulativeVolume, tick.cumulativeBuyVolume,
    tick.cumulativeSellVolume, tick.sessionVwap⟩

def BookTick.sample (tick : BookTick) (receivedAt : Instant) : BookSample :=
  let quality := bookQuality ctx tick.bestBid tick.bestAsk
  ⟨receivedAt, tick.exchangeTime, quality.1, quality.2, tick.bestBid, tick.bestAsk, tick⟩

namespace TapeWindow

/-- `on_trade`: whether the frame was kept. -/
def onTrade (w : TapeWindow) (tick : TradeTick) : Except String (TapeWindow × Bool) :=
  match tick.receivedAt with
  | .naive _ => .error "received_at must be timezone-aware"
  | .aware receivedAt =>
    if tick.symbol ≠ w.symbol ∨ tick.price ≤ 0 then .ok (w.drop, false)
    else if w.skewed receivedAt tick.exchangeTime then .ok (w.drop, false)
    else
      let w := w.enterSession receivedAt
      match w.lastTrade with
      | none => .ok (w.addTrade (tick.sample receivedAt), true)
      | some previous =>
        if receivedAt < previous.receivedAt then .ok (w.drop, false)
        else if tick.cumulativeVolume < previous.cumulativeVolume then .ok (w.drop, false)
        else if tick.cumulativeVolume = previous.cumulativeVolume then .ok (w.drop, false)
        else if counterWentBackwards previous.cumulativeBuyVolume tick.cumulativeBuyVolume ||
            counterWentBackwards previous.cumulativeSellVolume tick.cumulativeSellVolume then
          .ok ((w.reset "cumulative_counter_reset").addTrade (tick.sample receivedAt), true)
        else .ok (w.addTrade (tick.sample receivedAt), true)

/-- `on_book`: whether the frame was kept. -/
def onBook (w : TapeWindow) (tick : BookTick) : Except String (TapeWindow × Bool) :=
  match tick.receivedAt with
  | .naive _ => .error "received_at must be timezone-aware"
  | .aware receivedAt =>
    if tick.symbol ≠ w.symbol then .ok (w.drop, false)
    else if w.skewed receivedAt tick.exchangeTime then .ok (w.drop, false)
    else
      let w := w.enterSession receivedAt
      match w.lastBook with
      | none => .ok (w.addBook (tick.sample ctx receivedAt), true)
      | some previous =>
        if receivedAt < previous.receivedAt ∨ tick.exchangeTime < previous.exchangeTime then
          .ok (w.drop, false)
        else .ok (w.addBook (tick.sample ctx receivedAt), true)

/-- `snapshot`, which raises where a figure in hundredths has too many digits. -/
def snapshot (w : TapeWindow) (now : Instant) : Except String TapeSnapshot := do
  let horizon := w.horizon now
  let inWindowTrades := w.trades.filter (fun s => decide (horizon < s.receivedAt))
  let baseline := (w.trades.reverse.find? (fun s => decide (s.receivedAt ≤ horizon))).or
    w.trades.head?
  let last := w.lastTrade
  let power ← Tape.volumePower ctx baseline last
  let books := w.books.filter (fun s => decide (horizon < s.receivedAt))
  let spreads := (books.filter (·.valid)).filterMap (·.spreadBps)
  let lastBook := w.lastBook
  let medianSpreadBps ← medianSpread ctx spreads
  return {
    symbol := w.symbol
    asOf := now
    sessionDate := w.sessionDate.getD (Tape.sessionDate now)
    coverageStartedAt := w.firstTradeAt.bind fun trade => w.firstBookAt.map fun book =>
      max trade book
    lastTradeAt := last.map (·.receivedAt)
    lastBookAt := lastBook.map (·.receivedAt)
    tradeCount := inWindowTrades.length
    bookCount := books.length
    invalidBookCount := (books.filter (fun s => !s.valid)).length
    medianSpreadBps
    volumePowerState := power.1
    volumePower := power.2.1
    buyVolumeDelta := power.2.2.1
    sellVolumeDelta := power.2.2.2
    priceChange := last.bind fun last => baseline.map fun baseline =>
      ctx.sub last.price baseline.price
    lastPrice := last.map (·.price)
    sessionVwap := last.bind (·.sessionVwap)
    bestBid := lastBook.bind (·.bestBid)
    bestAsk := lastBook.bind (·.bestAsk)
    bookDepth := (lastBook.map (·.tick.depth)).getD []
    totalBidSize := lastBook.bind (·.tick.totalBidSize)
    totalAskSize := lastBook.bind (·.tick.totalAskSize)
    droppedFrames := w.dropped
    resets := w.resets
    lastResetReason := w.lastResetReason }

end TapeWindow

inductive RealtimeEntryStatus where
  | ready
  | notReady
  deriving DecidableEq

structure RealtimeEntryCheck where
  status : RealtimeEntryStatus
  reasons : List String

def reasonIf (applies : Prop) [Decidable applies] (reason : String) : List String :=
  if applies then [reason] else []

/-- Older than a number of seconds, or absent. -/
def staleAt (now : Instant) (maxAge : ℤ) : Option Instant → Prop
  | none => True
  | some moment => seconds maxAge < now - moment

instance (now : Instant) (maxAge : ℤ) (moment : Option Instant) :
    Decidable (staleAt now maxAge moment) := by
  cases moment with
  | none => exact isTrue trivial
  | some moment => exact inferInstanceAs (Decidable (_ < _))

def dataQualityReasons (snapshot : TapeSnapshot) (now : Instant) (config : RealtimeTapeConfig) :
    List String :=
  reasonIf (seconds config.maxSnapshotAgeSeconds < now - snapshot.asOf) "snapshot_stale" ++
  reasonIf (snapshot.sessionDate ≠ sessionDate now) "session_mismatch" ++
  reasonIf (snapshot.coverage now < seconds config.observationSeconds) "warmup_incomplete" ++
  reasonIf (staleAt now config.maxTradeAgeSeconds snapshot.lastTradeAt) "trade_stale" ++
  reasonIf (staleAt now config.maxBookAgeSeconds snapshot.lastBookAt) "book_stale" ++
  reasonIf ((snapshot.tradeCount : ℤ) < config.minimumTrades) "trades_sparse"

/-- The reasons of `evaluate_realtime_entry` on the spread. -/
def spreadReasons (snapshot : TapeSnapshot) (config : RealtimeTapeConfig) : List String :=
  (match snapshot.medianSpreadBps with
    | none => ["spread_unavailable"]
    | some spread => reasonIf (config.maxMedianSpreadBps < spread) "spread_wide") ++
  (match bookQuality ctx snapshot.bestBid snapshot.bestAsk with
    | (true, some spread) => reasonIf (config.maxMedianSpreadBps < spread) "latest_spread_wide"
    | _ => ["latest_book_invalid"])

/-- The reasons of `evaluate_realtime_entry` on the flow of trades. -/
def flowReasons (snapshot : TapeSnapshot) (config : RealtimeTapeConfig) : List String :=
  (match snapshot.volumePowerState, snapshot.volumePower with
    | .unavailable, _ => ["volume_power_unavailable"]
    | .ratio, some power => reasonIf (power < config.entryMinVolumePower) "volume_power_weak"
    | _, _ => []) ++
  (match snapshot.priceChange with
    | none => ["price_change_unavailable"]
    | some change => reasonIf (change < 0) "price_falling") ++
  (match snapshot.sessionVwap with
    | none => ["session_vwap_unavailable"]
    | some vwap =>
      if vwap ≤ 0 then ["session_vwap_unavailable"]
      else match snapshot.lastPrice with
        | none => ["below_session_vwap"]
        | some price => reasonIf (price < vwap) "below_session_vwap")

def evaluateRealtimeEntry (snapshot : Option TapeSnapshot) (now : Instant)
    (config : RealtimeTapeConfig) : RealtimeEntryCheck :=
  match snapshot with
  | none => ⟨.notReady, ["snapshot_unavailable"]⟩
  | some snapshot =>
    let reasons := dataQualityReasons snapshot now config ++
      reasonIf (0 < snapshot.invalidBookCount) "book_invalid_frames" ++
      spreadReasons ctx snapshot config ++ flowReasons snapshot config
    ⟨if reasons = [] then .ready else .notReady, reasons⟩

end KAssetTrader.Tape
