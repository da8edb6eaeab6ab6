import KAssetTrader.Library.Checked
import KAssetTrader.Tape.TapeWindow

/-!
What a window should say: the snapshot computed from every frame accepted since
the last reset. The window that trims as it goes gives the same snapshot for
every time that no receipt lies after, and a snapshot that is judged ready has
watched both streams for the required time.
-/

namespace KAssetTrader.Tape

open Checked

variable (ctx : Decimal.Context)

inductive Frame where
  | trade (tick : TradeTick)
  | book (tick : BookTick)

def TapeWindow.feed (w : TapeWindow) : Frame → TapeWindow × Bool
  | .trade tick => match w.onTrade tick with
      | .ok result => result
      | .error _ => (w, false)
  | .book tick => match w.onBook ctx tick with
      | .ok result => result
      | .error _ => (w, false)

/-- Every frame accepted since the last reset, in order. -/
structure Accepted where
  trades : List TradeSample := []
  books : List BookSample := []

namespace Accepted

def add (log : Accepted) : Frame → Accepted
  | .trade tick => match tick.receivedAt with
      | .naive _ => log
      | .aware receivedAt => { log with trades := log.trades ++ [tick.sample receivedAt] }
  | .book tick => match tick.receivedAt with
      | .naive _ => log
      | .aware receivedAt => { log with books := log.books ++ [tick.sample ctx receivedAt] }

def record (log : Accepted) (before after : TapeWindow) (frame : Frame) (accepted : Bool) :
    Accepted :=
  let log := if after.resets = before.resets then log else {}
  if accepted then log.add ctx frame else log

/-- No receipt of the log lies after `now`. -/
def Received (log : Accepted) (now : Instant) : Prop :=
  (∀ s ∈ log.trades, s.receivedAt ≤ now) ∧ ∀ s ∈ log.books, s.receivedAt ≤ now

/-- The summary of the log at `now`, or the error of its figures. The session and the
counters are those of the window; everything else is computed from the whole log. -/
def snapshot (log : Accepted) (w : TapeWindow) (now : Instant) : Except String TapeSnapshot := do
  let horizon := now - seconds w.config.observationSeconds
  let baseline := Window.baseline (·.receivedAt) horizon log.trades
  let last := log.trades.getLast?
  let power ← volumePower ctx baseline last
  let books := Window.inside (·.receivedAt) horizon log.books
  let spreads := (books.filter (·.valid)).filterMap (·.spreadBps)
  let lastBook := log.books.getLast?
  let medianSpreadBps ← medianSpread ctx spreads
  return {
    symbol := w.symbol
    asOf := now
    sessionDate := w.sessionDate.getD (sessionDate now)
    coverageStartedAt := log.trades.head?.bind fun trade => log.books.head?.map fun book =>
      max trade.receivedAt book.receivedAt
    lastTradeAt := last.map (·.receivedAt)
    lastBookAt := lastBook.map (·.receivedAt)
    tradeCount := (Window.inside (·.receivedAt) horizon log.trades).length
    bookCount := books.length
    invalidBookCount := (books.filter (fun s => !s.valid)).length
    medianSpreadBps
    volumePowerState := power.1
    volumePower := power.2.1
    buyVolumeDelta := power.2.2.1
    sellVolumeDelta := power.2.2.2
    priceChange := last.bind fun last => baseline.map fun baseline =>
      ctx.sub last.price baseline.price
    lastPrice := last.map (·.price)
    sessionVwap := last.bind (·.sessionVwap)
    bestBid := lastBook.bind (·.bestBid)
    bestAsk := lastBook.bind (·.bestAsk)
    bookDepth := (lastBook.map (·.tick.depth)).getD []
    totalBidSize := lastBook.bind (·.tick.totalBidSize)
    totalAskSize := lastBook.bind (·.tick.totalAskSize)
    droppedFrames := w.dropped
    resets := w.resets
    lastResetReason := w.lastResetReason }

end Accepted

def feedAll : TapeWindow × Accepted → List Frame → TapeWindow × Accepted
  | state, [] => state
  | (w, log), frame :: rest =>
    let fed := w.feed ctx frame
    feedAll (fed.1, log.record ctx w fed.1 frame fed.2) rest

section Tracks

def Accepted.horizons (log : Accepted) (config : RealtimeTapeConfig) : Set Instant :=
  { horizon | ∃ now, log.Received now ∧ horizon = now - seconds config.observationSeconds }

structure Tracks (w : TapeWindow) (log : Accepted) : Prop where
  firstTrade : w.firstTradeAt = log.trades.head?.map (·.receivedAt)
  firstBook : w.firstBookAt = log.books.head?.map (·.receivedAt)
  lastTrade : w.lastTrade = log.trades.getLast?
  lastBook : w.lastBook = log.books.getLast?
  sorted : log.trades.Pairwise (fun a b => a.receivedAt ≤ b.receivedAt)
  trades : Window.KeepsBaseline TradeSample.receivedAt (log.horizons w.config) log.trades w.trades
  books : Window.KeepsInside BookSample.receivedAt (log.horizons w.config) log.books w.books

variable {ctx} {w : TapeWindow} {log : Accepted}

theorem Tracks.empty (h : w.trades = [] ∧ w.books = [])
    (hfirst : w.firstTradeAt = none ∧ w.firstBookAt = none)
    (hlast : w.lastTrade = none ∧ w.lastBook = none) : Tracks w {} where
  firstTrade := hfirst.1
  firstBook := hfirst.2
  lastTrade := hlast.1
  lastBook := hlast.2
  sorted := List.Pairwise.nil
  trades := by
    rw [h.1]
    exact .nil
  books := by
    rw [h.2]
    exact .nil

theorem Tracks.reset (w : TapeWindow) (reason : String) : Tracks (w.reset reason) {} :=
  .empty ⟨rfl, rfl⟩ ⟨rfl, rfl⟩ ⟨rfl, rfl⟩

variable {w' : TapeWindow} {result : TapeWindow × Bool}

theorem Tracks.congr (h : Tracks w log) (hconfig : w'.config = w.config)
    (htrades : w'.trades = w.trades) (hbooks : w'.books = w.books)
    (hfirst : w'.firstTradeAt = w.firstTradeAt ∧ w'.firstBookAt = w.firstBookAt)
    (hlast : w'.lastTrade = w.lastTrade ∧ w'.lastBook = w.lastBook) : Tracks w' log where
  firstTrade := hfirst.1.trans h.firstTrade
  firstBook := hfirst.2.trans h.firstBook
  lastTrade := hlast.1.trans h.lastTrade
  lastBook := hlast.2.trans h.lastBook
  sorted := h.sorted
  trades := by
    rw [hconfig, htrades]
    exact h.trades
  books := by
    rw [hconfig, hbooks]
    exact h.books

theorem Tracks.drop (h : Tracks w log) : Tracks w.drop log :=
  h.congr rfl rfl rfl ⟨rfl, rfl⟩ ⟨rfl, rfl⟩

theorem Tracks.enterSession (h : Tracks w log) (receivedAt : Instant) :
    Tracks (w.enterSession receivedAt)
      (if (w.enterSession receivedAt).resets = w.resets then log else {}) := by
  unfold TapeWindow.enterSession
  dsimp only
  split
  · rw [if_pos rfl]
    exact h.congr rfl rfl rfl ⟨rfl, rfl⟩ ⟨rfl, rfl⟩
  · split
    · rw [if_neg (by simp [TapeWindow.reset])]
      exact .reset _ _
    · rw [if_pos rfl]
      exact h

theorem Accepted.horizons_mono (log more : Accepted) (htrades : log.trades ⊆ more.trades)
    (hbooks : log.books ⊆ more.books) (config : RealtimeTapeConfig) :
    more.horizons config ⊆ log.horizons config := by
  rintro horizon ⟨now, hnow, rfl⟩
  exact ⟨now, ⟨fun s hs => hnow.1 s (htrades hs), fun s hs => hnow.2 s (hbooks hs)⟩, rfl⟩

theorem head?_append_singleton {α : Type} (l : List α) (a : α) :
    (l ++ [a]).head? = l.head?.or (some a) := by
  cases l <;> rfl

theorem horizon_le_of_received (log : Accepted) (moment : Instant) (config : RealtimeTapeConfig)
    (hmoment : ∀ now, log.Received now → moment ≤ now) :
    ∀ horizon ∈ log.horizons config, moment - seconds config.observationSeconds ≤ horizon := by
  rintro horizon ⟨now, hnow, rfl⟩
  have hle := hmoment now hnow
  exact sub_le_sub_right hle _

theorem Tracks.addTrade (h : Tracks w log) {sample : TradeSample}
    (hlater : ∀ last ∈ w.lastTrade, last.receivedAt ≤ sample.receivedAt) :
    Tracks (w.addTrade sample) { log with trades := log.trades ++ [sample] } := by
  have hfewer := log.horizons_mono { log with trades := log.trades ++ [sample] }
    (List.subset_append_left _ _)
    (List.Subset.refl _) w.config
  have hbefore := horizon_le_of_received { log with trades := log.trades ++ [sample] }
    sample.receivedAt w.config fun now hnow => hnow.1 sample (by simp)
  exact
    { firstTrade := by
        rw [head?_append_singleton, Option.map_or]
        exact congrArg (fun first => first.or (some sample.receivedAt)) h.firstTrade
      firstBook := h.firstBook
      lastTrade := by simp [TapeWindow.addTrade, TapeWindow.trim]
      lastBook := h.lastBook
      sorted := Window.sorted_append h.sorted (by rwa [← h.lastTrade])
      trades := ((h.trades.mono hfewer).append [sample]).trim hbefore
      books := (h.books.mono hfewer).trim hbefore }

theorem Tracks.addBook (h : Tracks w log) (sample : BookSample) :
    Tracks (w.addBook sample) { log with books := log.books ++ [sample] } := by
  have hfewer := log.horizons_mono { log with books := log.books ++ [sample] } (List.Subset.refl _)
    (List.subset_append_left _ _) w.config
  have hbefore := horizon_le_of_received { log with books := log.books ++ [sample] }
    sample.receivedAt w.config fun now hnow => hnow.2 sample (by simp)
  exact
    { firstTrade := h.firstTrade
      firstBook := by
        rw [head?_append_singleton, Option.map_or]
        exact congrArg (fun first => first.or (some sample.receivedAt)) h.firstBook
      lastTrade := h.lastTrade
      lastBook := by simp [TapeWindow.addBook, TapeWindow.trim]
      sorted := h.sorted
      trades := (h.trades.mono hfewer).trim hbefore
      books := ((h.books.mono hfewer).append [sample]).trim hbefore }

/-- What a frame does to the window: it is dropped before or after the session
is entered, kept, or kept as the first one after a counter went backwards. -/
inductive Moves (ctx : Decimal.Context) (w : TapeWindow) (frame : Frame) : TapeWindow → Bool → Prop
  | dropped : Moves ctx w frame w.drop false
  | late (receivedAt : Instant) : Moves ctx w frame (w.enterSession receivedAt).drop false
  | trade {tick : TradeTick} {receivedAt : Instant} : frame = .trade tick →
      tick.receivedAt = .aware receivedAt →
      (∀ last ∈ (w.enterSession receivedAt).lastTrade, last.receivedAt ≤ receivedAt) →
      Moves ctx w frame ((w.enterSession receivedAt).addTrade (tick.sample receivedAt)) true
  | restart {tick : TradeTick} {receivedAt : Instant} (reason : String) : frame = .trade tick →
      tick.receivedAt = .aware receivedAt →
      Moves ctx w frame
        (((w.enterSession receivedAt).reset reason).addTrade (tick.sample receivedAt)) true
  | book {tick : BookTick} {receivedAt : Instant} : frame = .book tick →
      tick.receivedAt = .aware receivedAt →
      Moves ctx w frame ((w.enterSession receivedAt).addBook (tick.sample ctx receivedAt)) true

theorem onTrade_moves {tick : TradeTick} (h : w.onTrade tick = .ok result) :
    Moves ctx w (.trade tick) result.1 result.2 := by
  unfold TapeWindow.onTrade at h
  split at h
  · cases h
  next receivedAt haware =>
    split_ifs at h with hforeign hskewed
    · cases h
      exact .dropped
    · cases h
      exact .dropped
    dsimp only at h
    split at h
    next hnone =>
      cases h
      refine .trade rfl haware ?_
      simp [hnone]
    next previous hprevious =>
      split_ifs at h with hbefore hsmaller hequal hbackwards
      · cases h
        exact .late receivedAt
      · cases h
        exact .late receivedAt
      · cases h
        exact .late receivedAt
      · cases h
        exact .restart _ rfl haware
      · cases h
        refine .trade rfl haware ?_
        intro last hlast
        rw [hprevious] at hlast
        obtain rfl := Option.mem_some_iff.mp hlast
        exact not_lt.mp hbefore

theorem onBook_moves {tick : BookTick} (h : w.onBook ctx tick = .ok result) :
    Moves ctx w (.book tick) result.1 result.2 := by
  unfold TapeWindow.onBook at h
  split at h
  · cases h
  next receivedAt haware =>
    split_ifs at h with hforeign hskewed
    · cases h
      exact .dropped
    · cases h
      exact .dropped
    dsimp only at h
    split at h
    · cases h
      exact .book rfl haware
    · split_ifs at h with hbefore
      · cases h
        exact .late receivedAt
      · cases h
        exact .book rfl haware

theorem enterSession_resets (w : TapeWindow) (receivedAt : Instant) :
    w.resets ≤ (w.enterSession receivedAt).resets := by
  unfold TapeWindow.enterSession
  dsimp only
  split
  · exact le_rfl
  · split
    · exact Nat.le_succ _
    · exact le_rfl

theorem Moves.tracks {frame : Frame} {accepted : Bool} (hmove : Moves ctx w frame w' accepted)
    (h : Tracks w log) :
    Tracks w' (log.record ctx w w' frame accepted) := by
  unfold Accepted.record
  cases hmove with
  | dropped =>
    simp only [TapeWindow.drop, if_true, Bool.false_eq_true, if_false]
    exact h.drop
  | late receivedAt => exact (h.enterSession receivedAt).drop
  | trade hframe haware hlater =>
    subst hframe
    simp only [Accepted.add, haware, if_true]
    exact (h.enterSession _).addTrade hlater
  | @restart tick receivedAt reason hframe haware =>
    subst hframe
    have hresets := enterSession_resets w receivedAt
    have hne : (((w.enterSession receivedAt).reset reason).addTrade
        (tick.sample receivedAt)).resets ≠ w.resets := by
      simp only [TapeWindow.addTrade, TapeWindow.trim, TapeWindow.reset]
      omega
    simp only [Accepted.add, haware, if_true, if_neg hne]
    exact (Tracks.reset (w.enterSession receivedAt) reason).addTrade
      (by simp [TapeWindow.reset])
  | book hframe haware =>
    subst hframe
    simp only [Accepted.add, haware, if_true]
    exact (h.enterSession _).addBook _

theorem feed_tracks (h : Tracks w log) (frame : Frame) :
    Tracks (w.feed ctx frame).1
      (log.record ctx w (w.feed ctx frame).1 frame (w.feed ctx frame).2) := by
  have hsame : Tracks w (log.record ctx w w frame false) := by
    simpa [Accepted.record] using h
  cases frame with
  | trade tick =>
    unfold TapeWindow.feed
    dsimp only
    split
    next result hfed => exact (onTrade_moves hfed).tracks h
    · exact hsame
  | book tick =>
    unfold TapeWindow.feed
    dsimp only
    split
    next result hfed => exact (onBook_moves hfed).tracks h
    · exact hsame

theorem feedAll_tracks (h : Tracks w log) (frames : List Frame) :
    Tracks (feedAll ctx (w, log) frames).1 (feedAll ctx (w, log) frames).2 := by
  induction frames generalizing w log with
  | nil => exact h
  | cons frame rest ih => exact ih (feed_tracks h frame)

end Tracks

variable {ctx} {w : TapeWindow} {log : Accepted} {now : Instant}

theorem find?_reverse_eq {α : Type} (p : α → Bool) (l : List α) :
    l.reverse.find? p = (l.filter p).getLast? := by
  rw [← List.head?_filter, List.filter_reverse, List.head?_reverse]

theorem Tracks.snapshot_eq (h : Tracks w log) (hnow : log.Received now) :
    w.snapshot ctx now = log.snapshot ctx w now := by
  have hhorizon : w.horizon now ∈ log.horizons w.config := ⟨now, hnow, rfl⟩
  have htrades : w.trades.filter (fun s => decide (w.horizon now < s.receivedAt)) =
      Window.inside TradeSample.receivedAt (w.horizon now) log.trades := by
    rw [← h.trades.inside_eq h.sorted hhorizon]
    exact List.filter_congr fun _ _ => by simp
  have hbooks : w.books.filter (fun s => decide (w.horizon now < s.receivedAt)) =
      Window.inside BookSample.receivedAt (w.horizon now) log.books := by
    rw [← h.books.inside_eq hhorizon]
    exact List.filter_congr fun _ _ => by simp
  have hbaseline : (w.trades.reverse.find? (fun s => decide (s.receivedAt ≤ w.horizon now))).or
      w.trades.head? = Window.baseline TradeSample.receivedAt (w.horizon now) log.trades := by
    rw [← h.trades.baseline_eq hhorizon, find?_reverse_eq]
    unfold Window.baseline
    congr 2
  have hcoverage : (w.firstTradeAt.bind fun trade => w.firstBookAt.map fun book =>
      max trade book) = log.trades.head?.bind fun trade => log.books.head?.map fun book =>
        max trade.receivedAt book.receivedAt := by
    rw [h.firstTrade, h.firstBook]
    cases log.trades.head? <;> cases log.books.head? <;> rfl
  unfold TapeWindow.snapshot Accepted.snapshot
  simp only [htrades, hbooks, hbaseline, hcoverage, h.lastTrade, h.lastBook]
  rfl

theorem reasonIf_eq_nil {applies : Prop} [Decidable applies] {reason : String} :
    reasonIf applies reason = [] ↔ ¬ applies := by
  unfold reasonIf
  split <;> simp [*]

/-- A snapshot judged ready is fresh, both streams were received, and the window
was covered for the required time. -/
theorem ready_covered {snapshot : TapeSnapshot} {judgedAt : Instant} {required : RealtimeTapeConfig}
    (h : (evaluateRealtimeEntry ctx (some snapshot) judgedAt required).status = .ready) :
    judgedAt - snapshot.asOf ≤ seconds required.maxSnapshotAgeSeconds ∧
      seconds required.observationSeconds ≤ snapshot.coverage judgedAt ∧
      snapshot.lastTradeAt ≠ none ∧ snapshot.lastBookAt ≠ none := by
  simp only [evaluateRealtimeEntry, ite_eq_left_iff, reduceCtorEq, imp_false, not_not,
    List.append_eq_nil_iff, dataQualityReasons, reasonIf_eq_nil, not_lt] at h
  obtain ⟨⟨⟨⟨⟨⟨⟨⟨hfresh, -⟩, hcovered⟩, htrade⟩, hbook⟩, -⟩, -⟩, -⟩, -⟩ := h
  refine ⟨hfresh, hcovered, ?_, ?_⟩
  · intro hnone
    rw [hnone] at htrade
    exact htrade trivial
  · intro hnone
    rw [hnone] at hbook
    exact hbook trivial

/-- A snapshot of a log that names both streams starts at the later of their first frames. -/
theorem Accepted.snapshot_coverage {snapshot : TapeSnapshot}
    (h : log.snapshot ctx w now = .ok snapshot) :
    snapshot.asOf = now ∧
      snapshot.coverageStartedAt = (log.trades.head?.bind fun trade =>
        log.books.head?.map fun book => max trade.receivedAt book.receivedAt) ∧
      snapshot.lastTradeAt = log.trades.getLast?.map (·.receivedAt) ∧
      snapshot.lastBookAt = log.books.getLast?.map (·.receivedAt) := by
  obtain ⟨power, -, h⟩ := bind_ok_iff.mp h
  obtain ⟨spread, -, h⟩ := bind_ok_iff.mp h
  cases h
  exact ⟨rfl, rfl, rfl, rfl⟩

/-- For every sequence of frames the window that trims as it goes gives the
snapshot of everything accepted since the last reset, or fails as that one does, and a
snapshot is judged ready only after both streams were watched for the required time. -/
theorem window_snapshot_naive (ctx : Decimal.Context) (symbol : String)
    (config : RealtimeTapeConfig) (frames : List Frame) (now : Instant)
    (hnow : (feedAll ctx ({ symbol, config }, {}) frames).2.Received now) :
    let fed := feedAll ctx ({ symbol, config }, {}) frames
    fed.1.snapshot ctx now = fed.2.snapshot ctx fed.1 now ∧
      ∀ snapshot, fed.1.snapshot ctx now = .ok snapshot → ∀ judgedAt required,
        (evaluateRealtimeEntry ctx (some snapshot) judgedAt required).status = .ready →
        judgedAt - now ≤ seconds required.maxSnapshotAgeSeconds ∧
        ∃ trade book, fed.2.trades.head? = some trade ∧ fed.2.books.head? = some book ∧
          seconds required.observationSeconds ≤ max 0 (judgedAt - trade.receivedAt) ∧
          seconds required.observationSeconds ≤ max 0 (judgedAt - book.receivedAt) := by
  dsimp only
  have htracks : Tracks { symbol, config } {} := .empty ⟨rfl, rfl⟩ ⟨rfl, rfl⟩ ⟨rfl, rfl⟩
  have hfed : Tracks (feedAll ctx ({ symbol, config }, {}) frames).1 _ :=
    feedAll_tracks htracks frames
  generalize feedAll ctx ({ symbol, config }, {}) frames = fed at hfed hnow
  have hsame : _ = fed.2.snapshot ctx _ _ := hfed.snapshot_eq hnow
  refine ⟨hsame, fun snapshot hsnapshot judgedAt required hready => ?_⟩
  obtain ⟨hfresh, hcovered, htrade, hbook⟩ := ready_covered hready
  rw [hsame] at hsnapshot
  obtain ⟨hnow, hstarted, htradeAt, hbookAt⟩ := Accepted.snapshot_coverage hsnapshot
  rw [hnow] at hfresh
  refine ⟨hfresh, ?_⟩
  rw [htradeAt, ne_eq, Option.map_eq_none_iff, List.getLast?_eq_none_iff] at htrade
  rw [hbookAt, ne_eq, Option.map_eq_none_iff, List.getLast?_eq_none_iff] at hbook
  obtain ⟨trade, trades, htrades⟩ := List.exists_cons_of_ne_nil htrade
  obtain ⟨book, books, hbooks⟩ := List.exists_cons_of_ne_nil hbook
  rw [htrades, hbooks, List.head?_cons, List.head?_cons, Option.bind_some,
    Option.map_some] at hstarted
  rw [TapeSnapshot.coverage, hstarted] at hcovered
  simp only [htrades, hbooks, List.head?_cons]
  refine ⟨trade, book, rfl, rfl, hcovered.trans ?_, hcovered.trans ?_⟩
  · exact max_le_max_left 0 (sub_le_sub_left (le_max_left _ _) _)
  · exact max_le_max_left 0 (sub_le_sub_left (le_max_right _ _) _)

/-- A trade received some seconds after nine in the morning. -/
def tradeAt (second volume buy sell : ℤ) (price : Decimal) : Frame :=
  .trade ⟨"005930", .aware (seconds second), seconds (9 * 3600 + second), price, volume, some buy,
    some sell, some 100⟩

def bookAt (second : ℤ) (bid ask : Decimal) : Frame :=
  .book ⟨"005930", .aware (seconds second), seconds (9 * 3600 + second), some bid, some ask,
    some 500, some 300, []⟩

/-- Ten frames over two minutes: one is a duplicate, and the counters of the
buyers go backwards once. -/
def twoMinutes : List Frame :=
  [tradeAt 0 90 80 10 100, tradeAt 1 100 60 40 100, bookAt 2 100 (1001 / 10),
   tradeAt 20 110 66 44 100, tradeAt 70 120 74 46 100, tradeAt 71 120 74 46 100,
   tradeAt 80 130 82 48 101, bookAt 90 101 (1011 / 10), tradeAt 100 140 90 50 101,
   tradeAt 120 150 98 52 102]

/-- Two minutes with a reset and a dropped trade. -/
theorem window_snapshot_naive_two_minutes :
    let fed := feedAll (.digits 28) ({ symbol := "005930" }, {}) twoMinutes
    (fed.1.trades.length, fed.2.trades.length, fed.1.dropped, fed.1.resets) = (5, 6, 1, 1) ∧
    fed.1.snapshot (.digits 28) (seconds 120) = fed.2.snapshot (.digits 28) fed.1 (seconds 120) ∧
    ∃ trade book, fed.2.trades.head? = some trade ∧ fed.2.books.head? = some book ∧
      seconds 60 ≤ max 0 (seconds 121 - trade.receivedAt) ∧
      seconds 60 ≤ max 0 (seconds 121 - book.receivedAt) := by
  have hnaive := window_snapshot_naive (.digits 28) "005930" {} twoMinutes (seconds 120)
    ⟨by decide +kernel, by decide +kernel⟩
  obtain ⟨snapshot, hsnapshot, hready⟩ := exists_ok_of_check
    (x := (feedAll (.digits 28) ({ symbol := "005930" }, {}) twoMinutes).1.snapshot
      (.digits 28) (seconds 120))
    (P := fun snapshot =>
      (evaluateRealtimeEntry (.digits 28) (some snapshot) (seconds 121) {}).status = .ready)
    (by decide +kernel)
  refine ⟨by decide +kernel, hnaive.1, ?_⟩
  exact (hnaive.2 snapshot hsnapshot (seconds 121) {} hready).2

/-- A run whose counters make the volume power too large for two places: neither the window
nor the whole log gives a snapshot. -/
example :
    let fed := feedAll (.digits 28) ({ symbol := "005930" }, {})
      [tradeAt 0 1 0 0 100, tradeAt 1 2 (10 ^ 24) 1 100]
    (fed.1.snapshot (.digits 28) (seconds 2)).toOption.isNone = true := by
  decide +kernel

end KAssetTrader.Tape
