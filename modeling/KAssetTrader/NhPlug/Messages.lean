import KAssetTrader.Library.ExponentRange
import KAssetTrader.NhPlug.Push
import KAssetTrader.NhPlug.Runner

/-!
Messages of the feed. The reader of a session takes them one by one, and a message that
raises ends it. A text that is no JSON, a value that is no object, an acknowledgement and a
push without a window are passed over; a tick goes to the window of its symbol. What can
still raise is a nesting too deep to load, a counter whose digits `int` does not read, and
the quality of a book whose quotes leave the range of the exponents.
-/

namespace KAssetTrader.NhPlug

open Checked CodePoints Decimal

/-- Why `json.loads` has no value: a `ValueError`, or a `RecursionError`. -/
inductive LoadFailure where
  | invalid
  | recursion

structure Reading where
  backoff : ℤ
  windows : Dict String Tape.TapeWindow

/-- `_book_quality` in the default context: none where its arithmetic raises. -/
def bookQuality? (bestBid bestAsk : Option Decimal) : Option (Bool × Option Decimal) :=
  match bestBid, bestAsk with
  | some bid, some ask =>
    if bid ≤ 0 ∨ ask ≤ 0 then some (false, none)
    else if ask ≤ bid then some (false, none)
    else do
      let mid ← divideInRange? (← inRange? (bid + ask)) 2
      let ratio ← divideInRange? (← inRange? (ask - bid)) mid
      return (true, some (← inRange? (ratio * 10000)))
  | _, _ => some (false, none)

/-- Quotes whose sum and difference do not overflow, and whose middle is not lost. -/
def QuotesInRange (bestBid bestAsk : Option Decimal) : Prop :=
  ∀ bid ∈ bestBid, ∀ ask ∈ bestAsk, 0 < bid → bid < ask →
    ¬ Overflows (bid + ask) ∧ ¬ Overflows (ask - bid) ∧
      roundInRange (roundInRange (bid + ask) / 2) ≠ 0

section Handling

variable (repr : Json → Text)

def isAck (message : Body) : Bool :=
  match (message.get? "header").bind Json.mapping? with
  | none => false
  | some header => (header.get? "tr_type").isSome || (header.get? "rsp_cd").isSome

/-- `str(value or "")` of a field. -/
def textOrEmpty (body : Body) (key : String) : Text :=
  match body.get? key with
  | none => []
  | some value => if value.truthy then value.text repr else []

def ackResult (message : Body) : Bool × Text × Text :=
  match (message.get? "header").bind Json.mapping? with
  | none => (false, [], [])
  | some header =>
    let code := textOrEmpty repr header "rsp_cd"
    (decide (code = [] ∨ code = ofString "00000"), code, textOrEmpty repr header "rsp_msg")

def TradePush.tick (push : TradePush) (symbol : String) (receivedAt : Instant) :
    Tape.TradeTick where
  symbol := symbol
  receivedAt := .aware receivedAt
  exchangeTime := push.exchangeTime
  price := push.price
  cumulativeVolume := push.cumulativeVolume
  cumulativeBuyVolume := push.cumulativeBuyVolume
  cumulativeSellVolume := push.cumulativeSellVolume
  sessionVwap := push.sessionVwap

def BookPush.tick (push : BookPush) (symbol : String) (receivedAt : Instant) : Tape.BookTick where
  symbol := symbol
  receivedAt := .aware receivedAt
  exchangeTime := push.exchangeTime
  bestBid := push.bestBid
  bestAsk := push.bestAsk
  totalBidSize := push.totalBidSize
  totalAskSize := push.totalAskSize
  depth := push.depth

/-- A tick goes to a window. The quality of a book is computed only when the book is kept. -/
def Push.deliver (push : Push) (window : Tape.TapeWindow) (symbol : String)
    (receivedAt : Instant) : Except Raised Tape.TapeWindow :=
  match push with
  | .trade tick =>
    match window.onTrade (tick.tick symbol receivedAt) with
    | .error _ => .error .value
    | .ok (window, _) => .ok window
  | .book tick =>
    match window.onBook Context.inRange (tick.tick symbol receivedAt) with
    | .error _ => .error .value
    | .ok (window, kept) =>
      if kept && (bookQuality? tick.bestBid tick.bestAsk).isNone then .error .arithmetic
      else .ok window

/-- `handle_message`, of what `json.loads` makes of a text. -/
def handleMessage (s : Reading) (receivedAt : Instant) :
    Except LoadFailure Json → Except Raised Reading
  | .error .invalid => .ok s
  | .error .recursion => .error .recursion
  | .ok value =>
    match value.mapping? with
    | none => .ok s
    | some message =>
      if isAck message then
        .ok (if (ackResult repr message).1 then { s with backoff := backoffInitial } else s)
      else do
        match ← parsePush repr message with
        | none => return s
        | some push =>
          match toString? push.symbol with
          | none => return s
          | some symbol =>
            match s.windows.get? symbol with
            | none => return s
            | some window =>
              let window ← push.deliver window symbol receivedAt
              return { s with windows := s.windows.set symbol window }

end Handling

section Quality

variable {bid ask : Decimal}

theorem quality_inRange (hbid : 0 < bid) (horder : bid < ask) (hsum : ¬ Overflows (bid + ask))
    (hdifference : ¬ Overflows (ask - bid)) (hmid : roundInRange (roundInRange (bid + ask) / 2) ≠ 0)
    :
    bookQuality? (some bid) (some ask) =
      some (Tape.bookQuality .inRange (some bid) (some ask)) := by
  have hsign : ¬ (bid ≤ 0 ∨ ask ≤ 0) := by
    rintro (h | h)
    · linarith
    · linarith
  have hnonneg := roundInRange_nonneg (x := ask - bid) (by linarith)
  have hmiddle := le_middle (x := bid + ask) (by linarith) hmid
  have hpos : 0 < roundInRange (roundInRange (bid + ask) / 2) := by linarith
  have hratio : roundInRange (ask - bid) / roundInRange (roundInRange (bid + ask) / 2) ≤ 16 := by
    rw [div_le_iff₀ hpos]
    have hdouble := roundInRange_le_double (x := ask - bid) (by linarith)
    linarith
  have hratio₀ : 0 ≤ roundInRange (ask - bid) / roundInRange (roundInRange (bid + ask) / 2) := by
    positivity
  have hrounded := roundInRange_le_double hratio₀
  have hrounded₀ := roundInRange_nonneg hratio₀
  have hbps := not_overflows_of_small
    (x := roundInRange (roundInRange (ask - bid) / roundInRange (roundInRange (bid + ask) / 2)) *
      10000) (by positivity) (by linarith)
  unfold bookQuality? Tape.bookQuality
  simp only [if_neg hsign, if_neg (not_le.mpr horder), inRange?_of hsum, inRange?_of hdifference,
    Option.bind_eq_bind, Option.bind_some, divideInRange?, if_neg hpos.ne',
      if_neg (two_ne_zero' Decimal),
    inRange?_of (not_overflows_half (by linarith) hsum),
    inRange?_of (not_overflows_of_small hratio₀ (by linarith)), inRange?_of hbps]
  rfl

/-- Quotes in order whose quality is computed do not overflow, nor is their middle lost. -/
theorem inRange_of_quality (hbid : 0 < bid) (horder : bid < ask)
    (h : (bookQuality? (some bid) (some ask)).isSome) :
    ¬ Overflows (bid + ask) ∧ ¬ Overflows (ask - bid) ∧
      roundInRange (roundInRange (bid + ask) / 2) ≠ 0 := by
  have hsign : ¬ (bid ≤ 0 ∨ ask ≤ 0) := by
    rintro (h | h)
    · linarith
    · linarith
  unfold bookQuality? at h
  simp only [if_neg hsign, if_neg (not_le.mpr horder)] at h
  obtain ⟨quality, h⟩ := Option.isSome_iff_exists.mp h
  obtain ⟨sum, hsum, h⟩ := Option.bind_eq_some_iff.mp h
  obtain ⟨mid, hmid, h⟩ := Option.bind_eq_some_iff.mp h
  obtain ⟨difference, hdifference, h⟩ := Option.bind_eq_some_iff.mp h
  obtain ⟨ratio, hratio, -⟩ := Option.bind_eq_some_iff.mp h
  obtain ⟨hfits, rfl⟩ := inRange?_eq_some hsum
  obtain ⟨hfits', rfl⟩ := inRange?_eq_some hdifference
  obtain ⟨-, hmid⟩ := divideInRange?_eq_some hmid
  obtain ⟨hne, -⟩ := divideInRange?_eq_some hratio
  obtain ⟨-, rfl⟩ := inRange?_eq_some hmid
  exact ⟨hfits, hfits', hne⟩

theorem bookQuality?_crossed (h : ¬ (0 < bid ∧ bid < ask)) :
    bookQuality? (some bid) (some ask) = some (false, none) := by
  unfold bookQuality?
  dsimp only
  split_ifs with hsign horder
  · rfl
  · rfl
  · push Not at hsign horder
    exact absurd ⟨hsign.1, horder⟩ h

theorem bookQuality?_isSome_iff {bestBid bestAsk : Option Decimal} :
    (bookQuality? bestBid bestAsk).isSome ↔ QuotesInRange bestBid bestAsk := by
  cases bestBid with
  | none => simp [bookQuality?, QuotesInRange]
  | some bid =>
    cases bestAsk with
    | none => simp [bookQuality?, QuotesInRange]
    | some ask =>
      unfold QuotesInRange
      simp only [Option.mem_some_iff, forall_eq']
      constructor
      · intro h hbid horder
        exact inRange_of_quality hbid horder h
      · intro h
        by_cases hquotes : 0 < bid ∧ bid < ask
        · obtain ⟨hsum, hdifference, hmid⟩ := h hquotes.1 hquotes.2
          rw [quality_inRange hquotes.1 hquotes.2 hsum hdifference hmid]
          rfl
        · rw [bookQuality?_crossed hquotes]
          rfl

end Quality

section Delivery

variable {window : Tape.TapeWindow} {symbol : String} {receivedAt : Instant}

/-- A window keeps a book of its symbol that is neither skewed nor older than the last one of
the session. -/
def KeepsBook (window : Tape.TapeWindow) (symbol : String) (receivedAt : Instant)
    (moment : ℤ) : Prop :=
  symbol = window.symbol ∧ window.skewed receivedAt moment = false ∧
    ∀ previous, (window.enterSession receivedAt).lastBook = some previous →
      previous.receivedAt ≤ receivedAt ∧ previous.exchangeTime ≤ moment

theorem onTrade_ok (window : Tape.TapeWindow) (symbol : String) (receivedAt : Instant)
    (tick : TradePush) :
    ∃ result, window.onTrade (tick.tick symbol receivedAt) = .ok result := by
  unfold Tape.TapeWindow.onTrade TradePush.tick
  dsimp only
  split_ifs
  · exact ⟨_, rfl⟩
  · exact ⟨_, rfl⟩
  · split
    · exact ⟨_, rfl⟩
    · split_ifs
      · exact ⟨_, rfl⟩
      · exact ⟨_, rfl⟩
      · exact ⟨_, rfl⟩
      · exact ⟨_, rfl⟩
      · exact ⟨_, rfl⟩

theorem onBook_ok (window : Tape.TapeWindow) (symbol : String) (receivedAt : Instant)
    (tick : BookPush) :
    ∃ window' kept, window.onBook Context.inRange (tick.tick symbol receivedAt) =
        .ok (window', kept) ∧
      (kept = true ↔ KeepsBook window symbol receivedAt tick.exchangeTime) := by
  unfold Tape.TapeWindow.onBook BookPush.tick KeepsBook
  dsimp only
  split_ifs with hsymbol hskewed
  · exact ⟨_, _, rfl, by simp [hsymbol]⟩
  · exact ⟨_, _, rfl, by simp [hskewed]⟩
  · have hsame : symbol = window.symbol := not_not.mp hsymbol
    have hnear : window.skewed receivedAt tick.exchangeTime = false := by simpa using hskewed
    split
    next hnone => exact ⟨_, _, rfl, by simp [hsame, hnear, hnone]⟩
    next previous hprevious =>
      split_ifs with hold
      · refine ⟨_, _, rfl, ?_⟩
        simp only [Bool.false_eq_true, false_iff]
        rintro ⟨-, -, h⟩
        have hnew := h previous hprevious
        rcases hold with hold | hold
        · exact absurd hnew.1 (not_le.mpr hold)
        · exact absurd hnew.2 (not_le.mpr hold)
      · refine ⟨_, _, rfl, ?_⟩
        simp only [true_iff]
        refine ⟨hsame, hnear, ?_⟩
        intro other hother
        cases hprevious.symm.trans hother
        push Not at hold
        exact hold

theorem deliver_ok_iff {push : Push} :
    (∃ window', push.deliver window symbol receivedAt = .ok window') ↔
      ∀ tick, push = .book tick → KeepsBook window symbol receivedAt tick.exchangeTime →
        QuotesInRange tick.bestBid tick.bestAsk := by
  cases push with
  | trade tick =>
    obtain ⟨result, hresult⟩ := onTrade_ok window symbol receivedAt tick
    simp [Push.deliver, hresult]
  | book tick =>
    obtain ⟨window', kept, hbook, hkept⟩ := onBook_ok window symbol receivedAt tick
    simp only [Push.deliver, hbook, Push.book.injEq, forall_eq', ← hkept,
      ← bookQuality?_isSome_iff]
    cases kept with
    | false => simp
    | true => cases hquality : bookQuality? tick.bestBid tick.bestAsk with
      | none => simp
      | some quality => simp

end Delivery

section Messages

variable {repr : Json → Text} {s : Reading} {receivedAt : Instant}
  {loaded : Except LoadFailure Json}

/-- The tick that a message gives, if it is an object and no acknowledgement. -/
def Yields (repr : Json → Text) (loaded : Except LoadFailure Json) (push : Push) : Prop :=
  ∃ message, loaded = .ok (.obj message) ∧ isAck message = false ∧
    parsePush repr message = .ok (some push)

/-- A message is handled: nothing is raised, what is parsed is nothing or a valid tick, and
without a tick every window stays. -/
structure Handled (repr : Json → Text) (s : Reading) (receivedAt : Instant)
    (loaded : Except LoadFailure Json) : Prop where
  returns : ∃ s', handleMessage repr s receivedAt loaded = .ok s'
  parses : ∀ message, loaded = .ok (.obj message) →
    ∃ result, parsePush repr message = .ok result ∧ ∀ push ∈ result, push.Valid
  unchanged : (¬ ∃ push, Yields repr loaded push) →
    ∀ s', handleMessage repr s receivedAt loaded = .ok s' → s'.windows = s.windows

/-- The quotes of a book that a window keeps are in range. -/
def QuotesReadable (repr : Json → Text) (s : Reading) (receivedAt : Instant) (message : Body) :
    Prop :=
  ∀ symbol body moment name window, pushHead repr message = some (.book, symbol, body) →
    exchangeTime (fieldText repr body "hotime") = some moment →
    toString? symbol = some name → s.windows.get? name = some window →
    KeepsBook window name receivedAt moment →
    QuotesInRange (positiveDecimal repr body "bid") (positiveDecimal repr body "offer")

theorem parsePush_book {message body : Body} {symbol : Text} {moment : ℤ} {result : Option Push}
    (hhead : pushHead repr message = some (.book, symbol, body))
    (hmoment : exchangeTime (fieldText repr body "hotime") = some moment)
    (h : parsePush repr message = .ok result) :
    ∃ tick : BookPush, result = some (.book tick) ∧ tick.symbol = symbol ∧
      tick.exchangeTime = moment ∧ tick.bestBid = positiveDecimal repr body "bid" ∧
      tick.bestAsk = positiveDecimal repr body "offer" := by
  unfold parsePush at h
  rw [hhead] at h
  obtain ⟨found, hfound, h⟩ := map_eq_ok_iff.mp h
  unfold bookPush at hfound
  rw [hmoment] at hfound
  obtain ⟨bidSize, -, hfound⟩ := bind_ok_iff.mp hfound
  obtain ⟨askSize, -, hfound⟩ := bind_ok_iff.mp hfound
  obtain ⟨totalBid, -, hfound⟩ := bind_ok_iff.mp hfound
  obtain ⟨totalAsk, -, hfound⟩ := bind_ok_iff.mp hfound
  obtain ⟨depth, -, hfound⟩ := bind_ok_iff.mp hfound
  cases hfound
  exact ⟨_, h.symm, rfl, rfl, rfl, rfl⟩

theorem book_of_parsePush {message : Body} {tick : BookPush}
    (h : parsePush repr message = .ok (some (.book tick))) :
    ∃ body, pushHead repr message = some (.book, tick.symbol, body) ∧
      exchangeTime (fieldText repr body "hotime") = some tick.exchangeTime ∧
      tick.bestBid = positiveDecimal repr body "bid" ∧
      tick.bestAsk = positiveDecimal repr body "offer" := by
  have hparsed := h
  unfold parsePush at h
  split at h
  · cases h
  · obtain ⟨found, -, h⟩ := map_eq_ok_iff.mp h
    obtain ⟨trade, -, h⟩ := Option.map_eq_some_iff.mp h
    cases h
  · next symbol body hhead =>
    cases hmoment : exchangeTime (fieldText repr body "hotime") with
    | none =>
      unfold bookPush at h
      rw [hmoment] at h
      cases h
    | some moment =>
      obtain ⟨book, hbook, rfl, rfl, hbid, hask⟩ := parsePush_book hhead hmoment hparsed
      obtain rfl := Push.book.inj (Option.some.inj hbook)
      exact ⟨body, hhead, hmoment, hbid, hask⟩

theorem windows_unchanged (h : ¬ ∃ push, Yields repr loaded push) {s' : Reading}
    (hs' : handleMessage repr s receivedAt loaded = .ok s') : s'.windows = s.windows := by
  cases loaded with
  | error failure =>
    cases failure with
    | invalid => rw [← Except.ok.inj hs']
    | recursion => cases hs'
  | ok value =>
    unfold handleMessage at hs'
    cases hvalue : value.mapping? with
    | none =>
      simp only [hvalue] at hs'
      rw [← Except.ok.inj hs']
    | some message =>
      simp only [hvalue] at hs'
      split at hs'
      · rw [← Except.ok.inj hs']
        split_ifs
        · rfl
        · rfl
      · next hack =>
        obtain ⟨result, hresult, hs'⟩ := bind_ok_iff.mp hs'
        cases result with
        | none => rw [← Except.ok.inj hs']
        | some push =>
          refine absurd ⟨push, message, ?_, by simpa using hack, hresult⟩ h
          rw [Json.eq_obj_of_mapping? hvalue]

/-- A push that was parsed raises exactly when it is a book of a window that keeps it, and its
quotes are out of range. -/
theorem handleMessage_push_ok_iff {message : Body} {push : Push} (hack : isAck message = false)
    (hpush : parsePush repr message = .ok (some push)) :
    (∃ s', handleMessage repr s receivedAt (.ok (.obj message)) = .ok s') ↔
      ∀ name, toString? push.symbol = some name → ∀ window, s.windows.get? name = some window →
        ∃ window', push.deliver window name receivedAt = .ok window' := by
  simp only [handleMessage, Json.mapping?, hack, hpush, ok_bind, Bool.false_eq_true,
    if_false]
  cases toString? push.symbol with
  | none => simp [pure, Except.pure]
  | some name =>
    simp only [Option.some.injEq, forall_eq']
    cases s.windows.get? name with
    | none => simp [pure, Except.pure]
    | some window =>
      simp only [Option.some.injEq, forall_eq']
      cases push.deliver window name receivedAt with
      | error raised => simp
      | ok window' => simp [pure, Except.pure]

/-- A message is handled exactly when it was not nested too deeply to be loaded, the counters
that are read of it are ones `int` reads, and the quotes of a book that is kept are in range. -/
theorem messages_handled :
    Handled repr s receivedAt loaded ↔
      loaded ≠ .error .recursion ∧
        ∀ message, loaded = .ok (.obj message) →
          CountersConvert repr message ∧
            (isAck message = false → QuotesReadable repr s receivedAt message) := by
  constructor
  · rintro ⟨hreturns, hparses, -⟩
    refine ⟨?_, ?_⟩
    · rintro rfl
      obtain ⟨s', hs'⟩ := hreturns
      cases hs'
    · rintro message rfl
      obtain ⟨result, hresult, -⟩ := hparses message rfl
      refine ⟨parsePush_ok_iff.mp ⟨result, hresult⟩, ?_⟩
      intro hack symbol body moment name window hhead hmoment hname hwindow hkeeps
      obtain ⟨tick, rfl, rfl, rfl, hbid, hask⟩ := parsePush_book hhead hmoment hresult
      have hdelivered := (handleMessage_push_ok_iff hack hresult).mp hreturns name hname
        window hwindow
      rw [← hbid, ← hask]
      exact deliver_ok_iff.mp hdelivered tick rfl hkeeps
  · rintro ⟨hloaded, hmessage⟩
    refine ⟨?_, ?_, fun h s' hs' => windows_unchanged h hs'⟩
    · cases loaded with
      | error failure =>
        cases failure with
        | invalid => exact ⟨s, rfl⟩
        | recursion => exact absurd rfl hloaded
      | ok value =>
        cases value with
        | obj message =>
          obtain ⟨hcounters, hquotes⟩ := hmessage message rfl
          cases hack : isAck message with
          | true =>
            refine ⟨if (ackResult repr message).1 then
              { s with backoff := backoffInitial } else s, ?_⟩
            simp only [handleMessage, Json.mapping?, hack, if_true]
          | false =>
            obtain ⟨result, hresult⟩ := parsePush_ok_iff.mpr hcounters
            cases result with
            | none =>
              refine ⟨s, ?_⟩
              simp [handleMessage, Json.mapping?, hack, hresult, pure, Except.pure]
            | some push =>
              refine (handleMessage_push_ok_iff hack hresult).mpr ?_
              intro name hname window hwindow
              refine deliver_ok_iff.mpr ?_
              rintro tick rfl hkeeps
              obtain ⟨body, hhead, hmoment, hbid, hask⟩ := book_of_parsePush hresult
              rw [hbid, hask]
              exact hquotes hack _ body _ name window hhead hmoment hname hwindow hkeeps
        | null => exact ⟨s, rfl⟩
        | bool value => exact ⟨s, rfl⟩
        | number text => exact ⟨s, rfl⟩
        | str text => exact ⟨s, rfl⟩
        | arr items => exact ⟨s, rfl⟩
    · rintro message rfl
      obtain ⟨result, hresult⟩ := parsePush_ok_iff.mpr (hmessage message rfl).1
      refine ⟨result, hresult, ?_⟩
      rintro push rfl
      exact parsePush_valid hresult

end Messages

/-- A trade whose volume is a superscript two: a digit that `int` does not read. -/
def superscriptTrade : Json :=
  .obj [
    (ofString "header", .obj [(ofString "tr_cd", .str (ofString "oc"))]),
    (ofString "body", .obj [
      (ofString "code", .str (ofString "005930")),
      (ofString "time", .str (ofString "090000")),
      (ofString "price", .str (ofString "70000")),
      (ofString "volume", .str (ofString "²"))])]

/-- A superscript passes `isdigit` and is refused by `int`. -/
theorem superscript_volume_raises :
    ¬ Handled (fun _ => []) ⟨backoffInitial, Dict.empty⟩ 0 (.ok superscriptTrade) := by
  intro h
  obtain ⟨s', hs'⟩ := h.returns
  have hraises : (handleMessage (fun _ => []) ⟨backoffInitial, Dict.empty⟩ 0
      (.ok superscriptTrade)).toOption.isNone = true := by decide
  rw [hs'] at hraises
  cases hraises

end KAssetTrader.NhPlug
