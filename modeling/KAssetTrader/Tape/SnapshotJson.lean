import KAssetTrader.Library.CivilTime
import KAssetTrader.Storage.Json
import KAssetTrader.Tape.TapeWindow

/-!
The snapshot of a window as it is stored. The fields are those that the constructor
takes: decimals that need not be finite, and times with or without a zone, whose offset
from UTC may depend on the fold of a time that the clocks pass twice. What is stored is the
moment in UTC, and it is read back strictly.
-/

namespace KAssetTrader.Tape

open CivilTime
open Decimal
open Storage

/-- A `tzinfo`: UTC, or another object by the `utcoffset` of a local time and its fold. -/
inductive Zone where
  | utc
  | other (object : ℕ) (utcoffset : Moment → Bool → Option UtcOffset)

/-- A `datetime`. -/
structure Timestamp where
  localTime : Moment
  fold : Bool := false
  tzinfo : Option Zone

/-- `utcoffset()` of a time with one fold or the other; none also without a zone. -/
def Timestamp.utcoffset (t : Timestamp) (fold : Bool) : Option UtcOffset :=
  match t.tzinfo with
  | none => none
  | some .utc => some .zero
  | some (.other _ utcoffset) => utcoffset t.localTime fold

def VolumePowerState.value : VolumePowerState → String
  | .ratio => "RATIO"
  | .buyOnly => "BUY_ONLY"
  | .unavailable => "UNAVAILABLE"

/-- `VolumePowerState(text)`. -/
def VolumePowerState.ofText (text : String) : Except String VolumePowerState :=
  if text = "RATIO" then .ok .ratio
  else if text = "BUY_ONLY" then .ok .buyOnly
  else if text = "UNAVAILABLE" then .ok .unavailable
  else .error s!"'{text}' is not a valid VolumePowerState"

/-- The fields of `BookLevel`. -/
structure LevelFields where
  bid : Option DecimalValue
  ask : Option DecimalValue
  bidSize : Option ℤ
  askSize : Option ℤ

/-- The fields of `TapeSnapshot`. -/
structure SnapshotFields where
  symbol : String
  asOf : Timestamp
  sessionDate : Date
  coverageStartedAt : Option Timestamp
  lastTradeAt : Option Timestamp
  lastBookAt : Option Timestamp
  tradeCount : ℤ
  bookCount : ℤ
  invalidBookCount : ℤ
  medianSpreadBps : Option DecimalValue
  volumePowerState : VolumePowerState
  volumePower : Option DecimalValue
  buyVolumeDelta : Option ℤ
  sellVolumeDelta : Option ℤ
  priceChange : Option DecimalValue
  lastPrice : Option DecimalValue
  sessionVwap : Option DecimalValue
  bestBid : Option DecimalValue
  bestAsk : Option DecimalValue
  droppedFrames : ℤ
  resets : ℤ
  lastResetReason : Option String
  bookDepth : List LevelFields := []
  totalBidSize : Option ℤ := none
  totalAskSize : Option ℤ := none

section Encode

/-- `str(d)`, or null. -/
def decimalJson : Option DecimalValue → Json
  | none => .null
  | some d => .str (decimalText d)

/-- `_dec` of `as_json`. -/
def plainJson : Option DecimalValue → Json
  | none => .null
  | some d => .str (plainText d)

def intJson : Option ℤ → Json
  | none => .null
  | some n => .int n

def LevelFields.asJson (level : LevelFields) : Json :=
  .obj [("bid", decimalJson level.bid), ("ask", decimalJson level.ask),
    ("bidSize", intJson level.bidSize), ("askSize", intJson level.askSize)]

/-- What the machine adds: the local zone that moves a time without an offset to UTC, and
the division of integers in the decimal context. -/
structure Machine where
  toUtc : Moment → Bool → Except String Moment
  divide : ℤ → ℤ → Numeral

variable (machine : Machine)

/-- `astimezone(UTC)`: the local time less its offset, as far as a `datetime` reaches. -/
def Timestamp.astimezone (t : Timestamp) : Except String Moment :=
  match t.tzinfo, t.utcoffset t.fold with
  | some .utc, _ => .ok t.localTime
  | _, some offset => t.localTime.minus offset
  | _, none => machine.toUtc t.localTime t.fold

/-- `_time` of `as_json`. -/
def timeJson (value : Option Timestamp) : Except String Json :=
  match value with
  | none => .ok .null
  | some t => do
      let utc ← t.astimezone machine
      return .str (String.ofList utc.isoformat)

def SnapshotFields.bookImbalance (s : SnapshotFields) : Option DecimalValue :=
  match s.totalBidSize, s.totalAskSize with
  | some bid, some ask =>
    if bid + ask = 0 then none else some (.finite (machine.divide (bid - ask) (bid + ask)))
  | _, _ => none

def realtimeTapeSchemaVersion : String := "kasset.realtime-tape.v1"

def SnapshotFields.payload (s : SnapshotFields)
    (asOf coverageStartedAt lastTradeAt lastBookAt : Json) : Json :=
  .obj [("schemaVersion", .str realtimeTapeSchemaVersion),
    ("symbol", .str s.symbol),
    ("asOf", asOf),
    ("sessionDate", .str (String.ofList s.sessionDate.isoformat)),
    ("coverageStartedAt", coverageStartedAt),
    ("lastTradeAt", lastTradeAt),
    ("lastBookAt", lastBookAt),
    ("tradeCount", .int s.tradeCount),
    ("bookCount", .int s.bookCount),
    ("invalidBookCount", .int s.invalidBookCount),
    ("medianSpreadBps", plainJson s.medianSpreadBps),
    ("volumePowerState", .str s.volumePowerState.value),
    ("volumePower", plainJson s.volumePower),
    ("buyVolumeDelta", intJson s.buyVolumeDelta),
    ("sellVolumeDelta", intJson s.sellVolumeDelta),
    ("priceChange", plainJson s.priceChange),
    ("lastPrice", plainJson s.lastPrice),
    ("sessionVwap", plainJson s.sessionVwap),
    ("bestBid", plainJson s.bestBid),
    ("bestAsk", plainJson s.bestAsk),
    ("bookDepth", .arr (s.bookDepth.map (·.asJson))),
    ("totalBidSize", intJson s.totalBidSize),
    ("totalAskSize", intJson s.totalAskSize),
    ("bookImbalance", plainJson (s.bookImbalance machine)),
    ("bookImbalanceStatus",
      .str (if (s.bookImbalance machine).isSome then "AVAILABLE" else "UNAVAILABLE")),
    ("droppedFrames", .int s.droppedFrames),
    ("resets", .int s.resets),
    ("lastResetReason",
      match s.lastResetReason with
      | none => .null
      | some reason => .str reason)]

def SnapshotFields.asJson (s : SnapshotFields) : Except String Json := do
  let asOf ← timeJson machine (some s.asOf)
  let coverageStartedAt ← timeJson machine s.coverageStartedAt
  let lastTradeAt ← timeJson machine s.lastTradeAt
  let lastBookAt ← timeJson machine s.lastBookAt
  return s.payload machine asOf coverageStartedAt lastTradeAt lastBookAt

end Encode

/-- How many digits the conversions between integers and texts take. -/
def intMaxStrDigits : ℕ := 4300

/-- `int(str(value))`. -/
def intOf (value : Json) : Except String ℤ :=
  match value with
  | .int n =>
    if intMaxStrDigits < (Nat.toDigits 10 n.natAbs).length then
      .error "Exceeds the limit (4300 digits) for integer string conversion"
    else .ok n
  | _ =>
    let digits := (Unicode.strip value.text).toList.filter (· ≠ '_')
    match readInteger digits with
    | some n =>
      if intMaxStrDigits < digits.length then
        .error "Exceeds the limit (4300 digits) for integer string conversion"
      else .ok n
    | none => .error s!"invalid literal for int() with base 10: '{value.text}'"

/-- A field of a level: an absent key or a text that is no decimal makes the level
invalid. -/
def levelDecimal (item : Json) (key : String) : Except String (Option DecimalValue) :=
  match item.get? key with
  | none => .error "bookDepth contains an invalid level"
  | some .null => .ok none
  | some value =>
    match decimalOf value.text with
    | some d => .ok (some d)
    | none => .error "bookDepth contains an invalid level"

def levelSize (item : Json) (key : String) : Except String (Option ℤ) :=
  match item.get? key with
  | none => .error "bookDepth contains an invalid level"
  | some .null => .ok none
  | some value => some <$> intOf value

def LevelFields.fromJson (item : Json) : Except String LevelFields := do
  let bid ← levelDecimal item "bid"
  let ask ← levelDecimal item "ask"
  let bidSize ← levelSize item "bidSize"
  let askSize ← levelSize item "askSize"
  return ⟨bid, ask, bidSize, askSize⟩

/-- A time that was read back. -/
def Timestamp.inUtc (utc : Moment) : Timestamp := { localTime := utc, tzinfo := some .utc }

variable (payload : Json)

def readTime (value : Json) (key : String) : Except String Timestamp :=
  match value.str? with
  | none => .error s!"{key} must be an ISO timestamp"
  | some text =>
    match Moment.fromIsoformat text.toList with
    | some utc => .ok (.inUtc utc)
    | none => .error s!"Invalid isoformat string: '{text}'"

/-- `_time` of `from_json`. -/
def timeField (key : String) : Except String (Option Timestamp) :=
  match (payload.get? key).getD .null with
  | .null => .ok none
  | value => some <$> readTime value key

/-- `_dec` of `from_json`. -/
def decimalField (key : String) : Except String (Option DecimalValue) :=
  match (payload.get? key).getD .null with
  | .null => .ok none
  | value =>
    match value.str? with
    | none => .error s!"{key} must be a decimal string"
    | some text =>
      match decimalOf text with
      | none => .error s!"{key} must be a decimal string"
      | some (.finite n) => .ok (some (.finite n))
      | some _ => .error s!"{key} must be finite"

/-- `_int` of `from_json`, for a field that may be absent. -/
def optionalIntField (key : String) : Except String (Option ℤ) :=
  match (payload.get? key).getD .null with
  | .null => .ok none
  | value =>
    match value.int? with
    | some n => .ok (some n)
    | none => .error s!"{key} must be an integer"

/-- `_int` of `from_json`. -/
def intField (key : String) : Except String ℤ :=
  match ((payload.get? key).getD .null).int? with
  | some n => .ok n
  | none => .error s!"{key} must be an integer"

def depthField : Except String (List LevelFields) :=
  match (payload.get? "bookDepth").getD (.arr []) with
  | .arr items =>
    if items.all (fun item => match item with | .obj _ => true | _ => false) then
      items.mapM LevelFields.fromJson
    else .error "bookDepth must be an array of levels"
  | _ => .error "bookDepth must be an array of levels"

def symbolField : Except String String :=
  match (payload.get? "symbol").bind Json.str? with
  | some symbol => if symbol = "" then .error "symbol is required" else .ok symbol
  | none => .error "symbol is required"

def sessionText : Except String String :=
  match (payload.get? "sessionDate").bind Json.str? with
  | some text => .ok text
  | none => .error "sessionDate is required"

def resetReasonField : Except String (Option String) :=
  match (payload.get? "lastResetReason").getD .null with
  | .null => .ok none
  | .str reason => .ok (some reason)
  | _ => .error "lastResetReason must be text"

/-- `date.fromisoformat(text)`. -/
def dateOf (text : String) : Except String Date :=
  match Date.fromIsoformat text.toList with
  | some date => .ok date
  | none => .error s!"Invalid isoformat string: '{text}'"

def SnapshotFields.fromJson : Except String SnapshotFields := do
  Checked.raiseIf (((payload.get? "schemaVersion").bind Json.str?) ≠ some realtimeTapeSchemaVersion)
    "unsupported realtime tape schema"
  let symbol ← symbolField payload
  let sessionRaw ← sessionText payload
  let lastResetReason ← resetReasonField payload
  let asOf ← readTime ((payload.get? "asOf").getD .null) "asOf"
  let bookDepth ← depthField payload
  let sessionDate ← dateOf sessionRaw
  let coverageStartedAt ← timeField payload "coverageStartedAt"
  let lastTradeAt ← timeField payload "lastTradeAt"
  let lastBookAt ← timeField payload "lastBookAt"
  let tradeCount ← intField payload "tradeCount"
  let bookCount ← intField payload "bookCount"
  let invalidBookCount ← intField payload "invalidBookCount"
  let medianSpreadBps ← decimalField payload "medianSpreadBps"
  let volumePowerState ← VolumePowerState.ofText
    ((payload.get? "volumePowerState").getD .null).text
  let volumePower ← decimalField payload "volumePower"
  let buyVolumeDelta ← optionalIntField payload "buyVolumeDelta"
  let sellVolumeDelta ← optionalIntField payload "sellVolumeDelta"
  let priceChange ← decimalField payload "priceChange"
  let lastPrice ← decimalField payload "lastPrice"
  let sessionVwap ← decimalField payload "sessionVwap"
  let bestBid ← decimalField payload "bestBid"
  let bestAsk ← decimalField payload "bestAsk"
  let droppedFrames ← intField payload "droppedFrames"
  let resets ← intField payload "resets"
  let totalBidSize ← optionalIntField payload "totalBidSize"
  let totalAskSize ← optionalIntField payload "totalAskSize"
  return {
    symbol, asOf, sessionDate, coverageStartedAt, lastTradeAt, lastBookAt, tradeCount, bookCount
    invalidBookCount, medianSpreadBps, volumePowerState, volumePower, buyVolumeDelta
    sellVolumeDelta, priceChange, lastPrice, sessionVwap, bestBid, bestAsk, droppedFrames, resets
    lastResetReason, bookDepth, totalBidSize, totalAskSize }

end KAssetTrader.Tape
