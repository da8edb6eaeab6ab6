import KAssetTrader.Library.Checked
import KAssetTrader.Library.Rounding

/-!
Daily bars as they are stored, and the check that the swing and long-term shadows make of
them before any arithmetic. A stored number may be infinite or not a number at all; a bar
that passes the check has finite prices in order, so its valid form carries these facts. A
value that is not a number goes through sums and quotients and is refused by a comparison; an
infinite value is refused where it is written out.
-/

namespace KAssetTrader.Swing

inductive Number where
  | finite (x : Decimal)
  | infinite (negative : Bool)
  | nan

/-- The errors of decimal arithmetic and of sequences. -/
inductive Fault where
  | divisionByZero
  | invalidOperation
  | index
  deriving DecidableEq

def precision : ℕ := 28

def context : Decimal.Context := .digits precision

/-- A value that the working context holds exactly. -/
def Fits (x : Decimal) : Prop := context.round x = x

instance : DecidablePred Fits := fun x => inferInstanceAs (Decidable (context.round x = x))

def divide (a b : Decimal) : Except Fault Decimal :=
  if b = 0 then .error .divisionByZero else .ok (context.div a b)

/-- `_quantize`: six places, and an error where the result has too many digits. -/
def quantizeSix (value : Decimal) : Except Fault Decimal :=
  if |value.quantize 6| * 10 ^ 6 < 10 ^ precision then .ok (value.quantize 6)
  else .error .invalidOperation

/-- A bar of one session; sessions are dates, counted in days. -/
structure SwingBar where
  sessionDate : ℤ
  openPrice : Number
  high : Number
  low : Number
  close : Number
  volume : Number
  value : Option Number := none

/-- The prices and the volume of a bar that passes the check. -/
structure ValidBar where
  sessionDate : ℤ
  openPrice : Decimal
  high : Decimal
  low : Decimal
  close : Decimal
  volume : Decimal
  value : Option Number
  low_pos : 0 < low
  volume_nonneg : 0 ≤ volume
  open_le_high : openPrice ≤ high
  close_le_high : close ≤ high
  low_le_open : low ≤ openPrice
  low_le_close : low ≤ close

/-- `_bar_is_valid`, with the valid form of the bar. -/
def SwingBar.valid? (bar : SwingBar) : Option ValidBar :=
  match bar.openPrice, bar.high, bar.low, bar.close, bar.volume with
  | .finite openPrice, .finite high, .finite low, .finite close, .finite volume =>
    if h : (0 < openPrice ∧ 0 < high ∧ 0 < low ∧ 0 < close) ∧ 0 ≤ volume ∧
        max (max openPrice close) low ≤ high ∧ low ≤ min openPrice close then
      some {
        sessionDate := bar.sessionDate
        value := bar.value
        openPrice, high, low, close, volume
        low_pos := h.1.2.2.1
        volume_nonneg := h.2.1
        open_le_high := ((le_max_left _ _).trans (le_max_left _ _)).trans h.2.2.1
        close_le_high := ((le_max_right _ _).trans (le_max_left _ _)).trans h.2.2.1
        low_le_open := h.2.2.2.trans (min_le_left _ _)
        low_le_close := h.2.2.2.trans (min_le_right _ _) }
    else none
  | _, _, _, _, _ => none

namespace ValidBar

variable (bar : ValidBar)

theorem open_pos : 0 < bar.openPrice := bar.low_pos.trans_le bar.low_le_open

theorem close_pos : 0 < bar.close := bar.low_pos.trans_le bar.low_le_close

end ValidBar

section Arithmetic

variable {x y z : Decimal}

theorem round_mono (h : x ≤ y) : context.round x ≤ context.round y :=
  Decimal.roundDigits_monotone (by decide) h

theorem round_zero : context.round 0 = 0 := Decimal.roundDigits_zero precision

theorem round_one : context.round 1 = 1 := by
  have hwhole : Decimal.HasPlaces 0 1 := ⟨1, by norm_num⟩
  exact Decimal.Context.digits_round hwhole (by norm_num [precision])

theorem quantizeSix_ok (h : quantizeSix x = .ok y) : y = x.quantize 6 := by
  unfold quantizeSix at h
  split at h
  · exact (Except.ok.inj h).symm
  · cases h

theorem quantizeSix_mono {x' y' : Decimal} (hx : quantizeSix x = .ok x')
    (hy : quantizeSix y = .ok y') (h : x ≤ y) : x' ≤ y' := by
  rw [quantizeSix_ok hx, quantizeSix_ok hy]
  exact Decimal.quantize_mono h

theorem divide_ok (h : divide x y = .ok z) : z = context.round (x / y) := by
  unfold divide at h
  split at h
  · cases h
  · exact (Except.ok.inj h).symm

end Arithmetic

inductive Failure where
  | fault (fault : Fault)
  | value (message : String)
  | stopIteration
  | assertion
  deriving DecidableEq

abbrev outside : Failure := .fault .index

def invalid {α : Type} : Except Failure α := .error (.fault .invalidOperation)

def quotient (a b : Decimal) : Except Failure Decimal :=
  if b = 0 then .error (.fault (if a = 0 then .invalidOperation else .divisionByZero))
  else .ok (context.div a b)

namespace Number

def add : Number → Number → Except Failure Number
  | .nan, _ => .ok .nan
  | _, .nan => .ok .nan
  | .infinite s, .infinite t => if s = t then .ok (.infinite s) else invalid
  | .infinite s, .finite _ => .ok (.infinite s)
  | .finite _, .infinite t => .ok (.infinite t)
  | .finite x, .finite y => .ok (.finite (context.add x y))

/-- `sum(values, start=_ZERO)` -/
def sum (values : List Number) : Except Failure Number := values.foldlM add (.finite 0)

/-- The quotient; an infinite value over zero takes zero as positive. -/
def divide : Number → Number → Except Failure Number
  | .nan, _ => .ok .nan
  | _, .nan => .ok .nan
  | .infinite _, .infinite _ => invalid
  | .infinite s, .finite y => .ok (.infinite (if y < 0 then !s else s))
  | .finite _, .infinite _ => .ok (.finite 0)
  | .finite x, .finite y => .finite <$> quotient x y

/-- `a < b`; a comparison with what is not a number is refused. -/
def lessThan : Number → Number → Except Failure Bool
  | .nan, _ => invalid
  | _, .nan => invalid
  | .infinite s, .infinite t => .ok (s && !t)
  | .infinite s, .finite _ => .ok s
  | .finite _, .infinite t => .ok !t
  | .finite x, .finite y => .ok (x < y)

/-- `a <= b` -/
def atMost (a b : Number) : Except Failure Bool := do return !(← lessThan b a)

end Number

/-- The value quantized to six places, as a numeral; what is below zero keeps its sign. -/
def sixPlaces (x : Decimal) : Decimal.Numeral where
  negative := x < 0
  coefficient := (Decimal.roundHalfEven (x * 10 ^ 6)).natAbs
  exponent := -6

/-- `decimal_text`, of a finite value. -/
def decimalText (x : Decimal) : Except Failure (List Char) := do
  let _ ← (quantizeSix x).mapError .fault
  return (sixPlaces x).plain

/-- `decimal_text` -/
def numberText : Number → Except Failure (List Char)
  | .finite x => decimalText x
  | .infinite _ => invalid
  | .nan => .ok "NaN".toList

variable {x y : Decimal}

theorem Fits.neg (h : Fits x) : context.round (-x) = -x := by
  have hround : context.round (-x) = -context.round x := Decimal.roundDigits_neg precision x
  rw [hround, h]

/-- `BarScreenConfig`, which the swing and the long-term shadow share. -/
structure BarScreenConfig where
  lookbackSessions : ℕ
  maxAbsSessionMove : Decimal
  minClose : Decimal
  turnoverSessions : ℕ
  minAverageTurnover : Decimal

inductive Exclusion where
  | duplicateBar
  | invalidOhlcv
  | staleLatestBar
  | offCalendarBar
  | dataGap
  | insufficientHistory
  | priceDiscontinuity
  | haltedSuspect
  | belowMinClose
  | turnoverUnavailable
  | belowMinTurnover

end KAssetTrader.Swing
