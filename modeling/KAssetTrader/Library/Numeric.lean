import KAssetTrader.Library.Decimal
import Mathlib.Data.Int.Log

/-!
Decimals with a fixed number of places, the working context that rounds to a
number of significant digits, and the columns of a database that hold a decimal
of bounded size. A context that keeps `digits` digits computes exactly with
every value that has no more of them, so sums of column values are never
rounded.
-/

namespace KAssetTrader

open Decimal

namespace Decimal

/-- A value that is a whole number of units of the last of `places` places. -/
def HasPlaces (places : ℕ) (x : Decimal) : Prop := ∃ units : ℤ, x = units / 10 ^ places

/-- `quantize(1E-places, rounding=ROUND_HALF_UP)`: a half goes away from zero. -/
def quantizeHalfUp (places : ℕ) (x : Decimal) : Decimal :=
  if 0 ≤ x then (⌊x * 10 ^ places + 1 / 2⌋ : ℤ) / 10 ^ places
  else (⌈x * 10 ^ places - 1 / 2⌉ : ℤ) / 10 ^ places

/-- Rounding to `digits` significant digits, a half to the even one. -/
def roundDigits (digits : ℕ) (x : Decimal) : Decimal :=
  let exponent := Int.log 10 |x| + 1 - digits
  roundHalfEven (x / 10 ^ exponent) * 10 ^ exponent

def Context.digits (digits : ℕ) : Context := ⟨roundDigits digits⟩

/-- `quantize(1E-places)` of a context with so many digits, which raises where the result has
more of them. -/
def quantizeWithin (digits places : ℕ) (x : Decimal) : Except String Decimal :=
  if |quantize places x| * 10 ^ places < 10 ^ digits then .ok (quantize places x)
  else .error "InvalidOperation"

/-- `quantize` with `ROUND_HALF_UP` of a context with so many digits. -/
def quantizeHalfUpWithin (digits places : ℕ) (x : Decimal) : Except String Decimal :=
  if |quantizeHalfUp places x| * 10 ^ places < 10 ^ digits then .ok (quantizeHalfUp places x)
  else .error "InvalidOperation"

theorem quantizeHalfUpWithin_ok {digits places : ℕ} {x y : Decimal}
    (hok : quantizeHalfUpWithin digits places x = .ok y) : y = quantizeHalfUp places x := by
  unfold quantizeHalfUpWithin at hok
  split at hok
  · exact (Except.ok.inj hok).symm
  · cases hok

section Places

variable {places : ℕ} {x y : Decimal}

theorem HasPlaces.zero : HasPlaces places 0 := ⟨0, by simp⟩

section

variable (hx : HasPlaces places x)
include hx

theorem HasPlaces.add (hy : HasPlaces places y) :
    HasPlaces places (x + y) := by
  obtain ⟨m, rfl⟩ := hx
  obtain ⟨n, rfl⟩ := hy
  exact ⟨m + n, by push_cast; rw [add_div]⟩

theorem HasPlaces.neg : HasPlaces places (-x) := by
  obtain ⟨m, rfl⟩ := hx
  exact ⟨-m, by push_cast; rw [neg_div]⟩

theorem HasPlaces.sub (hy : HasPlaces places y) :
    HasPlaces places (x - y) := by
  rw [sub_eq_add_neg]
  exact hx.add hy.neg

theorem HasPlaces.mono {more : ℕ} (hle : places ≤ more) :
    HasPlaces more x := by
  obtain ⟨m, rfl⟩ := hx
  refine ⟨m * 10 ^ (more - places), ?_⟩
  rw [div_eq_div_iff (by positivity) (by positivity)]
  push_cast
  rw [mul_assoc, ← pow_add, Nat.sub_add_cancel hle]

end

theorem quantizeHalfUp_hasPlaces (places : ℕ) (x : Decimal) :
    HasPlaces places (quantizeHalfUp places x) := by
  unfold quantizeHalfUp
  split
  · exact ⟨_, rfl⟩
  · exact ⟨_, rfl⟩

/-- Rounding to places that a value already has changes nothing. -/
theorem HasPlaces.quantizeHalfUp (hx : HasPlaces places x) : quantizeHalfUp places x = x := by
  obtain ⟨m, rfl⟩ := hx
  have hscale : (m : ℚ) / 10 ^ places * 10 ^ places = m := by field_simp
  have hfloor : ⌊(m : ℚ) + 1 / 2⌋ = m := by
    rw [Int.floor_intCast_add]
    norm_num
  have hceil : ⌈(m : ℚ) - 1 / 2⌉ = m := by
    rw [Int.ceil_eq_iff]
    constructor <;> linarith
  simp only [quantizeHalfUp, hscale, hfloor, hceil, ite_self]

/-- Rounding moves a value by half a unit at most. -/
theorem abs_quantizeHalfUp_sub_le (places : ℕ) (x : Decimal) :
    |Decimal.quantizeHalfUp places x - x| ≤ 1 / 2 / 10 ^ places := by
  have hpow : (0 : ℚ) < 10 ^ places := by positivity
  have hclose : ∀ n : ℤ, |(n : ℚ) - x * 10 ^ places| ≤ 1 / 2 →
      |(n : ℚ) / 10 ^ places - x| ≤ 1 / 2 / 10 ^ places := by
    intro n hn
    have hdiff : (n : ℚ) / 10 ^ places - x = (n - x * 10 ^ places) / 10 ^ places := by
      field_simp
    rw [hdiff, abs_div, abs_of_pos hpow]
    exact div_le_div_of_nonneg_right hn hpow.le
  unfold quantizeHalfUp
  split
  · apply hclose
    have hle := Int.floor_le (x * 10 ^ places + 1 / 2)
    have hlt := Int.lt_floor_add_one (x * 10 ^ places + 1 / 2)
    rw [abs_le]
    constructor <;> linarith
  · apply hclose
    have hle := Int.le_ceil (x * 10 ^ places - 1 / 2)
    have hlt := Int.ceil_lt_add_one (x * 10 ^ places - 1 / 2)
    rw [abs_le]
    constructor <;> linarith

theorem quantizeHalfUp_nonneg (hx : 0 ≤ x) : 0 ≤ Decimal.quantizeHalfUp places x := by
  simp only [quantizeHalfUp, hx, if_true]
  have hfloor : 0 ≤ ⌊x * 10 ^ places + 1 / 2⌋ := Int.floor_nonneg.mpr (by positivity)
  positivity

/-- Rounding keeps the order of values that are not negative. -/
theorem quantizeHalfUp_mono (hx : 0 ≤ x) (hle : x ≤ y) :
    Decimal.quantizeHalfUp places x ≤ Decimal.quantizeHalfUp places y := by
  have hpow : (0 : ℚ) < 10 ^ places := by positivity
  simp only [quantizeHalfUp, hx, hx.trans hle, if_true]
  apply div_le_div_of_nonneg_right _ hpow.le
  have hscaled : x * 10 ^ places + 1 / 2 ≤ y * 10 ^ places + 1 / 2 := by gcongr
  exact_mod_cast Int.floor_le_floor hscaled

/-- Rounding keeps a value below a bound that has the places rounded to. -/
theorem quantizeHalfUp_le (hx : 0 ≤ x) (hy : HasPlaces places y) (hle : x ≤ y) :
    Decimal.quantizeHalfUp places x ≤ y := by
  obtain ⟨n, rfl⟩ := hy
  have hpow : (0 : ℚ) < 10 ^ places := by positivity
  simp only [quantizeHalfUp, hx, if_true]
  apply div_le_div_of_nonneg_right _ hpow.le
  have hscaled : x * 10 ^ places ≤ n := (le_div_iff₀ hpow).mp hle
  have hfloor : ⌊x * 10 ^ places + 1 / 2⌋ ≤ n := by
    apply Int.lt_add_one_iff.mp
    apply Int.floor_lt.mpr
    push_cast
    linarith
  exact_mod_cast hfloor

end Places

section Precision

variable {digits places : ℕ} {x y : Decimal}

theorem roundHalfEven_intCast (n : ℤ) : roundHalfEven (n : ℚ) = n := by
  simp [roundHalfEven]

variable (hx : HasPlaces places x) (hsize : |x| * 10 ^ places < 10 ^ digits)
include hx hsize

theorem HasPlaces.roundDigits :
    roundDigits digits x = x := by
  obtain ⟨m, rfl⟩ := hx
  rcases eq_or_ne m 0 with rfl | hm
  · have hzero := roundHalfEven_intCast 0
    push_cast at hzero
    simp [roundDigits, hzero]
  have hpow : (0 : ℚ) < 10 ^ places := by positivity
  have habs : |(m : ℚ) / 10 ^ places| < 10 ^ ((digits : ℤ) - places) := by
    rw [zpow_sub₀ (by norm_num), zpow_natCast, zpow_natCast, lt_div_iff₀ hpow]
    exact hsize
  have hpos : 0 < |(m : ℚ) / 10 ^ places| := by
    have hm' : (m : ℚ) ≠ 0 := by exact_mod_cast hm
    positivity
  have hlog : Int.log 10 |(m : ℚ) / 10 ^ places| < digits - places := by
    have hiff := Int.lt_zpow_iff_log_lt (b := 10) (by norm_num)
      (x := (digits : ℤ) - places) hpos
    exact hiff.mp (by exact_mod_cast habs)
  simp only [roundDigits]
  generalize Int.log 10 |(m : ℚ) / 10 ^ places| = log at hlog
  obtain ⟨extra, hextra⟩ := Int.eq_ofNat_of_zero_le
    (show 0 ≤ -(places : ℤ) - (log + 1 - digits) by omega)
  have hexponent : log + 1 - digits = -(places + extra : ℤ) := by omega
  have hscaled : (m : ℚ) / 10 ^ places / 10 ^ (log + 1 - (digits : ℤ)) =
      ((m * 10 ^ extra : ℤ) : ℚ) := by
    rw [hexponent, zpow_neg, div_inv_eq_mul, zpow_add₀ (by norm_num), zpow_natCast, zpow_natCast]
    push_cast
    field_simp
  rw [hscaled, roundHalfEven_intCast, hexponent, zpow_neg, zpow_add₀ (by norm_num), zpow_natCast,
    zpow_natCast]
  push_cast
  field_simp

theorem Context.digits_round :
    (Context.digits digits).round x = x := hx.roundDigits hsize

end Precision

end Decimal

/-- A value of a column `NUMERIC(precision, scale)`. -/
structure Numeric (precision scale : ℕ) where
  value : Decimal
  places : value.HasPlaces scale
  size : |value| < 10 ^ (precision - scale)

namespace Numeric

variable {precision scale : ℕ}

@[ext] theorem ext {a b : Numeric precision scale} (h : a.value = b.value) : a = b := by
  cases a
  cases b
  simpa using h

instance : DecidableEq (Numeric precision scale) := fun a b =>
  decidable_of_iff (a.value = b.value) ⟨ext, congrArg value⟩

/-- The column value of a number of its smallest units. -/
def ofUnits (units : ℤ) (hsize : |(units / 10 ^ scale : ℚ)| < 10 ^ (precision - scale)) :
    Numeric precision scale :=
  ⟨units / 10 ^ scale, ⟨units, rfl⟩, hsize⟩

/-- What a column stores of a decimal: its value at the scale of the column,
unless that is too large. -/
def store (precision scale : ℕ) (x : Decimal) : Option (Numeric precision scale) :=
  if hsize : |x.quantizeHalfUp scale| < 10 ^ (precision - scale) then
    some ⟨x.quantizeHalfUp scale, Decimal.quantizeHalfUp_hasPlaces scale x, hsize⟩
  else none

theorem store_value {x : Decimal} {column : Numeric precision scale}
    (h : store precision scale x = some column) : column.value = x.quantizeHalfUp scale := by
  unfold store at h
  split at h
  · exact congrArg value (Option.some.inj h).symm
  · cases h

theorem store_self (column : Numeric precision scale) :
    store precision scale column.value = some column := by
  have hvalue := column.places.quantizeHalfUp
  unfold store
  split
  next hsize =>
    rw [Option.some.injEq]
    exact ext hvalue
  next hsize =>
    rw [hvalue] at hsize
    exact absurd column.size hsize

end Numeric

end KAssetTrader
