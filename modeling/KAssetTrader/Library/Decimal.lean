import Mathlib.Data.Rat.Floor
import Mathlib.Tactic

/-!
Finite decimals and the context that rounds their arithmetic. Comparisons,
`max`, `min` and unary negation by zero never round; every sum, difference,
product and quotient is the rounded exact result. Nothing is assumed of the
rounding, so a result that quantifies over contexts holds of the working
precision as well as of exact arithmetic.
-/

namespace KAssetTrader

abbrev Decimal := ℚ

/-- An instant, in microseconds, on the UTC time line. -/
abbrev Instant := ℤ

/-- A `datetime` argument, with or without a time zone. -/
inductive Datetime where
  | naive (localTime : ℤ)
  | aware (instant : Instant)
  deriving DecidableEq

namespace Decimal

structure Context where
  round : ℚ → ℚ

namespace Context

def exact : Context := ⟨id⟩

def add (ctx : Context) (a b : Decimal) : Decimal := ctx.round (a + b)

def sub (ctx : Context) (a b : Decimal) : Decimal := ctx.round (a - b)

def mul (ctx : Context) (a b : Decimal) : Decimal := ctx.round (a * b)

def div (ctx : Context) (a b : Decimal) : Decimal := ctx.round (a / b)

/-- `sum(values, start)`: one rounded addition for each value. -/
def sum (ctx : Context) (values : List Decimal) : Decimal :=
  values.foldl ctx.add 0

@[simp] theorem exact_add (a b : Decimal) : exact.add a b = a + b := rfl

@[simp] theorem exact_sub (a b : Decimal) : exact.sub a b = a - b := rfl

@[simp] theorem exact_mul (a b : Decimal) : exact.mul a b = a * b := rfl

@[simp] theorem exact_div (a b : Decimal) : exact.div a b = a / b := rfl

end Context

/-- `to_integral_value(rounding=ROUND_DOWN)`: the integer part, toward zero. -/
def truncate (x : Decimal) : Decimal :=
  if 0 ≤ x then (⌊x⌋ : ℤ) else (⌈x⌉ : ℤ)

def roundHalfEven (x : Decimal) : ℤ :=
  let fraction := x - (⌊x⌋ : ℤ)
  if fraction < 1 / 2 then ⌊x⌋
  else if 1 / 2 < fraction then ⌊x⌋ + 1
  else if ⌊x⌋ % 2 = 0 then ⌊x⌋ else ⌊x⌋ + 1

/-- `quantize(1E-places, rounding=ROUND_HALF_EVEN)`. -/
def quantize (places : ℕ) (x : Decimal) : Decimal :=
  roundHalfEven (x * 10 ^ places) / 10 ^ places

theorem roundHalfEven_nonneg {x : Decimal} (hx : 0 ≤ x) : 0 ≤ roundHalfEven x := by
  have hfloor : 0 ≤ ⌊x⌋ := Int.floor_nonneg.mpr hx
  unfold roundHalfEven
  dsimp only
  split_ifs <;> omega

theorem truncate_nonneg {x : Decimal} (hx : 0 ≤ x) : 0 ≤ truncate x := by
  have hfloor : (0 : ℤ) ≤ ⌊x⌋ := Int.floor_nonneg.mpr hx
  simp only [truncate, hx, if_true]
  exact_mod_cast hfloor

theorem truncate_le {x : Decimal} (hx : 0 ≤ x) : truncate x ≤ x := by
  simp only [truncate, hx, if_true]
  exact Int.floor_le x

end Decimal

end KAssetTrader
