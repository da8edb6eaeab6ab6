import KAssetTrader.Library.Numeric

/-!
Decimal arithmetic in a context whose exponents are bounded. A result above the range
overflows, which raises; one below it loses digits, and in the end all of them, so that a
divisor can become zero. A rounding that leaves anything at all leaves at least half of the
value and at most the double.
-/

namespace KAssetTrader.Decimal

section Rounding

variable {x : Decimal}

theorem roundHalfEven_le_double (hx : 0 ≤ x) : (roundHalfEven x : Decimal) ≤ 2 * x := by
  have hfloor : (0 : ℤ) ≤ ⌊x⌋ := Int.floor_nonneg.mpr hx
  have hle := Int.floor_le x
  have hcast : (0 : ℚ) ≤ ⌊x⌋ := by exact_mod_cast hfloor
  unfold roundHalfEven
  dsimp only
  split_ifs with hbelow habove heven
  · linarith
  · push_cast
    linarith
  · linarith
  · push_cast
    linarith

theorem half_le_roundHalfEven (hx : 0 ≤ x) (h : roundHalfEven x ≠ 0) :
    x / 2 ≤ (roundHalfEven x : Decimal) := by
  have hone : 1 ≤ roundHalfEven x := by
    have hnonneg := roundHalfEven_nonneg hx
    omega
  have hcast : (1 : ℚ) ≤ roundHalfEven x := by exact_mod_cast hone
  have hclose : x - 1 / 2 ≤ (roundHalfEven x : Decimal) := by
    have hlt := Int.lt_floor_add_one x
    have hle := Int.floor_le x
    unfold roundHalfEven
    dsimp only
    split_ifs with hbelow habove heven
    · linarith
    · push_cast
      linarith
    · linarith
    · push_cast
      linarith
  linarith

end Rounding

/-- `Emax` of the default context. -/
def maxExponent : ℤ := 999999

/-- `Etiny` of the default context. -/
def tinyExponent : ℤ := -1000026

/-- The digits of the default context, above its least exponent. -/
def roundInRange (x : Decimal) : Decimal :=
  let exponent := max (Int.log 10 |x| + 1 - 28) tinyExponent
  roundHalfEven (x / 10 ^ exponent) * 10 ^ exponent

/-- The default context; results above its range are told apart by `Overflows`. -/
def Context.inRange : Context := ⟨roundInRange⟩

def Overflows (x : Decimal) : Prop := 10 ^ (maxExponent + 1) ≤ |roundInRange x|

instance : DecidablePred Overflows := fun x =>
  inferInstanceAs (Decidable (10 ^ (maxExponent + 1) ≤ |roundInRange x|))

/-- An operation with this exact result: none where it raises. -/
def inRange? (x : Decimal) : Option Decimal := if Overflows x then none else some (roundInRange x)

/-- A division: none where it raises. -/
def divideInRange? (x y : Decimal) : Option Decimal :=
  if y = 0 then none else inRange? (x / y)

variable {x : Decimal}

theorem inRange?_of (h : ¬ Overflows x) : inRange? x = some (roundInRange x) :=
  if_neg h

theorem inRange?_eq_some {y : Decimal} (h : inRange? x = some y) :
    ¬ Overflows x ∧ y = roundInRange x := by
  unfold inRange? at h
  split at h
  · cases h
  next hfits => exact ⟨hfits, (Option.some.inj h).symm⟩

theorem divideInRange?_eq_some {y z : Decimal} (h : divideInRange? x y = some z) :
    y ≠ 0 ∧ inRange? (x / y) = some z := by
  unfold divideInRange? at h
  split at h
  · cases h
  next hne => exact ⟨hne, h⟩

variable (hx : 0 ≤ x)
include hx

theorem roundInRange_nonneg : 0 ≤ roundInRange x := by
  have hround := roundHalfEven_nonneg
    (div_nonneg hx (zpow_nonneg (by norm_num : (0 : ℚ) ≤ 10)
      (max (Int.log 10 |x| + 1 - 28) tinyExponent)))
  unfold roundInRange
  have hcast : (0 : ℚ) ≤
      roundHalfEven (x / 10 ^ max (Int.log 10 |x| + 1 - 28) tinyExponent) := by
    exact_mod_cast hround
  positivity

theorem roundInRange_le_double : roundInRange x ≤ 2 * x := by
  unfold roundInRange
  dsimp only
  generalize max (Int.log 10 |x| + 1 - 28) tinyExponent = exponent
  have hunit : (0 : ℚ) < 10 ^ exponent := by positivity
  calc (roundHalfEven (x / 10 ^ exponent) : ℚ) * 10 ^ exponent
      ≤ 2 * (x / 10 ^ exponent) * 10 ^ exponent := by
        gcongr
        exact roundHalfEven_le_double (by positivity)
    _ = 2 * x := by rw [mul_assoc, div_mul_cancel₀ x hunit.ne']

theorem half_le_roundInRange (h : roundInRange x ≠ 0) : x / 2 ≤ roundInRange x := by
  unfold roundInRange at h ⊢
  dsimp only at h ⊢
  generalize max (Int.log 10 |x| + 1 - 28) tinyExponent = exponent at h ⊢
  have hunit : (0 : ℚ) < 10 ^ exponent := by positivity
  have hne : roundHalfEven (x / 10 ^ exponent) ≠ 0 := by
    intro hzero
    rw [hzero] at h
    exact h (by push_cast; rw [zero_mul])
  calc x / 2 = x / 10 ^ exponent / 2 * 10 ^ exponent := by field_simp
    _ ≤ (roundHalfEven (x / 10 ^ exponent) : ℚ) * 10 ^ exponent := by
        gcongr
        exact half_le_roundHalfEven (by positivity) hne

theorem not_overflows_of_small (h : x ≤ 10 ^ 9) : ¬ Overflows x := by
  unfold Overflows
  rw [not_le, abs_of_nonneg (roundInRange_nonneg hx)]
  calc roundInRange x ≤ 2 * x := roundInRange_le_double hx
    _ ≤ 2 * 10 ^ 9 := by linarith
    _ < 10 ^ (10 : ℤ) := by norm_num
    _ ≤ 10 ^ (maxExponent + 1) := zpow_le_zpow_right₀ (by norm_num) (by decide)

theorem not_overflows_half (h : ¬ Overflows x) : ¬ Overflows (roundInRange x / 2) := by
  have hnonneg := roundInRange_nonneg hx
  unfold Overflows at h ⊢
  rw [not_le, abs_of_nonneg hnonneg] at h
  rw [not_le, abs_of_nonneg (roundInRange_nonneg (by positivity))]
  calc roundInRange (roundInRange x / 2) ≤ 2 * (roundInRange x / 2) :=
        roundInRange_le_double (by positivity)
    _ = roundInRange x := by ring
    _ < 10 ^ (maxExponent + 1) := h

/-- The middle of two positive values, where it is not lost, is at least an eighth of their
sum. -/
theorem le_middle (h : roundInRange (roundInRange x / 2) ≠ 0) :
    x / 8 ≤ roundInRange (roundInRange x / 2) := by
  have hnonneg := roundInRange_nonneg hx
  have hsum : roundInRange x ≠ 0 := by
    intro hzero
    have hle := roundInRange_le_double (x := roundInRange x / 2) (by positivity)
    have hge := roundInRange_nonneg (x := roundInRange x / 2) (by positivity)
    rw [hzero] at hle hge h
    exact h (by linarith)
  calc x / 8 = x / 2 / 2 / 2 := by ring
    _ ≤ roundInRange x / 2 / 2 := by
        gcongr
        exact half_le_roundInRange hx hsum
    _ ≤ roundInRange (roundInRange x / 2) := half_le_roundInRange (by positivity) h

end KAssetTrader.Decimal
