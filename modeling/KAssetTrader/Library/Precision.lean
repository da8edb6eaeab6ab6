import KAssetTrader.Library.Numeric

/-!
Whole lots and significant digits. Rounding a quantity down to a whole number of lots gives
the greatest multiple of the lot that does not exceed it. A context that keeps a number of
significant digits moves no result by more than half a unit of its last digit, so the whole
lots that an amount pays for are bounded as in exact arithmetic, up to a few of these errors.
-/

namespace KAssetTrader.Decimal

section Floor

/-- The whole lots of a quantity: `(quantity / lot).to_integral_value(ROUND_DOWN) * lot`. -/
def floorTo (lot quantity : Decimal) : Decimal := truncate (quantity / lot) * lot

variable {lot quantity other : Decimal}

variable {x : Decimal}

theorem truncate_eq_natCast (hx : 0 ≤ x) : ∃ n : ℕ, truncate x = n := by
  refine ⟨⌊x⌋.toNat, ?_⟩
  have hfloor : (0 : ℤ) ≤ ⌊x⌋ := Int.floor_nonneg.mpr hx
  simp only [truncate, hx, if_true]
  exact_mod_cast (Int.toNat_of_nonneg hfloor).symm

theorem lt_truncate_add_one (hx : 0 ≤ x) : x < truncate x + 1 := by
  simp only [truncate, hx, if_true]
  exact Int.lt_floor_add_one x

theorem natCast_le_truncate {n : ℕ} (hn : (n : Decimal) ≤ x) :
    (n : Decimal) ≤ truncate x := by
  have hx : 0 ≤ x := (Nat.cast_nonneg n).trans hn
  have hfloor : (n : ℤ) ≤ ⌊x⌋ := Int.le_floor.mpr (by exact_mod_cast hn)
  simp only [truncate, hx, if_true]
  exact_mod_cast hfloor

theorem truncate_nonpos (hx : x ≤ 0) : truncate x ≤ 0 := by
  unfold truncate
  split
  next hnonneg =>
    rw [le_antisymm hx hnonneg]
    simp
  · exact_mod_cast Int.ceil_nonpos.mpr hx

variable (hlot : 0 < lot)
include hlot

theorem floorTo_nonpos (hquantity : quantity ≤ 0) :
    floorTo lot quantity ≤ 0 :=
  mul_nonpos_of_nonpos_of_nonneg
    (truncate_nonpos (div_nonpos_of_nonpos_of_nonneg hquantity hlot.le)) hlot.le

theorem floorTo_le (hquantity : 0 ≤ quantity) :
    floorTo lot quantity ≤ quantity := by
  have hratio : 0 ≤ quantity / lot := div_nonneg hquantity hlot.le
  calc
    floorTo lot quantity ≤ quantity / lot * lot :=
      mul_le_mul_of_nonneg_right (truncate_le hratio) hlot.le
    _ = quantity := div_mul_cancel₀ quantity hlot.ne'

theorem lt_floorTo_add (hquantity : 0 ≤ quantity) :
    quantity < floorTo lot quantity + lot := by
  have hratio : 0 ≤ quantity / lot := div_nonneg hquantity hlot.le
  calc
    quantity = quantity / lot * lot := (div_mul_cancel₀ quantity hlot.ne').symm
    _ < (truncate (quantity / lot) + 1) * lot :=
      mul_lt_mul_of_pos_right (lt_truncate_add_one hratio) hlot
    _ = floorTo lot quantity + lot := by
      unfold floorTo
      ring

theorem floorTo_eq_natCast_mul (hquantity : 0 ≤ quantity) :
    ∃ n : ℕ, floorTo lot quantity = n * lot := by
  obtain ⟨n, hn⟩ := truncate_eq_natCast (div_nonneg hquantity hlot.le)
  exact ⟨n, by rw [floorTo, hn]⟩

theorem natCast_mul_le_floorTo {n : ℕ} (hn : n * lot ≤ quantity) :
    n * lot ≤ floorTo lot quantity := by
  have hratio : (n : Decimal) ≤ quantity / lot := (le_div_iff₀ hlot).mpr hn
  exact mul_le_mul_of_nonneg_right (natCast_le_truncate hratio) hlot.le

theorem floorTo_mono (hquantity : 0 ≤ quantity) (hle : quantity ≤ other) :
    floorTo lot quantity ≤ floorTo lot other := by
  obtain ⟨n, hn⟩ := floorTo_eq_natCast_mul hlot hquantity
  rw [hn]
  apply natCast_mul_le_floorTo hlot
  rw [← hn]
  exact (floorTo_le hlot hquantity).trans hle

end Floor

/-- No rounding moves a value by more than the fraction `u` of it. -/
structure Context.Within (ctx : Context) (u : Decimal) : Prop where
  nonneg : 0 ≤ u
  small : u ≤ 1 / 100
  close : ∀ x, |ctx.round x - x| ≤ u * |x|

theorem abs_roundHalfEven_sub_le (x : Decimal) : |(roundHalfEven x : Decimal) - x| ≤ 1 / 2 := by
  have hfloor := Int.floor_le x
  have hceil := Int.lt_floor_add_one x
  simp only [roundHalfEven]
  split_ifs with hbelow habove heven
  · rw [abs_le]
    constructor <;> linarith
  · push_cast
    rw [abs_le]
    constructor <;> linarith
  · rw [abs_le]
    constructor <;> linarith
  · push_cast
    rw [abs_le]
    constructor <;> linarith

/-- Rounding to significant digits moves a value by half a unit of the last digit at most. -/
theorem abs_roundDigits_sub_le (digits : ℕ) (x : Decimal) :
    |roundDigits digits x - x| ≤ 10 ^ (1 - digits : ℤ) / 2 * |x| := by
  rcases eq_or_ne x 0 with rfl | hx
  · have hzero := roundHalfEven_intCast 0
    push_cast at hzero
    simp [roundDigits, hzero]
  have hpos : 0 < |x| := abs_pos.mpr hx
  have hunit : (0 : ℚ) < 10 ^ (Int.log 10 |x| + 1 - digits : ℤ) := by positivity
  have hlog : (10 : ℚ) ^ Int.log 10 |x| ≤ |x| := by
    exact_mod_cast Int.zpow_log_le_self (b := 10) (by norm_num) hpos
  have hscaled : roundDigits digits x - x =
      (roundHalfEven (x / 10 ^ (Int.log 10 |x| + 1 - digits : ℤ)) -
        x / 10 ^ (Int.log 10 |x| + 1 - digits : ℤ)) *
          10 ^ (Int.log 10 |x| + 1 - digits : ℤ) := by
    rw [sub_mul, div_mul_cancel₀ x hunit.ne', roundDigits]
  have hsplit : (10 : ℚ) ^ (Int.log 10 |x| + 1 - digits : ℤ) =
      10 ^ Int.log 10 |x| * 10 ^ (1 - digits : ℤ) := by
    rw [← zpow_add₀ (by norm_num), add_sub_assoc]
  rw [hscaled, abs_mul, abs_of_pos hunit]
  calc
    _ ≤ 1 / 2 * (10 : ℚ) ^ (Int.log 10 |x| + 1 - digits : ℤ) :=
      mul_le_mul_of_nonneg_right (abs_roundHalfEven_sub_le _) hunit.le
    _ = 10 ^ (1 - digits : ℤ) / 2 * 10 ^ Int.log 10 |x| := by
      rw [hsplit]
      ring
    _ ≤ 10 ^ (1 - digits : ℤ) / 2 * |x| := by gcongr

theorem Context.digits_within {digits : ℕ} (hdigits : 3 ≤ digits) :
    (Context.digits digits).Within (10 ^ (1 - digits : ℤ) / 2) where
  nonneg := by positivity
  small := by
    have hle : (10 : ℚ) ^ (1 - digits : ℤ) ≤ 10 ^ (-2 : ℤ) :=
      zpow_le_zpow_right₀ (by norm_num) (by omega)
    norm_num at hle ⊢
    linarith
  close := abs_roundDigits_sub_le digits

section Bounds

variable {ctx : Context} {u x : Decimal}

variable (h : ctx.Within u)
include h

theorem Context.Within.round_le (hx : 0 ≤ x) :
    ctx.round x ≤ (1 + u) * x := by
  have hclose := (abs_le.mp (h.close x)).2
  rw [abs_of_nonneg hx] at hclose
  linarith

theorem Context.Within.le_round (hx : 0 ≤ x) :
    (1 - u) * x ≤ ctx.round x := by
  have hclose := (abs_le.mp (h.close x)).1
  rw [abs_of_nonneg hx] at hclose
  linarith

theorem Context.Within.one_sub_pos : 0 < 1 - u := by
  have hsmall := h.small
  norm_num at hsmall
  linarith

theorem Context.Within.round_nonneg (hx : 0 ≤ x) : 0 ≤ ctx.round x :=
  (mul_nonneg h.one_sub_pos.le hx).trans (h.le_round hx)

theorem Context.Within.neg_le_round {debt : Decimal} (hdebt : 0 ≤ debt) (hx : -debt ≤ x) :
    -((1 + u) * debt) ≤ ctx.round x := by
  have hu : 0 ≤ u := h.nonneg
  rcases le_or_gt 0 x with hnonneg | hneg
  · have hproduct : 0 ≤ (1 + u) * debt := by positivity
    exact (neg_nonpos.mpr hproduct).trans (h.round_nonneg hnonneg)
  · have hclose := (abs_le.mp (h.close x)).1
    rw [abs_of_neg hneg] at hclose
    nlinarith

theorem Context.Within.round_pos (hx : 0 < x) : 0 < ctx.round x :=
  (mul_pos h.one_sub_pos hx).trans_le (by linarith [h.le_round hx.le])

theorem Context.Within.round_nonpos (hx : x ≤ 0) : ctx.round x ≤ 0 := by
  have hclose := (abs_le.mp (h.close x)).2
  have hpos := h.one_sub_pos
  rw [abs_of_nonpos hx] at hclose
  nlinarith

theorem Context.Within.pos_of_round_pos (hx : 0 < ctx.round x) : 0 < x := by
  by_contra hnot
  exact absurd (h.round_nonpos (not_lt.mp hnot)) (not_le.mpr hx)

end Bounds

variable {ctx : Context} {u amount price lot : Decimal}

/-- The whole lots that an amount pays for at a price:
`(amount / price / lot).to_integral_value(ROUND_DOWN)`. -/
def Context.lotsFor (ctx : Context) (amount price lot : Decimal) : Decimal :=
  truncate (ctx.div (ctx.div amount price) lot)

theorem Context.Within.lotsFor_nonneg (h : ctx.Within u) (hamount : 0 ≤ amount)
    (hprice : 0 < price) (hlot : 0 < lot) : 0 ≤ ctx.lotsFor amount price lot :=
  truncate_nonneg (h.round_nonneg
    (div_nonneg (h.round_nonneg (div_nonneg hamount hprice.le)) hlot.le))

theorem Context.Within.amount_pos (h : ctx.Within u) (hprice : 0 < price) (hlot : 0 < lot)
    (hpos : 0 < ctx.lotsFor amount price lot) : 0 < amount := by
  have hlots : 0 < ctx.div (ctx.div amount price) lot := by
    by_contra hnot
    exact absurd (truncate_nonpos (not_lt.mp hnot)) (not_le.mpr hpos)
  have hshare : 0 < ctx.div amount price :=
    (div_pos_iff_of_pos_right hlot).mp (h.pos_of_round_pos hlots)
  exact (div_pos_iff_of_pos_right hprice).mp (h.pos_of_round_pos hshare)

variable (h : ctx.Within u) (hamount : 0 ≤ amount) (hprice : 0 < price) (hlot : 0 < lot)
include h hamount hprice hlot

theorem Context.Within.lotsFor_cost :
    ctx.lotsFor amount price lot * lot * price ≤ (1 + u) ^ 2 * amount := by
  have hshare : 0 ≤ amount / price := div_nonneg hamount hprice.le
  have hfirst : ctx.div amount price ≤ (1 + u) * (amount / price) := h.round_le hshare
  have hfirstNonneg : 0 ≤ ctx.div amount price := h.round_nonneg hshare
  have hratio : 0 ≤ ctx.div amount price / lot := div_nonneg hfirstNonneg hlot.le
  have hsecond : ctx.div (ctx.div amount price) lot ≤ (1 + u) * (ctx.div amount price / lot) :=
    h.round_le hratio
  have hu : 0 ≤ 1 + u := add_nonneg zero_le_one h.nonneg
  have hlots : ctx.lotsFor amount price lot ≤ (1 + u) * ((1 + u) * (amount / price) / lot) :=
    calc
      ctx.lotsFor amount price lot ≤ ctx.div (ctx.div amount price) lot :=
        truncate_le (h.round_nonneg hratio)
      _ ≤ (1 + u) * (ctx.div amount price / lot) := hsecond
      _ ≤ (1 + u) * ((1 + u) * (amount / price) / lot) := by gcongr
  calc
    ctx.lotsFor amount price lot * lot * price ≤
        (1 + u) * ((1 + u) * (amount / price) / lot) * lot * price := by gcongr
    _ = (1 + u) ^ 2 * amount := by field_simp

theorem Context.Within.natCast_le_lotsFor {n : ℕ} (hn : n * lot * price ≤ (1 - u) ^ 2 * amount) :
    (n : Decimal) ≤ ctx.lotsFor amount price lot := by
  have hshare : 0 ≤ amount / price := div_nonneg hamount hprice.le
  have hfirst : (1 - u) * (amount / price) ≤ ctx.div amount price := h.le_round hshare
  have hratio : 0 ≤ ctx.div amount price / lot :=
    div_nonneg (h.round_nonneg hshare) hlot.le
  have hsecond : (1 - u) * (ctx.div amount price / lot) ≤ ctx.div (ctx.div amount price) lot :=
    h.le_round hratio
  apply natCast_le_truncate
  calc
    (n : Decimal) = n * lot * price / (lot * price) := by field_simp
    _ ≤ (1 - u) ^ 2 * amount / (lot * price) := by gcongr
    _ = (1 - u) * ((1 - u) * (amount / price) / lot) := by field_simp
    _ ≤ (1 - u) * (ctx.div amount price / lot) := by
      have hpos := h.one_sub_pos
      gcongr
    _ ≤ ctx.div (ctx.div amount price) lot := hsecond

end KAssetTrader.Decimal
