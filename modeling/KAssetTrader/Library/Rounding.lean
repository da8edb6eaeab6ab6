import KAssetTrader.Library.DecimalText
import KAssetTrader.Library.Precision

/-!
Rounding keeps order: to whole numbers, to places and to significant digits. So
a bound that rounding does not move still bounds the rounded value, a context
adds values that are not negative without hiding that their sum is too large,
and a quantized result stays below any bound with the places it is cut to.
-/

namespace KAssetTrader.Decimal

open Decimal

variable {digits places : ℕ} {x y : Decimal}

theorem roundHalfEven_mono (hle : x ≤ y) : roundHalfEven x ≤ roundHalfEven y := by
  have hfloor : ⌊x⌋ ≤ ⌊y⌋ := Int.floor_le_floor hle
  rcases hfloor.eq_or_lt with heq | hlt
  · have hfraction : x - (⌊y⌋ : ℤ) ≤ y - (⌊y⌋ : ℤ) := by linarith
    unfold roundHalfEven
    simp only [heq]
    split_ifs <;> first | omega | linarith
  · have hx : roundHalfEven x ≤ ⌊x⌋ + 1 := by
      apply roundHalfEven_le
      push_cast
      exact (Int.lt_floor_add_one x).le
    have hy : ⌊y⌋ ≤ roundHalfEven y := le_roundHalfEven (Int.floor_le y)
    omega

theorem HasPlaces.quantize (hx : HasPlaces places x) : quantize places x = x := by
  obtain ⟨m, rfl⟩ := hx
  have hscale : (m : ℚ) / 10 ^ places * 10 ^ places = m := by field_simp
  rw [quantize, hscale, roundHalfEven_intCast]

theorem quantize_mono (hle : x ≤ y) : Decimal.quantize places x ≤ Decimal.quantize places y := by
  unfold quantize
  have hscaled : x * 10 ^ places ≤ y * 10 ^ places := by gcongr
  have hround : (roundHalfEven (x * 10 ^ places) : ℚ) ≤ roundHalfEven (y * 10 ^ places) := by
    exact_mod_cast roundHalfEven_mono hscaled
  gcongr

theorem quantize_le (hy : HasPlaces places y) (hle : x ≤ y) : Decimal.quantize places x ≤ y := by
  have hmono : quantize places x ≤ quantize places y := quantize_mono hle
  rwa [hy.quantize] at hmono

theorem le_quantize (hx : HasPlaces places x) (hle : x ≤ y) : x ≤ Decimal.quantize places y := by
  have hmono : quantize places x ≤ quantize places y := quantize_mono hle
  rwa [hx.quantize] at hmono

private theorem log_bounds (hx : 0 < x) :
    (10 : ℚ) ^ Int.log 10 x ≤ x ∧ x < (10 : ℚ) ^ (Int.log 10 x + 1) := by
  constructor
  · exact_mod_cast Int.zpow_log_le_self (b := 10) (by norm_num) hx
  · exact_mod_cast Int.lt_zpow_succ_log_self (b := 10) (by norm_num) x

/-- A rounded value stays in the decade of the value. -/
private theorem roundDigits_decade (hdigits : 0 < digits) (hx : 0 < x) :
    (10 : ℚ) ^ Int.log 10 x ≤ roundDigits digits x ∧
      roundDigits digits x ≤ (10 : ℚ) ^ (Int.log 10 x + 1) := by
  obtain ⟨hlow, hhigh⟩ := log_bounds hx
  simp only [roundDigits, abs_of_pos hx]
  generalize hlog : Int.log 10 x = k at hlow hhigh
  have hunit : (0 : ℚ) < 10 ^ (k + 1 - digits : ℤ) := by positivity
  have hjoin (n : ℕ) : ((10 ^ n : ℤ) : ℚ) * 10 ^ (k + 1 - digits : ℤ) =
      10 ^ (n + (k + 1 - digits) : ℤ) := by
    push_cast
    rw [zpow_add₀ (by norm_num), zpow_natCast]
  have hfirst : ((digits - 1 : ℕ) : ℤ) + (k + 1 - digits) = k := by omega
  have hlast : (digits : ℤ) + (k + 1 - digits) = k + 1 := by omega
  constructor
  · have hint : (10 ^ (digits - 1) : ℤ) ≤ roundHalfEven (x / 10 ^ (k + 1 - digits : ℤ)) := by
      apply le_roundHalfEven
      rwa [le_div_iff₀ hunit, hjoin, hfirst]
    calc
      (10 : ℚ) ^ k = ((10 ^ (digits - 1) : ℤ) : ℚ) * 10 ^ (k + 1 - digits : ℤ) := by
        rw [hjoin, hfirst]
      _ ≤ _ := by
        have hcast : ((10 ^ (digits - 1) : ℤ) : ℚ) ≤
            roundHalfEven (x / 10 ^ (k + 1 - digits : ℤ)) := by exact_mod_cast hint
        gcongr
  · have hint : roundHalfEven (x / 10 ^ (k + 1 - digits : ℤ)) ≤ (10 ^ digits : ℤ) := by
      apply roundHalfEven_le
      rw [div_le_iff₀ hunit, hjoin, hlast]
      exact hhigh.le
    calc
      _ ≤ ((10 ^ digits : ℤ) : ℚ) * 10 ^ (k + 1 - digits : ℤ) := by
        have hcast : (roundHalfEven (x / 10 ^ (k + 1 - digits : ℤ)) : ℚ) ≤
            ((10 ^ digits : ℤ) : ℚ) := by exact_mod_cast hint
        gcongr
      _ = (10 : ℚ) ^ (k + 1) := by rw [hjoin, hlast]

theorem roundDigits_mono (hdigits : 0 < digits) (hx : 0 ≤ x) (hle : x ≤ y) :
    roundDigits digits x ≤ roundDigits digits y := by
  rcases (hx.trans hle).eq_or_lt with hy | hy
  · obtain rfl : x = y := le_antisymm hle (hy ▸ hx)
    exact le_rfl
  rcases hx.eq_or_lt with rfl | hx
  · rw [roundDigits_zero]
    exact (by positivity : (0 : ℚ) ≤ _).trans (roundDigits_decade hdigits hy).1
  rcases (Int.log_mono_right hx hle : Int.log 10 x ≤ Int.log 10 y).eq_or_lt with heq | hlt
  · simp only [roundDigits, abs_of_pos hx, abs_of_pos hy, heq]
    have hunit : (0 : ℚ) < 10 ^ (Int.log 10 y + 1 - digits : ℤ) := by positivity
    have hscaled : x / 10 ^ (Int.log 10 y + 1 - digits : ℤ) ≤
        y / 10 ^ (Int.log 10 y + 1 - digits : ℤ) := by gcongr
    have hround := roundHalfEven_mono hscaled
    have hcast : (roundHalfEven (x / 10 ^ (Int.log 10 y + 1 - digits : ℤ)) : ℚ) ≤
        roundHalfEven (y / 10 ^ (Int.log 10 y + 1 - digits : ℤ)) := by exact_mod_cast hround
    gcongr
  · calc
      roundDigits digits x ≤ (10 : ℚ) ^ (Int.log 10 x + 1) := (roundDigits_decade hdigits hx).2
      _ ≤ (10 : ℚ) ^ Int.log 10 y := zpow_le_zpow_right₀ (by norm_num) hlt
      _ ≤ roundDigits digits y := (roundDigits_decade hdigits hy).1

theorem roundHalfEven_neg (x : Decimal) : roundHalfEven (-x) = -roundHalfEven x := by
  have hfloor := Int.floor_le x
  have hceil := Int.lt_floor_add_one x
  rcases hfloor.eq_or_lt with hwhole | hfraction
  · rw [← hwhole, roundHalfEven_intCast, ← Int.cast_neg, roundHalfEven_intCast]
  have hneg : ⌊-x⌋ = -⌊x⌋ - 1 := by
    rw [Int.floor_eq_iff]
    push_cast
    constructor <;> linarith
  unfold roundHalfEven
  simp only [hneg]
  push_cast
  split_ifs <;> first | omega | linarith

theorem roundDigits_neg (digits : ℕ) (x : Decimal) :
    roundDigits digits (-x) = -roundDigits digits x := by
  simp only [roundDigits, abs_neg, neg_div, roundHalfEven_neg, Int.cast_neg, neg_mul]

theorem roundDigits_monotone (hdigits : 0 < digits) (hle : x ≤ y) :
    roundDigits digits x ≤ roundDigits digits y := by
  rcases le_or_gt 0 x with hx | hx
  · exact roundDigits_mono hdigits hx hle
  have hnegx : roundDigits digits x = -roundDigits digits (-x) := by
    rw [roundDigits_neg, neg_neg]
  rcases le_or_gt 0 y with hy | hy
  · have hlow := roundDigits_mono (x := 0) hdigits le_rfl (neg_nonneg.mpr hx.le)
    have hhigh := roundDigits_mono hdigits le_rfl hy
    rw [roundDigits_zero] at hlow hhigh
    rw [hnegx]
    linarith
  · have hnegy : roundDigits digits y = -roundDigits digits (-y) := by
      rw [roundDigits_neg, neg_neg]
    rw [hnegx, hnegy]
    exact neg_le_neg (roundDigits_mono hdigits (neg_nonneg.mpr hy.le) (neg_le_neg hle))

/-- A context that rounds to the numbers it holds: in order, once and for all, by the
fraction `u` of a value at most, and no whole number that this fraction cannot move. -/
structure Context.Rounds (ctx : Context) (u : Decimal) : Prop extends ctx.Within u where
  monotone : Monotone ctx.round
  idem : ∀ x, ctx.round (ctx.round x) = ctx.round x
  whole : ∀ m : ℤ, |(m : Decimal)| * u < 1 → ctx.round m = m

theorem Context.exact_rounds : Context.exact.Rounds 0 where
  nonneg := le_rfl
  small := by norm_num
  close x := by simp [Context.exact]
  monotone _ _ hle := hle
  idem _ := rfl
  whole _ _ := rfl

theorem Context.digits_rounds (hdigits : 3 ≤ digits) :
    (Context.digits digits).Rounds (10 ^ (1 - digits : ℤ) / 2) where
  toWithin := Context.digits_within hdigits
  monotone _ _ hle := roundDigits_monotone (by omega) hle
  idem x := by
    have hdigits : 0 < digits := by omega
    calc
      roundDigits digits (roundDigits digits x) =
          (rounded digits (roundDigits digits x)).value := (value_rounded hdigits).symm
      _ = (rounded digits x).value := by rw [rounded_roundDigits hdigits]
      _ = roundDigits digits x := value_rounded hdigits
  whole m hm := by
    have hplaces : HasPlaces 0 (m : Decimal) := ⟨m, by simp⟩
    apply Context.digits_round hplaces
    have hjoin : (10 : ℚ) ^ digits * 10 ^ (1 - digits : ℤ) = 10 := by
      rw [← zpow_natCast, ← zpow_add₀ (by norm_num)]
      norm_num
    have hunit : (0 : ℚ) < 10 ^ (1 - digits : ℤ) := by positivity
    rw [pow_zero, mul_one]
    by_contra hlarge
    have hscaled : (10 : ℚ) ^ digits * 10 ^ (1 - digits : ℤ) ≤
        |(m : ℚ)| * 10 ^ (1 - digits : ℤ) := by
      gcongr
      exact not_lt.mp hlarge
    linarith

/-- A sum that the digits hold, with all its parts of one sign, is not rounded. -/
theorem Context.digits_sum {values : List Decimal} (hplaces : ∀ v ∈ values, HasPlaces places v)
    (hsize : (values.map (|·|)).sum * 10 ^ places < 10 ^ digits) :
    (Context.digits digits).sum values = values.sum ∧ HasPlaces places values.sum := by
  suffices hfrom : ∀ start : Decimal, HasPlaces places start →
      (|start| + (values.map (|·|)).sum) * 10 ^ places < 10 ^ digits →
      values.foldl (Context.digits digits).add start = start + values.sum ∧
        HasPlaces places (start + values.sum) by
    have hzero := hfrom 0 HasPlaces.zero (by simpa using hsize)
    rw [zero_add] at hzero
    exact hzero
  clear hsize
  induction values with
  | nil =>
    intro start hstart _
    rw [List.sum_nil, add_zero]
    exact ⟨rfl, hstart⟩
  | cons v rest ih =>
    intro start hstart hsize
    rw [List.map_cons, List.sum_cons] at hsize
    have hv := hstart.add (hplaces v List.mem_cons_self)
    have hrest : 0 ≤ (rest.map (|·|)).sum :=
      List.sum_nonneg (List.forall_mem_map.mpr fun _ _ => abs_nonneg _)
    have hadd := abs_add_le start v
    have hpow : (0 : ℚ) < 10 ^ places := by positivity
    have hround : (Context.digits digits).add start v = start + v :=
      digits_round hv (by nlinarith)
    rw [List.foldl_cons, hround, List.sum_cons, ← add_assoc]
    exact ih (fun w hw => hplaces w (List.mem_cons_of_mem v hw)) (start + v) hv (by nlinarith)

section Rounds

variable {ctx : Context} {u : Decimal} (h : ctx.Rounds u)
include h

theorem Context.Rounds.round_zero : ctx.round 0 = 0 := by
  simpa using h.whole 0 (by simp)

theorem Context.Rounds.natCast {n : ℕ} (hn : n * u < 1) : ctx.round n = n := by
  simpa using h.whole n (by simpa using hn)

end Rounds

end KAssetTrader.Decimal
