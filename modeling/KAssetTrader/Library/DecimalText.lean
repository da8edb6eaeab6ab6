import KAssetTrader.Library.Numeric

/-!
Decimals as they are printed and read: a sign, a coefficient and an exponent.
Rounding to the digits of a context, dropping trailing zeros and dividing choose
among the numerals of one value, and the two printers show which was chosen.
Reading a plain text gives the value back, whichever numeral it came from.
-/

namespace KAssetTrader.Decimal

structure Numeral where
  negative : Bool
  coefficient : ℕ
  exponent : ℤ
deriving DecidableEq

namespace Numeral

def value (n : Numeral) : Decimal :=
  (if n.negative then -1 else 1) * n.coefficient * 10 ^ n.exponent

def digits (n : Numeral) : List Char := Nat.toDigits 10 n.coefficient

/-- How many digits stand left of the decimal point, when all are written out. -/
def leftDigits (n : Numeral) : ℤ := n.exponent + n.digits.length

def sign (n : Numeral) : List Char := if n.negative then ['-'] else []

/-- Digits with a decimal point after the first `dotplace` of them. -/
def point (digits : List Char) (dotplace : ℤ) : List Char :=
  if dotplace ≤ 0 then '0' :: '.' :: (List.replicate (-dotplace).toNat '0' ++ digits)
  else if (digits.length : ℤ) ≤ dotplace then
    digits ++ List.replicate (dotplace.toNat - digits.length) '0'
  else digits.take dotplace.toNat ++ '.' :: digits.drop dotplace.toNat

/-- `format(n, "f")`. -/
def plain (n : Numeral) : List Char := n.sign ++ point n.digits n.leftDigits

/-- `str(n)`: an exponent is written when the exponent is positive or the first
digit lies more than six places after the point. -/
def scientific (n : Numeral) : List Char :=
  if n.exponent ≤ 0 ∧ -6 < n.leftDigits then n.plain
  else
    let shift := n.leftDigits - 1
    n.sign ++ point n.digits 1 ++
      'E' :: (if 0 ≤ shift then '+' else '-') :: Nat.toDigits 10 shift.natAbs

/-- Drops trailing zeros of the coefficient, at most `limit` of them. -/
def strip : ℕ → Numeral → Numeral
  | 0, n => n
  | limit + 1, n =>
    if n.coefficient % 10 = 0 then strip limit ⟨n.negative, n.coefficient / 10, n.exponent + 1⟩
    else n

end Numeral

/-- A value rounded to exactly `digits` significant digits, a half to the even one. -/
def rounded (digits : ℕ) (x : Decimal) : Numeral :=
  let exponent := Int.log 10 |x| + 1 - digits
  let coefficient := (roundHalfEven (x / 10 ^ exponent)).natAbs
  if coefficient = 10 ^ digits then ⟨decide (x < 0), 10 ^ (digits - 1), exponent + 1⟩
  else ⟨decide (x < 0), coefficient, exponent⟩

/-- `normalize()` in a context of `digits` digits. -/
def normalize (digits : ℕ) (x : Decimal) : Numeral :=
  if x = 0 then ⟨false, 0, 0⟩ else (rounded digits x).strip digits

/-- The quotient of two integers in a context of `digits` digits: an exact
quotient takes the exponent nearest to zero, any other all the digits. -/
def quotient (digits a b : ℕ) : Numeral :=
  let n := rounded digits (a / b)
  if n.value = a / b then n.strip (-n.exponent).toNat else n

def readInteger (text : List Char) : Option ℤ :=
  let (positive, body) := match text with
    | '-' :: rest => (false, rest)
    | '+' :: rest => (true, rest)
    | rest => (true, rest)
  if body = [] ∨ ¬ body.all Char.isDigit then none
  else some ((if positive then 1 else -1) * Nat.ofDigitChars 10 body 0)

/-- `Decimal(text)` on an unsigned text: digits, an optional fraction and an
optional exponent. -/
def readUnsigned (body : List Char) : Option Decimal :=
  let whole := body.takeWhile Char.isDigit
  let (fraction, rest) := match body.dropWhile Char.isDigit with
    | '.' :: rest => (rest.takeWhile Char.isDigit, rest.dropWhile Char.isDigit)
    | rest => ([], rest)
  let exponent := match rest with
    | [] => some 0
    | mark :: rest => if mark = 'e' ∨ mark = 'E' then readInteger rest else none
  if whole ++ fraction = [] then none
  else exponent.map fun exponent =>
    (Nat.ofDigitChars 10 (whole ++ fraction) 0 : ℚ) * 10 ^ (exponent - (fraction.length : ℤ))

/-- `Decimal(text)`, for the texts of finite decimals. -/
def read : List Char → Option Decimal
  | '-' :: rest => (readUnsigned rest).map (- ·)
  | '+' :: rest => readUnsigned rest
  | rest => readUnsigned rest

section Strip

variable {n : Numeral} {limit : ℕ}

/-- What stripping drops is a power of ten, and it stops early only at a digit
that is not zero. -/
theorem Numeral.strip_spec (limit : ℕ) (n : Numeral) : ∃ dropped ≤ limit,
    n.coefficient = (n.strip limit).coefficient * 10 ^ dropped ∧
    (n.strip limit).exponent = n.exponent + dropped ∧
    (n.strip limit).negative = n.negative ∧
    (dropped = limit ∨ (n.strip limit).coefficient % 10 ≠ 0) := by
  induction limit generalizing n with
  | zero => exact ⟨0, le_rfl, by simp [strip], by simp [strip], rfl, Or.inl rfl⟩
  | succ limit ih =>
    unfold strip
    split
    next hzero =>
      obtain ⟨dropped, hle, hcoefficient, hexponent, hnegative, hstop⟩ :=
        ih ⟨n.negative, n.coefficient / 10, n.exponent + 1⟩
      refine ⟨dropped + 1, by omega, ?_, ?_, hnegative, ?_⟩
      · have hdiv : n.coefficient = n.coefficient / 10 * 10 := by omega
        rw [pow_succ, ← mul_assoc, ← hcoefficient]
        exact hdiv
      · rw [hexponent]
        push_cast
        ring
      · rcases hstop with heq | hdigit
        · exact Or.inl (by omega)
        · exact Or.inr hdigit
    next hdigit => exact ⟨0, by omega, by simp, by simp, rfl, Or.inr hdigit⟩

theorem Numeral.value_strip (limit : ℕ) (n : Numeral) : (n.strip limit).value = n.value := by
  obtain ⟨dropped, -, hcoefficient, hexponent, hnegative, -⟩ := n.strip_spec limit
  unfold value
  rw [hnegative, hexponent, hcoefficient, zpow_add₀ (by norm_num), zpow_natCast]
  push_cast
  ring

end Strip

section Rounded

variable {digits : ℕ} {x : Decimal}

theorem le_roundHalfEven {m : ℤ} (hle : (m : ℚ) ≤ x) : m ≤ roundHalfEven x := by
  have hfloor : m ≤ ⌊x⌋ := Int.le_floor.mpr hle
  unfold roundHalfEven
  dsimp only
  split_ifs <;> omega

theorem roundHalfEven_le {m : ℤ} (hle : x ≤ m) : roundHalfEven x ≤ m := by
  have hfloor : ⌊x⌋ ≤ m := by exact_mod_cast (Int.floor_le x).trans hle
  rcases hfloor.eq_or_lt with heq | hlt
  · have hx : x = (m : ℚ) := le_antisymm hle (by rw [← heq]; exact Int.floor_le x)
    rw [hx, roundHalfEven_intCast]
  · unfold roundHalfEven
    dsimp only
    split_ifs <;> omega

/-- The exponent that leaves `digits` digits before the point. -/
private def scale (digits : ℕ) (x : Decimal) : ℤ := Int.log 10 |x| + 1 - digits

private theorem scaled_bounds (hx : x ≠ 0) (hdigits : 0 < digits) :
    (10 : ℚ) ^ (digits - 1) ≤ |x / 10 ^ scale digits x| ∧
      |x / 10 ^ scale digits x| < 10 ^ digits := by
  have hpos : 0 < |x| := abs_pos.mpr hx
  have hscale : (0 : ℚ) < 10 ^ scale digits x := by positivity
  have hlow : (10 : ℚ) ^ Int.log 10 |x| ≤ |x| := by
    exact_mod_cast Int.zpow_log_le_self (b := 10) (by norm_num) hpos
  have hhigh : |x| < (10 : ℚ) ^ (Int.log 10 |x| + 1) := by
    exact_mod_cast Int.lt_zpow_succ_log_self (b := 10) (by norm_num) |x|
  rw [abs_div, abs_of_pos hscale, le_div_iff₀ hscale, div_lt_iff₀ hscale]
  have hjoin (k : ℕ) : (10 : ℚ) ^ k * 10 ^ scale digits x = 10 ^ (k + scale digits x) := by
    rw [zpow_add₀ (by norm_num), zpow_natCast]
  rw [hjoin, hjoin]
  have hfirst : ((digits - 1 : ℕ) : ℤ) + scale digits x = Int.log 10 |x| := by
    unfold scale
    omega
  have hlast : (digits : ℤ) + scale digits x = Int.log 10 |x| + 1 := by
    unfold scale
    omega
  rw [hfirst, hlast]
  exact ⟨hlow, hhigh⟩

private theorem natAbs_roundHalfEven_bounds (hx : x ≠ 0) (hdigits : 0 < digits) :
    10 ^ (digits - 1) ≤ (roundHalfEven (x / 10 ^ scale digits x)).natAbs ∧
      (roundHalfEven (x / 10 ^ scale digits x)).natAbs ≤ 10 ^ digits := by
  obtain ⟨hlow, hhigh⟩ := scaled_bounds hx hdigits
  generalize x / 10 ^ scale digits x = y at hlow hhigh
  have hlow' : ((10 ^ (digits - 1) : ℤ) : ℚ) ≤ |y| := by exact_mod_cast hlow
  have hhigh' : |y| ≤ ((10 ^ digits : ℤ) : ℚ) := by exact_mod_cast hhigh.le
  zify
  rcases le_total 0 y with hy | hy
  · rw [abs_of_nonneg hy] at hlow' hhigh'
    have hfirst := le_roundHalfEven hlow'
    have hsecond := roundHalfEven_le hhigh'
    rw [abs_of_nonneg (le_trans (by positivity) hfirst)]
    exact ⟨hfirst, hsecond⟩
  · rw [abs_of_nonpos hy] at hlow' hhigh'
    have hfirst : roundHalfEven y ≤ -(10 ^ (digits - 1) : ℤ) := by
      apply roundHalfEven_le
      push_cast at hlow' ⊢
      linarith
    have hsecond : -(10 ^ digits : ℤ) ≤ roundHalfEven y := by
      apply le_roundHalfEven
      push_cast at hhigh' ⊢
      linarith
    have hneg : roundHalfEven y ≤ 0 := hfirst.trans (by simp)
    rw [abs_of_nonpos hneg]
    constructor <;> linarith

theorem rounded_bounds (hx : x ≠ 0) (hdigits : 0 < digits) :
    10 ^ (digits - 1) ≤ (rounded digits x).coefficient ∧
      (rounded digits x).coefficient < 10 ^ digits := by
  have hbounds := natAbs_roundHalfEven_bounds hx hdigits
  simp only [scale] at hbounds
  unfold rounded
  dsimp only
  split
  · exact ⟨le_rfl, Nat.pow_lt_pow_right (by norm_num) (by omega)⟩
  next hne => exact ⟨hbounds.1, lt_of_le_of_ne hbounds.2 hne⟩

private theorem signed_natAbs_roundHalfEven (y : Decimal) :
    (if y < 0 then (-1 : ℚ) else 1) * (roundHalfEven y).natAbs = roundHalfEven y := by
  split
  next hy =>
    have hneg : roundHalfEven y ≤ 0 := roundHalfEven_le (by exact_mod_cast hy.le)
    rw [Nat.cast_natAbs, abs_of_nonpos hneg]
    push_cast
    ring
  next hy =>
    have hpos : 0 ≤ roundHalfEven y := le_roundHalfEven (by exact_mod_cast not_lt.mp hy)
    rw [Nat.cast_natAbs, abs_of_nonneg hpos, one_mul]

theorem value_rounded (hdigits : 0 < digits) : (rounded digits x).value = roundDigits digits x := by
  have hscale : (0 : ℚ) < 10 ^ (Int.log 10 |x| + 1 - (digits : ℤ)) := by positivity
  have hsign : (x / 10 ^ (Int.log 10 |x| + 1 - (digits : ℤ)) < 0) ↔ x < 0 := by
    rw [div_lt_iff₀ hscale, zero_mul]
  have hround := signed_natAbs_roundHalfEven (x / 10 ^ (Int.log 10 |x| + 1 - (digits : ℤ)))
  simp only [hsign] at hround
  simp only [roundDigits, ← hround]
  unfold rounded
  dsimp only
  split
  next hcarry =>
    rw [hcarry]
    obtain ⟨k, rfl⟩ := Nat.exists_eq_succ_of_ne_zero hdigits.ne'
    simp only [Numeral.value, decide_eq_true_eq, Nat.succ_eq_add_one, Nat.add_sub_cancel]
    rw [zpow_add_one₀ (by norm_num)]
    push_cast
    ring
  · simp only [Numeral.value, decide_eq_true_eq]

theorem log_value {n : Numeral} (hlow : 10 ^ (digits - 1) ≤ n.coefficient)
    (hhigh : n.coefficient < 10 ^ digits) (hdigits : 0 < digits) :
    Int.log 10 |n.value| = n.exponent + digits - 1 := by
  have habs : |n.value| = n.coefficient * 10 ^ n.exponent := by
    have hpow : (0 : ℚ) < 10 ^ n.exponent := by positivity
    unfold Numeral.value
    rw [abs_mul, abs_mul, abs_of_pos hpow, Nat.abs_cast]
    split <;> simp
  have hpos : 0 < |n.value| := by
    rw [habs]
    have hc : 0 < n.coefficient := lt_of_lt_of_le (by positivity) hlow
    positivity
  apply le_antisymm
  · have hlt : |n.value| < ((10 : ℕ) : ℚ) ^ (n.exponent + digits) := by
      rw [habs, Nat.cast_ofNat, zpow_add₀ (by norm_num), zpow_natCast, mul_comm]
      gcongr
      exact_mod_cast hhigh
    have hlog := (Int.lt_zpow_iff_log_lt (by norm_num) hpos).mp hlt
    omega
  · apply (Int.zpow_le_iff_le_log (by norm_num) hpos).mp
    have hexponent : n.exponent + (digits : ℤ) - 1 = n.exponent + ((digits - 1 : ℕ) : ℤ) := by
      omega
    rw [habs, Nat.cast_ofNat, hexponent, zpow_add₀ (by norm_num), zpow_natCast, mul_comm]
    gcongr
    exact_mod_cast hlow

theorem rounded_value {n : Numeral} (hlow : 10 ^ (digits - 1) ≤ n.coefficient)
    (hhigh : n.coefficient < 10 ^ digits) (hdigits : 0 < digits) : rounded digits n.value = n := by
  have hlog := log_value hlow hhigh hdigits
  have hc : 0 < n.coefficient := lt_of_lt_of_le (by positivity) hlow
  have hpow : (0 : ℚ) < 10 ^ n.exponent := by positivity
  have hexponent : Int.log 10 |n.value| + 1 - (digits : ℤ) = n.exponent := by omega
  have hscaled : n.value / 10 ^ n.exponent =
      (((if n.negative then -1 else 1) * n.coefficient : ℤ) : ℚ) := by
    unfold Numeral.value
    rw [mul_div_assoc, div_self hpow.ne', mul_one]
    push_cast
    split <;> rfl
  have hneg : decide (n.value < 0) = n.negative := by
    unfold Numeral.value
    cases n.negative
    · simp only [Bool.false_eq_true, if_false, decide_eq_false_iff_not, not_lt]
      positivity
    · have hc' : (0 : ℚ) < n.coefficient := by exact_mod_cast hc
      simp only [if_true, decide_eq_true_eq, neg_mul, one_mul]
      exact neg_neg_of_pos (by positivity)
  have hnatAbs : ((if n.negative then (-1 : ℤ) else 1) * n.coefficient).natAbs = n.coefficient := by
    split <;> simp
  unfold rounded
  simp only [hexponent, hscaled, roundHalfEven_intCast, hneg, hnatAbs, hhigh.ne, if_false]

theorem roundDigits_zero (digits : ℕ) : roundDigits digits 0 = 0 := by
  have hzero := roundHalfEven_intCast 0
  push_cast at hzero
  simp [roundDigits, hzero]

variable (hdigits : 0 < digits)
include hdigits

theorem rounded_roundDigits :
    rounded digits (roundDigits digits x) = rounded digits x := by
  rcases eq_or_ne x 0 with rfl | hx
  · rw [roundDigits_zero]
  · obtain ⟨hlow, hhigh⟩ := rounded_bounds hx hdigits
    rw [← value_rounded hdigits]
    exact rounded_value hlow hhigh hdigits

theorem roundDigits_eq_zero : roundDigits digits x = 0 ↔ x = 0 := by
  constructor
  · intro hzero
    by_contra hx
    have hlow := (rounded_bounds hx hdigits).1
    have hc : 0 < (rounded digits x).coefficient := lt_of_lt_of_le (by positivity) hlow
    have hvalue := value_rounded (x := x) hdigits
    rw [hzero] at hvalue
    have hne : (rounded digits x).value ≠ 0 := by
      unfold Numeral.value
      have hc' : ((rounded digits x).coefficient : ℚ) ≠ 0 := by exact_mod_cast hc.ne'
      split <;> simp [hc', zpow_ne_zero]
    exact hne hvalue
  · rintro rfl
    exact roundDigits_zero digits

theorem normalize_roundDigits :
    normalize digits (roundDigits digits x) = normalize digits x := by
  simp only [normalize, roundDigits_eq_zero hdigits, rounded_roundDigits hdigits]

theorem value_normalize :
    (normalize digits x).value = roundDigits digits x := by
  unfold normalize
  split
  next hx =>
    rw [(roundDigits_eq_zero hdigits).mpr hx]
    simp [Numeral.value]
  · rw [Numeral.value_strip, value_rounded hdigits]

end Rounded

section Read

variable {whole fraction : List Char}

private theorem takeWhile_isDigit (rest : List Char) (hwhole : ∀ c ∈ whole, c.isDigit)
    (hrest : ∀ c ∈ rest.head?, ¬ c.isDigit) :
    (whole ++ rest).takeWhile Char.isDigit = whole ∧
      (whole ++ rest).dropWhile Char.isDigit = rest := by
  induction whole with
  | nil =>
    cases rest with
    | nil => simp
    | cons c rest =>
      have hc : ¬ c.isDigit := hrest c (by simp)
      simp [hc]
  | cons c later ih =>
    obtain ⟨hc, hlater⟩ := List.forall_mem_cons.mp hwhole
    obtain ⟨htake, hdrop⟩ := ih hlater
    simp [hc, htake, hdrop]

theorem readUnsigned_whole (hwhole : ∀ c ∈ whole, c.isDigit) (hne : whole ≠ []) :
    readUnsigned whole = some (Nat.ofDigitChars 10 whole 0 : ℚ) := by
  obtain ⟨htake, hdrop⟩ := takeWhile_isDigit [] hwhole (by simp)
  rw [List.append_nil] at htake hdrop
  simp [readUnsigned, htake, hdrop, hne]

theorem readUnsigned_fraction (hwhole : ∀ c ∈ whole, c.isDigit)
    (hfraction : ∀ c ∈ fraction, c.isDigit) (hne : whole ≠ []) :
    readUnsigned (whole ++ '.' :: fraction) =
      some ((Nat.ofDigitChars 10 (whole ++ fraction) 0 : ℚ) * 10 ^ (-(fraction.length : ℤ))) := by
  obtain ⟨htake, hdrop⟩ := takeWhile_isDigit ('.' :: fraction) hwhole (by simp)
  obtain ⟨htake', hdrop'⟩ := takeWhile_isDigit [] hfraction (by simp)
  rw [List.append_nil] at htake' hdrop'
  simp [readUnsigned, htake, hdrop, htake', hdrop', hne]

theorem readUnsigned_point {digits : List Char} (hdigits : ∀ c ∈ digits, c.isDigit)
    (hne : digits ≠ []) (dotplace : ℤ) :
    readUnsigned (Numeral.point digits dotplace) =
      some ((Nat.ofDigitChars 10 digits 0 : ℚ) * 10 ^ (dotplace - (digits.length : ℤ))) := by
  unfold Numeral.point
  split_ifs with hleft hright
  · have hzeros : ∀ c ∈ List.replicate (-dotplace).toNat '0' ++ digits, c.isDigit := by
      intro c hc
      rcases List.mem_append.mp hc with hc | hc
      · rw [List.eq_of_mem_replicate hc]
        rfl
      · exact hdigits c hc
    have hread : readUnsigned (['0'] ++ '.' :: (List.replicate (-dotplace).toNat '0' ++ digits)) =
        _ := readUnsigned_fraction (by simp) hzeros (by simp)
    have hexponent : -(((List.replicate (-dotplace).toNat '0' ++ digits).length : ℕ) : ℤ) =
        dotplace - digits.length := by
      rw [List.length_append, List.length_replicate]
      omega
    have hnumber : Nat.ofDigitChars 10 (['0'] ++ (List.replicate (-dotplace).toNat '0' ++ digits)) 0
        = Nat.ofDigitChars 10 digits 0 := by
      rw [Nat.ofDigitChars_append, Nat.ofDigitChars_append]
      simp [Nat.ofDigitChars_cons]
    rw [hexponent, hnumber] at hread
    exact hread
  · have hzeros : ∀ c ∈ digits ++ List.replicate (dotplace.toNat - digits.length) '0',
        c.isDigit := by
      intro c hc
      rcases List.mem_append.mp hc with hc | hc
      · exact hdigits c hc
      · rw [List.eq_of_mem_replicate hc]
        rfl
    have hexponent : dotplace - digits.length = ((dotplace.toNat - digits.length : ℕ) : ℤ) := by
      omega
    rw [readUnsigned_whole hzeros (by simp [hne]), Nat.ofDigitChars_append,
      Nat.ofDigitChars_replicate_zero, hexponent, zpow_natCast]
    push_cast
    rw [mul_comm]
  · have hplace : 0 < dotplace.toNat := by omega
    have hread : readUnsigned (digits.take dotplace.toNat ++ '.' :: digits.drop dotplace.toNat) =
        _ := readUnsigned_fraction (fun c hc => hdigits c (List.mem_of_mem_take hc))
      (fun c hc => hdigits c (List.mem_of_mem_drop hc)) (by simp [hne, hplace.ne'])
    have hexponent : -(((digits.drop dotplace.toNat).length : ℕ) : ℤ) =
        dotplace - digits.length := by
      rw [List.length_drop]
      omega
    rw [List.take_append_drop, hexponent] at hread
    exact hread

theorem point_head {digits : List Char} (hdigits : ∀ c ∈ digits, c.isDigit) (hne : digits ≠ [])
    (dotplace : ℤ) : ∃ c rest, Numeral.point digits dotplace = c :: rest ∧ c.isDigit := by
  obtain ⟨c, later, rfl⟩ := List.exists_cons_of_ne_nil hne
  have hc : c.isDigit := hdigits c (by simp)
  unfold Numeral.point
  split_ifs with hleft hright
  · exact ⟨'0', _, rfl, rfl⟩
  · exact ⟨c, _, rfl, hc⟩
  · obtain ⟨place, hplace⟩ := Nat.exists_eq_succ_of_ne_zero
      (show dotplace.toNat ≠ 0 by omega)
    rw [hplace]
    exact ⟨c, _, rfl, hc⟩

theorem Numeral.digits_isDigit (n : Numeral) : ∀ c ∈ n.digits, c.isDigit :=
  fun _ hc => Nat.isDigit_of_mem_toDigits (by norm_num) (by norm_num) hc

theorem Numeral.digits_ne_nil (n : Numeral) : n.digits ≠ [] := Nat.toDigits_ne_nil

theorem read_plain (n : Numeral) : read n.plain = some n.value := by
  have hread := readUnsigned_point n.digits_isDigit n.digits_ne_nil n.leftDigits
  have hexponent : n.leftDigits - n.digits.length = n.exponent := by
    unfold Numeral.leftDigits
    omega
  rw [hexponent] at hread
  have hnumber : Nat.ofDigitChars 10 n.digits 0 = n.coefficient := Nat.ofDigitChars_ten_toDigits
  rw [hnumber] at hread
  unfold Numeral.plain Numeral.sign Numeral.value
  cases n.negative
  · obtain ⟨c, rest, hpoint, hc⟩ := point_head n.digits_isDigit n.digits_ne_nil n.leftDigits
    rw [hpoint] at hread ⊢
    have hminus : c ≠ '-' := by
      rintro rfl
      exact absurd hc (by decide)
    have hplus : c ≠ '+' := by
      rintro rfl
      exact absurd hc (by decide)
    simp only [Bool.false_eq_true, if_false, List.nil_append, one_mul]
    rw [read]
    · exact hread
    · simp [hminus]
    · simp [hplus]
  · simp only [if_true, List.cons_append, List.nil_append, read, hread, Option.map_some]
    rw [neg_one_mul, neg_mul]

end Read

variable {digits : ℕ}

theorem toDigits_mul_pow {c : ℕ} (hc : 0 < c) (zeros : ℕ) :
    Nat.toDigits 10 (c * 10 ^ zeros) = Nat.toDigits 10 c ++ List.replicate zeros '0' := by
  induction zeros with
  | zero => simp
  | succ zeros ih =>
    have hjoin := Nat.toDigits_append_toDigits (b := 10) (n := c * 10 ^ zeros) (d := 0)
      (by norm_num) (by positivity) (by norm_num)
    have hmul : c * 10 ^ (zeros + 1) = 10 * (c * 10 ^ zeros) + 0 := by ring
    rw [hmul, ← hjoin, ih, Nat.toDigits_zero, List.append_assoc, List.replicate_succ']

theorem length_toDigits {c : ℕ} (hlow : 10 ^ (digits - 1) ≤ c) (hhigh : c < 10 ^ digits)
    (hdigits : 1 < digits) : (Nat.toDigits 10 c).length = digits := by
  have hle := (Nat.length_toDigits_le_iff (b := 10) (by norm_num) (by omega)).mpr hhigh
  have hge : ¬ (Nat.toDigits 10 c).length ≤ digits - 1 := by
    rw [Nat.length_toDigits_le_iff (by norm_num) (by omega)]
    omega
  omega

theorem length_point (text : List Char) (dotplace : ℤ) :
    ((Numeral.point text dotplace).length : ℤ) =
      if dotplace ≤ 0 then 2 - dotplace + text.length
      else if (text.length : ℤ) ≤ dotplace then dotplace else text.length + 1 := by
  unfold Numeral.point
  split_ifs
  · simp only [List.length_cons, List.length_append, List.length_replicate]
    omega
  · simp only [List.length_append, List.length_replicate]
    omega
  · simp only [List.length_append, List.length_cons, List.length_take, List.length_drop]
    omega

theorem Numeral.mem_plain {n : Numeral} {c : Char} (hc : c ∈ n.plain) :
    c.isDigit ∨ c = '.' ∨ c = '-' := by
  have hzero (k : ℕ) (h : c ∈ List.replicate k '0') : c.isDigit := by
    rw [List.eq_of_mem_replicate h]
    rfl
  rcases List.mem_append.mp hc with hsign | hpoint
  · unfold sign at hsign
    split at hsign
    · exact Or.inr (Or.inr (List.mem_singleton.mp hsign))
    · cases hsign
  · unfold point at hpoint
    split_ifs at hpoint
    · rcases List.mem_cons.mp hpoint with rfl | hpoint
      · exact Or.inl rfl
      rcases List.mem_cons.mp hpoint with rfl | hpoint
      · exact Or.inr (Or.inl rfl)
      rcases List.mem_append.mp hpoint with h | h
      · exact Or.inl (hzero _ h)
      · exact Or.inl (n.digits_isDigit c h)
    · rcases List.mem_append.mp hpoint with h | h
      · exact Or.inl (n.digits_isDigit c h)
      · exact Or.inl (hzero _ h)
    · rcases List.mem_append.mp hpoint with h | hpoint
      · exact Or.inl (n.digits_isDigit c (List.mem_of_mem_take h))
      rcases List.mem_cons.mp hpoint with rfl | h
      · exact Or.inr (Or.inl rfl)
      · exact Or.inl (n.digits_isDigit c (List.mem_of_mem_drop h))

/-- With `zeros` trailing zeros dropped the plain text changes exactly when
some of them stand after the point. -/
theorem point_zeros_iff {text : List Char} (hne : text ≠ []) {exponent : ℤ} (hle : exponent ≤ 0)
    (zeros : ℕ) :
    Numeral.point (text ++ List.replicate zeros '0') (exponent + text.length + zeros) =
      Numeral.point text (exponent + text.length + zeros) ↔ zeros = 0 ∨ exponent = 0 := by
  have hlength : 0 < text.length := List.length_pos_iff.mpr hne
  constructor
  · intro htext
    have hlen := congrArg (fun t => ((List.length t : ℕ) : ℤ)) htext
    simp only [length_point, List.length_append, List.length_replicate] at hlen
    push_cast at hlen
    by_contra hnot
    obtain ⟨hzeros, hexponent⟩ := not_or.mp hnot
    split_ifs at hlen <;> omega
  · rintro (rfl | rfl)
    · simp
    · have hleft : ¬ ((0 : ℤ) + text.length + zeros ≤ 0) := by omega
      have hfull : ((text.length + zeros : ℕ) : ℤ) ≤ 0 + text.length + zeros := by omega
      have hwhole : (text.length : ℤ) ≤ 0 + text.length + zeros := by omega
      have hpad : ((0 : ℤ) + text.length + zeros).toNat = text.length + zeros := by omega
      simp only [Numeral.point, hleft, if_false, hfull, if_true, hwhole, hpad, List.length_append,
        List.length_replicate, Nat.sub_self, List.replicate_zero, List.append_nil,
        Nat.add_sub_cancel_left]

/-- The two printers agree on a numeral and the same numeral with `dropped`
trailing zeros dropped exactly when no exponent is written and no zero after the
point was dropped. -/
theorem scientific_eq_plain_iff {n m : Numeral} {dropped : ℕ} (hsign : n.negative = m.negative)
    (hpos : 0 < m.coefficient) (hcoefficient : n.coefficient = m.coefficient * 10 ^ dropped)
    (hexponent : m.exponent = n.exponent + dropped) (hle : n.exponent ≤ 0) :
    n.scientific = m.plain ↔ -6 < n.leftDigits ∧ (dropped = 0 ∨ n.exponent = 0) := by
  have hdigits : n.digits = m.digits ++ List.replicate dropped '0' := by
    unfold Numeral.digits
    rw [hcoefficient, toDigits_mul_pow hpos]
  have hleft : n.leftDigits = n.exponent + m.digits.length + dropped := by
    unfold Numeral.leftDigits
    rw [hdigits, List.length_append, List.length_replicate]
    omega
  have hleft' : m.leftDigits = n.exponent + m.digits.length + dropped := by
    unfold Numeral.leftDigits
    omega
  unfold Numeral.scientific
  split
  next hplain =>
    have hsigns : n.sign = m.sign := by rw [Numeral.sign, Numeral.sign, hsign]
    unfold Numeral.plain
    rw [hsigns, List.append_cancel_left_eq, hdigits, hleft, hleft',
      point_zeros_iff m.digits_ne_nil hle, ← hleft]
    exact ⟨fun h => ⟨hplain.2, h⟩, And.right⟩
  next hplain =>
    have hfar : ¬ (-6 < n.leftDigits) := fun h => hplain ⟨hle, h⟩
    refine ⟨fun htext => ?_, fun h => absurd h.1 hfar⟩
    have hmark : 'E' ∈ m.plain := by
      rw [← htext]
      simp
    rcases Numeral.mem_plain hmark with h | h | h
    · exact absurd h (by decide)
    · exact absurd h (by decide)
    · exact absurd h (by decide)

/-- Rounding either keeps the exponent of the scaled value or carries over into
a coefficient that ends in zero and a value that is not the one rounded. -/
private theorem rounded_cases {x : Decimal} (hdigits : 1 < digits) (hx : 0 < x) :
    (rounded digits x).exponent = Int.log 10 x + 1 - digits ∨
      ((rounded digits x).exponent = Int.log 10 x + 2 - digits ∧
        (rounded digits x).coefficient % 10 = 0 ∧ (rounded digits x).value ≠ x) := by
  by_cases hcarry :
      (roundHalfEven (x / 10 ^ (Int.log 10 x + 1 - (digits : ℤ)))).natAbs = 10 ^ digits
  · right
    have hrounded : rounded digits x =
        ⟨decide (x < 0), 10 ^ (digits - 1), Int.log 10 x + 1 - digits + 1⟩ := by
      simp only [rounded, abs_of_pos hx, hcarry, if_true]
    refine ⟨?_, ?_, ?_⟩
    · rw [hrounded]
      ring
    · rw [hrounded]
      obtain ⟨k, hk⟩ := Nat.exists_eq_succ_of_ne_zero (show digits - 1 ≠ 0 by omega)
      simp [hk, pow_succ]
    · intro hvalue
      have hbounds := rounded_bounds hx.ne' (show 0 < digits by omega)
      have hlog := log_value hbounds.1 hbounds.2 (show 0 < digits by omega)
      rw [hvalue, abs_of_pos hx] at hlog
      simp only [hrounded] at hlog
      omega
  · left
    simp only [rounded, abs_of_pos hx, hcarry, if_false]

/-- Of two ways to write one number, that without a trailing zero has dropped
at least as many of them. -/
private theorem strip_more {c c' k k' : ℕ} (heq : c * 10 ^ k = c' * 10 ^ k')
    (hdigit : c' % 10 ≠ 0) : k ≤ k' ∧ c = c' * 10 ^ (k' - k) := by
  rcases le_or_gt k k' with hle | hlt
  · refine ⟨hle, ?_⟩
    apply Nat.eq_of_mul_eq_mul_right (show 0 < 10 ^ k by positivity)
    rw [heq, mul_assoc, ← pow_add, Nat.sub_add_cancel hle]
  · exfalso
    obtain ⟨extra, rfl⟩ := Nat.exists_eq_add_of_lt hlt
    have hc' : c' = c * 10 ^ extra * 10 := by
      apply Nat.eq_of_mul_eq_mul_right (show 0 < 10 ^ k' by positivity)
      rw [← heq]
      ring
    omega

/-- A proper quotient prints with its exponent or its trailing zeros unless it
is at least a millionth and is exact or rounds to a last digit that is not
zero. -/
theorem quotient_scientific_iff {a b : ℕ} (hdigits : 2 < digits) (ha : 0 < a) (hab : a ≤ b) :
    (quotient digits a b).scientific = (normalize digits ((a : ℚ) / b)).plain ↔
      (10 : ℚ) ^ (-6 : ℤ) ≤ a / b ∧
        (roundDigits digits (a / b) = a / b ∨
          (rounded digits (a / b)).coefficient % 10 ≠ 0) := by
  have hb : (0 : ℚ) < b := by exact_mod_cast lt_of_lt_of_le ha hab
  have hx : (0 : ℚ) < (a : ℚ) / b := div_pos (by exact_mod_cast ha) hb
  have hone : (a : ℚ) / b ≤ 1 := (div_le_one hb).mpr (by exact_mod_cast hab)
  have hlog : Int.log 10 ((a : ℚ) / b) ≤ 0 := by
    have h := Int.log_mono_right (b := 10) hx hone
    rwa [Int.log_one_right] at h
  have hbounds := rounded_bounds hx.ne' (show 0 < digits by omega)
  have hvalue := value_rounded (x := (a : ℚ) / b) (show 0 < digits by omega)
  have hcases := rounded_cases (show 1 < digits by omega) hx
  have hmillionth : (10 : ℚ) ^ (-6 : ℤ) ≤ (a : ℚ) / b ↔ -6 ≤ Int.log 10 ((a : ℚ) / b) :=
    Int.zpow_le_iff_le_log (b := 10) (by norm_num) hx
  have hnormal : normalize digits ((a : ℚ) / b) = (rounded digits (a / b)).strip digits := by
    simp only [normalize, hx.ne', if_false]
  rw [hnormal, hmillionth, ← hvalue]
  unfold quotient
  dsimp only
  generalize rounded digits ((a : ℚ) / b) = n at *
  generalize Int.log 10 ((a : ℚ) / b) = log at *
  obtain ⟨dropped, hdropped, hcoefficient, hexponent, hnegative, hstop⟩ := n.strip_spec digits
  have hpos : 0 < (n.strip digits).coefficient := by
    rcases Nat.eq_zero_or_pos (n.strip digits).coefficient with hzero | hpos
    · rw [hzero, zero_mul] at hcoefficient
      have := lt_of_lt_of_le (show 0 < 10 ^ (digits - 1) by positivity) hbounds.1
      omega
    · exact hpos
  have hdigit : (n.strip digits).coefficient % 10 ≠ 0 := by
    refine hstop.resolve_left fun hall => ?_
    rw [hall] at hcoefficient
    have := Nat.le_mul_of_pos_left (10 ^ digits) hpos
    omega
  have hleft : n.leftDigits = n.exponent + digits := by
    unfold Numeral.leftDigits Numeral.digits
    rw [length_toDigits hbounds.1 hbounds.2 (by omega)]
  have hlast : n.coefficient % 10 ≠ 0 ↔ dropped = 0 := by
    rw [hcoefficient]
    rcases Nat.eq_zero_or_pos dropped with hnone | hsome
    · simp [hnone, hdigit]
    · obtain ⟨k, rfl⟩ := Nat.exists_eq_succ_of_ne_zero hsome.ne'
      simp [pow_succ, ← mul_assoc]
  split
  next hexact =>
    have hlow : n.exponent = log + 1 - digits := hcases.resolve_right fun h => h.2.2 hexact
    obtain ⟨few, hfew, hcoefficient', hexponent', hnegative', hstop'⟩ :=
      n.strip_spec (-n.exponent).toNat
    obtain ⟨hle, hmore⟩ := strip_more (hcoefficient'.symm.trans hcoefficient) hdigit
    have hpos' : 0 < (n.strip (-n.exponent).toNat).coefficient := by
      rw [hmore]
      positivity
    have hleft' : (n.strip (-n.exponent).toNat).leftDigits = n.leftDigits := by
      unfold Numeral.leftDigits Numeral.digits
      rw [hcoefficient', toDigits_mul_pow hpos', List.length_append, List.length_replicate,
        hexponent']
      push_cast
      ring
    have hkept : dropped - few = 0 ∨ (n.strip (-n.exponent).toNat).exponent = 0 := by
      rcases hstop' with hall | hdigit'
      · exact Or.inr (by omega)
      · left
        by_contra hne
        obtain ⟨k, hk⟩ := Nat.exists_eq_succ_of_ne_zero hne
        rw [hmore, hk, Nat.succ_eq_add_one, pow_succ, ← mul_assoc] at hdigit'
        omega
    rw [scientific_eq_plain_iff (hnegative'.trans hnegative.symm) hpos hmore (by omega)
      (by omega), hleft', hleft]
    constructor
    · rintro ⟨hfar, -⟩
      exact ⟨by omega, Or.inl hexact⟩
    · rintro ⟨hfar, -⟩
      exact ⟨by omega, hkept⟩
  next hexact =>
    have hneg : n.exponent < 0 := by
      rcases hcases with h | h <;> omega
    rw [scientific_eq_plain_iff hnegative.symm hpos hcoefficient hexponent hneg.le, hleft]
    rcases hcases with hlow | ⟨hcarry, hzero, -⟩
    · rw [hlow]
      constructor
      · rintro ⟨hfar, hnone | hwhole⟩
        · exact ⟨by omega, Or.inr (hlast.mpr hnone)⟩
        · omega
      · rintro ⟨hfar, hbad | hkept⟩
        · exact absurd hbad hexact
        · exact ⟨by omega, Or.inl (hlast.mp hkept)⟩
    · have hsome : dropped ≠ 0 := fun hnone => hlast.mpr hnone hzero
      constructor
      · rintro ⟨-, hnone | hwhole⟩
        · exact absurd hnone hsome
        · omega
      · rintro ⟨-, hbad | hkept⟩
        · exact absurd hbad hexact
        · exact absurd hzero hkept

end KAssetTrader.Decimal
