import KAssetTrader.Library.DecimalText

/-!
Reading a numeral back from its text. The printer with an exponent keeps the sign,
the digits and the exponent; the plain printer keeps the value. Beside the finite
decimals there are the infinities and what is not a number.
-/

namespace KAssetTrader.Decimal

open Numeral

def readExponent : List Char → Option ℤ
  | [] => some 0
  | mark :: rest => if mark = 'e' ∨ mark = 'E' then readInteger rest else none

/-- The digits after a decimal point, and what follows them. -/
def readFraction : List Char → List Char × List Char
  | '.' :: rest => (rest.takeWhile Char.isDigit, rest.dropWhile Char.isDigit)
  | rest => ([], rest)

/-- The coefficient and the exponent of an unsigned text. -/
def readDigits (body : List Char) : Option (ℕ × ℤ) :=
  let whole := body.takeWhile Char.isDigit
  let (fraction, rest) := readFraction (body.dropWhile Char.isDigit)
  if whole ++ fraction = [] then none
  else (readExponent rest).map fun exponent =>
    (Nat.ofDigitChars 10 (whole ++ fraction) 0, exponent - fraction.length)

/-- `Decimal(text)`, for the texts of finite decimals, with the digits it keeps. -/
def readNumeral : List Char → Option Numeral
  | '-' :: rest => (readDigits rest).map fun (coefficient, exponent) =>
    ⟨true, coefficient, exponent⟩
  | '+' :: rest => (readDigits rest).map fun (coefficient, exponent) =>
    ⟨false, coefficient, exponent⟩
  | rest => (readDigits rest).map fun (coefficient, exponent) => ⟨false, coefficient, exponent⟩

theorem readUnsigned_eq (body : List Char) :
    readUnsigned body = (readDigits body).map fun (coefficient, exponent) =>
      (coefficient : ℚ) * 10 ^ exponent := by
  have hunsigned : readUnsigned body =
      (let whole := body.takeWhile Char.isDigit
      let (fraction, rest) := readFraction (body.dropWhile Char.isDigit)
      if whole ++ fraction = [] then none
      else (readExponent rest).map fun exponent =>
        (Nat.ofDigitChars 10 (whole ++ fraction) 0 : ℚ) *
          10 ^ (exponent - (fraction.length : ℤ))) := rfl
  rw [hunsigned]
  unfold readDigits
  dsimp only
  split
  · rfl
  · rw [Option.map_map]
    rfl

theorem read_eq (text : List Char) : read text = (readNumeral text).map Numeral.value := by
  cases text with
  | nil =>
    simp only [read, readNumeral, readUnsigned_eq, Option.map_map]
    congr 1
    funext pair
    simp [value]
  | cons c rest =>
    by_cases hminus : c = '-'
    · subst hminus
      simp only [read, readNumeral, readUnsigned_eq, Option.map_map]
      congr 1
      funext pair
      simp [value]
    · by_cases hplus : c = '+'
      · subst hplus
        simp only [read, readNumeral, readUnsigned_eq, Option.map_map]
        congr 1
        funext pair
        simp [value]
      · rw [read, readNumeral, readUnsigned_eq, Option.map_map]
        · congr 1
          funext pair
          simp [value]
        · simp [hminus]
        · simp [hplus]
        · simp [hminus]
        · simp [hplus]

theorem exists_readNumeral_plain (n : Numeral) :
    ∃ m, readNumeral n.plain = some m ∧ m.value = n.value := by
  have hread := read_plain n
  rw [read_eq, Option.map_eq_some_iff] at hread
  exact hread

section Printed

variable {whole fraction tail : List Char}

/-- Digits end where something else begins. -/
theorem takeWhile_digits (hwhole : ∀ c ∈ whole, c.isDigit) (htail : ∀ c ∈ tail.head?, ¬ c.isDigit) :
    (whole ++ tail).takeWhile Char.isDigit = whole ∧
      (whole ++ tail).dropWhile Char.isDigit = tail := by
  have hstop : tail.takeWhile Char.isDigit = [] ∧ tail.dropWhile Char.isDigit = tail := by
    cases tail with
    | nil => exact ⟨rfl, rfl⟩
    | cons c rest =>
      have hc : ¬ c.isDigit := htail c rfl
      exact ⟨List.takeWhile_cons_of_neg hc, List.dropWhile_cons_of_neg hc⟩
  rw [List.takeWhile_append_of_pos hwhole, List.dropWhile_append_of_pos hwhole, hstop.1, hstop.2,
    List.append_nil]
  exact ⟨rfl, rfl⟩

theorem readDigits_whole (hwhole : ∀ c ∈ whole, c.isDigit) (hne : whole ≠ [])
    (htail : ∀ c ∈ tail.head?, ¬ c.isDigit ∧ c ≠ '.') :
    readDigits (whole ++ tail) =
      (readExponent tail).map fun exponent => (Nat.ofDigitChars 10 whole 0, exponent) := by
  obtain ⟨htake, hdrop⟩ := takeWhile_digits hwhole fun c hc => (htail c hc).1
  have hfraction : readFraction tail = ([], tail) := by
    cases tail with
    | nil => rfl
    | cons c rest =>
      rw [readFraction]
      rintro later heq
      exact (htail c rfl).2 (List.cons.inj heq).1
  unfold readDigits
  rw [htake, hdrop]
  dsimp only
  rw [hfraction]
  simp [hne]

theorem readDigits_fraction (hwhole : ∀ c ∈ whole, c.isDigit)
    (hfraction : ∀ c ∈ fraction, c.isDigit) (hne : whole ≠ [])
    (htail : ∀ c ∈ tail.head?, ¬ c.isDigit) :
    readDigits (whole ++ '.' :: (fraction ++ tail)) =
      (readExponent tail).map fun exponent =>
        (Nat.ofDigitChars 10 (whole ++ fraction) 0, exponent - (fraction.length : ℤ)) := by
  have hpoint : ∀ c ∈ ('.' :: (fraction ++ tail)).head?, ¬ c.isDigit := by
    intro c hc
    cases hc
    decide
  obtain ⟨htake, hdrop⟩ := takeWhile_digits hwhole hpoint
  obtain ⟨htake', hdrop'⟩ := takeWhile_digits hfraction htail
  have hparts : readFraction ('.' :: (fraction ++ tail)) = (fraction, tail) := by
    rw [readFraction, htake', hdrop']
  unfold readDigits
  rw [htake, hdrop]
  dsimp only
  rw [hparts]
  simp [hne]

theorem readDigits_point {digits : List Char} (hdigits : ∀ c ∈ digits, c.isDigit)
    (hne : digits ≠ []) {dotplace : ℤ} (hinside : dotplace ≤ digits.length)
    (htail : ∀ c ∈ tail.head?, ¬ c.isDigit ∧ c ≠ '.') :
    readDigits (Numeral.point digits dotplace ++ tail) =
      (readExponent tail).map fun exponent =>
        (Nat.ofDigitChars 10 digits 0, exponent + dotplace - (digits.length : ℤ)) := by
  have hpos : 0 < digits.length := List.length_pos_iff.mpr hne
  unfold point
  split_ifs with hleft hright
  · -- Zeros come first.
    have hzeros : ∀ c ∈ List.replicate (-dotplace).toNat '0' ++ digits, c.isDigit := by
      intro c hc
      rcases List.mem_append.mp hc with hc | hc
      · rw [List.eq_of_mem_replicate hc]
        decide
      · exact hdigits c hc
    have hread := @readDigits_fraction ['0'] _ tail (List.forall_mem_singleton.mpr rfl) hzeros
      (List.cons_ne_nil _ _) fun c hc => (htail c hc).1
    have hnumber : Nat.ofDigitChars 10 (['0'] ++ (List.replicate (-dotplace).toNat '0' ++ digits))
        0 = Nat.ofDigitChars 10 digits 0 := by
      simp [Nat.ofDigitChars_append, Nat.ofDigitChars_cons, Nat.ofDigitChars_replicate_zero]
    rw [hnumber] at hread
    simp only [List.cons_append, List.nil_append] at hread ⊢
    rw [hread]
    congr 1
    funext exponent
    rw [List.length_append, List.length_replicate]
    congr 1
    omega
  · have hnone : dotplace.toNat - digits.length = 0 := by omega
    rw [hnone, List.replicate_zero, List.append_nil, readDigits_whole hdigits hne htail]
    congr 1
    funext exponent
    congr 1
    omega
  · have hsplit := List.take_append_drop dotplace.toNat digits
    have htake : ∀ c ∈ digits.take dotplace.toNat, c.isDigit := fun c hc =>
      hdigits c (List.mem_of_mem_take hc)
    have hdrop : ∀ c ∈ digits.drop dotplace.toNat, c.isDigit := fun c hc =>
      hdigits c (List.mem_of_mem_drop hc)
    have hwhole : digits.take dotplace.toNat ≠ [] := by
      apply List.ne_nil_of_length_pos
      rw [List.length_take]
      omega
    have hread := readDigits_fraction htake hdrop hwhole fun c hc => (htail c hc).1
    rw [hsplit] at hread
    rw [List.append_assoc, List.cons_append, hread]
    congr 1
    funext exponent
    rw [List.length_drop]
    congr 1
    omega

theorem readExponent_printed (shift : ℤ) :
    readExponent ('E' :: (if 0 ≤ shift then '+' else '-') :: Nat.toDigits 10 shift.natAbs) =
      some shift := by
  have hdigits : ∀ c ∈ Nat.toDigits 10 shift.natAbs, c.isDigit := fun c hc =>
    Nat.isDigit_of_mem_toDigits (by norm_num) (by norm_num) hc
  have hall : (Nat.toDigits 10 shift.natAbs).all Char.isDigit = true := List.all_eq_true.mpr hdigits
  have hne : Nat.toDigits 10 shift.natAbs ≠ [] := Nat.toDigits_ne_nil
  rw [readExponent, if_pos (by simp)]
  split
  next hpos =>
    simp only [readInteger, hall, hne, Nat.ofDigitChars_ten_toDigits]
    simp
    omega
  next hneg =>
    simp only [readInteger, hall, hne, Nat.ofDigitChars_ten_toDigits]
    simp [abs_of_neg (not_le.mp hneg)]

theorem Numeral.plain_head (n : Numeral) :
    ∃ c rest, n.plain = n.sign ++ c :: rest ∧ c.isDigit := by
  obtain ⟨c, rest, hcons, hc⟩ := point_head n.digits_isDigit n.digits_ne_nil n.leftDigits
  exact ⟨c, rest, by rw [plain, hcons], hc⟩

theorem Numeral.scientific_head (n : Numeral) :
    ∃ c rest, n.scientific = n.sign ++ c :: rest ∧ c.isDigit := by
  unfold scientific
  split
  · exact n.plain_head
  · obtain ⟨c, rest, hcons, hc⟩ := point_head n.digits_isDigit n.digits_ne_nil 1
    exact ⟨c, _, by rw [hcons, List.append_assoc, List.cons_append], hc⟩

theorem readNumeral_scientific (n : Numeral) : readNumeral n.scientific = some n := by
  have hnumber : Nat.ofDigitChars 10 n.digits 0 = n.coefficient := Nat.ofDigitChars_ten_toDigits
  have hpos : 0 < n.digits.length := List.length_pos_iff.mpr n.digits_ne_nil
  -- What the sign is put before.
  obtain ⟨body, htext, hbody, c, rest, hcons, hc⟩ : ∃ body, n.scientific = n.sign ++ body ∧
      readDigits body = some (n.coefficient, n.exponent) ∧
        ∃ c rest, body = c :: rest ∧ c.isDigit := by
    unfold scientific
    split
    next hplain =>
      have hinside : n.leftDigits ≤ n.digits.length := by
        unfold leftDigits
        omega
      have hread := @readDigits_point [] _ n.digits_isDigit n.digits_ne_nil _ hinside
        fun _ hc => nomatch hc
      rw [List.append_nil, hnumber] at hread
      refine ⟨_, rfl, ?_, point_head n.digits_isDigit n.digits_ne_nil _⟩
      rw [hread]
      simp [readExponent, leftDigits]
    · have hinside : (1 : ℤ) ≤ n.digits.length := by omega
      have hread := @readDigits_point
        ('E' :: (if 0 ≤ n.leftDigits - 1 then '+' else '-') ::
          Nat.toDigits 10 (n.leftDigits - 1).natAbs)
        _ n.digits_isDigit n.digits_ne_nil _ hinside fun c hc => by
          cases hc
          decide
      rw [hnumber, readExponent_printed] at hread
      obtain ⟨c, rest, hcons, hc⟩ := point_head n.digits_isDigit n.digits_ne_nil 1
      refine ⟨_, List.append_assoc _ _ _, ?_, c, _, by rw [hcons]; rfl, hc⟩
      rw [hread]
      simp [leftDigits]
  have hminus : c ≠ '-' := by
    rintro rfl
    exact absurd hc (by decide)
  have hplus : c ≠ '+' := by
    rintro rfl
    exact absurd hc (by decide)
  rw [htext]
  obtain ⟨negative, coefficient, exponent⟩ := n
  cases negative with
  | true =>
    simp only [sign, if_true, List.cons_append, List.nil_append, readNumeral, hbody]
    rfl
  | false =>
    simp only [sign, Bool.false_eq_true, if_false, List.nil_append]
    rw [hcons] at hbody ⊢
    rw [readNumeral, hbody]
    · rfl
    · simp [hminus]
    · simp [hplus]

/-- A printed numeral holds digits, points, signs and the mark of an exponent. -/
theorem Numeral.mem_scientific {n : Numeral} {c : Char} (hc : c ∈ n.scientific) :
    c.isDigit ∨ c = '.' ∨ c = '-' ∨ c = '+' ∨ c = 'E' := by
  unfold scientific at hc
  split at hc
  · rcases mem_plain hc with h | h | h
    · exact .inl h
    · exact .inr (.inl h)
    · exact .inr (.inr (.inl h))
  · rcases List.mem_append.mp hc with hpoint | hmark
    · have hplain : c ∈ (⟨n.negative, n.coefficient, 1 - n.digits.length⟩ : Numeral).plain := by
        have hone : (⟨n.negative, n.coefficient, 1 - n.digits.length⟩ : Numeral).leftDigits = 1 :=
          Int.sub_add_cancel _ _
        rw [plain, hone]
        exact hpoint
      rcases mem_plain hplain with h | h | h
      · exact .inl h
      · exact .inr (.inl h)
      · exact .inr (.inr (.inl h))
    · rcases List.mem_cons.mp hmark with rfl | hmark
      · exact .inr (.inr (.inr (.inr rfl)))
      rcases List.mem_cons.mp hmark with heq | hdigit
      · split at heq
        · exact .inr (.inr (.inr (.inl heq)))
        · exact .inr (.inr (.inl heq))
      · exact .inl (Nat.isDigit_of_mem_toDigits (by norm_num) (by norm_num) hdigit)

end Printed

/-- A decimal object: a numeral, an infinity or what is not a number. -/
inductive DecimalValue where
  | finite (n : Numeral)
  | infinite (negative : Bool)
  | nan
  deriving DecidableEq

namespace DecimalValue

/-- `str(d)`. -/
def str : DecimalValue → List Char
  | .finite n => n.scientific
  | .infinite negative => (if negative then "-Infinity" else "Infinity").toList
  | .nan => "NaN".toList

/-- `format(d, "f")`. -/
def formatF : DecimalValue → List Char
  | .finite n => n.plain
  | d => d.str

/-- `a == b`: by value, and what is not a number equals nothing. -/
def Equals : DecimalValue → DecimalValue → Prop
  | .finite n, .finite m => n.value = m.value
  | .infinite a, .infinite b => a = b
  | _, _ => False

def readSpecial (text : List Char) : Option DecimalValue :=
  let (negative, body) := match text with
    | '-' :: rest => (true, rest)
    | '+' :: rest => (false, rest)
    | rest => (false, rest)
  let word := body.map Char.toLower
  if word = "inf".toList ∨ word = "infinity".toList then some (.infinite negative)
  else
    let name := word.takeWhile Char.isAlpha
    if (name = "nan".toList ∨ name = "snan".toList) ∧ (word.dropWhile Char.isAlpha).all Char.isDigit
    then some .nan
    else none

/-- `Decimal(text)` on a text without blanks around it; underscores are passed over. -/
def ofText (text : List Char) : Option DecimalValue :=
  let body := text.filter (· ≠ '_')
  (readSpecial body).or ((readNumeral body).map .finite)

variable {n : Numeral} {text : List Char}

variable {c : Char} {rest : List Char}

theorem toLower_digit (hc : c.isDigit) : c.toLower = c ∧ c.isAlpha = false := by
  obtain ⟨hlow, hhigh⟩ := Char.isDigit_iff_toNat.mp hc
  have hchar : c = Char.ofNat c.toNat := (Char.ofNat_toNat c).symm
  have hlow : 48 ≤ c.toNat := hlow
  have hhigh : c.toNat ≤ 57 := hhigh
  generalize c.toNat = code at hchar hlow hhigh
  subst hchar
  interval_cases code <;> decide

theorem readSpecial_none (htext : text = n.sign ++ c :: rest) (hc : c.isDigit) :
    readSpecial text = none := by
  obtain ⟨hlower, halpha⟩ := toLower_digit hc
  have hminus : c ≠ '-' := by
    rintro rfl
    exact absurd hc (by decide)
  have hplus : c ≠ '+' := by
    rintro rfl
    exact absurd hc (by decide)
  have hi : c ≠ 'i' := by
    rintro rfl
    exact absurd hc (by decide)
  subst htext
  obtain ⟨negative, coefficient, exponent⟩ := n
  cases negative with
  | true => simp [readSpecial, sign, hlower, halpha, hi]
  | false => simp [readSpecial, sign, hlower, halpha, hi, hminus, hplus]

theorem ofText_numeral (htext : text = n.sign ++ c :: rest) (hc : c.isDigit) (hclean : '_' ∉ text) :
    ofText text = (readNumeral text).map .finite := by
  have hall : text.filter (· ≠ '_') = text := by
    apply List.filter_eq_self.mpr
    intro d hd
    rw [decide_eq_true_eq]
    rintro rfl
    exact hclean hd
  rw [ofText, hall, readSpecial_none htext hc]
  rfl

theorem ofText_str (n : Numeral) : ofText (str (.finite n)) = some (.finite n) := by
  obtain ⟨c, rest, htext, hc⟩ := n.scientific_head
  have hclean : '_' ∉ n.scientific := by
    intro hmem
    rcases mem_scientific hmem with h | h | h | h | h <;> exact absurd h (by decide)
  rw [str, ofText_numeral htext hc hclean, readNumeral_scientific]
  rfl

theorem ofText_formatF (n : Numeral) :
    ∃ m, ofText (formatF (.finite n)) = some (.finite m) ∧ m.value = n.value := by
  obtain ⟨c, rest, htext, hc⟩ := n.plain_head
  have hclean : '_' ∉ n.plain := by
    intro hmem
    rcases mem_plain hmem with h | h | h <;> exact absurd h (by decide)
  obtain ⟨m, hread, hvalue⟩ := exists_readNumeral_plain n
  refine ⟨m, ?_, hvalue⟩
  rw [formatF, ofText_numeral htext hc hclean, hread]
  rfl

end DecimalValue

end KAssetTrader.Decimal
