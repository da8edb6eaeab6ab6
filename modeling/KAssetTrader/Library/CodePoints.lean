import KAssetTrader.Library.Collect
import KAssetTrader.Library.DecimalRead
import KAssetTrader.Library.Unicode

/-!
Texts of an interpreter whose strings are sequences of code points, surrogates included:
which of them are digits, what `int` and `Decimal` read of them. Every decimal digit is a
digit, but a digit such as a superscript has no decimal value, and `int` refuses it. JSON
documents hold such texts: numbers without a fraction are integers of any size, others are held
by their text, and a key that an object does not have reads as null.
-/

namespace KAssetTrader.CodePoints

open Unicode (decimalZeros isSpaceCode stripBy)

abbrev CodePoint := Fin 0x110000

abbrev Text := List CodePoint

instance codePoint_neZero : NeZero 0x110000 := ⟨by decide⟩

instance text_lawful : LawfulBEq Text := inferInstance

def ofString (s : String) : Text := s.toList.map fun c => Fin.ofNat 0x110000 c.toNat

def toString? (text : Text) : Option String :=
  (text.mapM fun c =>
    if 0xd800 ≤ c.val ∧ c.val ≤ 0xdfff then none else some (Char.ofNat c.val)).map String.ofList

/-- The ranges of the digits that are not decimal: superscripts, circled digits and the like. -/
def otherDigits : List (ℕ × ℕ) :=
  [(0xb2, 0xb3), (0xb9, 0xb9), (0x1369, 0x1371), (0x19da, 0x19da), (0x2070, 0x2070),
    (0x2074, 0x2079), (0x2080, 0x2089), (0x2460, 0x2468), (0x2474, 0x247c), (0x2488, 0x2490),
    (0x24ea, 0x24ea), (0x24f5, 0x24fd), (0x24ff, 0x24ff), (0x2776, 0x277e), (0x2780, 0x2788),
    (0x278a, 0x2792), (0x10a40, 0x10a43), (0x10e60, 0x10e68), (0x11052, 0x1105a),
    (0x1f100, 0x1f10a)]

def decimalValue? (c : CodePoint) : Option ℕ :=
  (decimalZeros.find? fun first => first ≤ c.val ∧ c.val < first + 10).map (c.val - ·)

def isDecimal (c : CodePoint) : Bool := (decimalValue? c).isSome

def isDigit (c : CodePoint) : Bool :=
  isDecimal c || otherDigits.any fun (first, last) => first ≤ c.val ∧ c.val ≤ last

def isSpace (c : CodePoint) : Bool := isSpaceCode c.val

/-- `str.strip()`. -/
def strip (text : Text) : Text := stripBy isSpace text

/-- `text.lower()`, of the letters of ASCII. -/
def lowerAscii (text : Text) : Text :=
  text.map fun c => if 65 ≤ c.val ∧ c.val ≤ 90 then c + 32 else c

/-- `str.isdigit()`. -/
def isDigits (text : Text) : Bool := text ≠ [] && text.all isDigit

/-- `sys.get_int_max_str_digits()`. -/
def maxStrDigits : ℕ := 4300

/-- `int(text)` of a text of digits: none where it raises a `ValueError`. -/
def intOf (text : Text) : Option ℤ :=
  if maxStrDigits < text.length then none
  else (text.mapM decimalValue?).map fun digits =>
    digits.foldl (fun (n : ℤ) (d : ℕ) => 10 * n + d) 0

/-- A text that `int` can read. -/
def Convertible (text : Text) : Prop := text.length ≤ maxStrDigits ∧ text.all isDecimal

def natText (n : ℕ) : Text :=
  if n = 0 then [0x30] else (Nat.digits 10 n).reverse.map fun d => Fin.ofNat 0x110000 (0x30 + d)

def hyphen : CodePoint := 0x2d

/-- `str(n)`: none where its digits are too many for it. -/
def intText? (n : ℤ) : Option Text :=
  if maxStrDigits < (natText n.natAbs).length then none
  else some (if n < 0 then hyphen :: natText n.natAbs else natText n.natAbs)

def utf8Size? (c : CodePoint) : Option ℕ :=
  if 0xd800 ≤ c.val ∧ c.val ≤ 0xdfff then none
  else some (if c.val < 0x80 then 1 else if c.val < 0x800 then 2 else if c.val < 0x10000 then
    3 else 4)

/-- `len(text.encode("utf-8"))`: none where it raises a `UnicodeEncodeError`. -/
def utf8Length? (text : Text) : Option ℕ := (text.mapM utf8Size?).map List.sum

/-- The characters that `Decimal(text)` reads: white space around the text is removed, and
decimal digits of any script are read as those of ASCII. -/
def numericText (text : Text) : Option (List Char) :=
  (strip text).mapM fun c =>
    if c.val < 128 then some (Char.ofNat c.val)
    else if isSpace c then some ' '
    else (decimalValue? c).map fun d => Char.ofNat (0x30 + d)

def exponentFits (n : Decimal.Numeral) : Prop :=
  -(2 * 10 ^ 18 - 3) ≤ n.exponent ∧ n.leftDigits - 1 < 10 ^ 18

instance : DecidablePred exponentFits := fun n =>
  inferInstanceAs (Decidable (-(2 * 10 ^ 18 - 3) ≤ n.exponent ∧ n.leftDigits - 1 < 10 ^ 18))

/-- `Decimal(text)`: none where it raises `InvalidOperation`. -/
def decimalOf (text : Text) : Option Decimal.DecimalValue :=
  match (numericText text).bind Decimal.DecimalValue.ofText with
  | some (.finite n) => if exponentFits n then some (.finite n) else none
  | other => other

section Laws

variable {text : Text}

theorem intOf_isSome_iff : (intOf text).isSome ↔ Convertible text := by
  unfold intOf Convertible
  split
  next hlong =>
    constructor
    · simp
    · intro h
      exact absurd h.1 (by omega)
  next hshort =>
    rw [Option.isSome_map, Checked.mapM_isSome_iff, List.all_eq_true]
    exact ⟨fun h => ⟨by omega, h⟩, fun h => h.2⟩

section Integers

variable {n : ℕ}

def isAsciiDigit (c : CodePoint) : Bool := 0x30 ≤ c.val && c.val ≤ 0x39

theorem decimalValue?_digit {d : ℕ} (h : d < 10) :
    decimalValue? (Fin.ofNat 0x110000 (0x30 + d)) = some d := by
  interval_cases d <;> decide

theorem isAsciiDigit_digit {d : ℕ} (h : d < 10) :
    isAsciiDigit (Fin.ofNat 0x110000 (0x30 + d)) = true := by
  interval_cases d <;> decide

theorem natText_digits (n : ℕ) : ∃ digits : List ℕ, digits ≠ [] ∧ (∀ d ∈ digits, d < 10) ∧
    natText n = digits.map (fun d => Fin.ofNat 0x110000 (0x30 + d)) ∧
    digits.foldl (fun (n : ℤ) (d : ℕ) => 10 * n + d) 0 = n := by
  by_cases hzero : n = 0
  · subst hzero
    exact ⟨[0], by simp, by simp, rfl, rfl⟩
  · refine ⟨(Nat.digits 10 n).reverse, ?_, fun d hd => ?_, if_neg hzero, ?_⟩
    · rw [Ne, List.reverse_eq_nil_iff]
      exact Nat.digits_ne_nil_iff_ne_zero.mpr hzero
    · exact Nat.digits_lt_base (by norm_num) (List.mem_reverse.mp hd)
    · rw [List.foldl_reverse]
      have hvalue := Nat.ofDigits_digits 10 n
      rw [Nat.ofDigits_eq_foldr] at hvalue
      have hcast : (Nat.digits 10 n).foldr (fun (d : ℕ) (m : ℤ) => 10 * m + d) 0 =
          ((Nat.digits 10 n).foldr (fun (d m : ℕ) => d + 10 * m) 0 : ℕ) := by
        induction Nat.digits 10 n with
        | nil => rfl
        | cons d rest ih =>
          rw [List.foldr_cons, List.foldr_cons, ih]
          push_cast
          ring
      rw [hcast]
      exact_mod_cast congrArg Nat.cast hvalue

theorem mem_natText {c : CodePoint} (h : c ∈ natText n) : isAsciiDigit c = true := by
  obtain ⟨digits, -, hdigits, htext, -⟩ := natText_digits n
  rw [htext] at h
  obtain ⟨d, hd, rfl⟩ := List.mem_map.mp h
  exact isAsciiDigit_digit (hdigits d hd)

theorem natText_ne_nil (n : ℕ) : natText n ≠ [] := by
  obtain ⟨digits, hne, -, htext, -⟩ := natText_digits n
  rw [htext]
  exact fun h => hne (List.map_eq_nil_iff.mp h)

/-- The digits of a number that are not too many are read back. -/
theorem intOf_natText (h : (natText n).length ≤ maxStrDigits) :
    intOf (natText n) = some (n : ℤ) := by
  obtain ⟨digits, -, hdigits, htext, hvalue⟩ := natText_digits n
  have hread : (natText n).mapM decimalValue? = some digits := by
    rw [htext]
    clear htext hvalue
    induction digits with
    | nil => rfl
    | cons d rest ih =>
      rw [List.map_cons, List.mapM_cons, decimalValue?_digit (hdigits d List.mem_cons_self),
        ih fun k hk => hdigits k (List.mem_cons_of_mem d hk)]
      rfl
  rw [intOf, if_neg (not_lt.mpr h), hread, Option.map_some, hvalue]

theorem isDigits_natText (n : ℕ) : isDigits (natText n) = true := by
  obtain ⟨digits, -, hdigits, htext, -⟩ := natText_digits n
  rw [isDigits, Bool.and_eq_true, decide_eq_true_eq, List.all_eq_true]
  refine ⟨natText_ne_nil n, fun c hc => ?_⟩
  rw [htext] at hc
  obtain ⟨d, hd, rfl⟩ := List.mem_map.mp hc
  rw [isDigit, isDecimal, decimalValue?_digit (hdigits d hd)]
  rfl

theorem head_natText (h : n ≠ 0) : (natText n).head? ≠ some 0x30 := by
  have hne : Nat.digits 10 n ≠ [] := Nat.digits_ne_nil_iff_ne_zero.mpr h
  rw [natText, if_neg h, List.head?_map, List.head?_reverse, List.getLast?_eq_some_getLast hne]
  intro hhead
  have hlast := Nat.getLast_digit_ne_zero 10 h
  have hlt := Nat.digits_lt_base (by norm_num : 1 < 10) (List.getLast_mem hne)
  have hval := congrArg Fin.val (Option.some.inj hhead)
  simp only [Fin.val_ofNat] at hval
  generalize (Nat.digits 10 n).getLast hne = d at hlast hlt hval
  interval_cases d
  · exact hlast rfl
  all_goals cases hval

theorem length_natText_le {k : ℕ} (hk : 0 < k) (h : n < 10 ^ k) : (natText n).length ≤ k := by
  unfold natText
  split_ifs with hzero
  · exact hk
  · rw [List.length_map, List.length_reverse, Nat.digits_length_le_iff (by norm_num)]
    exact h

end Integers

theorem foldl_digits_nonneg (digits : List ℕ) {start : ℤ} (hstart : 0 ≤ start) :
    0 ≤ digits.foldl (fun (n : ℤ) (d : ℕ) => 10 * n + d) start := by
  induction digits generalizing start with
  | nil => exact hstart
  | cons d rest ih => exact ih (by positivity)

theorem intOf_nonneg {n : ℤ} (h : intOf text = some n) : 0 ≤ n := by
  unfold intOf at h
  split at h
  · cases h
  obtain ⟨digits, -, rfl⟩ := Option.map_eq_some_iff.mp h
  exact foldl_digits_nonneg digits le_rfl

end Laws

example : isDigits (ofString "²") ∧ intOf (ofString "²") = none ∧
    intOf (ofString "٣٤") = some 34 := by decide

end KAssetTrader.CodePoints

namespace KAssetTrader.Documents

open CodePoints

inductive Json where
  | null
  | bool (value : Bool)
  | int (value : ℤ)
  | float (text : Text)
  | str (text : Text)
  | arr (items : List Json)
  | obj (entries : List (Text × Json))

abbrev Object := List (Text × Json)

/-- `entries.get(key)` -/
def Object.get (entries : Object) (key : String) : Json :=
  (entries.lookup (ofString key)).getD .null

namespace Json

def truthy : Json → Bool
  | .null => false
  | .bool value => value
  | .int value => value ≠ 0
  | .float text => text ∉ [ofString "0.0", ofString "-0.0"]
  | .str text => text ≠ []
  | .arr items => !items.isEmpty
  | .obj entries => !entries.isEmpty

/-- `value is None` -/
def isNull : Json → Bool
  | .null => true
  | _ => false

/-- `isinstance(value, Mapping)` -/
def object? : Json → Option Object
  | .obj entries => some entries
  | _ => none

/-- `isinstance(value, str)` -/
def str? : Json → Option Text
  | .str text => some text
  | _ => none

/-- `str(value)`, by what is shown of an array or an object; none where it raises. -/
def text? (repr : Json → Option Text) : Json → Option Text
  | .null => some (ofString "None")
  | .bool value => some (ofString (if value then "True" else "False"))
  | .int value => intText? value
  | .float text => some text
  | .str text => some text
  | value => repr value

end Json

end KAssetTrader.Documents
