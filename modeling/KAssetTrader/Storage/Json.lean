import KAssetTrader.Library.DecimalRead
import KAssetTrader.Recommendation.Row

/-!
JSON values as Python reads them, and the texts that decimals and integers are stored
as. A finite decimal comes back from its text.
-/

namespace KAssetTrader.Storage

open Decimal
open Unicode (strip isSpace)

/-- A JSON value; a floating-point number is held by its text. -/
inductive Json where
  | null
  | bool (value : Bool)
  | int (value : ℤ)
  | float (text : String)
  | str (value : String)
  | arr (items : List Json)
  | obj (entries : List (String × Json))

namespace Json

/-- `value.get(key)`; the key of an object that is absent gives `none`. -/
def get? : Json → String → Option Json
  | .obj entries, key => entries.lookup key
  | _, _ => none

/-- `str(value)`; the items of an array or an object are not looked at. -/
def text : Json → String
  | .null => "None"
  | .bool value => if value then "True" else "False"
  | .int value => toString value
  | .float text => text
  | .str value => value
  | .arr _ => "[...]"
  | .obj _ => "{...}"

/-- `isinstance(value, int)`, without the booleans. -/
def int? : Json → Option ℤ
  | .int value => some value
  | _ => none

def bool? : Json → Option Bool
  | .bool value => some value
  | _ => none

def str? : Json → Option String
  | .str value => some value
  | _ => none

end Json

/-- `Decimal(text)`. -/
def decimalOf (text : String) : Option DecimalValue := DecimalValue.ofText (strip text).toList

/-- `str(d)`. -/
def decimalText (d : DecimalValue) : String := String.ofList d.str

/-- `format(d, "f")`. -/
def plainText (d : DecimalValue) : String := String.ofList d.formatF

theorem not_isSpace_of_printed {c : Char}
    (hc : c.isDigit ∨ c = '.' ∨ c = '-' ∨ c = '+' ∨ c = 'E') : ¬ isSpace c := by
  rcases hc with h | rfl | rfl | rfl | rfl
  · obtain ⟨hlow, hhigh⟩ := Char.isDigit_iff_toNat.mp h
    have hlow : 48 ≤ c.toNat := hlow
    have hhigh : c.toNat ≤ 57 := hhigh
    have hchar : c = Char.ofNat c.toNat := (Char.ofNat_toNat c).symm
    generalize c.toNat = code at hchar hlow hhigh
    subst hchar
    interval_cases code <;> decide
  · decide
  · decide
  · decide
  · decide

@[simp] theorem decimalOf_decimalText (n : Numeral) :
    decimalOf (decimalText (.finite n)) = some (.finite n) := by
  have hstrip : strip (decimalText (.finite n)) = decimalText (.finite n) := by
    apply Unicode.strip_eq_self
    intro c hc
    rw [decimalText, String.toList_ofList] at hc
    exact not_isSpace_of_printed (Numeral.mem_scientific hc)
  rw [decimalOf, hstrip, decimalText, String.toList_ofList, DecimalValue.ofText_str]

theorem decimalOf_plainText (n : Numeral) :
    ∃ m, decimalOf (plainText (.finite n)) = some (.finite m) ∧ m.value = n.value := by
  have hstrip : strip (plainText (.finite n)) = plainText (.finite n) := by
    apply Unicode.strip_eq_self
    intro c hc
    rw [plainText, String.toList_ofList] at hc
    apply not_isSpace_of_printed
    rcases Numeral.mem_plain hc with h | h | h
    · exact .inl h
    · exact .inr (.inl h)
    · exact .inr (.inr (.inl h))
  rw [decimalOf, hstrip, plainText, String.toList_ofList]
  exact DecimalValue.ofText_formatF n

end KAssetTrader.Storage
