import Mathlib.Data.List.DropRight
import Mathlib.Data.Nat.Notation

/-!
What the text methods of an interpreter read of the character database: the decimal digits,
the white space and the letters of ASCII, and texts without white space at their ends.
-/

namespace KAssetTrader.Unicode

/-- The zeros of the decimal digits; nine digits follow each. -/
def decimalZeros : List ℕ :=
  [0x30, 0x660, 0x6f0, 0x7c0, 0x966, 0x9e6, 0xa66, 0xae6, 0xb66, 0xbe6, 0xc66, 0xce6, 0xd66,
    0xde6, 0xe50, 0xed0, 0xf20, 0x1040, 0x1090, 0x17e0, 0x1810, 0x1946, 0x19d0, 0x1a80, 0x1a90,
    0x1b50, 0x1bb0, 0x1c40, 0x1c50, 0xa620, 0xa8d0, 0xa900, 0xa9d0, 0xa9f0, 0xaa50, 0xabf0,
    0xff10, 0x104a0, 0x10d30, 0x11066, 0x110f0, 0x11136, 0x111d0, 0x112f0, 0x11450, 0x114d0,
    0x11650, 0x116c0, 0x11730, 0x118e0, 0x11950, 0x11c50, 0x11d50, 0x11da0, 0x11f50, 0x16a60,
    0x16ac0, 0x16b50, 0x1d7ce, 0x1d7d8, 0x1d7e2, 0x1d7ec, 0x1d7f6, 0x1e140, 0x1e2f0, 0x1e4f0,
    0x1e950, 0x1fbf0]

/-- The white space that `str.strip` removes. -/
def isSpaceCode (n : ℕ) : Bool :=
  (9 ≤ n && n ≤ 13) || (28 ≤ n && n ≤ 32) || n == 0x85 || n == 0xa0 || n == 0x1680 ||
    (0x2000 ≤ n && n ≤ 0x200a) || n == 0x2028 || n == 0x2029 || n == 0x202f ||
    n == 0x205f || n == 0x3000

section Strip

variable {α : Type*} (p : α → Bool) (l : List α)

/-- A list without what meets a condition at its ends. -/
def stripBy : List α := ((l.dropWhile p).reverse.dropWhile p).reverse

variable {p} {l}

theorem stripBy_eq_self (h : ∀ a ∈ l, ¬ p a) : stripBy p l = l := by
  have hdrop {l : List α} (hl : ∀ a ∈ l, ¬ p a) : l.dropWhile p = l := by
    rw [List.dropWhile_eq_self_iff]
    exact fun _ => hl _ (List.getElem_mem _)
  unfold stripBy
  rw [hdrop h, hdrop (fun a ha => h a (List.mem_reverse.mp ha)), List.reverse_reverse]

theorem dropWhile_stripBy : (stripBy p l).dropWhile p = stripBy p l := by
  unfold stripBy
  rw [List.dropWhile_eq_self_iff]
  intro hpos
  have hsuffix := List.dropWhile_suffix p (l := (l.dropWhile p).reverse)
  have hstart := List.reverse_prefix.mpr hsuffix
  rw [List.reverse_reverse] at hstart
  have hlt : 0 < (l.dropWhile p).length := lt_of_lt_of_le hpos hstart.length_le
  rw [hstart.getElem hpos]
  exact List.dropWhile_get_zero_not p l hlt

/-- Stripping what is stripped changes nothing. -/
@[simp] theorem stripBy_stripBy : stripBy p (stripBy p l) = stripBy p l := by
  rw [stripBy, dropWhile_stripBy]
  unfold stripBy
  rw [List.reverse_reverse, List.dropWhile_idempotent]

theorem dropWhile_flatMap {f : α → List α} (hne : ∀ a, f a ≠ [])
    (hp : ∀ a, ∀ b ∈ f a, p b = p a) (l : List α) :
    (l.flatMap f).dropWhile p = (l.dropWhile p).flatMap f := by
  induction l with
  | nil => rfl
  | cons a l ih =>
    rw [List.flatMap_cons]
    by_cases ha : p a
    · rw [List.dropWhile_cons_of_pos ha,
        List.dropWhile_append_of_pos fun b hb => (hp a b hb).trans ha, ih]
    · obtain ⟨b, rest, hb⟩ := List.exists_cons_of_ne_nil (hne a)
      have hfirst : ¬ p b := by rwa [hp a b (hb ▸ List.mem_cons_self)]
      rw [List.dropWhile_cons_of_neg ha, List.flatMap_cons, hb, List.cons_append,
        List.dropWhile_cons_of_neg hfirst]

/-- Elements that are written with elements like them. -/
theorem stripBy_flatMap {f : α → List α} (hne : ∀ a, f a ≠ [])
    (hp : ∀ a, ∀ b ∈ f a, p b = p a) (l : List α) :
    stripBy p (l.flatMap f) = (stripBy p l).flatMap f := by
  unfold stripBy
  rw [dropWhile_flatMap hne hp, List.reverse_flatMap, dropWhile_flatMap, List.reverse_flatMap]
  · simp [Function.comp_def]
  · exact fun a h => hne a (List.reverse_eq_nil_iff.mp h)
  · exact fun a b hb => hp a b (List.mem_reverse.mp hb)

end Strip

def isSpace (c : Char) : Bool := isSpaceCode c.toNat

/-- `str.strip()`. -/
def strip (text : String) : String := String.ofList (stripBy isSpace text.toList)

theorem strip_eq_self {text : String} (h : ∀ c ∈ text.toList, ¬ isSpace c) :
    strip text = text := by
  rw [strip, stripBy_eq_self h, String.ofList_toList]

@[simp] theorem strip_strip (text : String) : strip (strip text) = strip text := by
  unfold strip
  rw [String.toList_ofList, stripBy_stripBy]

section Case

/-- The other characters that `str.upper` writes with letters of ASCII alone. -/
def upperSpecial : List (Char × List Char) :=
  [('ß', ['S', 'S']), ('ı', ['I']), ('ſ', ['S']), ('ﬀ', ['F', 'F']), ('ﬁ', ['F', 'I']),
    ('ﬂ', ['F', 'L']), ('ﬃ', ['F', 'F', 'I']), ('ﬄ', ['F', 'F', 'L']), ('ﬅ', ['S', 'T']),
    ('ﬆ', ['S', 'T'])]

def upperChar (c : Char) : List Char := (upperSpecial.lookup c).getD [c.toUpper]

/-- `str.upper`, as far as it gives letters of ASCII; it leaves the others alone. -/
def upper (text : String) : String := String.ofList (text.toList.flatMap upperChar)

/-- `str.lower`, likewise. The Kelvin sign is the one other character for such a letter. -/
def lower (text : String) : String :=
  String.ofList (text.toList.map fun c => if c.toNat = 0x212a then 'k' else c.toLower)

theorem toNat_toUpper (c : Char) :
    c.toUpper.toNat = if 97 ≤ c.toNat ∧ c.toNat ≤ 122 then c.toNat - 32 else c.toNat := by
  have hlower : (c.val ≥ 'a'.val ∧ c.val ≤ 'z'.val) ↔ 97 ≤ c.toNat ∧ c.toNat ≤ 122 := by
    simp only [UInt32.le_iff_toNat_le, ge_iff_le]
    exact Iff.rfl
  by_cases h : c.val ≥ 'a'.val ∧ c.val ≤ 'z'.val
  · rw [if_pos (hlower.mp h)]
    have hrange := hlower.mp h
    have hval : c.val.toNat = c.toNat := rfl
    have hA : ('A'.val).toNat = 65 := rfl
    have ha : ('a'.val).toNat = 97 := rfl
    have hupper : c.toUpper = _ := dif_pos h
    rw [hupper]
    change (c.val + ('A'.val - 'a'.val)).toNat = _
    rw [UInt32.toNat_add, UInt32.toNat_sub]
    omega
  · rw [if_neg (fun h' => h (hlower.mpr h'))]
    exact congrArg Char.toNat (show c.toUpper = c from dif_neg h)

theorem upperChar_cases (c : Char) :
    (c, upperChar c) ∈ upperSpecial ∨ upperSpecial.lookup c = none ∧ upperChar c = [c.toUpper] := by
  unfold upperChar
  cases hlookup : upperSpecial.lookup c with
  | none => exact .inr ⟨rfl, rfl⟩
  | some written =>
    obtain ⟨before, after, hsplit, -⟩ := List.lookup_eq_some_iff.mp hlookup
    rw [hsplit]
    exact .inl (List.mem_append_right _ List.mem_cons_self)

theorem upperChar_ne_nil (c : Char) : upperChar c ≠ [] := by
  obtain hspecial | ⟨-, hupper⟩ := upperChar_cases c
  · exact (show ∀ e ∈ upperSpecial, e.2 ≠ [] by decide) _ hspecial
  · rw [hupper]
    exact List.cons_ne_nil _ _

theorem isSpace_of_mem_upperChar {c d : Char} (h : d ∈ upperChar c) : isSpace d = isSpace c := by
  obtain hspecial | ⟨-, hupper⟩ := upperChar_cases c
  · have hsame := (show ∀ e ∈ upperSpecial, e.2.all (isSpace · == isSpace e.1) by decide) _ hspecial
    exact eq_of_beq (List.all_eq_true.mp hsame d h)
  · rw [hupper, List.mem_singleton] at h
    rw [h]
    unfold isSpace isSpaceCode
    simp only [toNat_toUpper]
    split
    next hlower =>
      rw [Bool.eq_iff_iff]
      simp only [Bool.or_eq_true, Bool.and_eq_true, decide_eq_true_eq, beq_iff_eq]
      omega
    · rfl

theorem upperChar_flatMap (c : Char) : (upperChar c).flatMap upperChar = upperChar c := by
  obtain hspecial | ⟨hnone, hupper⟩ := upperChar_cases c
  · exact (show ∀ e ∈ upperSpecial, e.2.flatMap upperChar = e.2 by decide) _ hspecial
  · rw [hupper, List.flatMap_singleton]
    have hlast : c.toUpper.toUpper = c.toUpper := by
      apply Char.toNat_inj.mp
      rw [toNat_toUpper c.toUpper, toNat_toUpper c]
      split_ifs <;> omega
    obtain hspecial | ⟨-, htwice⟩ := upperChar_cases c.toUpper
    · -- A special character is none of the letters that `toUpper` writes.
      have hlarge := (show ∀ e ∈ upperSpecial, 128 ≤ e.1.toNat by decide) _ hspecial
      have hsame : c.toUpper = c := by
        apply Char.toNat_inj.mp
        rw [toNat_toUpper] at hlarge ⊢
        split_ifs at hlarge ⊢ <;> omega
      rw [hsame] at hspecial
      exact absurd (List.lookup_eq_none_iff.mp hnone _ hspecial) (by simp)
    · rw [htwice, hlast]

@[simp] theorem upper_upper (text : String) : upper (upper text) = upper text := by
  simp only [upper, String.toList_ofList, List.flatMap_assoc, upperChar_flatMap]

theorem strip_upper (text : String) : strip (upper text) = upper (strip text) := by
  simp only [strip, upper, String.toList_ofList]
  rw [stripBy_flatMap upperChar_ne_nil fun _ _ => isSpace_of_mem_upperChar]

/-- A text without white space in capital letters is its own strip. -/
theorem strip_of_upper {text : String} (h : ∀ c ∈ (upper text).toList, ¬ isSpace c) :
    strip text = text := by
  apply strip_eq_self
  intro c hc
  obtain ⟨d, rest, hwritten⟩ := List.exists_cons_of_ne_nil (upperChar_ne_nil c)
  have hd : d ∈ upperChar c := hwritten ▸ List.mem_cons_self
  rw [← isSpace_of_mem_upperChar hd]
  apply h
  rw [upper, String.toList_ofList]
  exact List.mem_flatMap.mpr ⟨c, hc, hd⟩

end Case

/-- `" ".join(text.split())`. -/
def joinWords (text : String) : String :=
  " ".intercalate (((text.toList.splitOnP isSpace).filter (· ≠ [])).map String.ofList)

end KAssetTrader.Unicode
