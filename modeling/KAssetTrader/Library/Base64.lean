import KAssetTrader.Library.CodePoints

/-!
The URL-safe base64 of bytes, with and without its padding. The decoder keeps the bits that
no byte has taken yet; it passes over the characters outside of the alphabet, and stops at the
padding that ends a group of four.
-/

namespace KAssetTrader.Base64

open CodePoints

abbrev Byte := Fin 256

instance byte_neZero : NeZero 256 := ⟨by decide⟩

abbrev Sextet := Fin 64

/-- `=` -/
def pad : CodePoint := 61

def digit (v : Sextet) : CodePoint :=
  Fin.ofNat 0x110000 (if v.val < 26 then 65 + v.val else if v.val < 52 then 71 + v.val
    else if v.val < 62 then v.val - 4 else if v.val = 62 then 45 else 95)

/-- The six bits of a character; those of the other alphabet are read as well. -/
def value? (c : CodePoint) : Option Sextet :=
  if 65 ≤ c.val ∧ c.val ≤ 90 then some (Fin.ofNat 64 (c.val - 65))
  else if 97 ≤ c.val ∧ c.val ≤ 122 then some (Fin.ofNat 64 (c.val - 71))
  else if 48 ≤ c.val ∧ c.val ≤ 57 then some (Fin.ofNat 64 (c.val + 4))
  else if c.val = 45 ∨ c.val = 43 then some 62
  else if c.val = 95 ∨ c.val = 47 then some 63
  else none

def digits : List Byte → Text
  | [] => []
  | [a] => [digit (Fin.ofNat 64 (a.val / 4)), digit (Fin.ofNat 64 (a.val % 4 * 16))]
  | [a, b] =>
    [digit (Fin.ofNat 64 (a.val / 4)), digit (Fin.ofNat 64 (a.val % 4 * 16 + b.val / 16)),
      digit (Fin.ofNat 64 (b.val % 16 * 4))]
  | a :: b :: c :: rest =>
    digit (Fin.ofNat 64 (a.val / 4)) :: digit (Fin.ofNat 64 (a.val % 4 * 16 + b.val / 16)) ::
      digit (Fin.ofNat 64 (b.val % 16 * 4 + c.val / 64)) :: digit (Fin.ofNat 64 (c.val % 64)) ::
        digits rest

/-- `base64.urlsafe_b64encode(bytes)` -/
def urlsafeEncode (bytes : List Byte) : Text :=
  digits bytes ++ List.replicate ((3 - bytes.length % 3) % 3) pad

/-- `text.rstrip("=")` -/
def rstripPad (text : Text) : Text := (text.reverse.dropWhile fun c => decide (c = pad)).reverse

/-- The rest of a decoding: the place in a group of four, the bits that are left over, and the
padding that has been seen. None where the text ends inside of a group. -/
def decodeFrom (quad left pads : ℕ) : Text → Option (List Byte)
  | [] => if quad = 0 then some [] else none
  | c :: rest =>
    if c = pad then
      if quad < 2 then decodeFrom quad left pads rest
      else if 4 ≤ quad + (pads + 1) then some []
      else decodeFrom quad left (pads + 1) rest
    else
      match value? c with
      | none => decodeFrom quad left pads rest
      | some v =>
        if quad = 0 then decodeFrom 1 v.val 0 rest
        else if quad = 1 then
          (Fin.ofNat 256 (left * 4 + v.val / 16) :: ·) <$> decodeFrom 2 (v.val % 16) 0 rest
        else if quad = 2 then
          (Fin.ofNat 256 (left * 16 + v.val / 4) :: ·) <$> decodeFrom 3 (v.val % 4) 0 rest
        else (Fin.ofNat 256 (left * 64 + v.val) :: ·) <$> decodeFrom 0 0 0 rest

/-- `binascii.a2b_base64(text)` after the translation of the URL-safe alphabet. -/
def decode (text : Text) : Option (List Byte) := decodeFrom 0 0 0 text

variable {v : Sextet} {c : CodePoint} {text rest : Text} {bytes : List Byte}
  {quad left pads : ℕ}

@[simp] theorem value?_digit (v : Sextet) : value? (digit v) = some v := by
  revert v
  decide

theorem digit_ne_pad (v : Sextet) : digit v ≠ pad := by
  revert v
  decide

theorem value?_pad : value? pad = none := by decide

section

variable (h : value? c = some v)
include h

theorem ne_pad_of_value? : c ≠ pad := by
  rintro rfl
  rw [value?_pad] at h
  cases h

theorem decodeFrom_first :
    decodeFrom 0 left pads (c :: rest) = decodeFrom 1 v.val 0 rest := by
  rw [decodeFrom, if_neg (ne_pad_of_value? h), h]
  rfl

theorem decodeFrom_second :
    decodeFrom 1 left pads (c :: rest) =
      (Fin.ofNat 256 (left * 4 + v.val / 16) :: ·) <$> decodeFrom 2 (v.val % 16) 0 rest := by
  rw [decodeFrom, if_neg (ne_pad_of_value? h), h]
  rfl

theorem decodeFrom_third :
    decodeFrom 2 left pads (c :: rest) =
      (Fin.ofNat 256 (left * 16 + v.val / 4) :: ·) <$> decodeFrom 3 (v.val % 4) 0 rest := by
  rw [decodeFrom, if_neg (ne_pad_of_value? h), h]
  rfl

theorem decodeFrom_fourth :
    decodeFrom 3 left pads (c :: rest) =
      (Fin.ofNat 256 (left * 64 + v.val) :: ·) <$> decodeFrom 0 0 0 rest := by
  rw [decodeFrom, if_neg (ne_pad_of_value? h), h]
  rfl

end

theorem decodeFrom_padding (h : 2 ≤ quad) : decodeFrom quad left pads [pad, pad] = some [] := by
  have hnot : ¬ quad < 2 := not_lt.mpr h
  have henough : 4 ≤ quad + (pads + 1 + 1) := by omega
  rw [decodeFrom, if_pos rfl, if_neg hnot]
  split_ifs
  · rfl
  · rw [decodeFrom, if_pos rfl, if_neg hnot, if_pos henough]

theorem decodeFrom_group (a b c : Byte) :
    decodeFrom 0 left pads
        (digit (Fin.ofNat 64 (a.val / 4)) :: digit (Fin.ofNat 64 (a.val % 4 * 16 + b.val / 16)) ::
          digit (Fin.ofNat 64 (b.val % 16 * 4 + c.val / 64)) ::
            digit (Fin.ofNat 64 (c.val % 64)) :: rest) =
      ([a, b, c] ++ ·) <$> decodeFrom 0 0 0 rest := by
  have ha := a.isLt
  have hb := b.isLt
  have hc := c.isLt
  have hfirst : Fin.ofNat 256 (a.val / 4 % 64 * 4 + (a.val % 4 * 16 + b.val / 16) % 64 / 16) = a :=
    Fin.ext (by simp only [Fin.ofNat]; omega)
  have hsecond : Fin.ofNat 256 ((a.val % 4 * 16 + b.val / 16) % 64 % 16 * 16 +
      (b.val % 16 * 4 + c.val / 64) % 64 / 4) = b :=
    Fin.ext (by simp only [Fin.ofNat]; omega)
  have hthird : Fin.ofNat 256 ((b.val % 16 * 4 + c.val / 64) % 64 % 4 * 64 + c.val % 64 % 64) = c :=
    Fin.ext (by simp only [Fin.ofNat]; omega)
  rw [decodeFrom_first (value?_digit _), decodeFrom_second (value?_digit _),
    decodeFrom_third (value?_digit _), decodeFrom_fourth (value?_digit _)]
  simp only [Fin.val_ofNat, hfirst, hsecond, hthird]
  cases decodeFrom 0 0 0 rest with
  | none => rfl
  | some bytes => rfl

theorem decode_urlsafeEncode (bytes : List Byte) : decode (urlsafeEncode bytes) = some bytes := by
  unfold decode urlsafeEncode
  induction bytes using digits.induct with
  | case1 => rfl
  | case2 a =>
    have ha := a.isLt
    have hbyte : Fin.ofNat 256 (a.val / 4 % 64 * 4 + a.val % 4 * 16 % 64 / 16) = a :=
      Fin.ext (by simp only [Fin.ofNat]; omega)
    change decodeFrom 0 0 0 (digit _ :: digit _ :: [pad, pad]) = _
    rw [decodeFrom_first (value?_digit _), decodeFrom_second (value?_digit _),
      decodeFrom_padding le_rfl]
    simp only [Fin.val_ofNat, hbyte]
    rfl
  | case3 a b =>
    have ha := a.isLt
    have hb := b.isLt
    have hfirst : Fin.ofNat 256
        (a.val / 4 % 64 * 4 + (a.val % 4 * 16 + b.val / 16) % 64 / 16) = a :=
      Fin.ext (by simp only [Fin.ofNat]; omega)
    have hsecond : Fin.ofNat 256 ((a.val % 4 * 16 + b.val / 16) % 64 % 16 * 16 +
        b.val % 16 * 4 % 64 / 4) = b :=
      Fin.ext (by simp only [Fin.ofNat]; omega)
    change decodeFrom 0 0 0 (digit _ :: digit _ :: digit _ :: [pad]) = _
    rw [decodeFrom_first (value?_digit _), decodeFrom_second (value?_digit _),
      decodeFrom_third (value?_digit _)]
    simp only [Fin.val_ofNat, hfirst, hsecond]
    rfl
  | case4 a b c rest ih =>
    have hlength : (a :: b :: c :: rest).length % 3 = rest.length % 3 := by
      simp only [List.length_cons]
      omega
    rw [digits, hlength]
    simp only [List.cons_append]
    rw [decodeFrom_group, ih]
    rfl

theorem mem_digits (h : c ∈ digits bytes) : ∃ v, c = digit v := by
  induction bytes using digits.induct with
  | case1 => cases h
  | case2 a =>
    simp only [digits, List.mem_cons, List.not_mem_nil, or_false] at h
    rcases h with rfl | rfl
    · exact ⟨_, rfl⟩
    · exact ⟨_, rfl⟩
  | case3 a b =>
    simp only [digits, List.mem_cons, List.not_mem_nil, or_false] at h
    rcases h with rfl | rfl | rfl
    · exact ⟨_, rfl⟩
    · exact ⟨_, rfl⟩
    · exact ⟨_, rfl⟩
  | case4 a b c rest ih =>
    simp only [digits, List.mem_cons] at h
    rcases h with rfl | rfl | rfl | rfl | h
    · exact ⟨_, rfl⟩
    · exact ⟨_, rfl⟩
    · exact ⟨_, rfl⟩
    · exact ⟨_, rfl⟩
    · exact ih h

theorem length_digits (bytes : List Byte) :
    (digits bytes).length = (4 * bytes.length + 2) / 3 := by
  induction bytes using digits.induct with
  | case1 => rfl
  | case2 a => simp [digits]
  | case3 a b => simp [digits]
  | case4 a b c rest ih =>
    simp only [digits, List.length_cons, ih]
    omega

theorem rstripPad_urlsafeEncode (bytes : List Byte) :
    rstripPad (urlsafeEncode bytes) = digits bytes := by
  have hdata : ∀ c ∈ (digits bytes).reverse, ¬ decide (c = pad) = true := by
    intro c hc
    obtain ⟨v, rfl⟩ := mem_digits (List.mem_reverse.mp hc)
    exact fun hpad => digit_ne_pad v (of_decide_eq_true hpad)
  unfold rstripPad urlsafeEncode
  rw [List.reverse_append, List.reverse_replicate, List.dropWhile_append_of_pos]
  · have hkept : (digits bytes).reverse.dropWhile (fun c => decide (c = pad)) =
        (digits bytes).reverse := by
      cases hrev : (digits bytes).reverse with
      | nil => rfl
      | cons c rest =>
        rw [List.dropWhile_cons_of_neg]
        exact hdata c (hrev ▸ List.mem_cons_self)
    rw [hkept, List.reverse_reverse]
  · intro c hc
    exact decide_eq_true (List.eq_of_mem_replicate hc)

end KAssetTrader.Base64
