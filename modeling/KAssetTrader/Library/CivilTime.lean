import Mathlib.Tactic

/-!
Dates and times of the civil calendar and the texts that they are written as: numbers
of a fixed width with marks between them. A reader takes a number off the front of a
text and leaves the rest, so that the round trip of a whole text is put together from
those of its parts.
-/

namespace KAssetTrader.CivilTime

section Fixed

/-- A number as `width` digits. -/
def fixed : ℕ → ℕ → List Char
  | 0, _ => []
  | width + 1, n => fixed width (n / 10) ++ [Nat.digitChar (n % 10)]

/-- Take a number of `width` digits off a text. -/
def readFixed (width : ℕ) (text : List Char) : Option (ℕ × List Char) :=
  let digits := text.take width
  if digits.length = width ∧ digits.all Char.isDigit = true then
    some (Nat.ofDigitChars 10 digits 0, text.drop width)
  else none

def readMark (mark : Char) : List Char → Option (List Char)
  | [] => none
  | c :: rest => if c = mark then some rest else none

variable {width n : ℕ} {rest : List Char}

@[simp] theorem length_fixed (width n : ℕ) : (fixed width n).length = width := by
  induction width generalizing n with
  | zero => rfl
  | succ width ih => rw [fixed, List.length_append, ih, List.length_singleton]

theorem isDigit_digitChar {d : ℕ} (hd : d < 10) : (Nat.digitChar d).isDigit = true := by
  interval_cases d <;> decide

theorem fixed_isDigit {c : Char} (hc : c ∈ fixed width n) : c.isDigit = true := by
  induction width generalizing n with
  | zero => cases hc
  | succ width ih =>
    rcases List.mem_append.mp hc with hc | hc
    · exact ih hc
    · obtain rfl := List.mem_singleton.mp hc
      exact isDigit_digitChar (Nat.mod_lt n (by norm_num))

theorem ofDigitChars_fixed (hn : n < 10 ^ width) : Nat.ofDigitChars 10 (fixed width n) 0 = n := by
  induction width generalizing n with
  | zero =>
    obtain rfl : n = 0 := by simpa using hn
    rfl
  | succ width ih =>
    have hdiv : n / 10 < 10 ^ width := by
      rw [pow_succ] at hn
      omega
    have hlast : n % 10 < 10 := Nat.mod_lt n (by norm_num)
    rw [fixed, Nat.ofDigitChars_append, ih hdiv, Nat.ofDigitChars_cons_digitChar_of_lt_ten hlast,
      Nat.ofDigitChars_nil]
    omega

theorem readFixed_fixed (hn : n < 10 ^ width) :
    readFixed width (fixed width n ++ rest) = some (n, rest) := by
  have htake : (fixed width n ++ rest).take width = fixed width n := by
    rw [List.take_append_of_le_length (by simp), List.take_of_length_le (by simp)]
  have hdrop : (fixed width n ++ rest).drop width = rest := by
    rw [List.drop_append_of_le_length (by simp), List.drop_of_length_le (by simp), List.nil_append]
  have hall : (fixed width n).all Char.isDigit = true :=
    List.all_eq_true.mpr fun c hc => fixed_isDigit hc
  unfold readFixed
  dsimp only
  rw [htake, hdrop, if_pos ⟨length_fixed width n, hall⟩, ofDigitChars_fixed hn]

@[simp] theorem readMark_cons (mark : Char) (rest : List Char) :
    readMark mark (mark :: rest) = some rest := if_pos rfl

end Fixed

def IsLeap (year : ℕ) : Prop := year % 4 = 0 ∧ (year % 100 ≠ 0 ∨ year % 400 = 0)

instance (year : ℕ) : Decidable (IsLeap year) := inferInstanceAs (Decidable (_ ∧ _))

def daysInMonth (year month : ℕ) : ℕ :=
  if month = 2 then (if IsLeap year then 29 else 28)
  else if month = 4 ∨ month = 6 ∨ month = 9 ∨ month = 11 then 30 else 31

/-- The dates of the years that a `date` can hold. -/
def IsDate (year month day : ℕ) : Prop :=
  (1 ≤ year ∧ year ≤ 9999) ∧ (1 ≤ month ∧ month ≤ 12) ∧ 1 ≤ day ∧ day ≤ daysInMonth year month

instance (year month day : ℕ) : Decidable (IsDate year month day) :=
  inferInstanceAs (Decidable (_ ∧ _ ∧ _))

structure Date where
  year : ℕ
  month : ℕ
  day : ℕ
  valid : IsDate year month day
  deriving DecidableEq

/-- `date.min` -/
def dateMin : Date := ⟨1, 1, 1, by decide⟩

theorem Date.day_lt (d : Date) : d.day < 100 := by
  have hday := d.valid.2.2.2
  have hmonth : daysInMonth d.year d.month ≤ 31 := by
    unfold daysInMonth
    split_ifs <;> omega
  omega

/-- `isoformat()` of a date. -/
def Date.isoformat (d : Date) : List Char :=
  fixed 4 d.year ++ '-' :: (fixed 2 d.month ++ '-' :: fixed 2 d.day)

def readDate (text : List Char) : Option (Date × List Char) := do
  let (year, rest) ← readFixed 4 text
  let rest ← readMark '-' rest
  let (month, rest) ← readFixed 2 rest
  let rest ← readMark '-' rest
  let (day, rest) ← readFixed 2 rest
  if h : IsDate year month day then return (⟨year, month, day, h⟩, rest) else none

/-- `date.fromisoformat(text)`, for the extended form. -/
def Date.fromIsoformat (text : List Char) : Option Date :=
  match readDate text with
  | some (d, []) => some d
  | _ => none

theorem readDate_isoformat (d : Date) (rest : List Char) :
    readDate (d.isoformat ++ rest) = some (d, rest) := by
  have hyear : d.year < 10 ^ 4 := by
    have hyear := d.valid.1.2
    omega
  have hmonth : d.month < 10 ^ 2 := by
    have hmonth := d.valid.2.1.2
    omega
  have hday : d.day < 10 ^ 2 := d.day_lt
  have htext : d.isoformat ++ rest =
      fixed 4 d.year ++ '-' :: (fixed 2 d.month ++ '-' :: (fixed 2 d.day ++ rest)) := by
    simp [Date.isoformat]
  rw [htext, readDate, readFixed_fixed hyear]
  simp only [Option.bind_eq_bind, Option.bind_some, readMark_cons, readFixed_fixed hmonth,
    readFixed_fixed hday]
  rw [dif_pos d.valid]
  rfl

theorem Date.fromIsoformat_isoformat (d : Date) : Date.fromIsoformat d.isoformat = some d := by
  have hread := readDate_isoformat d []
  rw [List.append_nil] at hread
  rw [Date.fromIsoformat, hread]

/-- The number that the digits of a date make; dates compare as these do. -/
def Date.stamp (d : Date) : ℕ := (d.year * 100 + d.month) * 100 + d.day

theorem Date.stamp_injective : Function.Injective Date.stamp := by
  intro a b h
  have hdayA := a.day_lt
  have hdayB := b.day_lt
  have hmonthA := a.valid.2.1.2
  have hmonthB := b.valid.2.1.2
  obtain ⟨year, month, day, _⟩ := a
  obtain ⟨year', month', day', _⟩ := b
  simp only [Date.stamp] at h hdayA hdayB hmonthA hmonthB
  obtain ⟨rfl, rfl, rfl⟩ : year = year' ∧ month = month' ∧ day = day' := by omega
  rfl

instance : LinearOrder Date where
  le a b := a.stamp ≤ b.stamp
  lt a b := a.stamp < b.stamp
  le_refl a := le_refl a.stamp
  le_trans a b c hab hbc := le_trans (b := b.stamp) hab hbc
  lt_iff_le_not_ge a b := lt_iff_le_not_ge (a := a.stamp) (b := b.stamp)
  le_antisymm a b hab hba := Date.stamp_injective (le_antisymm hab hba)
  le_total a b := le_total a.stamp b.stamp
  toDecidableLE a b := inferInstanceAs (Decidable (a.stamp ≤ b.stamp))
  toDecidableEq := inferInstance

def Date.ofParts? (year month day : ℕ) : Option Date :=
  if h : IsDate year month day then some ⟨year, month, day, h⟩ else none

def daysBeforeMonth (year month : ℕ) : ℕ :=
  ((List.range' 1 (month - 1)).map (daysInMonth year)).sum

/-- `toordinal()`: the first of January of the year one is day one. -/
def Date.toOrdinal (d : Date) : ℤ :=
  let before := d.year - 1
  (before * 365 + before / 4 + before / 400 : ℕ) - (before / 100 : ℕ) +
    daysBeforeMonth d.year d.month + d.day

example : (Date.mk 1970 1 1 (by decide)).toOrdinal = 719163 := by decide

/-- A date with a time of the day, without a zone. -/
structure Moment where
  date : Date
  hour : ℕ
  minute : ℕ
  second : ℕ
  microsecond : ℕ
  valid : hour < 24 ∧ minute < 60 ∧ second < 60 ∧ microsecond < 1000000

/-- The day after a date, as long as it is one that a `date` can hold. -/
def Date.next? (d : Date) : Option Date :=
  if d.day < daysInMonth d.year d.month then ofParts? d.year d.month (d.day + 1)
  else if d.month < 12 then ofParts? d.year (d.month + 1) 1
  else ofParts? (d.year + 1) 1 1

/-- The day before a date. -/
def Date.prev? (d : Date) : Option Date :=
  if 1 < d.day then ofParts? d.year d.month (d.day - 1)
  else if 1 < d.month then ofParts? d.year (d.month - 1) (daysInMonth d.year (d.month - 1))
  else ofParts? (d.year - 1) 12 31

def fraction (microsecond : ℕ) : List Char :=
  if microsecond = 0 then [] else '.' :: fixed 6 microsecond

/-- `isoformat()` of a moment in UTC. -/
def Moment.isoformat (m : Moment) : List Char :=
  m.date.isoformat ++ 'T' :: (fixed 2 m.hour ++ ':' :: (fixed 2 m.minute ++ ':' ::
    (fixed 2 m.second ++ (fraction m.microsecond ++ "+00:00".toList))))

/-- The microseconds at the front of a text; without a point there are none. -/
def readFraction (text : List Char) : Option (ℕ × List Char) :=
  match readMark '.' text with
  | some rest => readFixed 6 rest
  | none => some (0, text)

/-- `datetime.fromisoformat(text)`, for the extended form of moments in UTC. -/
def Moment.fromIsoformat (text : List Char) : Option Moment := do
  let (date, rest) ← readDate text
  let rest ← readMark 'T' rest
  let (hour, rest) ← readFixed 2 rest
  let rest ← readMark ':' rest
  let (minute, rest) ← readFixed 2 rest
  let rest ← readMark ':' rest
  let (second, rest) ← readFixed 2 rest
  let (microsecond, rest) ← readFraction rest
  if h : (hour < 24 ∧ minute < 60 ∧ second < 60 ∧ microsecond < 1000000) ∧
      rest = "+00:00".toList then
    return ⟨date, hour, minute, second, microsecond, h.1⟩
  else none

theorem readFraction_fraction {microsecond : ℕ} (h : microsecond < 1000000) :
    readFraction (fraction microsecond ++ "+00:00".toList) =
      some (microsecond, "+00:00".toList) := by
  unfold fraction
  split
  next hzero =>
    subst hzero
    rfl
  · have hfixed : microsecond < 10 ^ 6 := h
    rw [readFraction, List.cons_append, readMark_cons]
    exact readFixed_fixed hfixed

theorem Moment.fromIsoformat_isoformat (m : Moment) :
    Moment.fromIsoformat m.isoformat = some m := by
  obtain ⟨hhour, hminute, hsecond, hmicrosecond⟩ := m.valid
  have hhour' : m.hour < 10 ^ 2 := by omega
  have hminute' : m.minute < 10 ^ 2 := by omega
  have hsecond' : m.second < 10 ^ 2 := by omega
  rw [Moment.fromIsoformat, Moment.isoformat, readDate_isoformat]
  simp only [Option.bind_eq_bind, Option.bind_some, readMark_cons, readFixed_fixed hhour',
    readFixed_fixed hminute', readFixed_fixed hsecond', readFraction_fraction hmicrosecond]
  rw [dif_pos ⟨m.valid, trivial⟩]
  rfl

section Days

variable {d other : Date}

theorem ofParts?_eq_some {year month day : ℕ} (h : Date.ofParts? year month day = some d) :
    d.year = year ∧ d.month = month ∧ d.day = day := by
  unfold Date.ofParts? at h
  split at h
  · cases h
    exact ⟨rfl, rfl, rfl⟩
  · cases h

theorem daysBeforeMonth_succ (year : ℕ) {month : ℕ} (hmonth : 1 ≤ month) :
    daysBeforeMonth year (month + 1) = daysBeforeMonth year month + daysInMonth year month := by
  have hcount : month + 1 - 1 = (month - 1) + 1 := by omega
  have hlast : 1 + (month - 1) = month := by omega
  rw [daysBeforeMonth, hcount, List.range'_1_concat, List.map_append, List.sum_append, hlast]
  simp [daysBeforeMonth]

theorem daysBeforeMonth_last (year : ℕ) :
    daysBeforeMonth year 12 + daysInMonth year 12 = 365 + if IsLeap year then 1 else 0 := by
  by_cases hleap : IsLeap year <;>
    simp [daysBeforeMonth, daysInMonth, List.range', hleap]

theorem toOrdinal_newYear (year : ℕ) (hyear : 1 ≤ year) (hday : IsDate year 12 31)
    (hnext : IsDate (year + 1) 1 1) :
    (Date.mk (year + 1) 1 1 hnext).toOrdinal = (Date.mk year 12 31 hday).toOrdinal + 1 := by
  have hlast := daysBeforeMonth_last year
  have hmonth : daysInMonth year 12 = 31 := rfl
  have hfirst : daysBeforeMonth (year + 1) 1 = 0 := rfl
  simp only [Date.toOrdinal, hfirst]
  rw [hmonth] at hlast
  by_cases hleap : IsLeap year
  · rw [if_pos hleap] at hlast
    unfold IsLeap at hleap
    omega
  · rw [if_neg hleap] at hlast
    unfold IsLeap at hleap
    omega

theorem toOrdinal_next (h : d.next? = some other) : other.toOrdinal = d.toOrdinal + 1 := by
  have hvalid := d.valid
  unfold Date.next? at h
  split_ifs at h with hday hmonth
  · obtain ⟨hyear', hmonth', hday'⟩ := ofParts?_eq_some h
    simp only [Date.toOrdinal, hyear', hmonth', hday']
    push_cast
    ring
  · obtain ⟨hyear', hmonth', hday'⟩ := ofParts?_eq_some h
    have hsucc := daysBeforeMonth_succ d.year hvalid.2.1.1
    have hlast : d.day = daysInMonth d.year d.month :=
      le_antisymm hvalid.2.2.2 (not_lt.mp hday)
    simp only [Date.toOrdinal, hyear', hmonth', hday', hsucc, hlast]
    push_cast
    ring
  · obtain ⟨year, month, day, _⟩ := d
    obtain ⟨year', month', day', hvalid'⟩ := other
    obtain ⟨hyear', hmonth', hday'⟩ := ofParts?_eq_some h
    dsimp only at hyear' hmonth' hday' hday hmonth hvalid
    subst year' month' day'
    obtain rfl : month = 12 := le_antisymm hvalid.2.1.2 (not_lt.mp hmonth)
    obtain rfl : day = 31 := le_antisymm hvalid.2.2.2 (not_lt.mp hday)
    exact toOrdinal_newYear _ hvalid.1.1 hvalid hvalid'

theorem toOrdinal_prev (h : d.prev? = some other) : other.toOrdinal = d.toOrdinal - 1 := by
  have hvalid := d.valid
  unfold Date.prev? at h
  split_ifs at h with hday hmonth
  · obtain ⟨hyear', hmonth', hday'⟩ := ofParts?_eq_some h
    simp only [Date.toOrdinal, hyear', hmonth', hday']
    push_cast [Nat.cast_sub hday.le]
    ring
  · obtain ⟨hyear', hmonth', hday'⟩ := ofParts?_eq_some h
    have hsucc := daysBeforeMonth_succ d.year (Nat.le_sub_one_of_lt hmonth)
    rw [Nat.sub_add_cancel hmonth.le] at hsucc
    have hfirst : d.day = 1 := le_antisymm (not_lt.mp hday) hvalid.2.2.1
    simp only [Date.toOrdinal, hyear', hmonth', hday', hsucc, hfirst]
    push_cast
    ring
  · obtain ⟨year, month, day, _⟩ := d
    obtain ⟨year', month', day', hvalid'⟩ := other
    obtain ⟨hyear', hmonth', hday'⟩ := ofParts?_eq_some h
    dsimp only at hyear' hmonth' hday' hday hmonth hvalid
    subst year' month' day'
    obtain rfl : month = 1 := le_antisymm (not_lt.mp hmonth) hvalid.2.1.1
    obtain rfl : day = 1 := le_antisymm (not_lt.mp hday) hvalid.2.2.1
    obtain ⟨before, rfl⟩ : ∃ before, year = before + 1 := ⟨year - 1, by have := hvalid.1.1; omega⟩
    have hnew := toOrdinal_newYear before hvalid'.1.1 hvalid' hvalid
    rw [hnew]
    simp

end Days

/-- The offset of a zone from UTC, in microseconds; Python takes none of a day or more. -/
def UtcOffset : Type := { offset : ℤ // |offset| < 86400000000 }

def UtcOffset.zero : UtcOffset := ⟨0, by norm_num⟩

namespace Moment

variable (m : Moment)

/-- The microseconds since midnight. -/
def timeOfDay : ℤ := ((m.hour * 60 + m.minute) * 60 + m.second) * 1000000 + m.microsecond

/-- The microseconds that differences are counted in. -/
def micros : ℤ := m.date.toOrdinal * 86400000000 + m.timeOfDay

/-- A time of the day on a date, from its microseconds since midnight. -/
def ofTime (date : Date) (time : ℤ) : Moment where
  date := date
  hour := (time / 3600000000 % 24).toNat
  minute := (time / 60000000 % 60).toNat
  second := (time / 1000000 % 60).toNat
  microsecond := (time % 1000000).toNat
  valid := by omega

/-- `datetime - timedelta` for an offset of less than a day. -/
def minus (offset : UtcOffset) : Except String Moment :=
  let time := m.timeOfDay - offset.val
  let date? := if time < 0 then m.date.prev?
    else if time < 86400000000 then some m.date else m.date.next?
  match date? with
  | some date => .ok (ofTime date (time % 86400000000))
  | none => .error "date value out of range"

theorem timeOfDay_ofTime (date : Date) {time : ℤ} (hnonneg : 0 ≤ time) (hlt : time < 86400000000) :
    (ofTime date time).timeOfDay = time := by
  simp only [timeOfDay, ofTime]
  omega

theorem timeOfDay_between : 0 ≤ m.timeOfDay ∧ m.timeOfDay < 86400000000 := by
  have hvalid := m.valid
  unfold timeOfDay
  omega

theorem ofTime_timeOfDay : ofTime m.date m.timeOfDay = m := by
  obtain ⟨date, hour, minute, second, microsecond, hvalid⟩ := m
  have hhour : (((hour * 60 + minute) * 60 + second) * 1000000 + microsecond : ℤ) /
      3600000000 % 24 = hour := by omega
  have hminute : (((hour * 60 + minute) * 60 + second) * 1000000 + microsecond : ℤ) /
      60000000 % 60 = minute := by omega
  have hsecond : (((hour * 60 + minute) * 60 + second) * 1000000 + microsecond : ℤ) /
      1000000 % 60 = second := by omega
  have hmicrosecond : (((hour * 60 + minute) * 60 + second) * 1000000 + microsecond : ℤ) %
      1000000 = microsecond := by omega
  simp only [ofTime, timeOfDay, hhour, hminute, hsecond, hmicrosecond, Int.toNat_natCast]

theorem minus_zero : m.minus .zero = .ok m := by
  obtain ⟨hlow, hhigh⟩ := m.timeOfDay_between
  have htime : m.timeOfDay - UtcOffset.zero.val = m.timeOfDay := sub_zero _
  rw [minus, htime, if_neg hlow.not_gt, if_pos hhigh, Int.emod_eq_of_lt hlow hhigh]
  exact congrArg Except.ok m.ofTime_timeOfDay

variable {m}

theorem micros_minus {offset : UtcOffset} {moved : Moment} (h : m.minus offset = .ok moved) :
    moved.micros = m.micros - offset.val := by
  obtain ⟨hlow, hhigh⟩ := m.timeOfDay_between
  obtain ⟨hbelow, habove⟩ := abs_lt.mp offset.property
  have hreduced (date : Date) : (ofTime date ((m.timeOfDay - offset.val) % 86400000000)).timeOfDay =
      (m.timeOfDay - offset.val) % 86400000000 :=
    timeOfDay_ofTime date (by omega) (by omega)
  unfold minus at h
  dsimp only at h
  split at h
  next date hdate =>
    cases h
    simp only [micros, hreduced]
    split_ifs at hdate with hearly hsame
    · have hprev := toOrdinal_prev hdate
      simp only [ofTime]
      omega
    · cases hdate
      simp only [ofTime]
      omega
    · have hnext := toOrdinal_next hdate
      simp only [ofTime]
      omega
  · cases h

end Moment

end KAssetTrader.CivilTime
