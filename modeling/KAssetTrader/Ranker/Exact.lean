import KAssetTrader.Library.Precision
import KAssetTrader.Ranker.Rank

/-!
The indicators over exact arithmetic. With at least 252 sound bars every slice but one holds
something and every divisor is positive, so that each indicator exists, and those that are
scores lie between 0 and 1. The exception is the baseline of the volume hangover, which is
empty when the hangover is to last 39 days or more.
-/

namespace KAssetTrader.Ranker

open Arithmetic

open Backtest (PriceBar)
open Checked
open Sequences (slice sliceFrom)

def InUnit (x : Decimal) : Prop := 0 ≤ x ∧ x ≤ 1

theorem inUnit_clampUnit (x : Decimal) : InUnit (clampUnit x) := by
  unfold InUnit clampUnit
  exact ⟨le_min zero_le_one (le_max_left 0 x), min_le_left _ _⟩

namespace Arithmetic

@[simp] theorem exact_add (x y : Decimal) : exact.add x y = .ok (x + y) := rfl

@[simp] theorem exact_sub (x y : Decimal) : exact.sub x y = .ok (x - y) := rfl

@[simp] theorem exact_mul (x y : Decimal) : exact.mul x y = .ok (x * y) := rfl

@[simp] theorem exact_quantize (x : Decimal) : exact.quantize x = .ok (x.quantize 6) := rfl

variable {x y : Decimal} {values : List Decimal}

theorem exact_div (hy : y ≠ 0) : exact.div x y = .ok (x / y) := if_neg hy

theorem exact_sum : exact.sum values = .ok values.sum := by
  have hfrom (start : Decimal) : values.foldlM exact.add start = .ok (start + values.sum) := by
    induction values generalizing start with
    | nil => simp [pure, Except.pure]
    | cons v rest ih =>
      rw [List.foldlM_cons, exact_add, ok_bind, ih, List.sum_cons, add_assoc]
  rw [sum, hfrom, zero_add]

theorem exact_mean (h : values ≠ []) : exact.mean values = .ok (values.sum / values.length) := by
  have hlength : (values.length : Decimal) ≠ 0 := by
    exact_mod_cast (List.length_pos_iff.mpr h).ne'
  rw [mean, if_neg h, exact_sum, ok_bind, exact_div hlength]

theorem mean_nil (A : Arithmetic) :
    A.mean [] = .error (.value "mean requires at least one value") := rfl

theorem mean_returns (h : values ≠ []) : Returns (exact.mean values) fun _ => True :=
  ⟨_, exact_mean h, trivial⟩

theorem mean_pos (h : values ≠ []) (hpos : ∀ v ∈ values, 0 < v) :
    Returns (exact.mean values) fun m => 0 < m := by
  refine ⟨_, exact_mean h, ?_⟩
  have hlength : (0 : Decimal) < values.length := by exact_mod_cast List.length_pos_iff.mpr h
  exact div_pos (List.sum_pos values hpos h) hlength

theorem div_returns (hy : y ≠ 0) : Returns (exact.div x y) fun _ => True :=
  ⟨_, exact_div hy, trivial⟩

end Arithmetic

section Sequences

variable {values : List Decimal} {i : ℤ}

theorem index_returns {α : Type} {values : List α} (hlow : -values.length ≤ i)
    (hhigh : i < values.length) : Returns (index values i) fun v => v ∈ values := by
  obtain ⟨v, hv, hfound⟩ := Sequences.exists_at? hlow hhigh
  unfold index
  rw [hfound]
  exact returns_ok hv

theorem greatest_returns (h : values ≠ []) : Returns (greatest values) fun v => v ∈ values := by
  unfold greatest
  cases hmax : values.max? with
  | none => exact absurd (List.max?_eq_none_iff.mp hmax) h
  | some v => exact returns_ok (List.max?_mem hmax)

theorem least_returns (h : values ≠ []) : Returns (least values) fun v => v ∈ values := by
  unfold least
  cases hmin : values.min? with
  | none => exact absurd (List.min?_eq_none_iff.mp hmin) h
  | some v => exact returns_ok (List.min?_mem hmin)

theorem slice_long {α : Type} {values : List α} {start stop : ℤ} (hlength : 252 ≤ values.length)
    (hstop : stop < 0) (hlow : -252 < stop) (horder : start < stop) :
    slice values start stop ≠ [] := by
  rw [Sequences.slice_ne_nil_iff, Sequences.bound_of_neg hstop,
    Sequences.bound_of_neg (horder.trans hstop)]
  omega

theorem sliceFrom_long {α : Type} {values : List α} {start : ℤ} (hlength : 252 ≤ values.length)
    (hstart : start < 0) : sliceFrom values start ≠ [] := by
  rw [Sequences.sliceFrom_ne_nil_iff, Sequences.bound_of_neg hstart]
  omega

end Sequences

section Indicators

variable {closes highs lows volumes trueRangeValues : List Decimal}

theorem returnOver_returns {periods : ℕ} (hperiods : periods < closes.length)
    (hpos : ∀ close ∈ closes, 0 < close) :
    Returns (returnOver .exact closes periods) fun _ => True := by
  unfold returnOver
  refine (index_returns (by omega) (by omega)).bind fun last _ => ?_
  refine (index_returns (by push_cast; omega) (by push_cast; omega)).bind fun first hfirst => ?_
  refine (div_returns (hpos first hfirst).ne').bind fun ratio _ => ?_
  exact returns_ok trivial

theorem highDistance_returns {high close : Decimal} (hhigh : 0 < high) :
    Returns (highDistance .exact high close) fun _ => True := by
  unfold highDistance
  rw [exact_sub, ok_bind, exact_div hhigh.ne', ok_bind]
  exact returns_ok trivial

theorem higherHighLow_returns (hhighs : 252 ≤ highs.length) (hlows : 252 ≤ lows.length) :
    Returns (higherHighLow .exact highs lows) InUnit := by
  unfold higherHighLow
  refine (greatest_returns (sliceFrom_long hhighs (by omega))).bind fun recentHigh _ => ?_
  refine (greatest_returns (slice_long hhighs (by omega) (by omega) (by omega))).bind
    fun priorHigh _ => ?_
  refine (least_returns (sliceFrom_long hlows (by omega))).bind fun recentLow _ => ?_
  refine (least_returns (slice_long hlows (by omega) (by omega) (by omega))).bind
    fun priorLow _ => ?_
  refine returns_ok ?_
  unfold InUnit
  split_ifs <;> norm_num

variable {previousClose : Option Decimal} {bars : List PriceBar}

theorem trueRange_returns {bar : PriceBar} :
    Returns (trueRange .exact previousClose bar) fun _ => True := by
  cases previousClose with
  | none => exact returns_ok trivial
  | some close => exact returns_ok trivial

theorem trueRanges_returns :
    Returns (trueRanges .exact previousClose bars) fun values =>
      values.length = bars.length := by
  induction bars generalizing previousClose with
  | nil => exact returns_ok rfl
  | cons bar rest ih =>
    unfold trueRanges
    refine trueRange_returns.bind fun value _ => ?_
    refine ih.bind fun values hvalues => ?_
    exact returns_ok (by simp [hvalues])

theorem atrCompression_returns {recentAtr : Decimal} (hranges : 252 ≤ trueRangeValues.length)
    (hcloses : 252 ≤ closes.length) (hpos : ∀ close ∈ closes, 0 < close) :
    Returns (atrCompression .exact recentAtr trueRangeValues closes) InUnit := by
  unfold atrCompression
  refine (mean_returns (slice_long hranges (by omega) (by omega) (by omega))).bind
    fun priorAtr _ => ?_
  refine (index_returns (by omega) (by omega)).bind fun close hclose => ?_
  refine (div_returns (hpos close hclose).ne').bind fun recentRatio _ => ?_
  refine (mean_pos (slice_long hcloses (by omega) (by omega) (by omega))
    fun v hv => hpos v (Sequences.mem_of_mem_slice hv)).bind fun priorClose hprior => ?_
  refine (div_returns hprior.ne').bind fun priorRatio _ => ?_
  rw [exact_sub, ok_bind, exact_mul, ok_bind]
  have hdivisor : max (priorRatio * (1 / 2)) (1 / 10 ^ 6) ≠ 0 :=
    (lt_of_lt_of_le (by norm_num) (le_max_right _ _)).ne'
  refine (div_returns hdivisor).bind fun compression _ => ?_
  exact returns_ok (inUnit_clampUnit compression)

theorem volumeSetup_returns (hvolumes : 252 ≤ volumes.length) :
    Returns (volumeSetup .exact volumes) fun found => InUnit found.1 ∧ InUnit found.2 := by
  have hslice {start stop : ℤ} (hstart : 0 ≤ start) (horder : start < stop)
      (hstop : stop ≤ volumes.length) : slice volumes start stop ≠ [] := by
    rw [Sequences.slice_ne_nil_iff, Sequences.bound_of_nonneg hstart,
      Sequences.bound_of_nonneg (hstart.trans horder.le)]
    omega
  unfold volumeSetup
  refine (mean_returns (hslice (by omega) (by omega) (by omega))).bind
    fun baselineVolume _ => ?_
  refine (mean_returns (hslice (by omega) (by omega) (by omega))).bind
    fun setupVolume _ => ?_
  refine (mean_returns (sliceFrom_long hvolumes (by omega))).bind
    fun recentVolume _ => ?_
  split
  · exact returns_ok ⟨⟨le_rfl, zero_le_one⟩, le_rfl, zero_le_one⟩
  next hbaseline =>
    have hne : baselineVolume ≠ 0 := (not_le.mp hbaseline).ne'
    refine (div_returns hne).bind fun kept _ => ?_
    rw [exact_sub, ok_bind]
    refine (div_returns (by norm_num)).bind fun contraction _ => ?_
    refine (div_returns hne).bind fun grown _ => ?_
    rw [exact_sub, ok_bind]
    refine (div_returns (by norm_num)).bind fun expansion _ => ?_
    exact returns_ok ⟨inUnit_clampUnit contraction, inUnit_clampUnit expansion⟩

theorem mem_weeklyCloses {close : Decimal} (h : close ∈ weeklyCloses bars) :
    ∃ bar ∈ bars, bar.close = close := by
  obtain ⟨⟨week, found⟩, hentry, rfl⟩ := List.mem_map.mp h
  have hget := (Dict.get?_eq_some _).mpr hentry
  rw [Dict.get?_foldl_set_items, Dict.get?_empty, Option.or_none, Option.map_eq_some_iff] at hget
  obtain ⟨bar, hbar, rfl⟩ := hget
  exact ⟨bar, List.mem_reverse.mp (List.mem_of_find?_eq_some hbar), rfl⟩

theorem return4Week_returns {last : Decimal} (hpos : ∀ close ∈ closes, 0 < close) :
    Returns (return4Week .exact closes last) fun _ => True := by
  unfold return4Week
  split
  · refine (index_returns (by omega) (by omega)).bind fun first hfirst => ?_
    refine (div_returns (hpos first hfirst).ne').bind fun ratio _ => ?_
    exact returns_ok trivial
  · exact returns_ok trivial

theorem weeklyTrend_returns (hpos : ∀ bar ∈ bars, 0 < bar.close) :
    Returns (weeklyTrend .exact bars) fun found => InUnit found.1 := by
  have hcloses : ∀ close ∈ weeklyCloses bars, 0 < close := by
    intro close hclose
    obtain ⟨bar, hbar, rfl⟩ := mem_weeklyCloses hclose
    exact hpos bar hbar
  unfold weeklyTrend
  dsimp only
  generalize weeklyCloses bars = closes at hcloses ⊢
  split
  · exact returns_ok ⟨le_rfl, zero_le_one⟩
  next hlength =>
    have hrecent : sliceFrom closes (-10) ≠ [] := by
      rw [Sequences.sliceFrom_ne_nil_iff, Sequences.bound_of_neg (by omega)]
      omega
    refine (mean_pos hrecent fun v hv =>
      hcloses v (Sequences.mem_of_mem_sliceFrom hv)).bind fun movingAverage haverage => ?_
    refine (index_returns (by omega) (by omega)).bind fun last _ => ?_
    refine (div_returns haverage.ne').bind fun ratio _ => ?_
    rw [exact_sub, ok_bind]
    refine (div_returns (by norm_num)).bind fun spread _ => ?_
    refine (return4Week_returns hcloses).bind fun growth _ => ?_
    rw [exact_add, ok_bind]
    refine (div_returns (by norm_num)).bind fun returnScore _ => ?_
    rw [exact_add, ok_bind, exact_div (by norm_num), ok_bind]
    refine returns_ok ?_
    obtain ⟨hspread, hspread'⟩ := inUnit_clampUnit spread
    obtain ⟨hreturn, hreturn'⟩ := inUnit_clampUnit returnScore
    unfold InUnit
    constructor <;> dsimp only <;> linarith

end Indicators

variable {bars : List PriceBar} {abnormalRatio : Decimal} {hangoverDays : ℕ}

theorem firstGreatest_lt {values : List Decimal} {place offset : ℕ} {value : Decimal}
    (h : firstGreatest place values = some (offset, value)) :
    place ≤ offset ∧ offset < place + values.length := by
  induction values generalizing place offset value with
  | nil => cases h
  | cons first rest ih =>
    unfold firstGreatest at h
    split at h
    · cases h
      simp
    next later greater hrest =>
      obtain ⟨hlow, hhigh⟩ := ih hrest
      split at h
      · cases h
        rw [List.length_cons]
        omega
      · cases h
        simp

theorem baseline_ne_nil_iff {volumes : List Decimal} (hlength : 252 ≤ volumes.length) :
    slice volumes (-40) (-(hangoverDays + 1 : ℕ)) ≠ [] ↔ hangoverDays ≤ 38 := by
  rw [Sequences.slice_ne_nil_iff, Sequences.bound_of_neg (by omega),
    Sequences.bound_of_neg (by omega)]
  omega

/-- A hangover of at most 38 days leaves sessions to compare with. -/
theorem volumeHangover_returns (hlength : 252 ≤ bars.length) (hratio : 0 < abnormalRatio)
    (hdays : 1 ≤ hangoverDays) (hshort : hangoverDays ≤ 38) :
    Returns (volumeHangover .exact bars abnormalRatio hangoverDays) fun found => 0 ≤ found.1 := by
  have hvolumes : 252 ≤ (bars.map (·.volume)).length := by rwa [List.length_map]
  unfold volumeHangover
  dsimp only
  refine (mean_returns ((baseline_ne_nil_iff hvolumes).mpr hshort)).bind
    fun baseline _ => ?_
  split
  · exact returns_ok le_rfl
  next spikeOffset spikeVolume hspike =>
    obtain ⟨-, hoffset⟩ := firstGreatest_lt hspike
    rw [Sequences.length_slice, Sequences.bound_of_neg (by omega),
      Sequences.bound_of_nonneg (by omega), List.length_map] at hoffset
    rw [List.length_map]
    split
    · exact returns_ok le_rfl
    next hbaseline =>
      have hne : baseline ≠ 0 := (not_le.mp hbaseline).ne'
      refine (div_returns hne).bind fun ratio _ => ?_
      split
      · exact returns_ok le_rfl
      · refine (index_returns (by omega) (by omega)).bind fun current _ => ?_
        refine (index_returns (by omega) (by omega)).bind fun spike _ => ?_
        refine (div_returns hne).bind fun currentRatio _ => ?_
        split
        · exact returns_ok le_rfl
        · rw [exact_sub, ok_bind]
          refine (div_returns hratio.ne').bind fun excess _ => ?_
          have hdivisor : (hangoverDays : Decimal) ≠ 0 := by
            exact_mod_cast (by omega : hangoverDays ≠ 0)
          refine (div_returns hdivisor).bind fun recencyScore _ => ?_
          rw [exact_mul, ok_bind]
          refine returns_ok ?_
          have hscore : (0 : Decimal) ≤ max (1 / 4) (clampUnit excess) :=
            le_max_of_le_left (by norm_num)
          exact mul_nonneg hscore (inUnit_clampUnit recencyScore).1

theorem volumeHangover_ensures {A : Arithmetic} (hlength : 252 ≤ bars.length) :
    Ensures (volumeHangover A bars abnormalRatio hangoverDays) fun _ => hangoverDays ≤ 38 := by
  have hvolumes : 252 ≤ (bars.map (·.volume)).length := by rwa [List.length_map]
  intro found h
  obtain ⟨baseline, hbaseline, -⟩ := bind_ok_iff.mp h
  by_contra hlong
  have hempty : slice (bars.map (·.volume)) (-40) (-(hangoverDays + 1 : ℕ)) = [] := by
    by_contra hne
    exact hlong ((baseline_ne_nil_iff hvolumes).mp hne)
  rw [hempty, mean_nil] at hbaseline
  cases hbaseline

end KAssetTrader.Ranker
