import KAssetTrader.Ranker.Exact
import KAssetTrader.Ranker.Batch

/-!
When the ranker returns over exact arithmetic, and how large a score can be. A candidate that
the filters leave is measured unless the baseline of its volume hangover is empty or a time of
validity leaves the calendar; everything else returns, and the contributions of a score are
bounded by their weights up to the rounding.
-/

namespace KAssetTrader.Ranker

open Arithmetic

open Backtest (MarketKey CandidateKey PriceBar)
open Checked
open Sequences (slice sliceFrom)

/-- A bar with a positive close and a positive high. -/
structure Sound (bar : PriceBar) : Prop where
  close : 0 < bar.close
  high : 0 < bar.high

variable {bar : RawBar} {normal : PriceBar} {asOf : Instant}

theorem sound_of_normal? {timestamp : Instant} (h : bar.normal? timestamp = some normal) :
    Sound normal := by
  unfold RawBar.normal? at h
  obtain ⟨openPrice, -, h⟩ := Option.bind_eq_some_iff.mp h
  obtain ⟨high, -, h⟩ := Option.bind_eq_some_iff.mp h
  obtain ⟨low, -, h⟩ := Option.bind_eq_some_iff.mp h
  obtain ⟨close, -, h⟩ := Option.bind_eq_some_iff.mp h
  obtain ⟨volume, -, h⟩ := Option.bind_eq_some_iff.mp h
  split at h
  · cases h
  next hpositive =>
    split at h
    · cases h
      push Not at hpositive
      obtain ⟨hprices, -⟩ := hpositive
      simp only [lt_min_iff] at hprices
      exact ⟨hprices.2.2, hprices.1.2⟩
    · cases h

theorem sound_of_screenBar (h : screenBar asOf bar = .ok (.passed normal)) : Sound normal := by
  unfold screenBar at h
  split at h
  · cases h
  · obtain ⟨timestamp, -, h⟩ := bind_ok_iff.mp h
    split at h
    · cases h
    split at h
    · cases h
    next found hfound =>
      cases h
      exact sound_of_normal? hfound

theorem sound_of_screenBars {bars : List RawBar} {normalized : List PriceBar}
    (h : screenBars asOf bars = .ok (.passed normalized)) : ∀ bar ∈ normalized, Sound bar := by
  have hbars := screenBars_passed_iff.mp h
  clear h
  induction hbars with
  | nil => exact List.forall_mem_nil _
  | cons hbar _ ih => exact List.forall_mem_cons.mpr ⟨sound_of_screenBar hbar, ih⟩

variable {metadata : CandidateMetadata} {config : CandidateRankerConfig .exact} {asOf : Instant}

section Measure

variable {bounded : List PriceBar} {dataAsOf : Instant} {turnover : Decimal}

structure PreparedCandidate.Measured (item : PreparedCandidate) : Prop where
  liquidity : InUnit item.liquidity
  higherHighLow : InUnit item.higherHighLow
  atrCompression : InUnit item.atrCompression
  volumeContraction : InUnit item.volumeContraction
  volumeExpansion : InUnit item.volumeExpansion
  weeklyTrend : InUnit item.weeklyTrend
  volumeHangover : 0 ≤ item.volumeHangover

theorem minimumTurnover_pos (market : MarketKey) : 0 < config.minimumTurnover market := by
  cases market with
  | kr => exact config.thresholds_pos _ (by simp [CandidateRankerConfig.minimumTurnover])
  | us => exact config.thresholds_pos _ (by simp [CandidateRankerConfig.minimumTurnover])

variable {moment : Instant} {delta : ℤ}

theorem later_returns (h : InCalendar (moment + delta)) :
    Returns (later moment delta) fun _ => True := ⟨_, if_pos h, trivial⟩

theorem later_ensures :
    Ensures (later moment delta) fun _ => InCalendar (moment + delta) := by
  intro found h
  unfold later at h
  split at h
  next hinside => exact hinside
  · cases h

theorem turnovers_returns :
    Returns ((sliceFrom bounded (-20)).mapM fun bar => Arithmetic.exact.mul bar.close bar.volume)
      fun turnovers => turnovers.length = (sliceFrom bounded (-20)).length :=
  (returns_mapM (P := fun _ => True) fun _ _ => returns_ok trivial).mono fun _ h => h.1

theorem measure_returns (hsound : ∀ bar ∈ bounded, Sound bar) (hlength : 252 ≤ bounded.length)
    (hdays : config.volumeHangoverDays ≤ 38) (hvalidity : InCalendar (asOf + config.validity))
    (hage : InCalendar (dataAsOf + config.maximumBarAge)) :
    Returns (measure config asOf metadata bounded dataAsOf turnover)
      PreparedCandidate.Measured := by
  have hcloses : ∀ close ∈ bounded.map (·.close), 0 < close := by
    intro close hclose
    obtain ⟨bar, hbar, rfl⟩ := List.mem_map.mp hclose
    exact (hsound bar hbar).close
  have hhighs : ∀ high ∈ bounded.map (·.high), 0 < high := by
    intro high hhigh
    obtain ⟨bar, hbar, rfl⟩ := List.mem_map.mp hhigh
    exact (hsound bar hbar).high
  have hratio : 0 < config.abnormalVolumeRatio := config.thresholds_pos _ (by simp)
  have hrecent : sliceFrom bounded (-20) ≠ [] := sliceFrom_long hlength (by omega)
  unfold measure
  dsimp only
  refine (mean_returns (sliceFrom_long (by simpa) (by omega))).bind
    fun averageVolume20 _ => ?_
  refine turnovers_returns.bind fun turnovers hturnovers => ?_
  refine (mean_returns ?_).bind fun averageTurnover20 _ => ?_
  · rw [← List.length_pos_iff, hturnovers]
    exact List.length_pos_iff.mpr hrecent
  refine trueRanges_returns.bind fun trueRanges htrueRanges => ?_
  refine (returnOver_returns (by simp; omega) hcloses).bind fun momentum20 _ => ?_
  refine (returnOver_returns (by simp; omega) hcloses).bind fun momentum60 _ => ?_
  refine (returnOver_returns (by simp; omega) hcloses).bind fun momentum120 _ => ?_
  refine (index_returns (by simp; omega) (by simp; omega)).bind fun close _ => ?_
  refine (greatest_returns (sliceFrom_long (by simpa) (by omega))).bind fun high20 hhigh20 => ?_
  refine (greatest_returns (sliceFrom_long (by simpa) (by omega))).bind fun high52 hhigh52 => ?_
  refine (highDistance_returns (hhighs _ (Sequences.mem_of_mem_sliceFrom hhigh20))).bind
    fun distance20 _ => ?_
  refine (highDistance_returns (hhighs _ (Sequences.mem_of_mem_sliceFrom hhigh52))).bind
    fun distance52 _ => ?_
  refine (higherHighLow_returns (by simpa) (by simpa)).bind fun higherHighLow hhigherHighLow => ?_
  refine (mean_returns (sliceFrom_long (by omega) (by omega))).bind
    fun recentAtr _ => ?_
  refine (atrCompression_returns (by omega) (by simpa) hcloses).bind fun compression hatr => ?_
  refine (volumeSetup_returns (by simpa)).bind ?_
  rintro ⟨contraction, expansion⟩ ⟨hcontraction, hexpansion⟩
  refine (weeklyTrend_returns fun bar hbar => (hsound bar hbar).close).bind ?_
  rintro ⟨weeklyTrend, weeklyCount⟩ hweekly
  refine (div_returns (minimumTurnover_pos metadata.market).ne').bind fun ratio _ => ?_
  rw [exact_sub, ok_bind]
  refine (div_returns (by norm_num)).bind fun traded _ => ?_
  refine (greatest_returns (slice_long (by simpa) (by omega) (by omega) (by omega))).bind
    fun breakoutLine _ => ?_
  rw [exact_sub, ok_bind]
  have hdivisor : max recentAtr (1 / 10 ^ 6) ≠ 0 :=
    (lt_of_lt_of_le (by norm_num) (le_max_right _ _)).ne'
  refine (div_returns hdivisor).bind fun above _ => ?_
  refine (volumeHangover_returns hlength hratio config.hangover_pos hdays).bind ?_
  rintro ⟨hangover, abnormalRatio⟩ hhangover
  refine (later_returns hvalidity).bind fun validity _ => ?_
  refine (later_returns hage).bind fun age _ => ?_
  exact returns_ok {
    liquidity := inUnit_clampUnit traded
    higherHighLow := hhigherHighLow
    atrCompression := hatr
    volumeContraction := hcontraction
    volumeExpansion := hexpansion
    weeklyTrend := hweekly
    volumeHangover := hhangover }

theorem measure_ensures (hlength : 252 ≤ bounded.length) :
    Ensures (measure config asOf metadata bounded dataAsOf turnover) fun _ =>
      config.volumeHangoverDays ≤ 38 ∧ InCalendar (asOf + config.validity) ∧
        InCalendar (dataAsOf + config.maximumBarAge) := by
  unfold measure
  dsimp only
  iterate 23 refine ensures_bind fun _ => ?_
  refine (volumeHangover_ensures hlength).bind fun found hdays => ?_
  refine later_ensures.bind fun validity hvalidity => ?_
  refine later_ensures.bind fun age hage => ?_
  exact ensures_ok ⟨hdays, hvalidity, hage⟩

end Measure

variable {bars : List RawBar}

/-- The moments of the bars up to the first that is rejected can be converted. -/
def TimesFit (asOf : Instant) : List RawBar → Prop
  | [] => True
  | bar :: rest =>
    match bar.timestamp with
    | .naive _ => True
    | .aware moment =>
      InCalendar moment ∧
        (moment - moment % second ≤ asOf →
          (bar.normal? (moment - moment % second)).isSome → TimesFit asOf rest)

/-- A bar can be looked at when its moment can be converted, and it passes when it is neither
of the future nor malformed. -/
theorem timesFit_cons {bar : RawBar} {rest : List RawBar} :
    TimesFit asOf (bar :: rest) ↔
      (∃ screened, screenBar asOf bar = .ok screened) ∧
        ∀ normal, screenBar asOf bar = .ok (.passed normal) → TimesFit asOf rest := by
  unfold screenBar
  rw [TimesFit]
  cases bar.timestamp with
  | naive localTime => simp
  | aware moment =>
    dsimp only
    by_cases hinside : InCalendar moment
    · have hutc : awareUtc moment = .ok (moment - moment % second) := if_pos hinside
      rw [hutc, ok_bind, and_iff_right hinside]
      generalize moment - moment % second = timestamp
      by_cases hfuture : asOf < timestamp
      · rw [if_pos hfuture]
        constructor
        · intro _
          exact ⟨⟨_, rfl⟩, fun normal h => by cases h⟩
        · intro _ hpast
          exact absurd hpast (not_le.mpr hfuture)
      · rw [if_neg hfuture, forall_prop_of_true (not_lt.mp hfuture)]
        cases bar.normal? timestamp with
        | none => simp [pure, Except.pure]
        | some normal => simp [pure, Except.pure]
    · have hutc : awareUtc moment = .error .overflow := if_neg hinside
      rw [hutc]
      simp [hinside]

theorem screenBars_returns_iff :
    (∃ screened, screenBars asOf bars = .ok screened) ↔ TimesFit asOf bars := by
  induction bars with
  | nil => exact ⟨fun _ => trivial, fun _ => ⟨_, rfl⟩⟩
  | cons bar rest ih =>
    rw [timesFit_cons, ← ih, screenBars]
    cases screenBar asOf bar with
    | error fault => simp
    | ok screened =>
      cases screened with
      | rejected reason dataAsOf => simp [pure, Except.pure]
      | passed normal =>
        simp only [ok_bind, Except.ok.injEq, exists_eq', Screened.passed.injEq,
          forall_eq', true_and]
        cases screenBars asOf rest with
        | error fault => simp
        | ok screened =>
          cases screened with
          | rejected reason dataAsOf => simp [pure, Except.pure]
          | passed normalized => simp [pure, Except.pure]

variable {normalized : List PriceBar}

theorem candidateTurnover_returns (hnormalized : normalized ≠ []) :
    Returns (candidateTurnover .exact metadata normalized) fun _ => True := by
  unfold candidateTurnover
  split
  · exact returns_ok trivial
  · refine turnovers_returns.bind fun turnovers hturnovers => ?_
    have hne : turnovers ≠ [] := by
      rw [← List.length_pos_iff, hturnovers, List.length_pos_iff,
        Sequences.sliceFrom_ne_nil_iff, Sequences.bound_of_neg (by omega)]
      have hlength := List.length_pos_iff.mpr hnormalized
      omega
    refine (mean_returns hne).bind fun value _ => ?_
    exact returns_ok trivial

/-- A history that passes the filters holds at least 252 of its bars. -/
def Enough (normalized : List PriceBar) : Screened (List PriceBar × Instant × Decimal) → Prop
  | .rejected _ _ => True
  | .passed (bounded, _, _) => 252 ≤ bounded.length ∧ ∀ bar ∈ bounded, bar ∈ normalized

theorem screenHistory_returns (config : CandidateRankerConfig .exact) (asOf : Instant)
    (metadata : CandidateMetadata) (normalized : List PriceBar) :
    Returns (screenHistory config asOf metadata normalized) (Enough normalized) := by
  have hweeks := config.weeks
  have hcovers := config.covers
  unfold screenHistory
  dsimp only
  split
  · exact returns_ok trivial
  split
  · exact returns_ok trivial
  next hlength =>
    have hbounded : 252 ≤ (sliceFrom normalized (-config.historyBars)).length := by
      rw [Sequences.length_sliceFrom, Sequences.bound_of_neg (by omega)]
      omega
    have hne : sliceFrom normalized (-config.historyBars) ≠ [] := by
      rw [← List.length_pos_iff]
      omega
    refine (index_returns (by omega) (by omega)).bind fun last _ => ?_
    split
    · exact returns_ok trivial
    split
    · exact returns_ok trivial
    refine (candidateTurnover_returns hne).bind fun turnover _ => ?_
    cases turnover with
    | none => exact returns_ok trivial
    | some turnover =>
      dsimp only
      split
      · exact returns_ok trivial
      · exact returns_ok ⟨hbounded, fun bar => Sequences.mem_of_mem_sliceFrom⟩

/-- The last moment of a candidate that the hard filters leave. -/
def passes? (config : CandidateRankerConfig .exact) (asOf : Instant)
    (metadata : CandidateMetadata) (bars : List RawBar) : Option Instant :=
  match screenBars asOf bars with
  | .ok (.passed normalized) =>
    match screenHistory config asOf metadata
        (Ranking.insertedBy (·.timestamp) normalized) with
    | .ok (.passed (_, dataAsOf, _)) => some dataAsOf
    | _ => none
  | _ => none

structure Measurable (config : CandidateRankerConfig .exact) (asOf dataAsOf : Instant) : Prop where
  days : config.volumeHangoverDays ≤ 38
  validity : InCalendar (asOf + config.validity)
  age : InCalendar (dataAsOf + config.maximumBarAge)

def ScreenedMeasured : Screened PreparedCandidate → Prop
  | .rejected _ _ => True
  | .passed item => item.Measured

theorem prepare_returns (htimes : TimesFit asOf bars)
    (hmeasurable : ∀ dataAsOf, passes? config asOf metadata bars = some dataAsOf →
      Measurable config asOf dataAsOf) :
    Returns (prepare config asOf metadata bars) ScreenedMeasured := by
  obtain ⟨screened, hscreened⟩ := screenBars_returns_iff.mpr htimes
  unfold prepare
  rw [hscreened, ok_bind]
  cases screened with
  | rejected reason dataAsOf => exact returns_ok trivial
  | passed normalized =>
    dsimp only
    obtain ⟨history, hhistory, henough⟩ := screenHistory_returns config asOf metadata
      (Ranking.insertedBy (·.timestamp) normalized)
    rw [hhistory, ok_bind]
    cases history with
    | rejected reason dataAsOf => exact returns_ok trivial
    | passed found =>
      obtain ⟨bounded, dataAsOf, turnover⟩ := found
      obtain ⟨hlength, hmem⟩ := henough
      have hpasses : passes? config asOf metadata bars = some dataAsOf := by
        unfold passes?
        rw [hscreened]
        dsimp only
        rw [hhistory]
      obtain ⟨hdays, hvalidity, hage⟩ := hmeasurable dataAsOf hpasses
      have hsound : ∀ bar ∈ bounded, Sound bar := fun bar hbar =>
        sound_of_screenBars hscreened bar (Ranking.mem_insertedBy.mp (hmem bar hbar))
      refine (measure_returns hsound hlength hdays hvalidity hage).bind fun item hitem => ?_
      exact returns_ok hitem

theorem of_prepare_returns (h : ∃ screened, prepare config asOf metadata bars = .ok screened) :
    TimesFit asOf bars ∧
      ∀ dataAsOf, passes? config asOf metadata bars = some dataAsOf →
        Measurable config asOf dataAsOf := by
  obtain ⟨result, h⟩ := h
  obtain ⟨screened, hscreened, h⟩ := bind_ok_iff.mp h
  refine ⟨screenBars_returns_iff.mp ⟨screened, hscreened⟩, ?_⟩
  intro dataAsOf hpasses
  unfold passes? at hpasses
  rw [hscreened] at hpasses
  cases screened with
  | rejected reason moment => cases hpasses
  | passed normalized =>
    dsimp only at hpasses h
    obtain ⟨history, hhistory, h⟩ := bind_ok_iff.mp h
    rw [hhistory] at hpasses
    cases history with
    | rejected reason moment => cases hpasses
    | passed found =>
      obtain ⟨bounded, moment, turnover⟩ := found
      cases hpasses
      obtain ⟨item, hitem, -⟩ := bind_ok_iff.mp h
      obtain ⟨history', hhistory', henough⟩ := screenHistory_returns config asOf metadata
        (Ranking.insertedBy (·.timestamp) normalized)
      rw [hhistory] at hhistory'
      cases hhistory'
      obtain ⟨hdays, hvalidity, hage⟩ := measure_ensures henough.1 item hitem
      exact ⟨hdays, hvalidity, hage⟩

end KAssetTrader.Ranker
