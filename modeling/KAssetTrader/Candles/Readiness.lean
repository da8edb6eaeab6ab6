import KAssetTrader.Library.Ranking

/-!
The coverage of a window by the intervals for which corporate actions were requested. The sweep
over the sorted intervals moves a cursor to the day after each one, which no date is when the
interval ends on the last date of the calendar.
-/

namespace KAssetTrader.Candles

open Ranking

/-- A `date` by its `toordinal()`. -/
abbrev Day := Set.Icc (1 : ℤ) 3652059

structure CoverageRow where
  status : Option String
  source : Option String
  provider : Option String
  requestedFromDate : Option Day
  requestedToDate : Option Day

section

-- `strip()` followed by `casefold()`.
variable (fold : String → String)

def CoverageRow.interval? (row : CoverageRow) : Option (Day × Day) :=
  if row.status = some "success" ∧ fold (row.source.getD "") = "kis_openapi" ∧
      fold (row.provider.getD "") = "kis" then
    match row.requestedFromDate, row.requestedToDate with
    | some start, some stop => some (start, stop)
    | _, _ => none
  else none

def sortedIntervals (rows : List CoverageRow) : List (Day × Day) :=
  sortedBy toLex (rows.filterMap (·.interval? fold))

/-- The loop of `_intervals_cover`; `none` where the day after an interval is no date. -/
def sweep (windowEnd cursor : ℤ) : List (Day × Day) → Option Bool
  | [] => some (decide (windowEnd < cursor))
  | (start, stop) :: rest =>
    if stop < cursor then sweep windowEnd cursor rest
    else if cursor < start then some false
    else if (stop : ℤ) = 3652059 then none
    else if windowEnd < stop + 1 then some true
    else sweep windowEnd (stop + 1) rest

def intervalsCover (rows : List CoverageRow) (windowStart windowEnd : Day) : Option Bool :=
  sweep windowEnd windowStart (sortedIntervals fold rows)

def Covers (intervals : List (Day × Day)) (first last : ℤ) : Prop :=
  ∀ day, first ≤ day → day ≤ last → ∃ interval ∈ intervals, interval.1 ≤ day ∧ day ≤ interval.2

end

theorem covers_cons_of_le {start stop : Day} {rest : List (Day × Day)} {cursor last : ℤ}
    (hstart : start ≤ cursor) (hstop : cursor ≤ stop) :
    Covers ((start, stop) :: rest) cursor last ↔ Covers rest (stop + 1) last := by
  constructor
  · intro h day hfirst hlast
    obtain ⟨interval, hmem, hin⟩ := h day (by omega) hlast
    rcases List.mem_cons.mp hmem with rfl | hmem
    · dsimp only at hin
      omega
    · exact ⟨interval, hmem, hin⟩
  · intro h day hfirst hlast
    by_cases hday : day ≤ stop
    · exact ⟨_, List.mem_cons_self, hstart.trans hfirst, hday⟩
    · obtain ⟨interval, hmem, hin⟩ := h day (by omega) hlast
      exact ⟨interval, List.mem_cons_of_mem _ hmem, hin⟩

/-- The sweep answers yes exactly when the intervals before the first that ends on the last date
cover what is left of the window. -/
theorem sweep_iff {windowEnd : Day} {cursor : ℤ} {intervals : List (Day × Day)}
    (hsorted : intervals.Pairwise fun a b => a.1 ≤ b.1) (hcursor : cursor ≤ windowEnd) :
    sweep windowEnd cursor intervals = some true ↔
      Covers (intervals.takeWhile fun interval => (interval.2 : ℤ) ≠ 3652059) cursor windowEnd := by
  have hmax := windowEnd.2.2
  induction intervals generalizing cursor with
  | nil =>
    refine iff_of_false (by simpa [sweep] using hcursor) fun h => ?_
    obtain ⟨_, hmem, -⟩ := h cursor (le_refl _) hcursor
    cases hmem
  | cons interval rest ih =>
    obtain ⟨start, stop⟩ := interval
    obtain ⟨hstarts, hrest⟩ := List.pairwise_cons.mp hsorted
    -- the cursor itself is not covered by intervals that start after it
    have huncovered (intervals : List (Day × Day))
        (h : ∀ interval ∈ intervals, cursor < interval.1) :
          ¬ Covers intervals cursor windowEnd := by
      intro hcovers
      obtain ⟨found, hmem, hle, -⟩ := hcovers cursor (le_refl _) hcursor
      exact absurd (h found hmem) (not_lt.mpr hle)
    by_cases hlast : (stop : ℤ) = 3652059
    · rw [List.takeWhile_cons_of_neg (by simpa using hlast), sweep, if_neg (by omega)]
      refine iff_of_false ?_ (huncovered [] (by simp))
      split <;> simp
    · rw [List.takeWhile_cons_of_pos (by simpa using hlast), sweep]
      split_ifs with hbefore hafter hend
      · refine (ih hrest hcursor).trans ⟨?_, ?_⟩
        · intro h day hfirst hday
          obtain ⟨found, hmem, hin⟩ := h day hfirst hday
          exact ⟨found, List.mem_cons_of_mem _ hmem, hin⟩
        · intro h day hfirst hday
          obtain ⟨found, hmem, hin⟩ := h day hfirst hday
          rcases List.mem_cons.mp hmem with rfl | hmem
          · dsimp only at hin
            omega
          · exact ⟨found, hmem, hin⟩
      · refine iff_of_false (by simp) (huncovered _ fun found hfound => ?_)
        rcases List.mem_cons.mp hfound with rfl | hfound
        · exact hafter
        · exact hafter.trans_le (hstarts found ((List.takeWhile_sublist _).mem hfound))
      · rw [covers_cons_of_le (not_lt.mp hafter) (not_lt.mp hbefore)]
        exact iff_of_true rfl fun day hfirst hday => by omega
      · rw [covers_cons_of_le (not_lt.mp hafter) (not_lt.mp hbefore)]
        exact ih hrest (by omega)

/-- The stored intervals are judged as what they cover, except when an interval that ends on the
last date of the calendar comes before others that are needed. -/
theorem intervals_cover_iff (fold : String → String) (rows : List CoverageRow)
    (windowStart windowEnd : Day) (hwindow : windowStart ≤ windowEnd) :
    (intervalsCover fold rows windowStart windowEnd = some true ↔
        Covers (rows.filterMap (·.interval? fold)) windowStart windowEnd) ↔
      (Covers (rows.filterMap (·.interval? fold)) windowStart windowEnd →
        Covers ((sortedIntervals fold rows).takeWhile fun interval => (interval.2 : ℤ) ≠ 3652059)
          windowStart windowEnd) := by
  have hsorted : (sortedIntervals fold rows).Pairwise fun a b => a.1 ≤ b.1 :=
    sortedBy_pairwise.imp fun h => (Prod.Lex.toLex_le_toLex.mp h).elim le_of_lt (·.1.le)
  rw [intervalsCover, sweep_iff hsorted hwindow]
  refine ⟨fun h => h.mpr, fun h => ⟨fun htaken day hfirst hlast => ?_, h⟩⟩
  obtain ⟨interval, hmem, hin⟩ := htaken day hfirst hlast
  exact ⟨interval, sortedBy_perm.mem_iff.mp ((List.takeWhile_sublist _).mem hmem), hin⟩

def requestedTo (day : Day) : CoverageRow :=
  ⟨some "success", some "kis_openapi", some "kis", some ⟨1, by decide⟩, some day⟩

/-- One row that reaches past the end of the window. -/
theorem intervals_cover_week :
    intervalsCover id [requestedTo ⟨8, by decide⟩] ⟨2, by decide⟩ ⟨7, by decide⟩ = some true := by
  refine (intervals_cover_iff id _ _ _ (by decide)).mpr (fun h => ?_) |>.mpr fun day hfirst hlast =>
    ⟨(⟨1, by decide⟩, ⟨8, by decide⟩), by simp [requestedTo, CoverageRow.interval?], ?_⟩
  · simpa [sortedIntervals, sortedBy, requestedTo, CoverageRow.interval?] using h
  · dsimp only at *
    omega

/-- A request without an end covers every window and raises in the sweep of each. -/
theorem last_date_overflows :
    intervalsCover id [requestedTo ⟨3652059, by decide⟩] ⟨2, by decide⟩ ⟨7, by decide⟩ = none ∧
      Covers ([requestedTo ⟨3652059, by decide⟩].filterMap (·.interval? id)) 2 7 := by
  refine ⟨by decide +kernel, fun day hfirst hlast =>
    ⟨(⟨1, by decide⟩, ⟨3652059, by decide⟩), by simp [requestedTo, CoverageRow.interval?], ?_⟩⟩
  dsimp only
  omega

end KAssetTrader.Candles
