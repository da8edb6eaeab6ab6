import KAssetTrader.Backtest.Inputs
import KAssetTrader.Library.Ranking

/-!
The volume-weighted average price of a session, as the intraday triggers compute it: one pass
over the bars in the order of their timestamps. Each value is that of the bars up to its own,
recomputed from nothing, so later bars leave it as it was.
-/

namespace KAssetTrader.Triggers

open Backtest Decimal Ranking

/-- `_ordered` -/
def ordered (bars : List PriceBar) : List PriceBar := sortedBy PriceBar.timestamp bars

structure VwapLoop where
  weighted : Decimal := 0
  volume : Decimal := 0
  output : List Decimal := []

section Loop

variable (ctx : Context)

def typical (bar : PriceBar) : Decimal := ctx.div (ctx.add (ctx.add bar.high bar.low) bar.close) 3

def VwapLoop.step (s : VwapLoop) (bar : PriceBar) : VwapLoop :=
  let weighted := ctx.add s.weighted (ctx.mul (typical ctx bar) bar.volume)
  let volume := ctx.add s.volume bar.volume
  -- Without any volume the average before is kept, and the first is the typical price.
  let value :=
    if 0 < volume then ctx.div weighted volume else s.output.getLast?.getD (typical ctx bar)
  { weighted, volume, output := s.output ++ [value] }

def sessionVwap (bars : List PriceBar) : List Decimal :=
  ((ordered bars).foldl (VwapLoop.step ctx) {}).output

theorem output_prefix (later : List PriceBar) (s : VwapLoop) :
    s.output <+: (later.foldl (VwapLoop.step ctx) s).output := by
  induction later generalizing s with
  | nil => exact List.prefix_rfl
  | cons bar later ih => exact (List.prefix_append _ _).trans (ih (s.step ctx bar))

end Loop

def turnover (bars : List PriceBar) : Decimal :=
  (bars.map fun bar => typical .exact bar * bar.volume).sum

def traded (bars : List PriceBar) : Decimal := (bars.map (·.volume)).sum

/-- The average price of the shares traded, or the typical price of the first bar. -/
def averagePrice (bars : List PriceBar) : Decimal :=
  if 0 < traded bars then turnover bars / traded bars
  else (bars.head?.map (typical .exact)).getD 0

/-- What a completed bar of a session is known to be. -/
structure Completed (bar : PriceBar) : Prop where
  low_le_close : bar.low ≤ bar.close
  close_le_high : bar.close ≤ bar.high
  volume_nonneg : 0 ≤ bar.volume

variable {bars : List PriceBar}

theorem average_untraded {bar : PriceBar} (hnone : ¬ 0 < traded (bars ++ [bar]))
    (hvolume : 0 ≤ bar.volume) (hne : bars ≠ []) :
    averagePrice (bars ++ [bar]) = averagePrice bars := by
  have hsum : traded (bars ++ [bar]) = traded bars + bar.volume := by simp [traded]
  have hzero : ¬ 0 < traded bars := by linarith
  rw [averagePrice, averagePrice, if_neg hnone, if_neg hzero, List.head?_append_of_ne_nil _ hne]

theorem loop_eq (h : ∀ bar ∈ bars, Completed bar) :
    bars.foldl (VwapLoop.step .exact) {} =
      ⟨turnover bars, traded bars,
        (List.range bars.length).map fun i => averagePrice (bars.take (i + 1))⟩ := by
  induction bars using List.reverseRecOn with
  | nil => rfl
  | append_singleton before bar ih =>
    have hbefore : ∀ bar ∈ before, Completed bar := fun b hb => h b (List.mem_append_left _ hb)
    have hbar := h bar (by simp)
    have hearlier : (List.range before.length).map (fun i =>
          averagePrice ((before ++ [bar]).take (i + 1))) =
        (List.range before.length).map fun i => averagePrice (before.take (i + 1)) := by
      refine List.map_congr_left fun i hi => ?_
      rw [List.take_append_of_le_length (List.mem_range.mp hi)]
    have hturnover : turnover (before ++ [bar]) =
        turnover before + typical .exact bar * bar.volume := by simp [turnover]
    have htraded : traded (before ++ [bar]) = traded before + bar.volume := by simp [traded]
    have hlast : (before ++ [bar]).take (before.length + 1) = before ++ [bar] := by
      rw [List.take_of_length_le (by simp)]
    rw [List.foldl_append, ih hbefore, List.length_append, List.length_singleton,
      List.range_succ, List.map_append, hearlier, List.map_singleton, hlast]
    simp only [List.foldl_cons, List.foldl_nil, VwapLoop.step, Context.exact_add,
      Context.exact_mul, Context.exact_div, ← hturnover, ← htraded]
    congr 3
    by_cases hsome : 0 < traded (before ++ [bar])
    · rw [if_pos hsome, averagePrice, if_pos hsome]
    · rw [if_neg hsome]
      by_cases hnone : before = []
      · subst hnone
        rw [List.nil_append] at hsome ⊢
        rw [averagePrice, if_neg hsome]
        rfl
      · rw [average_untraded hsome hbar.volume_nonneg hnone]
        have hlength := List.length_pos_of_ne_nil hnone
        rw [List.getLast?_eq_getElem?, List.length_map, List.length_range, List.getElem?_map,
          List.getElem?_range (by omega), Option.map_some, Option.getD_some,
          Nat.sub_add_cancel (by omega : 1 ≤ before.length), List.take_length]

theorem Completed.typical_between {bar : PriceBar} (h : Completed bar) :
    bar.low ≤ typical .exact bar ∧ typical .exact bar ≤ bar.high := by
  have hlow := h.low_le_close
  have hhigh := h.close_le_high
  simp only [typical, Context.exact_add, Context.exact_div]
  constructor
  · rw [le_div_iff₀ (by norm_num)]
    linarith
  · rw [div_le_iff₀ (by norm_num)]
    linarith

variable {low high : Decimal}

theorem averagePrice_between (hne : bars ≠ []) (h : ∀ bar ∈ bars, Completed bar)
    (hrange : ∀ bar ∈ bars, low ≤ bar.low ∧ bar.high ≤ high) :
    low ≤ averagePrice bars ∧ averagePrice bars ≤ high := by
  have htypical : ∀ bar ∈ bars, low ≤ typical .exact bar ∧ typical .exact bar ≤ high := by
    intro bar hbar
    obtain ⟨hlow, hhigh⟩ := (h bar hbar).typical_between
    exact ⟨(hrange bar hbar).1.trans hlow, hhigh.trans (hrange bar hbar).2⟩
  unfold averagePrice
  split
  next hsome =>
    rw [le_div_iff₀ hsome, div_le_iff₀ hsome, traded, turnover, ← List.sum_map_mul_left,
      ← List.sum_map_mul_left]
    constructor
    · refine List.sum_le_sum fun bar hbar => ?_
      exact mul_le_mul_of_nonneg_right (htypical bar hbar).1 (h bar hbar).volume_nonneg
    · refine List.sum_le_sum fun bar hbar => ?_
      exact mul_le_mul_of_nonneg_right (htypical bar hbar).2 (h bar hbar).volume_nonneg
  · obtain ⟨first, rest, rfl⟩ := List.exists_cons_of_ne_nil hne
    exact htypical first List.mem_cons_self

/-- The averages do not depend on the order in which the bars come, with any rounding; bars that
come later add values and change none; and over exact arithmetic each value is the average
recomputed from the bars up to its own, between their lowest low and their highest high. -/
theorem session_vwap_recomputed (hdistinct : (bars.map (·.timestamp)).Nodup) :
    (∀ ctx (others : List PriceBar), others.Perm bars →
      sessionVwap ctx others = sessionVwap ctx bars) ∧
    (∀ ctx (later : List PriceBar), (later.map (·.timestamp)).Nodup →
      (∀ bar ∈ bars, ∀ after ∈ later, bar.timestamp < after.timestamp) →
      sessionVwap ctx bars <+: sessionVwap ctx (bars ++ later)) ∧
    ((∀ bar ∈ bars, Completed bar) →
      (sessionVwap .exact bars).length = bars.length ∧
      ∀ i value, (sessionVwap .exact bars)[i]? = some value →
        value = averagePrice ((ordered bars).take (i + 1)) ∧
        ∀ low high, (∀ bar ∈ (ordered bars).take (i + 1), low ≤ bar.low ∧ bar.high ≤ high) →
          low ≤ value ∧ value ≤ high) := by
  refine ⟨fun ctx others hperm => ?_, fun ctx later hlater hafter => ?_, fun hbars => ?_⟩
  · rw [sessionVwap, sessionVwap, ordered, ordered, sortedBy_eq_of_perm hdistinct hperm]
  · rw [sessionVwap, sessionVwap, ordered, ordered, sortedBy_append hdistinct hlater hafter,
      List.foldl_append]
    exact output_prefix ctx _ _
  · have hordered : ∀ bar ∈ ordered bars, Completed bar := fun bar hbar =>
      hbars bar (mem_sortedBy.mp hbar)
    have hlength : (ordered bars).length = bars.length := sortedBy_perm.length_eq
    have hloop : sessionVwap .exact bars = (List.range (ordered bars).length).map fun i =>
        averagePrice ((ordered bars).take (i + 1)) := congrArg VwapLoop.output (loop_eq hordered)
    rw [hloop]
    refine ⟨by rw [List.length_map, List.length_range, hlength], fun i value hvalue => ?_⟩
    rw [List.getElem?_map] at hvalue
    obtain ⟨j, hj, rfl⟩ := Option.map_eq_some_iff.mp hvalue
    obtain ⟨hi, rfl⟩ := List.getElem?_eq_some_iff.mp hj
    rw [List.length_range] at hi
    rw [List.getElem_range]
    have htaken : ∀ bar ∈ (ordered bars).take (i + 1), Completed bar := fun bar hbar =>
      hordered bar (List.mem_of_mem_take hbar)
    have hne : (ordered bars).take (i + 1) ≠ [] := by
      rw [Ne, List.take_eq_nil_iff]
      rintro (hzero | hnil)
      · exact absurd hzero (Nat.succ_ne_zero i)
      · simp [hnil] at hi
    exact ⟨rfl, fun low high => averagePrice_between hne htaken⟩

/-- A bar without volume before one with volume. -/
def twoBars : List PriceBar := [⟨1, 10, 11, 8, 11, 0⟩, ⟨2, 10, 14, 9, 13, 5⟩]

/-- Two bars in either order. -/
theorem session_vwap_recomputed_two :
    sessionVwap .exact twoBars.reverse = sessionVwap .exact twoBars :=
  (session_vwap_recomputed (by decide)).1 .exact _ (List.reverse_perm twoBars)

end KAssetTrader.Triggers
