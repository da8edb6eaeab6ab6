import Mathlib.Data.List.TakeWhile
import Mathlib.Data.Set.Card
import Mathlib.Tactic

/-!
Windows over a growing list of timed entries. A window is trimmed as time goes
on, and is only ever looked at from horizons that are not before the horizons it
was trimmed at. Two disciplines of trimming are compared with the full list: one
keeps the entries from a horizon on, the other also keeps the last entry before
them, to measure changes against.

Spans of time under labels in one order: each opens before it closes, and closes no
later than the next one opens. A moment is owned by the first span that closes after
it, and the spans that open after the owner, up to another moment, are counted.
-/

namespace KAssetTrader.Window

variable {α τ : Type*} [LinearOrder τ] (time : α → τ)

/-- Drops the first entry while the second one is still at or before the
horizon. -/
def trimBaseline (horizon : τ) : List α → List α
  | first :: second :: rest =>
    if time second ≤ horizon then trimBaseline horizon (second :: rest)
    else first :: second :: rest
  | [only] => [only]
  | [] => []

def trimBefore (horizon : τ) (entries : List α) : List α :=
  entries.dropWhile (fun e => decide (time e < horizon))

def inside (horizon : τ) (entries : List α) : List α :=
  entries.filter (fun e => decide (horizon < time e))

/-- The last entry at or before the horizon, or else the first one. -/
def baseline (horizon : τ) (entries : List α) : Option α :=
  (entries.filter (fun e => decide (time e ≤ horizon))).getLast?.or entries.head?

/-- `kept` is `full` without some first entries, and then starts at or before
every horizon in `horizons`. -/
structure KeepsBaseline (horizons : Set τ) (full kept : List α) : Prop where
  dropped : ∃ dropped, full = dropped ++ kept ∧
    (dropped ≠ [] → ∃ first ∈ kept.head?, ∀ horizon ∈ horizons, time first ≤ horizon)

/-- `kept` is `full` without some first entries that lie before every horizon in
`horizons`. -/
structure KeepsInside (horizons : Set τ) (full kept : List α) : Prop where
  dropped : ∃ dropped, full = dropped ++ kept ∧
    ∀ e ∈ dropped, ∀ horizon ∈ horizons, time e < horizon

variable {time} {horizons : Set τ} {full kept : List α}

theorem sorted_append {entries : List α} {new : α}
    (hsorted : entries.Pairwise (fun a b => time a ≤ time b))
    (hlater : ∀ last ∈ entries.getLast?, time last ≤ time new) :
    (entries ++ [new]).Pairwise (fun a b => time a ≤ time b) := by
  rw [List.pairwise_append]
  refine ⟨hsorted, List.pairwise_singleton _ _, fun a ha b hb => ?_⟩
  obtain rfl := List.mem_singleton.mp hb
  have hlast := hlater _ (List.getLast?_eq_some_getLast (List.ne_nil_of_mem ha))
  exact (hsorted.rel_getLast ha).trans hlast

theorem KeepsBaseline.nil : KeepsBaseline time horizons ([] : List α) [] :=
  ⟨[], rfl, fun h => absurd rfl h⟩

section

variable (h : KeepsBaseline time horizons full kept)
include h

theorem KeepsBaseline.mono {fewer : Set τ} (hfewer : fewer ⊆ horizons) :
    KeepsBaseline time fewer full kept := by
  obtain ⟨dropped, hfull, hfirst⟩ := h.dropped
  refine ⟨dropped, hfull, fun hne => ?_⟩
  obtain ⟨first, hin, hle⟩ := hfirst hne
  exact ⟨first, hin, fun horizon hhorizon => hle horizon (hfewer hhorizon)⟩

theorem KeepsBaseline.append (new : List α) :
    KeepsBaseline time horizons (full ++ new) (kept ++ new) := by
  obtain ⟨dropped, hfull, hfirst⟩ := h.dropped
  refine ⟨dropped, by rw [hfull, List.append_assoc], fun hne => ?_⟩
  obtain ⟨first, hin, hle⟩ := hfirst hne
  refine ⟨first, ?_, hle⟩
  cases kept with
  | nil => cases hin
  | cons e rest => exact hin

theorem KeepsBaseline.trim {trimmedAt : τ} (hbefore : ∀ horizon ∈ horizons, trimmedAt ≤ horizon) :
    KeepsBaseline time horizons full (trimBaseline time trimmedAt kept) := by
  induction kept with
  | nil => exact h
  | cons first rest ih =>
    cases rest with
    | nil => exact h
    | cons second rest =>
      unfold trimBaseline
      split
      next hle =>
        apply ih
        obtain ⟨dropped, hfull, -⟩ := h.dropped
        refine ⟨dropped ++ [first], by simpa using hfull, fun _ => ?_⟩
        exact ⟨second, rfl, fun horizon hhorizon => hle.trans (hbefore horizon hhorizon)⟩
      · exact h

end

private theorem sorted_dropped {dropped : List α} {first : α}
    (hsorted : (dropped ++ kept).Pairwise (fun a b => time a ≤ time b))
    (hin : first ∈ kept.head?) : ∀ e ∈ dropped, time e ≤ time first := by
  intro e he
  rw [List.pairwise_append] at hsorted
  exact hsorted.2.2 e he first (List.mem_of_mem_head? hin)

theorem KeepsBaseline.inside_eq (h : KeepsBaseline time horizons full kept)
    (hsorted : full.Pairwise (fun a b => time a ≤ time b)) {horizon : τ}
    (hhorizon : horizon ∈ horizons) :
    Window.inside time horizon kept = Window.inside time horizon full := by
  obtain ⟨dropped, rfl, hfirst⟩ := h.dropped
  unfold Window.inside
  rw [List.filter_append]
  suffices hnone : dropped.filter (fun e => decide (horizon < time e)) = [] by
    rw [hnone, List.nil_append]
  rw [List.filter_eq_nil_iff]
  intro e he
  obtain ⟨first, hin, hle⟩ := hfirst (List.ne_nil_of_mem he)
  have hbefore := (sorted_dropped hsorted hin e he).trans (hle horizon hhorizon)
  simpa using hbefore

theorem KeepsBaseline.baseline_eq (h : KeepsBaseline time horizons full kept) {horizon : τ}
    (hhorizon : horizon ∈ horizons) :
    Window.baseline time horizon kept = Window.baseline time horizon full := by
  obtain ⟨dropped, rfl, hfirst⟩ := h.dropped
  rcases List.eq_nil_or_concat dropped with rfl | ⟨_, _, hconcat⟩
  · rw [List.nil_append]
  · obtain ⟨first, hin, hle⟩ := hfirst (by simp [hconcat])
    have hmem : first ∈ kept.filter (fun e => decide (time e ≤ horizon)) := by
      rw [List.mem_filter]
      exact ⟨List.mem_of_mem_head? hin, by simpa using hle horizon hhorizon⟩
    obtain ⟨last, hlast⟩ : ∃ last,
        (kept.filter (fun e => decide (time e ≤ horizon))).getLast? = some last :=
      ⟨_, List.getLast?_eq_some_getLast (List.ne_nil_of_mem hmem)⟩
    unfold Window.baseline
    rw [List.filter_append, List.getLast?_append, hlast]
    rfl

theorem KeepsInside.nil : KeepsInside time horizons ([] : List α) [] :=
  ⟨[], rfl, fun _ he => by cases he⟩

variable (h : KeepsInside time horizons full kept)
include h

theorem KeepsInside.mono {fewer : Set τ} (hfewer : fewer ⊆ horizons) :
    KeepsInside time fewer full kept := by
  obtain ⟨dropped, hfull, hbefore⟩ := h.dropped
  exact ⟨dropped, hfull, fun e he horizon hhorizon => hbefore e he horizon (hfewer hhorizon)⟩

theorem KeepsInside.append (new : List α) :
    KeepsInside time horizons (full ++ new) (kept ++ new) := by
  obtain ⟨dropped, hfull, hbefore⟩ := h.dropped
  exact ⟨dropped, by rw [hfull, List.append_assoc], hbefore⟩

theorem KeepsInside.trim {trimmedAt : τ} (hbefore : ∀ horizon ∈ horizons, trimmedAt ≤ horizon) :
    KeepsInside time horizons full (trimBefore time trimmedAt kept) := by
  obtain ⟨dropped, hfull, hdropped⟩ := h.dropped
  refine ⟨dropped ++ kept.takeWhile (fun e => decide (time e < trimmedAt)), ?_, ?_⟩
  · rw [List.append_assoc, trimBefore, List.takeWhile_append_dropWhile, hfull]
  · intro e he horizon hhorizon
    rcases List.mem_append.mp he with he | he
    · exact hdropped e he horizon hhorizon
    · have hlt : time e < trimmedAt := by simpa using List.mem_takeWhile_imp he
      exact hlt.trans_le (hbefore horizon hhorizon)

theorem KeepsInside.inside_eq {horizon : τ} (hhorizon : horizon ∈ horizons) :
    Window.inside time horizon kept = Window.inside time horizon full := by
  obtain ⟨dropped, rfl, hbefore⟩ := h.dropped
  unfold Window.inside
  rw [List.filter_append]
  suffices hnone : dropped.filter (fun e => decide (horizon < time e)) = [] by
    rw [hnone, List.nil_append]
  rw [List.filter_eq_nil_iff]
  intro e he
  simpa using (hbefore e he horizon hhorizon).le

end KAssetTrader.Window

namespace KAssetTrader

variable {κ τ : Type*} [LinearOrder κ] [LinearOrder τ]

structure Spans (κ τ : Type*) [LinearOrder κ] [LinearOrder τ] where
  labels : Set κ
  opens : κ → τ
  closes : κ → τ
  opens_lt : ∀ d ∈ labels, opens d < closes d
  disjoint : ∀ d ∈ labels, ∀ e ∈ labels, d < e → closes d ≤ opens e

namespace Spans

variable {s : Spans κ τ} {p q t u : τ} {d e : κ}

def IsOwning (s : Spans κ τ) (p : τ) (d : κ) : Prop :=
  d ∈ s.labels ∧ p < s.closes d ∧ ∀ e ∈ s.labels, p < s.closes e → d ≤ e

/-- The spans after the owner of `p` that have opened at `t`. -/
def openedSince (s : Spans κ τ) (p t : τ) : Set κ :=
  { e | ∃ d, s.IsOwning p d ∧ d < e ∧ e ∈ s.labels ∧ s.opens e ≤ t }

theorem closes_lt (hd : d ∈ s.labels) (he : e ∈ s.labels) (h : d < e) :
    s.closes d < s.closes e :=
  (s.disjoint d hd e he h).trans_lt (s.opens_lt e he)

theorem opens_lt_opens (hd : d ∈ s.labels) (he : e ∈ s.labels) (h : d < e) :
    s.opens d < s.opens e :=
  (s.opens_lt d hd).trans_le (s.disjoint d hd e he h)

theorem IsOwning.unique (hd : s.IsOwning p d) (he : s.IsOwning p e) : d = e :=
  le_antisymm (hd.2.2 e he.1 he.2.1) (he.2.2 d hd.1 hd.2.1)

theorem IsOwning.mono (hd : s.IsOwning p d) (he : s.IsOwning q e) (h : p ≤ q) : d ≤ e :=
  hd.2.2 e he.1 (h.trans_lt he.2.1)

theorem openedSince_mono (h : t ≤ u) : s.openedSince p t ⊆ s.openedSince p u := by
  rintro e ⟨d, hd, hlt, he, hopen⟩
  exact ⟨d, hd, hlt, he, hopen.trans h⟩

/-- Where the earlier moment is owned at all, fewer spans have opened since a later one. -/
theorem openedSince_anti (hd : s.IsOwning p d) (h : p ≤ q) :
    s.openedSince q t ⊆ s.openedSince p t := by
  rintro e ⟨f, hf, hlt, he, hopen⟩
  exact ⟨d, hd, (hd.mono hf h).trans_lt hlt, he, hopen⟩

theorem openedSince_eq_empty (h : t ≤ p) : s.openedSince p t = ∅ := by
  rw [Set.eq_empty_iff_forall_notMem]
  rintro e ⟨d, hd, hlt, he, hopen⟩
  have hlater : p < s.opens e := hd.2.1.trans_le (s.disjoint d hd.1 e he hlt)
  exact absurd (hopen.trans h) (not_le.mpr hlater)

end Spans

end KAssetTrader
