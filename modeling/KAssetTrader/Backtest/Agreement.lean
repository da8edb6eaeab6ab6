import KAssetTrader.Backtest.Steps

/-!
Inputs that agree up to an instant: the same arguments, and the same bars of the
candidates and the benchmarks up to the instant. The days up to it are then the
same, and so is what the loop does on each of them.
-/

namespace KAssetTrader.Backtest

open PortfolioBacktest Position Sizing Checked

def CandidateBenchmarkSeries.upTo (T : Instant) (series : CandidateBenchmarkSeries) :
    CandidateBenchmarkSeries :=
  { series with bars := completedAt T series.bars }

/-- Two calls that differ at most in the bars after the instant. -/
structure PortfolioBacktest.AgreeUpTo (T : Instant) (a b : PortfolioBacktest) : Prop where
  engine : a.engine = b.engine
  config : a.config = b.config
  candidates : a.candidates = b.candidates
  window : a.window = b.window
  entryPath : a.entryPath = b.entryPath
  bars : ∀ key, completedAt T ((a.barsByCandidate.get? key).getD []) =
    completedAt T ((b.barsByCandidate.get? key).getD [])
  byMarket : (a.benchmarkBarsByMarket.map fun e => (e.1, completedAt T e.2)) =
    b.benchmarkBarsByMarket.map fun e => (e.1, completedAt T e.2)
  byCandidate : (a.benchmarkBarsByCandidate.map fun e => (e.1, e.2.upTo T)) =
    b.benchmarkBarsByCandidate.map fun e => (e.1, e.2.upTo T)

section Benchmarks

variable {engine : Engine} {T asOf : Instant}

theorem completedAt_completedAt (h : asOf ≤ T) (bars : List PriceBar) :
    completedAt asOf (completedAt T bars) = completedAt asOf bars := by
  unfold completedAt
  rw [List.filter_filter]
  refine List.filter_congr fun bar _ => ?_
  by_cases hbar : bar.timestamp ≤ asOf
  · simp [hbar, hbar.trans h]
  · simp [hbar]

theorem rollingBenchmarkReturns_upTo (h : asOf ≤ T)
    (benchmarks : List (MarketKey × List PriceBar)) :
    rollingBenchmarkReturns engine (benchmarks.map fun e => (e.1, completedAt T e.2)) asOf =
      rollingBenchmarkReturns engine benchmarks asOf := by
  unfold rollingBenchmarkReturns
  rw [List.mapM_map]
  simp only [Function.comp_def, completedAt_completedAt h]

theorem rollingCandidateBenchmarkReturns_upTo (h : asOf ≤ T)
    (benchmarks : List (CandidateKey × CandidateBenchmarkSeries)) :
    rollingCandidateBenchmarkReturns engine (benchmarks.map fun e => (e.1, e.2.upTo T)) asOf =
      rollingCandidateBenchmarkReturns engine benchmarks asOf := by
  unfold rollingCandidateBenchmarkReturns
  rw [List.mapM_map]
  simp only [Function.comp_def, CandidateBenchmarkSeries.upTo, completedAt_completedAt h]

theorem returns_upTo (h : asOf ≤ T) (benchmarks : Benchmarks) :
    (Benchmarks.mk (benchmarks.byMarket.map fun e => (e.1, completedAt T e.2))
      (benchmarks.byCandidate.map fun e => (e.1, e.2.upTo T))).returns engine asOf =
      benchmarks.returns engine asOf := by
  unfold Benchmarks.returns
  simp only [List.map_eq_nil_iff, rollingCandidateBenchmarkReturns_upTo h]
  split
  · rw [rollingBenchmarkReturns_upTo h]
  · rfl

theorem normalizeBenchmarks_ok {benchmarks result : List (MarketKey × List PriceBar)}
    (h : normalizeBenchmarks benchmarks = .ok result) : result = benchmarks := by
  have hmap := map_of_mapM_ok (g := id) (P := fun _ => True) (fun e e' he => ?_) h
  · rw [hmap.1, List.map_id]
  · obtain ⟨bars, hbars, he⟩ := bind_ok_iff.mp he
    cases he
    rw [(normalizeBars_ok hbars).1]
    exact ⟨rfl, trivial⟩

theorem normalizeCandidateBenchmarks_ok {candidates : List CandidateMetadata}
    {benchmarks result : List (CandidateKey × CandidateBenchmarkSeries)}
    (h : normalizeCandidateBenchmarks candidates benchmarks = .ok result) :
    result = benchmarks := by
  unfold normalizeCandidateBenchmarks at h
  split at h
  · cases h
  · have hmap := map_of_mapM_ok (g := id) (P := fun _ => True) (fun e e' he => ?_) h
    · rw [hmap.1, List.map_id]
    · simp only at he
      split at he
      · cases he
      · obtain ⟨bars, hbars, he⟩ := bind_ok_iff.mp he
        cases he
        rw [(normalizeBars_ok hbars).1]
        exact ⟨rfl, trivial⟩

end Benchmarks

section Days

variable {T : Instant}

def rowsUpTo (T : Instant) (rows : List (CandidateKey × PriceBar)) :
    List (CandidateKey × PriceBar) :=
  rows.filter (·.2.timestamp ≤ T)

theorem timestamps_pairwise (rows : List (CandidateKey × PriceBar)) :
    (PortfolioBacktest.timestamps rows).Pairwise (· < ·) :=
  (days_pairwise rows).of_map (f := fun timestamp : Instant => (⟨timestamp,
    (rows.filter (·.2.timestamp = timestamp)).insertionSort fun a b => a.1.le b.1⟩ : Day))
    fun _ _ hlt => hlt

theorem mem_timestamps {rows : List (CandidateKey × PriceBar)} {timestamp : Instant} :
    timestamp ∈ PortfolioBacktest.timestamps rows ↔ ∃ row ∈ rows, row.2.timestamp = timestamp := by
  unfold timestamps
  rw [List.mem_insertionSort, List.mem_dedup, List.mem_map]

theorem timestamps_upTo (T : Instant) (rows : List (CandidateKey × PriceBar)) :
    (PortfolioBacktest.timestamps rows).filter (· ≤ T) =
      PortfolioBacktest.timestamps (rowsUpTo T rows) := by
  have hleft : ((timestamps rows).filter (· ≤ T)).Pairwise (· < ·) :=
    (timestamps_pairwise rows).filter _
  have hright := timestamps_pairwise (rowsUpTo T rows)
  refine List.Perm.eq_of_pairwise (fun a b _ _ hab hba => ?_) hleft hright ?_
  · exact absurd (hab.trans hba) (lt_irrefl _)
  · refine (List.perm_ext_iff_of_nodup (hleft.imp fun hlt => hlt.ne)
      (hright.imp fun hlt => hlt.ne)).mpr fun timestamp => ?_
    rw [List.mem_filter, mem_timestamps, mem_timestamps]
    constructor
    · rintro ⟨⟨row, hrow, rfl⟩, hle⟩
      exact ⟨row, List.mem_filter.mpr ⟨hrow, hle⟩, rfl⟩
    · rintro ⟨row, hrow, rfl⟩
      obtain ⟨hrow, hle⟩ := List.mem_filter.mp hrow
      exact ⟨⟨row, hrow, rfl⟩, hle⟩

theorem days_upTo (T : Instant) (rows : List (CandidateKey × PriceBar)) :
    (PortfolioBacktest.days rows).filter (·.timestamp ≤ T) =
      PortfolioBacktest.days (rowsUpTo T rows) := by
  unfold days
  rw [List.filter_map, ← timestamps_upTo]
  refine List.map_congr_left fun timestamp htimestamp => ?_
  have hle : timestamp ≤ T := of_decide_eq_true (List.mem_filter.mp htimestamp).2
  congr 2
  rw [rowsUpTo, List.filter_filter]
  refine List.filter_congr fun row _ => ?_
  by_cases hrow : row.2.timestamp = timestamp
  · simp [hrow, hle]
  · simp [hrow]

theorem days_split {days : List Day}
    (h : days.Pairwise fun a b => a.timestamp < b.timestamp) (T : Instant) :
    days = days.filter (·.timestamp ≤ T) ++ days.filter (T < ·.timestamp) := by
  induction days with
  | nil => rfl
  | cons day rest ih =>
    rw [List.pairwise_cons] at h
    rcases le_or_gt day.timestamp T with hday | hday
    · simp only [List.filter_cons, hday, not_lt.mpr hday, decide_true, decide_false, if_true,
        Bool.false_eq_true, if_false, List.cons_append, ← ih h.2]
    · have hlate : ∀ later ∈ rest, T < later.timestamp := fun later hlater =>
        hday.trans (h.1 later hlater)
      have hnone : rest.filter (·.timestamp ≤ T) = [] :=
        List.filter_eq_nil_iff.mpr fun later hlater => by simpa using hlate later hlater
      have hall : rest.filter (T < ·.timestamp) = rest :=
        List.filter_eq_self.mpr fun later hlater => by simpa using hlate later hlater
      simp only [List.filter_cons, hday, not_le.mpr hday, hnone, hall, decide_true, decide_false,
        if_true, Bool.false_eq_true, if_false, List.nil_append]

theorem eventRows_upTo (b : PortfolioBacktest) (T : Instant)
    (bars : List (CandidateKey × List PriceBar)) :
    rowsUpTo T (b.eventRows bars) = b.eventRows (bars.map fun e => (e.1, completedAt T e.2)) := by
  unfold rowsUpTo eventRows
  rw [List.filter_flatMap, List.flatMap_map]
  refine List.flatMap_congr fun e _ => ?_
  simp only [List.filter_map, completedAt, List.filter_filter]
  congr 1
  refine List.filter_congr fun bar _ => ?_
  simp only [Function.comp_apply]
  exact Bool.and_comm _ _

end Days

variable {T : Instant} {a b : PortfolioBacktest} {pa pb : Prepared}

variable (h : a.AgreeUpTo T b) (ha : a.prepare = .ok pa) (hb : b.prepare = .ok pb)
include h ha hb

theorem days_agree :
    pa.metadata = pb.metadata ∧
      rowsUpTo T (a.eventRows pa.bars) = rowsUpTo T (b.eventRows pb.bars) := by
  obtain ⟨hmetadata, hbars, _⟩ := prepare_ok ha
  obtain ⟨hmetadata', hbars', _⟩ := prepare_ok hb
  have hsame : pa.metadata = pb.metadata := by
    rw [h.candidates, hmetadata'] at hmetadata
    exact (Except.ok.inj hmetadata).symm
  refine ⟨hsame, ?_⟩
  rw [eventRows_upTo, eventRows_upTo, (normalizeCandidateBars_ok hbars).1,
    (normalizeCandidateBars_ok hbars').1, hsame]
  have hrows : a.eventRows = b.eventRows := by
    unfold eventRows
    rw [h.window]
  rw [hrows, List.map_map, List.map_map]
  congr 1
  exact List.map_congr_left fun candidate _ => Prod.ext rfl (h.bars candidate.key)

theorem returns_agree {asOf : Instant} (hasOf : asOf ≤ T) :
    pa.benchmarks.returns a.engine asOf = pb.benchmarks.returns b.engine asOf := by
  obtain ⟨_, _, hmarket, hcandidate⟩ := prepare_ok ha
  obtain ⟨_, _, hmarket', hcandidate'⟩ := prepare_ok hb
  rw [← returns_upTo hasOf pa.benchmarks, ← returns_upTo hasOf pb.benchmarks,
    normalizeBenchmarks_ok hmarket, normalizeBenchmarks_ok hmarket',
    normalizeCandidateBenchmarks_ok hcandidate, normalizeCandidateBenchmarks_ok hcandidate',
    h.byMarket, h.byCandidate, h.engine]

theorem runDay_agree {day : Day} (hday : day.timestamp ≤ T) (loop : Loop) :
    a.runDay pa loop day = b.runDay pb loop day := by
  have hmetadata := (days_agree h ha hb).1
  have hphases : a.phases = b.phases := by
    unfold phases recordsAt
    rw [h.window, h.config]
  have hperform : a.perform = b.perform := by
    unfold perform
    rw [h.engine, h.config, h.entryPath]
  have hprices : a.executionPrices = b.executionPrices := by
    unfold executionPrices
    rw [h.config]
  have hactions (loop : Loop) (phase : Phase) :
      a.actions pa day loop phase = b.actions pb day loop phase := by
    unfold actions
    rw [returns_agree h ha hb hday, hmetadata, hprices, h.config, h.engine]
  unfold runDay
  rw [hphases]
  refine foldlM_congr (fun loop phase _ => ?_) loop
  unfold runPhase
  rw [hactions, hperform]

/-- The two loops pass the same state after the days up to the instant. -/
theorem upTo_agree :
    ((PortfolioBacktest.days (a.eventRows pa.bars)).filter (·.timestamp ≤ T)).foldlM
        (a.runDay pa) (a.start pa) =
      ((PortfolioBacktest.days (b.eventRows pb.bars)).filter (·.timestamp ≤ T)).foldlM
        (b.runDay pb) (b.start pb) := by
  obtain ⟨hmetadata, hrows⟩ := days_agree h ha hb
  have hstart : a.start pa = b.start pb := by
    unfold start
    rw [hmetadata, h.config]
  have hdays : (days (a.eventRows pa.bars)).filter (·.timestamp ≤ T) =
      (days (b.eventRows pb.bars)).filter (·.timestamp ≤ T) := by
    rw [days_upTo, days_upTo, hrows]
  rw [hdays, hstart]
  refine foldlM_congr (fun loop day hday => ?_) _
  exact runDay_agree h ha hb (of_decide_eq_true (List.mem_filter.mp hday).2) loop

end KAssetTrader.Backtest
