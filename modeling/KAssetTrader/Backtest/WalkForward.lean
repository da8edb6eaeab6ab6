import KAssetTrader.Backtest.Agreement

/-!
The walk forward: train and test windows that roll over the timestamps of all candidates. The
input of a forward track is cut so that the train window of the first fold ends at the first
timestamp from the signal start on; the bars before it only warm up. Where the cut leaves the
windows follows from where each index of the loop lies in the timestamps before the cut.
-/

namespace KAssetTrader.Backtest

open Checked PortfolioBacktest

/-- `WalkForwardConfig`; the last fields are the checks of its constructor. -/
structure WalkForwardConfig where
  trainBars : ℕ := 260
  testBars : ℕ := 20
  stepBars : ℕ := 20
  train_two : 2 ≤ trainBars := by norm_num
  test_positive : 1 ≤ testBars := by norm_num
  step_positive : 1 ≤ stepBars := by norm_num

namespace WalkForwardConfig

variable (config : WalkForwardConfig)

def required : ℕ := config.trainBars + config.testBars

/-- Where the bars are cut: what is left before a first forward index only warms up. -/
def cutIndex (firstForward : ℕ) : ℕ := firstForward - (config.trainBars - 1)

theorem required_pos : 0 < config.required :=
  Nat.lt_add_right _ (Nat.zero_lt_two.trans_le config.train_two)

def foldCount (usable : ℕ) : ℕ :=
  if config.required ≤ usable then (usable - config.required) / config.stepBars + 1 else 0

end WalkForwardConfig

def unionTimestamps (bars : List (CandidateKey × List PriceBar)) : List Instant :=
  timestamps (bars.flatMap fun row => row.2.map (row.1, ·))

def forwardWalkForwardBars (barsByCandidate : Dict CandidateKey (List PriceBar))
    (signalStartAt : Instant) (config : WalkForwardConfig) (minFolds : ℤ) :
    Except String (Dict CandidateKey (List PriceBar)) :=
  let timestamps := unionTimestamps barsByCandidate.entries
  match timestamps.findIdx? (signalStartAt ≤ ·) with
  | none => .error "forward_window_empty"
  | some firstForward =>
    let foldCount := config.foldCount (timestamps.length - config.cutIndex firstForward)
    if foldCount < minFolds then
      .error ("forward_window_insufficient_bars:folds=" ++ toString foldCount ++
        ",min_folds=" ++ toString minFolds)
    else
      let cut := timestamps.getD (config.cutIndex firstForward) 0
      .ok (barsByCandidate.mapValues fun _ bars => bars.filter (cut ≤ ·.timestamp))

structure WalkForwardFold where
  foldIndex : ℕ
  trainStartAt : Instant
  trainEndAt : Instant
  testStartAt : Instant
  testEndAt : Instant
  trainResult : PortfolioBacktestResult
  testResult : PortfolioBacktestResult

/-- `timestamps[i]`. -/
def instantAt (timestamps : List Instant) (i : ℕ) : Except String Instant :=
  timestamps[i]?.elim (.error "list index out of range") .ok

def sliceBars (startAt endAt : Instant) (bars : List PriceBar) : List PriceBar :=
  bars.filter fun bar => startAt ≤ bar.timestamp ∧ bar.timestamp ≤ endAt

namespace PortfolioBacktest

variable (b : PortfolioBacktest)

def sliced (metadata : List CandidateMetadata) (normalized : List (CandidateKey × List PriceBar))
    (startAt endAt : Instant) (window : Option BacktestWindow) : PortfolioBacktest :=
  { b with
    candidates := metadata
    barsByCandidate :=
      normalized.foldl (fun bars row => bars.set row.1 (sliceBars startAt endAt row.2)) .empty
    benchmarkBarsByMarket :=
      b.benchmarkBarsByMarket.map fun row => (row.1, sliceBars startAt endAt row.2)
    benchmarkBarsByCandidate := b.benchmarkBarsByCandidate.map fun row =>
      (row.1, { row.2 with bars := sliceBars startAt endAt row.2.bars })
    window }

def walkForwardFold (config : WalkForwardConfig) (metadata : List CandidateMetadata)
    (normalized : List (CandidateKey × List PriceBar)) (timestamps : List Instant)
    (foldStart foldIndex : ℕ) : Except String WalkForwardFold := do
  let trainStartAt ← instantAt timestamps foldStart
  let trainEndAt ← instantAt timestamps (foldStart + config.trainBars - 1)
  let testStartAt ← instantAt timestamps (foldStart + config.trainBars)
  let testEndAt ← instantAt timestamps (foldStart + config.required - 1)
  let trainResult ←
    (b.sliced metadata normalized trainStartAt trainEndAt none).runPortfolioBacktest
  if h : trainEndAt < testEndAt then
    let testResult ← (b.sliced metadata normalized trainStartAt testEndAt
      (some ⟨trainEndAt, testEndAt, h⟩)).runPortfolioBacktest
    return { foldIndex, trainStartAt, trainEndAt, testStartAt, testEndAt, trainResult, testResult }
  else .error "signal_start_at must be before end_at"

def walkForwardFolds (config : WalkForwardConfig) (metadata : List CandidateMetadata)
    (normalized : List (CandidateKey × List PriceBar)) (timestamps : List Instant)
    (foldStart foldIndex : ℕ) : Except String (List WalkForwardFold) :=
  if foldStart + config.required ≤ timestamps.length then do
    let fold ← b.walkForwardFold config metadata normalized timestamps foldStart foldIndex
    let rest ← walkForwardFolds config metadata normalized timestamps
      (foldStart + config.stepBars) (foldIndex + 1)
    return fold :: rest
  else .ok []
termination_by timestamps.length + 1 - foldStart
decreasing_by
  have := config.step_positive
  omega

/-- `run_walk_forward`: its folds. -/
def runWalkForward (config : WalkForwardConfig) : Except String (List WalkForwardFold) := do
  let metadata ← validateCandidates b.candidates
  let normalized ← normalizeCandidateBars metadata b.barsByCandidate
  let timestamps := unionTimestamps normalized
  if timestamps.length < config.required then
    .error "insufficient timestamps for one complete walk-forward fold"
  else b.walkForwardFolds config metadata normalized timestamps 0 1

end PortfolioBacktest

/-- What the cut input of a forward track promises of any walk forward over it. -/
structure ForwardFolds (barsByCandidate trimmed : Dict CandidateKey (List PriceBar))
    (signalStartAt : Instant) (config : WalkForwardConfig) (minFolds : ℤ) (first : ℕ) : Prop where
  forward : (unionTimestamps barsByCandidate.entries).findIdx? (signalStartAt ≤ ·) = some first
  kept : ∀ key, (trimmed.get? key).map (·.filter (signalStartAt ≤ ·.timestamp)) =
    (barsByCandidate.get? key).map (·.filter (signalStartAt ≤ ·.timestamp))
  enough : minFolds ≤ config.foldCount
    ((unionTimestamps barsByCandidate.entries).length - config.cutIndex first)
  folds : ∀ (b : PortfolioBacktest) (folds : List WalkForwardFold),
    b.barsByCandidate = trimmed → b.runWalkForward config = .ok folds →
      folds.length = config.foldCount
          ((unionTimestamps barsByCandidate.entries).length - config.cutIndex first) ∧
        (∀ fold ∈ folds, signalStartAt ≤ fold.trainEndAt) ∧
        (config.trainBars - 1 ≤ first → ∀ fold ∈ folds.head?,
          (unionTimestamps barsByCandidate.entries)[first]? = some fold.trainEndAt)

section Union

variable {bars other : List (CandidateKey × List PriceBar)} {t : Instant}

theorem mem_unionTimestamps :
    t ∈ unionTimestamps bars ↔ ∃ row ∈ bars, ∃ bar ∈ row.2, bar.timestamp = t := by
  unfold unionTimestamps
  rw [mem_timestamps]
  constructor
  · rintro ⟨row, hrow, rfl⟩
    obtain ⟨series, hseries, hmem⟩ := List.mem_flatMap.mp hrow
    obtain ⟨bar, hbar, rfl⟩ := List.mem_map.mp hmem
    exact ⟨series, hseries, bar, hbar, rfl⟩
  · rintro ⟨series, hseries, bar, hbar, rfl⟩
    exact ⟨(series.1, bar), List.mem_flatMap.mpr ⟨series, hseries, List.mem_map_of_mem hbar⟩, rfl⟩

theorem unionTimestamps_pairwise : (unionTimestamps bars).Pairwise (· < ·) :=
  timestamps_pairwise _

theorem eq_of_mem_iff {xs ys : List Instant} (hxs : xs.Pairwise (· < ·))
    (hys : ys.Pairwise (· < ·)) (h : ∀ t, t ∈ xs ↔ t ∈ ys) : xs = ys := by
  have hperm : xs.Perm ys :=
    (List.perm_ext_iff_of_nodup (hxs.imp fun h => h.ne) (hys.imp fun h => h.ne)).mpr h
  refine hperm.eq_of_pairwise ?_ hxs hys
  intro a b _ _ hab hba
  exact absurd (hab.trans hba) (lt_irrefl _)

theorem unionTimestamps_normalized {metadata : List CandidateMetadata}
    {barsByCandidate : Dict CandidateKey (List PriceBar)}
    (h : normalizeCandidateBars metadata barsByCandidate = .ok bars) :
    unionTimestamps bars = unionTimestamps barsByCandidate.entries := by
  obtain ⟨rfl, -⟩ := normalizeCandidateBars_ok h
  have hknown : ∀ key ∈ barsByCandidate.keys, key ∈ metadata.map (·.key) := by
    unfold normalizeCandidateBars at h
    split at h
    · cases h
    next hknown =>
      simpa using hknown
  refine eq_of_mem_iff unionTimestamps_pairwise unionTimestamps_pairwise fun t => ?_
  rw [mem_unionTimestamps, mem_unionTimestamps]
  constructor
  · rintro ⟨row, hrow, bar, hbar, rfl⟩
    obtain ⟨candidate, -, rfl⟩ := List.mem_map.mp hrow
    cases hget : barsByCandidate.get? candidate.key with
    | none =>
      rw [hget] at hbar
      exact absurd hbar List.not_mem_nil
    | some series =>
      rw [hget] at hbar
      exact ⟨(candidate.key, series), (barsByCandidate.get?_eq_some).mp hget, bar, hbar, rfl⟩
  · rintro ⟨⟨key, series⟩, hrow, bar, hbar, rfl⟩
    obtain ⟨candidate, hcandidate, rfl⟩ := List.mem_map.mp (hknown key (List.mem_map_of_mem hrow))
    refine ⟨_, List.mem_map_of_mem hcandidate, bar, ?_, rfl⟩
    rw [(barsByCandidate.get?_eq_some).mpr hrow]
    exact hbar

theorem drop_eq_filter {xs : List Instant} (hxs : xs.Pairwise (· < ·)) {i : ℕ}
    (hi : i < xs.length) : xs.drop i = xs.filter (xs.getD i 0 ≤ ·) := by
  induction xs generalizing i with
  | nil => exact absurd hi (Nat.not_lt_zero i)
  | cons x rest ih =>
    obtain ⟨hfirst, hrest⟩ := List.pairwise_cons.mp hxs
    cases i with
    | zero =>
      refine (List.filter_eq_self.mpr fun y hy => decide_eq_true ?_).symm
      rcases List.mem_cons.mp hy with rfl | hmem
      · exact le_rfl
      · exact (hfirst y hmem).le
    | succ i =>
      have hi' : i < rest.length := Nat.lt_of_succ_lt_succ hi
      have hlt : x < rest.getD i 0 := by
        rw [List.getD_eq_getElem?_getD, List.getElem?_eq_getElem hi']
        exact hfirst _ (List.getElem_mem hi')
      rw [List.drop_succ_cons, List.getD_cons_succ, ih hrest hi', List.filter_cons,
        if_neg (by simpa using hlt)]

theorem unionTimestamps_cut {barsByCandidate : Dict CandidateKey (List PriceBar)} {cut : Instant} :
    unionTimestamps (barsByCandidate.mapValues fun _ bars =>
        bars.filter (cut ≤ ·.timestamp)).entries =
      (unionTimestamps barsByCandidate.entries).filter (cut ≤ ·) := by
  refine eq_of_mem_iff unionTimestamps_pairwise (unionTimestamps_pairwise.filter _) fun t => ?_
  rw [List.mem_filter, mem_unionTimestamps, mem_unionTimestamps]
  constructor
  · rintro ⟨row, hrow, bar, hbar, rfl⟩
    obtain ⟨entry, hentry, rfl⟩ := List.mem_map.mp hrow
    obtain ⟨hmem, hcut⟩ := List.mem_filter.mp hbar
    exact ⟨⟨entry, hentry, bar, hmem, rfl⟩, hcut⟩
  · rintro ⟨⟨entry, hentry, bar, hbar, rfl⟩, hcut⟩
    exact ⟨_, List.mem_map_of_mem hentry, bar, List.mem_filter.mpr ⟨hbar, hcut⟩, rfl⟩

end Union

section Folds

variable {b : PortfolioBacktest} {config : WalkForwardConfig} {metadata : List CandidateMetadata}
  {normalized : List (CandidateKey × List PriceBar)} {times : List Instant}
  {folds : List WalkForwardFold}

theorem foldCount_succ {start : ℕ} (h : start + config.required ≤ times.length) :
    config.foldCount (times.length - start) =
      config.foldCount (times.length - (start + config.stepBars)) + 1 := by
  have hstep := config.step_positive
  have hrequired := config.required_pos
  unfold WalkForwardConfig.foldCount
  rw [if_pos (by omega)]
  split
  · have hsub : times.length - start - config.required =
        times.length - (start + config.stepBars) - config.required + config.stepBars := by omega
    rw [hsub, Nat.add_div_right _ hstep]
  · rw [Nat.div_eq_of_lt (by omega)]

theorem instantAt_ok {i : ℕ} {t : Instant} (h : instantAt times i = .ok t) :
    times[i]? = some t := by
  unfold instantAt at h
  cases hget : times[i]? with
  | none =>
    rw [hget] at h
    cases h
  | some found =>
    rw [hget] at h
    rw [Except.ok.inj h]

theorem walkForwardFold_trainEndAt {start index : ℕ} {fold : WalkForwardFold}
    (h : b.walkForwardFold config metadata normalized times start index = .ok fold) :
    times[start + config.trainBars - 1]? = some fold.trainEndAt := by
  obtain ⟨trainStartAt, -, h⟩ := bind_ok_iff.mp h
  obtain ⟨trainEndAt, hend, h⟩ := bind_ok_iff.mp h
  obtain ⟨testStartAt, -, h⟩ := bind_ok_iff.mp h
  obtain ⟨testEndAt, -, h⟩ := bind_ok_iff.mp h
  obtain ⟨trainResult, -, h⟩ := bind_ok_iff.mp h
  split at h
  · obtain ⟨testResult, -, h⟩ := bind_ok_iff.mp h
    cases h
    exact instantAt_ok hend
  · cases h

theorem walkForwardFolds_ok {start index : ℕ}
    (h : b.walkForwardFolds config metadata normalized times start index = .ok folds) :
    folds.length = config.foldCount (times.length - start) ∧
      (∀ fold ∈ folds, ∃ first, times[first + config.trainBars - 1]? = some fold.trainEndAt) ∧
      ∀ fold ∈ folds.head?, times[start + config.trainBars - 1]? = some fold.trainEndAt := by
  induction start, index using walkForwardFolds.induct config times generalizing folds with
  | case1 start index hfits ih =>
    rw [walkForwardFolds, if_pos hfits] at h
    obtain ⟨fold, hfold, h⟩ := bind_ok_iff.mp h
    obtain ⟨rest, hrest, h⟩ := bind_ok_iff.mp h
    cases h
    obtain ⟨hlength, hends, -⟩ := ih hrest
    have hend := walkForwardFold_trainEndAt hfold
    refine ⟨?_, List.forall_mem_cons.mpr ⟨⟨start, hend⟩, hends⟩, ?_⟩
    · rw [List.length_cons, hlength, foldCount_succ hfits]
    · rintro _ ⟨⟩
      exact hend
  | case2 start index hends =>
    rw [walkForwardFolds, if_neg hends] at h
    cases h
    refine ⟨?_, List.forall_mem_nil _, fun _ hmem => by cases hmem⟩
    have hrequired := config.required_pos
    unfold WalkForwardConfig.foldCount
    rw [if_neg (by omega), List.length_nil]

theorem runWalkForward_ok (h : b.runWalkForward config = .ok folds) :
    ∃ metadata normalized, b.walkForwardFolds config metadata normalized
      (unionTimestamps b.barsByCandidate.entries) 0 1 = .ok folds := by
  obtain ⟨metadata, -, h⟩ := bind_ok_iff.mp h
  obtain ⟨normalized, hnormalized, h⟩ := bind_ok_iff.mp h
  dsimp only at h
  rw [unionTimestamps_normalized hnormalized] at h
  split at h
  · cases h
  · exact ⟨metadata, normalized, h⟩

end Folds

section Forward

variable {times : List Instant} {start t : Instant} {first i : ℕ}

theorem start_le_iff (htimes : times.Pairwise (· < ·))
    (hfirst : times.findIdx? (start ≤ ·) = some first) (ht : times[i]? = some t) :
    start ≤ t ↔ first ≤ i := by
  obtain ⟨hlt, hstart, hbefore⟩ := List.findIdx?_eq_some_iff_getElem.mp hfirst
  obtain ⟨hi, rfl⟩ := List.getElem?_eq_some_iff.mp ht
  constructor
  · intro hle
    by_contra hnot
    exact hbefore i (not_le.mp hnot) (decide_eq_true hle)
  · intro hle
    rcases hle.lt_or_eq with hearlier | rfl
    · exact (of_decide_eq_true hstart).trans
        (List.pairwise_iff_getElem.mp htimes first i hlt hi hearlier).le
    · exact of_decide_eq_true hstart

variable {barsByCandidate trimmed : Dict CandidateKey (List PriceBar)} {config : WalkForwardConfig}
  {minFolds : ℤ} {b : PortfolioBacktest} {folds : List WalkForwardFold} {fold : WalkForwardFold}

def cutBars (barsByCandidate : Dict CandidateKey (List PriceBar)) (cutIndex : ℕ) :
    Dict CandidateKey (List PriceBar) :=
  barsByCandidate.mapValues fun _ bars =>
    bars.filter ((unionTimestamps barsByCandidate.entries).getD cutIndex 0 ≤ ·.timestamp)

theorem forwardWalkForwardBars_ok
    (h : forwardWalkForwardBars barsByCandidate start config minFolds = .ok trimmed) :
    ∃ first,
      (unionTimestamps barsByCandidate.entries).findIdx? (start ≤ ·) = some first ∧
        minFolds ≤ config.foldCount
          ((unionTimestamps barsByCandidate.entries).length - config.cutIndex first) ∧
        trimmed = cutBars barsByCandidate (config.cutIndex first) := by
  unfold forwardWalkForwardBars at h
  dsimp only at h
  split at h
  · cases h
  next first hfirst =>
    split at h
    · cases h
    next hcount => exact ⟨first, hfirst, not_lt.mp hcount, (Except.ok.inj h).symm⟩

variable (hfirst : (unionTimestamps barsByCandidate.entries).findIdx? (start ≤ ·) = some first)
include hfirst

theorem cutIndex_lt : config.cutIndex first < (unionTimestamps barsByCandidate.entries).length :=
  (Nat.sub_le _ _).trans_lt (List.findIdx?_eq_some_iff_getElem.mp hfirst).1

theorem cutBars_kept (key : CandidateKey) :
    ((cutBars barsByCandidate (config.cutIndex first)).get? key).map
        (·.filter (start ≤ ·.timestamp)) =
      (barsByCandidate.get? key).map (·.filter (start ≤ ·.timestamp)) := by
  unfold cutBars
  rw [Dict.get?_mapValues, Option.map_map]
  refine Option.map_congr fun bars hbars => ?_
  rw [Function.comp_apply, List.filter_filter]
  refine List.filter_congr fun bar hbar => ?_
  rw [Bool.and_eq_left_iff_imp]
  intro hle
  have hmem : bar.timestamp ∈ unionTimestamps barsByCandidate.entries :=
    mem_unionTimestamps.mpr ⟨(key, bars), (Dict.get?_eq_some _).mp hbars, bar, hbar, rfl⟩
  obtain ⟨i, hi⟩ := List.mem_iff_getElem?.mp hmem
  have hcut : config.cutIndex first ≤ i := (Nat.sub_le _ _).trans
    ((start_le_iff unionTimestamps_pairwise hfirst hi).mp (of_decide_eq_true hle))
  have hdropped : bar.timestamp ∈
      (unionTimestamps barsByCandidate.entries).drop (config.cutIndex first) := by
    refine List.mem_iff_getElem?.mpr ⟨i - config.cutIndex first, ?_⟩
    rw [List.getElem?_drop, Nat.add_sub_cancel' hcut, hi]
  rw [drop_eq_filter unionTimestamps_pairwise (cutIndex_lt hfirst)] at hdropped
  exact (List.mem_filter.mp hdropped).2

theorem runWalkForward_cut
    (hbars : b.barsByCandidate = cutBars barsByCandidate (config.cutIndex first))
    (hrun : b.runWalkForward config = .ok folds) :
    ∃ metadata normalized, b.walkForwardFolds config metadata normalized
      ((unionTimestamps barsByCandidate.entries).drop (config.cutIndex first)) 0 1 = .ok folds := by
  obtain ⟨metadata, normalized, hloop⟩ := runWalkForward_ok hrun
  rw [hbars, cutBars, unionTimestamps_cut,
    ← drop_eq_filter unionTimestamps_pairwise (cutIndex_lt hfirst)] at hloop
  exact ⟨metadata, normalized, hloop⟩

omit hfirst

/-- A walk forward over the cut bars has as many folds as the cut counted, and its train windows
end at the first timestamp from the signal start on, or later. -/
theorem forward_walk_forward_folds
    (h : forwardWalkForwardBars barsByCandidate start config minFolds = .ok trimmed) :
    ∃ first, ForwardFolds barsByCandidate trimmed start config minFolds first := by
  obtain ⟨first, hfirst, hcount, rfl⟩ := forwardWalkForwardBars_ok h
  have htrain := config.train_two
  refine ⟨first, hfirst, cutBars_kept hfirst, hcount, fun b folds hbars hrun => ?_⟩
  obtain ⟨metadata, normalized, hloop⟩ := runWalkForward_cut hfirst hbars hrun
  obtain ⟨hlength, hends, hhead⟩ := walkForwardFolds_ok hloop
  refine ⟨by rw [hlength, List.length_drop, Nat.sub_zero], ?_, ?_⟩
  · intro fold hfold
    obtain ⟨place, hend⟩ := hends fold hfold
    rw [List.getElem?_drop] at hend
    refine (start_le_iff unionTimestamps_pairwise hfirst hend).mpr ?_
    unfold WalkForwardConfig.cutIndex
    omega
  · intro hearlier fold hfold
    have hend := hhead fold hfold
    have hindex : config.cutIndex first + (0 + config.trainBars - 1) = first := by
      unfold WalkForwardConfig.cutIndex
      omega
    rwa [List.getElem?_drop, hindex] at hend

theorem one_bar : 1 ≤ 1 := le_rfl

/-- Four days of a share, and the signals from the second one on. -/
theorem forward_walk_forward_folds_four : ∃ trimmed first,
    ForwardFolds ⟨[(⟨.kr, "005930"⟩, [1, 2, 3, 4].map fun day => ⟨day, 1, 1, 1, 1, 0⟩)],
      List.nodup_singleton _⟩ trimmed 2 ⟨2, 1, 1, le_rfl, one_bar, one_bar⟩ 2 first :=
  ⟨_, forward_walk_forward_folds rfl⟩

end Forward

end KAssetTrader.Backtest
