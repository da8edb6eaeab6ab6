import KAssetTrader.Ranker.Rank

/-!
The two passes. Whether a candidate is left, and what is measured of it, depends on its bars
only as a collection: bars that all pass are put in the order of their distinct moments
before anything is measured. A score depends on the other candidates through the cross
section of its market and through the rule that the benchmark returns of a market are used
for all of its candidates or for none; neither depends on the order of the candidates.
-/

namespace KAssetTrader.Ranker

open Backtest (MarketKey CandidateKey PriceBar UsableBenchmark)
open Checked

variable {asOf : Instant} {bars other : List RawBar}

section Bars

variable {normalized : List PriceBar}

theorem screenBars_passed_iff :
    screenBars asOf bars = .ok (.passed normalized) ↔
      List.Forall₂ (fun bar normal => screenBar asOf bar = .ok (.passed normal)) bars
        normalized := by
  induction bars generalizing normalized with
  | nil =>
    rw [List.forall₂_nil_left_iff]
    constructor
    · intro h
      cases h
      rfl
    · rintro rfl
      rfl
  | cons bar rest ih =>
    rw [List.forall₂_cons_left_iff]
    constructor
    · intro h
      obtain ⟨screened, hbar, h⟩ := bind_ok_iff.mp h
      cases screened with
      | rejected reason dataAsOf => cases h
      | passed normal =>
        obtain ⟨later, hlater, h⟩ := bind_ok_iff.mp h
        cases later with
        | rejected reason dataAsOf => cases h
        | passed found =>
          cases h
          exact ⟨normal, found, hbar, ih.mp hlater, rfl⟩
    · rintro ⟨normal, found, hbar, hrest, rfl⟩
      unfold screenBars
      rw [hbar, ok_bind]
      dsimp only
      rw [ih.mpr hrest]
      rfl

theorem screenBars_perm (hperm : bars.Perm other)
    (h : screenBars asOf bars = .ok (.passed normalized)) :
    ∃ others, screenBars asOf other = .ok (.passed others) ∧ normalized.Perm others := by
  obtain ⟨others, hothers, hsame⟩ :=
    List.perm_comp_forall₂ hperm.symm (screenBars_passed_iff.mp h)
  exact ⟨others, screenBars_passed_iff.mpr hothers, hsame.symm⟩

end Bars

variable {A : Arithmetic} {metadata : CandidateMetadata} {config : CandidateRankerConfig A}
  {item : PreparedCandidate}

theorem nodup_of_screenHistory {normalized : List PriceBar}
    {found : List PriceBar × Instant × Decimal}
    (h : screenHistory config asOf metadata normalized = .ok (.passed found)) :
    (normalized.map (·.timestamp)).Nodup := by
  by_contra hduplicate
  unfold screenHistory at h
  rw [if_pos hduplicate] at h
  cases h

theorem prepare_perm (hperm : bars.Perm other)
    (h : prepare config asOf metadata bars = .ok (.passed item)) :
    prepare config asOf metadata other = .ok (.passed item) := by
  unfold prepare at h ⊢
  obtain ⟨screened, hbars, h⟩ := bind_ok_iff.mp h
  cases screened with
  | rejected reason dataAsOf => cases h
  | passed normalized =>
    obtain ⟨others, hothers, hsame⟩ := screenBars_perm hperm hbars
    dsimp only at h
    obtain ⟨history, hhistory, hrest⟩ := bind_ok_iff.mp h
    cases history with
    | rejected reason dataAsOf => cases hrest
    | passed found =>
      have hsorted := nodup_of_screenHistory hhistory
      have hnodup : (normalized.map (·.timestamp)).Nodup :=
        (Ranking.insertedBy_perm.map _).nodup_iff.mp hsorted
      have horder : Ranking.insertedBy (·.timestamp) others =
          Ranking.insertedBy (·.timestamp) normalized :=
        Ranking.insertedBy_eq_of_perm hnodup hsame.symm
      rw [hothers, ok_bind]
      dsimp only
      rw [horder]
      exact h

variable {result : CandidateRankResult}

section Assess

variable {allowed : List MarketKey}

theorem assess_prepared_iff :
    assess config asOf allowed metadata bars = .ok (.inr item) ↔
      metadata.market ∈ allowed ∧ prepare config asOf metadata bars = .ok (.passed item) := by
  unfold assess
  by_cases hallowed : metadata.market ∈ allowed
  · simp only [hallowed, not_true_eq_false, if_false, true_and]
    cases prepare config asOf metadata bars with
    | error fault => simp
    | ok screened =>
      cases screened with
      | rejected reason dataAsOf => simp [pure, Except.pure]
      | passed found => simp [pure, Except.pure]
  · simp [hallowed, pure, Except.pure]

theorem assess_perm (hperm : bars.Perm other)
    (h : assess config asOf allowed metadata bars = .ok (.inr item)) :
    assess config asOf allowed metadata other = .ok (.inr item) := by
  obtain ⟨hallowed, hprepare⟩ := assess_prepared_iff.mp h
  exact assess_prepared_iff.mpr ⟨hallowed, prepare_perm hperm hprepare⟩

theorem key_of_excluded (h : assess config asOf allowed metadata bars = .ok (.inl result)) :
    result.key = metadata.key := by
  unfold assess at h
  split at h
  · cases h
    rfl
  · obtain ⟨screened, -, h⟩ := bind_ok_iff.mp h
    cases screened with
    | rejected reason dataAsOf =>
      cases h
      rfl
    | passed found => cases h

theorem metadata_of_measure {bounded : List PriceBar} {dataAsOf : Instant} {turnover : Decimal} :
    Ensures (measure config asOf metadata bounded dataAsOf turnover) fun item =>
      item.metadata = metadata ∧
        ∀ evidence ∈ item.evidence, evidence.code ≠ "relative_strength_source" := by
  unfold measure
  iterate 26 refine ensures_bind fun _ => ?_
  refine ensures_ok ⟨rfl, ?_⟩
  simp

theorem metadata_of_assess (h : assess config asOf allowed metadata bars = .ok (.inr item)) :
    item.metadata = metadata ∧
      ∀ evidence ∈ item.evidence, evidence.code ≠ "relative_strength_source" := by
  obtain ⟨-, h⟩ := assess_prepared_iff.mp h
  unfold prepare at h
  obtain ⟨screened, -, h⟩ := bind_ok_iff.mp h
  cases screened with
  | rejected reason dataAsOf => cases h
  | passed normalized =>
    obtain ⟨history, -, h⟩ := bind_ok_iff.mp h
    cases history with
    | rejected reason dataAsOf => cases h
    | passed found =>
      obtain ⟨measured, hmeasured, h⟩ := bind_ok_iff.mp h
      cases h
      exact metadata_of_measure _ hmeasured

end Assess

variable {candidates others : List PreparedCandidate} {market : MarketKey}

section CrossSection

variable {d : Dict CandidateKey Decimal}

theorem marketPercentiles_perm (hperm : candidates.Perm others) :
    marketPercentiles A others market = marketPercentiles A candidates market := by
  have hreturns := ((hperm.filter (·.metadata.market = market)).map (·.momentum60)).symm.dedup
  unfold marketPercentiles
  dsimp only
  rw [Ranking.insertedBy_eq_of_perm _ hreturns]
  rw [List.map_id]
  exact List.nodup_dedup _

theorem crossSectionalStrength_ok_iff :
    crossSectionalStrength A candidates = .ok d ↔
      ∃ kr us, marketPercentiles A candidates .kr = .ok kr ∧
        marketPercentiles A candidates .us = .ok us ∧
        d = (candidates.filter (·.metadata.market = .us)).foldl
          (fun output item => output.set item.metadata.key
            ((us.lookup item.momentum60).getD 0))
          ((candidates.filter (·.metadata.market = .kr)).foldl
            (fun output item => output.set item.metadata.key
              ((kr.lookup item.momentum60).getD 0)) Dict.empty) := by
  unfold crossSectionalStrength
  simp only [List.foldlM_cons, List.foldlM_nil]
  constructor
  · intro h
    obtain ⟨first, hfirst, h⟩ := bind_ok_iff.mp h
    obtain ⟨kr, hkr, hfirst⟩ := bind_ok_iff.mp hfirst
    obtain ⟨second, hsecond, h⟩ := bind_ok_iff.mp h
    obtain ⟨us, hus, hsecond⟩ := bind_ok_iff.mp hsecond
    cases hfirst
    cases hsecond
    cases h
    exact ⟨kr, us, hkr, hus, rfl⟩
  · rintro ⟨kr, us, hkr, hus, rfl⟩
    rw [hkr, hus]
    rfl

theorem find?_other_market {market : MarketKey} (hmarket : item.metadata.market ≠ market) :
    ((candidates.filter (·.metadata.market = market)).reverse.find?
      fun other => decide (other.metadata.key = item.metadata.key)) = none := by
  rw [List.find?_eq_none]
  intro other hother hkey
  have hsame := of_decide_eq_true (List.mem_filter.mp (List.mem_reverse.mp hother)).2
  have heq : other.metadata.market = item.metadata.market :=
    congrArg CandidateKey.market (of_decide_eq_true hkey)
  exact hmarket (heq.symm.trans hsame)

theorem get?_crossSectional (hnodup : (candidates.map (·.metadata.key)).Nodup)
    (h : crossSectionalStrength A candidates = .ok d) (hitem : item ∈ candidates) :
    ∃ scores, marketPercentiles A candidates item.metadata.market = .ok scores ∧
      d.get? item.metadata.key = some ((scores.lookup item.momentum60).getD 0) := by
  obtain ⟨kr, us, hkr, hus, rfl⟩ := crossSectionalStrength_ok_iff.mp h
  have hfound (market : MarketKey) (hmarket : item.metadata.market = market) :
      ((candidates.filter (·.metadata.market = market)).reverse.find?
        fun other => decide (other.metadata.key = item.metadata.key)) = some item := by
    have hdistinct : ((candidates.filter (·.metadata.market = market)).map
        (·.metadata.key)).Nodup := hnodup.sublist (List.filter_sublist.map _)
    exact Dict.find?_reverse_of_nodup hdistinct
      (List.mem_filter.mpr ⟨hitem, decide_eq_true hmarket⟩)
  rw [Dict.get?_foldl_set_items, Dict.get?_foldl_set_items]
  cases hmarket : item.metadata.market with
  | kr =>
    refine ⟨kr, hkr, ?_⟩
    rw [find?_other_market (by rw [hmarket]; decide), hfound .kr hmarket]
    rfl
  | us =>
    refine ⟨us, hus, ?_⟩
    rw [hfound .us hmarket]
    rfl

theorem crossSectional_perm (hperm : candidates.Perm others)
    (hnodup : (candidates.map (·.metadata.key)).Nodup)
    (h : crossSectionalStrength A candidates = .ok d) :
    ∃ d', crossSectionalStrength A others = .ok d' ∧
      ∀ item ∈ candidates, d'.get? item.metadata.key = d.get? item.metadata.key := by
  obtain ⟨kr, us, hkr, hus, -⟩ := crossSectionalStrength_ok_iff.mp h
  have hothers : ∃ d', crossSectionalStrength A others = .ok d' := by
    refine ⟨_, crossSectionalStrength_ok_iff.mpr ⟨kr, us, ?_, ?_, rfl⟩⟩
    · rw [marketPercentiles_perm hperm, hkr]
    · rw [marketPercentiles_perm hperm, hus]
  obtain ⟨d', hd'⟩ := hothers
  refine ⟨d', hd', ?_⟩
  intro item hitem
  obtain ⟨scores, hscores, hget⟩ := get?_crossSectional hnodup h hitem
  obtain ⟨scores', hscores', hget'⟩ :=
    get?_crossSectional ((hperm.map _).nodup_iff.mp hnodup) hd' (hperm.mem_iff.mp hitem)
  rw [marketPercentiles_perm hperm, hscores] at hscores'
  cases hscores'
  rw [hget, hget']

end CrossSection

section Homogeneous

variable {values : Dict CandidateKey UsableBenchmark} {benchmarks : Dict MarketKey UsableBenchmark}

theorem partlyCovered_perm (hperm : candidates.Perm others) :
    partlyCovered values others market = partlyCovered values candidates market := by
  have hkeys := ((hperm.filter (·.metadata.market = market)).map (·.metadata.key))
  unfold partlyCovered
  dsimp only
  rw [hkeys.any_eq, hkeys.any_eq]

theorem homogeneous_perm (hperm : candidates.Perm others) :
    homogeneousCandidateBenchmarks values others benchmarks =
      homogeneousCandidateBenchmarks values candidates benchmarks := by
  unfold homogeneousCandidateBenchmarks
  simp only [List.foldl_cons, List.foldl_nil, homogenize, partlyCovered_perm hperm]

theorem get?_homogenize {key : CandidateKey} :
    (homogenize candidates benchmarks values market).get? key =
      if (benchmarks.get? market).isNone ∧ partlyCovered values candidates market ∧
          key.market = market then none
      else values.get? key := by
  unfold homogenize
  cases hbenchmark : benchmarks.get? market with
  | some benchmark => simp
  | none =>
    by_cases hpartly : partlyCovered values candidates market = true
    · simp only [Option.isSome_none, Bool.false_eq_true, if_false, hpartly, if_true,
        Option.isNone_none, true_and, Dict.get?_filter_key]
      by_cases hmarket : key.market = market
      · simp [hmarket]
      · simp [hmarket]
    · simp [hpartly]

theorem partlyCovered_congr {values' : Dict CandidateKey UsableBenchmark}
    (h : ∀ key : CandidateKey, key.market = market → values'.get? key = values.get? key) :
    partlyCovered values' candidates market = partlyCovered values candidates market := by
  have hkeys : ∀ key ∈ (candidates.filter (·.metadata.market = market)).map (·.metadata.key),
      values'.get? key = values.get? key := by
    intro key hkey
    obtain ⟨item, hitem, rfl⟩ := List.mem_map.mp hkey
    exact h _ (of_decide_eq_true (List.mem_filter.mp hitem).2)
  unfold partlyCovered
  dsimp only
  rw [Bool.eq_iff_iff, Bool.and_eq_true, Bool.and_eq_true, List.any_eq_true, List.any_eq_true,
    List.any_eq_true, List.any_eq_true]
  apply and_congr
  · exact exists_congr fun key => and_congr_right fun hkey => by rw [hkeys key hkey]
  · exact exists_congr fun key => and_congr_right fun hkey => by rw [hkeys key hkey]

theorem get?_homogeneous {key : CandidateKey} :
    (homogeneousCandidateBenchmarks values candidates benchmarks).get? key =
      if (benchmarks.get? key.market).isNone ∧ partlyCovered values candidates key.market then none
      else values.get? key := by
  unfold homogeneousCandidateBenchmarks
  rw [List.foldl_cons, List.foldl_cons, List.foldl_nil, get?_homogenize]
  cases hmarket : key.market with
  | kr => simp [get?_homogenize, hmarket]
  | us =>
    have hcovered : partlyCovered (homogenize candidates benchmarks values .kr) candidates
        .us = partlyCovered values candidates .us := by
      apply partlyCovered_congr
      intro other hother
      rw [get?_homogenize]
      simp [hother]
    rw [hcovered, get?_homogenize]
    simp [hmarket]

theorem chosenBenchmark_uniform (values : Dict CandidateKey UsableBenchmark)
    (benchmarks : Dict MarketKey UsableBenchmark) {a b : PreparedCandidate} (ha : a ∈ candidates)
    (hb : b ∈ candidates) (hmarket : a.metadata.market = b.metadata.market) :
    (chosenBenchmark (homogeneousCandidateBenchmarks values candidates benchmarks) benchmarks
        a.metadata).isSome =
      (chosenBenchmark (homogeneousCandidateBenchmarks values candidates benchmarks) benchmarks
        b.metadata).isSome := by
  have hkey (item : PreparedCandidate) : item.metadata.key.market = item.metadata.market := rfl
  unfold chosenBenchmark
  rw [get?_homogeneous, get?_homogeneous, hkey, hkey, hmarket]
  cases hbenchmark : benchmarks.get? b.metadata.market with
  | some benchmark => simp
  | none =>
    by_cases hpartly : partlyCovered values candidates b.metadata.market = true
    · simp [hpartly]
    · simp only [hpartly, Bool.false_eq_true, and_false, if_false, Option.or_none]
      have hmem (item : PreparedCandidate) (hitem : item ∈ candidates)
          (hsame : item.metadata.market = b.metadata.market) :
          item.metadata.key ∈ (candidates.filter
            (·.metadata.market = b.metadata.market)).map (·.metadata.key) :=
        List.mem_map.mpr ⟨item, List.mem_filter.mpr ⟨hitem, decide_eq_true hsame⟩, rfl⟩
      -- one key with a benchmark and one without would be a market covered in part
      have hnot (x y : PreparedCandidate) (hx : x ∈ candidates) (hy : y ∈ candidates)
          (hsamex : x.metadata.market = b.metadata.market)
          (hsamey : y.metadata.market = b.metadata.market)
          (hsome : (values.get? x.metadata.key).isSome) :
          (values.get? y.metadata.key).isSome := by
        by_contra hnone
        apply hpartly
        rw [partlyCovered, Bool.and_eq_true, List.any_eq_true, List.any_eq_true]
        exact ⟨⟨_, hmem x hx hsamex, hsome⟩, ⟨_, hmem y hy hsamey, by simpa using hnone⟩⟩
      rw [Bool.eq_iff_iff]
      exact ⟨hnot a b ha hb hmarket rfl, hnot b a hb ha rfl hmarket⟩

end Homogeneous

variable {benchmark : Option UsableBenchmark} {strength : Decimal}

def strengthSource (result : CandidateRankResult) : Option EvidenceValue :=
  (result.evidence.find? (·.code = "relative_strength_source")).map (·.value)

theorem relativeStrength_source :
    Ensures (relativeStrength A item benchmark strength) fun found =>
      found.2.2 = if benchmark.isSome then "benchmark_excess_60_session_return"
        else "cross_sectional_60_session_percentile" := by
  cases benchmark with
  | none => exact ensures_ok rfl
  | some usable =>
    refine ensures_bind fun raw => ?_
    refine ensures_bind fun scaled => ?_
    exact ensures_ok rfl

theorem score_row (hevidence : ∀ evidence ∈ item.evidence,
      evidence.code ≠ "relative_strength_source") :
    Ensures (score config item benchmark strength) fun result =>
      result.key = item.metadata.key ∧ result.exclusionReason = none ∧
        strengthSource result = some (.text (if benchmark.isSome then
          "benchmark_excess_60_session_return" else "cross_sectional_60_session_percentile")) := by
  unfold score
  refine relativeStrength_source.bind ?_
  rintro ⟨raw, strengthScore, source⟩ hsource
  iterate 7 refine ensures_bind fun _ => ?_
  refine ensures_ok ⟨rfl, rfl, ?_⟩
  have hfirst : item.evidence.find? (·.code = "relative_strength_source") = none := by
    rw [List.find?_eq_none]
    intro evidence hmem hcode
    exact hevidence evidence hmem (of_decide_eq_true hcode)
  unfold strengthSource
  rw [List.find?_append, hfirst, Option.none_or, List.find?_cons_of_pos (by simp), ← hsource]
  rfl

end KAssetTrader.Ranker
