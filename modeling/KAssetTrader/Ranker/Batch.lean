import KAssetTrader.Ranker.Strength

/-!
A batch as a whole. Every candidate is ranked or excluded, the ranked rows come in the order of
their scores, and what is ranked is a function of the candidates that are left and their bars:
neither their order nor anything about an excluded candidate changes it.
-/

namespace KAssetTrader.Ranker

open Ranking

open Backtest (MarketKey CandidateKey PriceBar)
open Checked

variable {A : Arithmetic} {bars other : CandidateKey → List RawBar}
  {config : CandidateRankerConfig A} {candidates others : List CandidateMetadata}
  {scored : List CandidateRankResult}

section Rows

variable {setup : RankSetup} {metadata : CandidateMetadata} {prepared : List PreparedCandidate}

def preparedOf (config : CandidateRankerConfig A) (setup : RankSetup)
    (bars : CandidateKey → List RawBar) (metadata : CandidateMetadata) :
    Option PreparedCandidate :=
  (assess config setup.current setup.allowed metadata (bars metadata.key)).toOption.bind
    Sum.getRight?

def excludedOf (config : CandidateRankerConfig A) (setup : RankSetup)
    (bars : CandidateKey → List RawBar) (metadata : CandidateMetadata) :
    Option CandidateRankResult :=
  (assess config setup.current setup.allowed metadata (bars metadata.key)).toOption.bind
    Sum.getLeft?

variable {item : PreparedCandidate}

theorem preparedOf_eq_some :
    preparedOf config setup bars metadata = some item ↔
      assess config setup.current setup.allowed metadata (bars metadata.key) =
        .ok (.inr item) := by
  unfold preparedOf
  cases assess config setup.current setup.allowed metadata (bars metadata.key) with
  | error fault => simp [Except.toOption]
  | ok outcome =>
    cases outcome with
    | inl result => simp [Except.toOption]
    | inr found => simp [Except.toOption]

theorem preparedOf_perm (hperm : (bars metadata.key).Perm (other metadata.key)) :
    preparedOf config setup other metadata = preparedOf config setup bars metadata := by
  ext item
  rw [preparedOf_eq_some, preparedOf_eq_some]
  exact ⟨assess_perm hperm.symm, assess_perm hperm⟩

theorem metadata_of_preparedOf (h : preparedOf config setup bars metadata = some item) :
    item.metadata = metadata :=
  (metadata_of_assess (preparedOf_eq_some.mp h)).1

theorem map_key_filterMap_preparedOf :
    (candidates.filterMap (preparedOf config setup bars)).map (·.metadata.key) =
      (candidates.filter fun metadata => (preparedOf config setup bars metadata).isSome).map
        (·.key) := by
  induction candidates with
  | nil => rfl
  | cons metadata rest ih =>
    rw [List.filterMap_cons, List.filter_cons]
    cases hitem : preparedOf config setup bars metadata with
    | none => simpa using ih
    | some item =>
      rw [Option.isSome_some, if_pos rfl, List.map_cons, List.map_cons, ih,
        metadata_of_preparedOf hitem]

theorem nodup_prepared (hkeys : (candidates.map (·.key)).Nodup) :
    ((candidates.filterMap (preparedOf config setup bars)).map (·.metadata.key)).Nodup := by
  rw [map_key_filterMap_preparedOf]
  exact hkeys.sublist (List.filter_sublist.map _)

theorem mem_prepared (h : item ∈ candidates.filterMap (preparedOf config setup bars)) :
    ∀ evidence ∈ item.evidence, evidence.code ≠ "relative_strength_source" := by
  obtain ⟨metadata, -, hitem⟩ := List.mem_filterMap.mp h
  exact (metadata_of_assess (preparedOf_eq_some.mp hitem)).2

theorem prepared_perm (hkeys : (candidates.map (·.key)).Nodup)
    (hothers : (others.map (·.key)).Nodup)
    (hsame : ∀ metadata, metadata ∈ candidates ∧ (preparedOf config setup bars metadata).isSome ↔
      metadata ∈ others ∧ (preparedOf config setup other metadata).isSome)
    (hbars : ∀ metadata ∈ candidates, (preparedOf config setup bars metadata).isSome →
      (bars metadata.key).Perm (other metadata.key)) :
    (candidates.filterMap (preparedOf config setup bars)).Perm
      (others.filterMap (preparedOf config setup other)) := by
  have hnodup : (candidates.filterMap (preparedOf config setup bars)).Nodup :=
    List.Nodup.of_map _ (nodup_prepared hkeys)
  have hnodup' : (others.filterMap (preparedOf config setup other)).Nodup :=
    List.Nodup.of_map _ (nodup_prepared hothers)
  rw [List.perm_ext_iff_of_nodup hnodup hnodup']
  intro item
  rw [List.mem_filterMap, List.mem_filterMap]
  constructor
  · rintro ⟨metadata, hmem, hitem⟩
    have hsome : (preparedOf config setup bars metadata).isSome := by rw [hitem]; rfl
    refine ⟨metadata, ((hsame metadata).mp ⟨hmem, hsome⟩).1, ?_⟩
    rw [preparedOf_perm (hbars metadata hmem hsome), hitem]
  · rintro ⟨metadata, hmem, hitem⟩
    have hsome : (preparedOf config setup other metadata).isSome := by rw [hitem]; rfl
    obtain ⟨hmem', hsome'⟩ := (hsame metadata).mpr ⟨hmem, hsome⟩
    refine ⟨metadata, hmem', ?_⟩
    rw [← preparedOf_perm (hbars metadata hmem' hsome'), hitem]

theorem scoreAll_perm {prepared' : List PreparedCandidate} (hperm : prepared.Perm prepared')
    (hnodup : (prepared.map (·.metadata.key)).Nodup)
    (h : scoreAll config setup prepared = .ok scored) :
    ∃ scored', scoreAll config setup prepared' = .ok scored' ∧ scored.Perm scored' := by
  obtain ⟨d, hd, h⟩ := bind_ok_iff.mp h
  obtain ⟨d', hd', hget⟩ := crossSectional_perm hperm hnodup hd
  obtain ⟨scored', hscored', hsame⟩ := mapM_perm hperm h
  refine ⟨scored', ?_, hsame⟩
  unfold scoreAll
  rw [hd', ok_bind, homogeneous_perm hperm, ← hscored']
  apply mapM_congr_mem
  intro item hitem
  rw [hget item (hperm.mem_iff.mpr hitem)]

variable
  (hevidence : ∀ item ∈ prepared, ∀ evidence ∈ item.evidence, evidence.code ≠
      "relative_strength_source") (h : scoreAll config setup prepared = .ok scored)
include hevidence h

theorem map_key_scored :
    scored.map (·.key) = prepared.map (·.metadata.key) := by
  obtain ⟨d, -, h⟩ := bind_ok_iff.mp h
  apply map_eq_map_of_mapM_ok h
  intro item hitem result hresult
  split at hresult
  · cases hresult
  · exact (score_row (hevidence item hitem) result hresult).1

theorem strengthSource_uniform {r r' : CandidateRankResult} (hr : r ∈ scored) (hr' : r' ∈ scored)
    (hmarket : r.market = r'.market) :
    strengthSource r = strengthSource r' ∧
      (strengthSource r = some (.text "benchmark_excess_60_session_return") ∨
        strengthSource r = some (.text "cross_sectional_60_session_percentile")) := by
  obtain ⟨d, -, h⟩ := bind_ok_iff.mp h
  obtain ⟨item, hitem, hscore⟩ := exists_of_mem_mapM_ok h hr
  obtain ⟨item', hitem', hscore'⟩ := exists_of_mem_mapM_ok h hr'
  split at hscore
  · cases hscore
  split at hscore'
  · cases hscore'
  obtain ⟨hkey, -, hsource⟩ := score_row (hevidence item hitem) r hscore
  obtain ⟨hkey', -, hsource'⟩ := score_row (hevidence item' hitem') r' hscore'
  have hmarket : item.metadata.market = item'.metadata.market := by
    have hfirst : r.market = item.metadata.market := congrArg CandidateKey.market hkey
    have hsecond : r'.market = item'.metadata.market := congrArg CandidateKey.market hkey'
    rw [← hfirst, ← hsecond, hmarket]
  have huniform := chosenBenchmark_uniform setup.candidateBenchmark setup.benchmark hitem hitem'
    hmarket
  rw [hsource, hsource', huniform]
  refine ⟨rfl, ?_⟩
  split_ifs
  · exact .inl rfl
  · exact .inr rfl

end Rows

section Order

variable {scored' : List CandidateRankResult} {a b : CandidateRankResult}

def Before (a b : CandidateRankResult) : Prop :=
  b.totalScore < a.totalScore ∨
    a.totalScore = b.totalScore ∧
      (a.symbol < b.symbol ∨ a.symbol = b.symbol ∧ a.market.text < b.market.text)

theorem before_of_rankKey (h : rankKey a < rankKey b) : Before a b := by
  unfold rankKey at h
  rw [Prod.Lex.toLex_lt_toLex, Prod.Lex.toLex_lt_toLex] at h
  rcases h with hscore | ⟨hscore, hname⟩
  · exact .inl (neg_lt_neg_iff.mp hscore)
  · exact .inr ⟨neg_inj.mp hscore, hname⟩

theorem key_of_rankKey (h : rankKey a = rankKey b) : a.key = b.key := by
  have hname := congrArg (fun k => (ofLex (ofLex k).2)) h
  obtain ⟨hsymbol, hmarket⟩ := Prod.mk.inj hname
  have hmarket : a.market = b.market := by
    cases ha : a.market with
    | kr => cases hb : b.market with
      | kr => rfl
      | us => rw [ha, hb] at hmarket; exact absurd hmarket (by decide)
    | us => cases hb : b.market with
      | kr => rw [ha, hb] at hmarket; exact absurd hmarket (by decide)
      | us => rfl
  unfold CandidateRankResult.key
  rw [hsymbol, hmarket]

theorem nodup_rankKey (h : (scored.map (·.key)).Nodup) : (scored.map rankKey).Nodup := by
  refine List.Nodup.map_on ?_ (List.Nodup.of_map _ h)
  intro x hx y hy hrank
  exact List.inj_on_of_nodup_map h hx hy (key_of_rankKey hrank)

theorem placed_perm (hnodup : (scored.map (·.key)).Nodup) (hperm : scored.Perm scored') :
    placed scored' = placed scored := by
  unfold placed
  rw [insertedBy_eq_of_perm (nodup_rankKey hnodup) hperm.symm, hperm.length_eq]

theorem exists_of_mem_placed (h : a ∈ placed scored) :
    ∃ row ∈ scored, ∃ place,
      a = { row with rankPosition := some place, rankedTotal := some scored.length } := by
  obtain ⟨⟨row, place⟩, hrow, rfl⟩ := List.mem_map.mp h
  exact ⟨row, mem_insertedBy.mp (List.fst_mem_of_mem_zipIdx hrow), place + 1, rfl⟩

theorem map_key_placed : ((placed scored).map (·.key)).Perm (scored.map (·.key)) := by
  have hkeys : (placed scored).map (·.key) = (insertedBy rankKey scored).map (·.key) := by
    unfold placed
    rw [List.map_map]
    conv_rhs => rw [← List.zipIdx_map_fst 0 (insertedBy rankKey scored), List.map_map]
    rfl
  rw [hkeys]
  exact insertedBy_perm.map _

theorem length_placed : (placed scored).length = scored.length := by
  unfold placed
  rw [List.length_map, List.length_zipIdx, insertedBy_perm.length_eq]

theorem map_rankPosition_placed :
    (placed scored).map (·.rankPosition) =
      (List.range (placed scored).length).map fun place => some (place + 1) := by
  have hplaces : (placed scored).map (·.rankPosition) =
      ((insertedBy rankKey scored).zipIdx.map Prod.snd).map fun place =>
        some (place + 1) := by
    unfold placed
    rw [List.map_map, List.map_map]
    rfl
  have hlength : (insertedBy rankKey scored).length = scored.length :=
    insertedBy_perm.length_eq
  rw [hplaces, List.zipIdx_map_snd, length_placed, hlength, List.range_eq_range']

theorem placed_pairwise (hnodup : (scored.map (·.key)).Nodup) :
    (placed scored).Pairwise Before := by
  have hsorted := insertedBy_increasing (nodup_rankKey hnodup)
  unfold placed
  rw [List.pairwise_map]
  have hzip : (insertedBy rankKey scored).zipIdx.Pairwise fun x y =>
      rankKey x.1 < rankKey y.1 := by
    rw [← List.pairwise_map (f := Prod.fst) (R := fun x y => rankKey x < rankKey y),
      List.zipIdx_map_fst]
    exact hsorted
  exact hzip.imp fun h => before_of_rankKey h

end Order

section Batch

variable {config : CandidateRankerConfig A} {normalize : String → String}
  {candidates : List CandidateMetadata} {bars : CandidateKey → List RawBar} {asOf : Datetime}
  {allowedMarkets : List String} {benchmarks : List (String × BenchmarkReturn)}
  {candidateBenchmarks : List (Option (String × String) × BenchmarkReturn)}
  {batch batch' : CandidateRankingBatch}

section

variable
  (h : rank config normalize candidates bars asOf allowedMarkets benchmarks candidateBenchmarks =
      .ok batch)
include h

theorem rank_ok :
    ∃ setup scored,
      rankSetup config normalize asOf allowedMarkets benchmarks candidateBenchmarks = .ok setup ∧
      (∀ metadata ∈ candidates, ∃ outcome,
        assess config setup.current setup.allowed metadata (bars metadata.key) = .ok outcome) ∧
      scoreAll config setup (candidates.filterMap (preparedOf config setup bars)) = .ok scored ∧
      batch.ranked = placed scored ∧
      batch.excluded =
        Ranking.insertedBy nameKey (candidates.filterMap (excludedOf config setup bars)) := by
  obtain ⟨setup, hsetup, h⟩ := bind_ok_iff.mp h
  obtain ⟨outcomes, houtcomes, h⟩ := bind_ok_iff.mp h
  obtain ⟨scored, hscored, h⟩ := bind_ok_iff.mp h
  cases h
  rw [filterMap_of_mapM_ok houtcomes] at hscored
  refine ⟨setup, scored, hsetup, mapM_ok_iff.mp ⟨outcomes, houtcomes⟩, hscored, rfl, ?_⟩
  dsimp only
  rw [filterMap_of_mapM_ok houtcomes]
  rfl

theorem rank_partition :
    (batch.ranked.map (·.key) ++ batch.excluded.map (·.key)).Perm (candidates.map (·.key)) := by
  obtain ⟨setup, scored, -, hassess, hscored, hranked, hexcluded⟩ := rank_ok h
  rw [hranked, hexcluded]
  refine (map_key_placed.append (insertedBy_perm.map _)).trans ?_
  rw [map_key_scored (fun item => mem_prepared) hscored]
  apply map_filterMap_append_perm
  intro metadata hmem
  obtain ⟨outcome, houtcome⟩ := hassess metadata hmem
  unfold preparedOf excludedOf
  rw [houtcome]
  cases outcome with
  | inl result => exact .inr ⟨result, rfl, key_of_excluded houtcome, rfl⟩
  | inr item =>
    refine .inl ⟨item, rfl, ?_, rfl⟩
    rw [(metadata_of_assess houtcome).1]

end

variable (hkeys : (candidates.map (·.key)).Nodup)
    (h : rank config normalize candidates bars asOf allowedMarkets benchmarks candidateBenchmarks =
      .ok batch)
include hkeys h

/-- The candidates that are left are those that the batch does not exclude. -/
theorem isSome_preparedOf_iff {setup : RankSetup}
    (hsetup : rankSetup config normalize asOf allowedMarkets benchmarks candidateBenchmarks =
      .ok setup) {metadata : CandidateMetadata} (hmem : metadata ∈ candidates) :
    (preparedOf config setup bars metadata).isSome ↔
      metadata.key ∉ batch.excluded.map (·.key) := by
  obtain ⟨setup', scored, hsetup', hassess, -, -, hexcluded⟩ := rank_ok h
  cases hsetup.symm.trans hsetup'
  rw [hexcluded, (insertedBy_perm.map _).mem_iff]
  obtain ⟨outcome, houtcome⟩ := hassess metadata hmem
  have hkey : ∀ other ∈ candidates, ∀ result, excludedOf config setup bars other = some result →
      result.key = metadata.key → other = metadata := by
    intro other hother result hresult hsame
    obtain ⟨found, hfound⟩ := hassess other hother
    unfold excludedOf at hresult
    rw [hfound] at hresult
    cases found with
    | inr item => cases hresult
    | inl row =>
      cases hresult
      rw [key_of_excluded hfound] at hsame
      exact List.inj_on_of_nodup_map hkeys hother hmem hsame
  unfold preparedOf
  rw [houtcome]
  cases outcome with
  | inl result =>
    simp only [Except.toOption, Option.bind_some, Sum.getRight?_inl, Option.isSome_none,
      Bool.false_eq_true, false_iff, not_not]
    refine List.mem_map.mpr ⟨result, List.mem_filterMap.mpr ⟨metadata, hmem, ?_⟩,
      key_of_excluded houtcome⟩
    unfold excludedOf
    rw [houtcome]
    rfl
  | inr item =>
    simp only [Except.toOption, Option.bind_some, Sum.getRight?_inr, Option.isSome_some,
      true_iff]
    intro hexcluded
    obtain ⟨result, hresult, hsame⟩ := List.mem_map.mp hexcluded
    obtain ⟨other, hother, hresult⟩ := List.mem_filterMap.mp hresult
    obtain rfl := hkey other hother result hresult hsame
    unfold excludedOf at hresult
    rw [houtcome] at hresult
    cases hresult

/-- Two batches that leave the same candidates with the same bars rank them alike. -/
theorem ranked_eq_of_same (hothers : (others.map (·.key)).Nodup)
    (h' : rank config normalize others other asOf allowedMarkets benchmarks
      candidateBenchmarks = .ok batch')
    (hsame : ∀ metadata,
      metadata ∈ candidates ∧ metadata.key ∉ batch.excluded.map (·.key) ↔
        metadata ∈ others ∧ metadata.key ∉ batch'.excluded.map (·.key))
    (hbars : ∀ metadata ∈ candidates, metadata.key ∉ batch.excluded.map (·.key) →
      (bars metadata.key).Perm (other metadata.key)) :
    batch'.ranked = batch.ranked := by
  obtain ⟨setup, scored, hsetup, -, hscored, hranked, -⟩ := rank_ok h
  obtain ⟨setup', scored', hsetup', -, hscored', hranked', -⟩ := rank_ok h'
  cases hsetup.symm.trans hsetup'
  have hperm : (candidates.filterMap (preparedOf config setup bars)).Perm
      (others.filterMap (preparedOf config setup other)) := by
    apply prepared_perm hkeys hothers
    · intro metadata
      rw [and_congr_right fun hmem => isSome_preparedOf_iff hkeys h hsetup hmem,
        and_congr_right fun hmem => isSome_preparedOf_iff hothers h' hsetup hmem]
      exact hsame metadata
    · intro metadata hmem hsome
      exact hbars metadata hmem ((isSome_preparedOf_iff hkeys h hsetup hmem).mp hsome)
  have hnodup := (nodup_prepared hkeys : ((candidates.filterMap (preparedOf config setup bars)).map
    (·.metadata.key)).Nodup)
  obtain ⟨found, hfound, hscores⟩ := scoreAll_perm hperm hnodup hscored
  cases hfound.symm.trans hscored'
  rw [hranked, hranked']
  apply placed_perm _ hscores
  rwa [map_key_scored (fun item => mem_prepared) hscored]

/-- The order of the candidates and of their bars excludes no other candidate. -/
theorem excluded_iff_of_perm (hperm : candidates.Perm others)
    (hbars : ∀ key, (bars key).Perm (other key))
    (h' : rank config normalize others other asOf allowedMarkets benchmarks
      candidateBenchmarks = .ok batch') (metadata : CandidateMetadata) :
    metadata ∈ candidates ∧ metadata.key ∉ batch.excluded.map (·.key) ↔
      metadata ∈ others ∧ metadata.key ∉ batch'.excluded.map (·.key) := by
  obtain ⟨setup, -, hsetup, -⟩ := rank_ok h
  have hothers : (others.map (·.key)).Nodup := (hperm.map _).nodup_iff.mp hkeys
  rw [hperm.mem_iff]
  refine and_congr_right fun hmem => ?_
  rw [← isSome_preparedOf_iff hkeys h hsetup (hperm.mem_iff.mpr hmem),
    ← isSome_preparedOf_iff hothers h' hsetup hmem, preparedOf_perm (hbars metadata.key)]

/-- Candidates in another order give a batch too. -/
theorem rank_perm (hperm : candidates.Perm others) :
    ∃ batch', rank config normalize others bars asOf allowedMarkets benchmarks
      candidateBenchmarks = .ok batch' := by
  obtain ⟨setup, hsetup, h⟩ := bind_ok_iff.mp h
  obtain ⟨outcomes, houtcomes, h⟩ := bind_ok_iff.mp h
  obtain ⟨scored, hscored, -⟩ := bind_ok_iff.mp h
  obtain ⟨outcomes', houtcomes', hsame⟩ := mapM_perm hperm houtcomes
  have hnodup : ((outcomes.filterMap Sum.getRight?).map (·.metadata.key)).Nodup := by
    rw [filterMap_of_mapM_ok houtcomes]
    exact nodup_prepared hkeys
  obtain ⟨scored', hscored', -⟩ := scoreAll_perm (hsame.filterMap _) hnodup hscored
  unfold rank
  rw [hsetup, ok_bind, houtcomes', ok_bind, hscored']
  exact ⟨_, rfl⟩

end Batch

def flatHistory (days : ℕ) : List RawBar :=
  (List.range days).map fun (place : ℕ) =>
    { timestamp := .aware (place * day)
      openPrice := some 2000
      high := some 2000
      low := some 2000
      close := some 2000
      volume := some 100000 }

def flatCandidate : CandidateMetadata where
  symbol := "005930"
  market := .kr
  sources := ["screener"]

end KAssetTrader.Ranker
