import KAssetTrader.Ranker.Totality

/-!
Scores over exact arithmetic. A factor contributes at most its weight, apart from half a unit
of the sixth place that rounding may add, and the weights sum to one; so a score lies between
0 and 1 up to the rounding of its twelve contributions. With this the ranker returns a batch
exactly when its arguments are accepted and each candidate can be screened and measured.
-/

namespace KAssetTrader.Ranker

open Arithmetic

open Backtest (MarketKey CandidateKey PriceBar UsableBenchmark)
open Checked

section CrossSection

variable {candidates : List PreparedCandidate} {market : MarketKey}

theorem percentiles_returns (returns : List Decimal) :
    Returns (percentiles .exact returns) fun scores => ∀ entry ∈ scores, InUnit entry.2 := by
  unfold percentiles
  split
  · refine returns_ok ?_
    intro entry hentry
    obtain ⟨value, -, rfl⟩ := List.mem_map.mp hentry
    constructor <;> norm_num
  next hlength =>
    have hscores : ∀ entry ∈ returns.zipIdx, Returns (do
        let score ← exact.div entry.2 (returns.length - 1 : ℕ)
        return (entry.1, score) : Except Fault (Decimal × Decimal)) fun entry =>
          InUnit entry.2 := by
      intro entry hentry
      have hplace := List.snd_lt_of_mem_zipIdx hentry
      have hpos : (0 : Decimal) < (returns.length - 1 : ℕ) := by
        exact_mod_cast (by omega : 0 < returns.length - 1)
      rw [exact_div hpos.ne', ok_bind]
      refine returns_ok ⟨by positivity, ?_⟩
      rw [div_le_one hpos]
      exact_mod_cast (by omega : entry.2 ≤ returns.length - 1)
    exact (returns_mapM hscores).mono fun scores h => h.2

theorem inUnit_lookup {scores : List (Decimal × Decimal)} (h : ∀ entry ∈ scores, InUnit entry.2)
    (value : Decimal) : InUnit ((scores.lookup value).getD 0) := by
  cases hfound : scores.lookup value with
  | none => exact ⟨le_rfl, zero_le_one⟩
  | some score =>
    obtain ⟨before, after, rfl, -⟩ := List.lookup_eq_some_iff.mp hfound
    exact h (value, score) (by simp)

theorem crossSectional_returns :
    Returns (crossSectionalStrength .exact candidates) fun d =>
      ∀ item ∈ candidates, ∃ strength, d.get? item.metadata.key = some strength ∧
        InUnit strength := by
  obtain ⟨kr, hkr, hkr'⟩ := percentiles_returns (Ranking.insertedBy id
    ((candidates.filter (·.metadata.market = .kr)).map (·.momentum60)).dedup)
  obtain ⟨us, hus, hus'⟩ := percentiles_returns (Ranking.insertedBy id
    ((candidates.filter (·.metadata.market = .us)).map (·.momentum60)).dedup)
  refine ⟨_, crossSectionalStrength_ok_iff.mpr ⟨kr, us, hkr, hus, rfl⟩, ?_⟩
  intro item hitem
  rw [Dict.get?_foldl_set_items, Dict.get?_foldl_set_items]
  have hpresent (market : MarketKey) (hmarket : item.metadata.market = market) :
      ∃ found, ((candidates.filter (·.metadata.market = market)).reverse.find?
        fun other => decide (other.metadata.key = item.metadata.key)) = some found := by
    apply Option.isSome_iff_exists.mp
    rw [List.find?_isSome]
    exact ⟨item, List.mem_reverse.mpr (List.mem_filter.mpr ⟨hitem, decide_eq_true hmarket⟩),
      decide_eq_true rfl⟩
  cases hmarket : item.metadata.market with
  | kr =>
    obtain ⟨found, hfound⟩ := hpresent .kr hmarket
    rw [find?_other_market (by rw [hmarket]; decide), hfound]
    exact ⟨_, rfl, inUnit_lookup hkr' found.momentum60⟩
  | us =>
    obtain ⟨found, hfound⟩ := hpresent .us hmarket
    rw [hfound]
    exact ⟨_, rfl, inUnit_lookup hus' found.momentum60⟩

end CrossSection

variable {config : CandidateRankerConfig .exact}

section Score

variable {item : PreparedCandidate} {benchmark : Option UsableBenchmark} {strength : Decimal}

theorem scaledReturn_returns {value : Decimal} : Returns (scaledReturn .exact value) InUnit := by
  unfold scaledReturn
  rw [exact_add, ok_bind, exact_div (by norm_num), ok_bind]
  exact returns_ok (inUnit_clampUnit _)

theorem relativeStrength_returns (h : InUnit strength) :
    Returns (relativeStrength .exact item benchmark strength) fun found => InUnit found.2.1 := by
  cases benchmark with
  | none => exact returns_ok h
  | some usable =>
    unfold relativeStrength
    dsimp only
    rw [exact_sub, ok_bind]
    refine scaledReturn_returns.bind fun scaled hscaled => ?_
    exact returns_ok hscaled

theorem rawFactors_returns {strengthRaw strengthScore : Decimal} (hitem : item.Measured)
    (hstrength : InUnit strengthScore) :
    Returns (rawFactors config item strengthRaw strengthScore) fun factors =>
      (∀ factor ∈ factors, InUnit factor.2.2.1 ∧ 0 ≤ factor.2.2.2) ∧ factors.length = 12 ∧
        (factors.map fun factor => factor.2.2.2).sum = 1 := by
  have hweights := config.weights_nonneg
  have hsum := config.weights_sum
  rw [exact_sum] at hsum
  simp only [List.forall_mem_cons, List.not_mem_nil, false_imp_iff, implies_true,
    and_true] at hweights
  obtain ⟨hliquidity, hrelative, h20, h60, h120, hnear20, hnear52, hhigher, hatr, hcontraction,
    hexpansion, hweekly⟩ := hweights
  unfold rawFactors
  refine scaledReturn_returns.bind fun momentum20 hmomentum20 => ?_
  refine scaledReturn_returns.bind fun momentum60 hmomentum60 => ?_
  refine scaledReturn_returns.bind fun momentum120 hmomentum120 => ?_
  rw [exact_div (by norm_num), ok_bind, exact_sub, ok_bind,
    exact_div (by norm_num), ok_bind, exact_sub, ok_bind]
  refine returns_ok ⟨?_, rfl, Except.ok.inj hsum⟩
  simp only [List.forall_mem_cons, List.not_mem_nil, false_imp_iff, implies_true, and_true]
  exact ⟨⟨hitem.liquidity, hliquidity⟩, ⟨hstrength, hrelative⟩, ⟨hmomentum20, h20⟩,
    ⟨hmomentum60, h60⟩, ⟨hmomentum120, h120⟩, ⟨inUnit_clampUnit _, hnear20⟩,
    ⟨inUnit_clampUnit _, hnear52⟩, ⟨hitem.higherHighLow, hhigher⟩, ⟨hitem.atrCompression, hatr⟩,
    ⟨hitem.volumeContraction, hcontraction⟩, ⟨hitem.volumeExpansion, hexpansion⟩,
    ⟨hitem.weeklyTrend, hweekly⟩⟩

theorem quantize_le_add (x : Decimal) : Decimal.quantize 6 x ≤ x + 1 / 2 / 10 ^ 6 := by
  have hclose := (abs_le.mp (Decimal.abs_roundHalfEven_sub_le (x * 10 ^ 6))).2
  unfold Decimal.quantize
  rw [div_le_iff₀ (by norm_num)]
  linarith

theorem quantize_nonneg {x : Decimal} (hx : 0 ≤ x) : 0 ≤ Decimal.quantize 6 x :=
  Decimal.le_quantize Decimal.HasPlaces.zero hx

theorem factorScores_returns {factors : List (String × Decimal × Decimal × Decimal)}
    (h : ∀ factor ∈ factors, InUnit factor.2.2.1 ∧ 0 ≤ factor.2.2.2) :
    Returns (factors.mapM fun (code, rawValue, score, weight) =>
        factorScore .exact code rawValue score weight) fun scores =>
      (scores.map (·.contribution)).sum ≤
        (factors.map fun factor => factor.2.2.2).sum + factors.length * (1 / 2 / 10 ^ 6) := by
  induction factors with
  | nil => exact returns_ok (by simp)
  | cons factor rest ih =>
    obtain ⟨code, rawValue, score, weight⟩ := factor
    obtain ⟨⟨⟨-, hscore⟩, hweight⟩, hrest⟩ := List.forall_mem_cons.mp h
    rw [List.mapM_cons]
    refine (returns_ok (Q := fun found : FactorScore =>
      found.contribution ≤ weight + 1 / 2 / 10 ^ 6) ?_).bind fun found hfound => ?_
    · have hproduct : score * weight ≤ weight := mul_le_of_le_one_left hweight hscore
      exact (quantize_le_add _).trans (by linarith)
    refine (ih hrest).bind fun scores hscores => ?_
    refine returns_ok ?_
    rw [List.map_cons, List.sum_cons, List.map_cons, List.sum_cons, List.length_cons]
    push_cast
    linarith

theorem penaltyScores_returns (hitem : item.Measured) :
    Returns (penaltyScores config item) fun penalties =>
      0 ≤ (penalties.map (·.deduction)).sum := by
  have hweights := config.penalties_nonneg
  simp only [List.forall_mem_cons, List.not_mem_nil, false_imp_iff, implies_true,
    and_true] at hweights
  unfold penaltyScores
  rw [exact_sub, ok_bind, exact_div (by norm_num), ok_bind]
  refine (returns_ok (Q := fun penalty : PenaltyScore => 0 ≤ penalty.deduction) ?_).bind
    fun overextension hoverextension => ?_
  · exact quantize_nonneg (mul_nonneg (inUnit_clampUnit _).1 hweights.1)
  refine (returns_ok (Q := fun penalty : PenaltyScore => 0 ≤ penalty.deduction) ?_).bind
    fun hangover hhangover => ?_
  · exact quantize_nonneg (mul_nonneg hitem.volumeHangover hweights.2)
  refine returns_ok ?_
  simp only [List.map_cons, List.map_nil, List.sum_cons, List.sum_nil, add_zero]
  linarith

def ScoreInBounds (result : CandidateRankResult) : Prop :=
  0 ≤ result.totalScore ∧ result.totalScore ≤ 1 + 12 * (1 / 2 / 10 ^ 6)

/-- A measured candidate gets a score within its bounds. -/
theorem score_returns (hitem : item.Measured) (hstrength : InUnit strength) :
    Returns (score config item benchmark strength) ScoreInBounds := by
  unfold score
  refine (relativeStrength_returns hstrength).bind ?_
  rintro ⟨strengthRaw, strengthScore, source⟩ hscore
  refine (rawFactors_returns hitem hscore).bind ?_
  rintro factors ⟨hfactors, hlength, hweights⟩
  refine (factorScores_returns hfactors).bind fun scores hscores => ?_
  refine (penaltyScores_returns hitem).bind fun penalties hpenalties => ?_
  rw [exact_sum, ok_bind, exact_sum, ok_bind, exact_sub,
    ok_bind, exact_quantize, ok_bind]
  rw [hlength, hweights] at hscores
  have hbound : Decimal.HasPlaces 6 (1 + 12 * (1 / 2 / 10 ^ 6)) := ⟨1000006, by norm_num⟩
  refine returns_ok ⟨quantize_nonneg (le_max_left _ _), ?_⟩
  apply Decimal.quantize_le hbound
  apply max_le
  · norm_num
  · push_cast at hscores
    linarith

end Score

variable {normalize : String → String} {asOf : Datetime} {allowedMarkets : List String}
  {benchmarks : List (String × BenchmarkReturn)}
  {candidateBenchmarks : List (Option (String × String) × BenchmarkReturn)}

section Setup

/-- A moment with a time zone that can be converted, or one without. -/
def DateFits : Datetime → Prop
  | .naive _ => True
  | .aware moment => InCalendar moment

/-- The arguments that `rank` accepts beside the candidates and their bars. -/
structure Accepted (normalize : String → String) (asOf : Datetime) (allowedMarkets : List String)
    (benchmarks : List (String × BenchmarkReturn))
    (candidateBenchmarks : List (Option (String × String) × BenchmarkReturn)) : Prop where
  moment : ∃ moment, asOf = .aware moment ∧ InCalendar moment
  nonempty : allowedMarkets ≠ []
  markets : ∀ text ∈ allowedMarkets, (marketOf? (normalize text)).isSome
  benchmarks : ∀ entry ∈ benchmarks, DateFits entry.2.dataAsOf
  candidateBenchmarks : ∀ entry ∈ candidateBenchmarks, entry.1.isSome →
    DateFits entry.2.dataAsOf

theorem usableBenchmark_returns_iff (current : Instant) (maximumAge : ℤ)
    (benchmark : BenchmarkReturn) :
    (∃ usable, usableBenchmark current maximumAge benchmark = .ok usable) ↔
      DateFits benchmark.dataAsOf := by
  unfold usableBenchmark DateFits
  cases benchmark.dataAsOf with
  | naive localTime => simp
  | aware moment =>
    dsimp only
    by_cases hinside : InCalendar moment
    · have hutc : awareUtc moment = .ok (moment - moment % second) := if_pos hinside
      rw [hutc, ok_bind, iff_true_right hinside]
      cases benchmark.return60 with
      | none => exact ⟨_, rfl⟩
      | some return60 =>
        dsimp only
        split
        · exact ⟨_, rfl⟩
        · exact ⟨_, rfl⟩
    · have hutc : awareUtc moment = .error .overflow := if_neg hinside
      rw [hutc]
      simp [hinside]

variable {current : Instant} {maximumAge : ℤ}

theorem normalizedBenchmarks_returns_iff :
    (∃ d, normalizedBenchmarks normalize current maximumAge benchmarks = .ok d) ↔
      ∀ entry ∈ benchmarks, DateFits entry.2.dataAsOf := by
  apply foldlM_ok_iff
  rintro normalized ⟨key, benchmark⟩
  rw [← usableBenchmark_returns_iff current maximumAge]
  dsimp only
  cases usableBenchmark current maximumAge benchmark with
  | error fault => simp
  | ok usable =>
    cases usable with
    | none => simp [pure, Except.pure]
    | some found =>
      simp only [ok_bind, Except.ok.injEq, exists_eq', iff_true]
      split
      · exact ⟨_, rfl⟩
      · exact ⟨_, rfl⟩

theorem normalizedCandidateBenchmarks_returns_iff :
    (∃ d, normalizedCandidateBenchmarks normalize current maximumAge candidateBenchmarks =
      .ok d) ↔
      ∀ entry ∈ candidateBenchmarks, entry.1.isSome → DateFits entry.2.dataAsOf := by
  apply foldlM_ok_iff
  rintro normalized ⟨key, benchmark⟩
  rw [← usableBenchmark_returns_iff current maximumAge]
  cases key with
  | none => simp
  | some key =>
    obtain ⟨market, symbol⟩ := key
    dsimp only
    cases usableBenchmark current maximumAge benchmark with
    | error fault => simp
    | ok usable =>
      cases usable with
      | none => simp [pure, Except.pure]
      | some found =>
        simp only [ok_bind, Except.ok.injEq, exists_eq', Option.isSome_some, forall_true_left,
          iff_true]
        split
        · exact ⟨_, rfl⟩
        · exact ⟨_, rfl⟩

theorem normalizeAllowedMarkets_returns_iff :
    (∃ allowed, normalizeAllowedMarkets normalize allowedMarkets = .ok allowed) ↔
      allowedMarkets ≠ [] ∧ ∀ text ∈ allowedMarkets, (marketOf? (normalize text)).isSome := by
  have hread : ((allowedMarkets.map normalize).mapM marketOf?).isSome ↔
      ∀ text ∈ allowedMarkets, (marketOf? (normalize text)).isSome := by
    rw [mapM_isSome_iff, List.forall_mem_map]
  rw [← hread]
  unfold normalizeAllowedMarkets
  cases allowedMarkets with
  | nil => simp
  | cons first rest =>
    rw [List.map_cons, List.mapM_cons]
    cases marketOf? (normalize first) with
    | none => simp
    | some market =>
      cases (rest.map normalize).mapM marketOf? with
      | none => simp
      | some markets => simp

theorem mem_allowed {allowed : List MarketKey}
    (h : normalizeAllowedMarkets normalize allowedMarkets = .ok allowed) {market : MarketKey} :
    market ∈ allowed ↔ ∃ text ∈ allowedMarkets, marketOf? (normalize text) = some market := by
  unfold normalizeAllowedMarkets at h
  split at h
  next first rest hread =>
    cases h
    rw [mem_of_mapM_eq_some hread]
    simp
  · cases h

/-- A batch is set up exactly when its common inputs are accepted. -/
theorem rankSetup_returns_iff :
    (∃ setup, rankSetup config normalize asOf allowedMarkets benchmarks candidateBenchmarks =
      .ok setup) ↔
      Accepted normalize asOf allowedMarkets benchmarks candidateBenchmarks := by
  unfold rankSetup
  constructor
  · rintro ⟨setup, h⟩
    obtain ⟨current, hcurrent, h⟩ := bind_ok_iff.mp h
    obtain ⟨allowed, hallowed, h⟩ := bind_ok_iff.mp h
    obtain ⟨benchmark, hbenchmark, h⟩ := bind_ok_iff.mp h
    obtain ⟨candidateBenchmark, hcandidate, -⟩ := bind_ok_iff.mp h
    obtain ⟨hnonempty, hmarkets⟩ := normalizeAllowedMarkets_returns_iff.mp ⟨_, hallowed⟩
    refine ⟨?_, hnonempty, hmarkets, normalizedBenchmarks_returns_iff.mp ⟨_, hbenchmark⟩,
      normalizedCandidateBenchmarks_returns_iff.mp ⟨_, hcandidate⟩⟩
    cases asOf with
    | naive localTime => cases hcurrent
    | aware moment =>
      refine ⟨moment, rfl, ?_⟩
      by_contra houtside
      unfold asOfUtc awareUtc at hcurrent
      dsimp only at hcurrent
      rw [if_neg houtside] at hcurrent
      cases hcurrent
  · rintro ⟨⟨moment, rfl, hinside⟩, hnonempty, hmarkets, hbenchmarks, hcandidates⟩
    have hutc : asOfUtc (.aware moment) = .ok (moment - moment % second) := if_pos hinside
    obtain ⟨allowed, hallowed⟩ := normalizeAllowedMarkets_returns_iff.mpr ⟨hnonempty, hmarkets⟩
    obtain ⟨benchmark, hbenchmark⟩ := normalizedBenchmarks_returns_iff.mpr hbenchmarks
    obtain ⟨candidateBenchmark, hcandidate⟩ :=
      normalizedCandidateBenchmarks_returns_iff.mpr hcandidates
    rw [hutc, ok_bind, hallowed, ok_bind, hbenchmark, ok_bind, hcandidate]
    exact ⟨_, rfl⟩

theorem of_rankSetup {setup : RankSetup} {moment : Instant}
    (h : rankSetup config normalize (.aware moment) allowedMarkets benchmarks
      candidateBenchmarks = .ok setup) :
    setup.current = moment - moment % second ∧
      ∀ market, market ∈ setup.allowed ↔
        ∃ text ∈ allowedMarkets, marketOf? (normalize text) = some market := by
  obtain ⟨current, hcurrent, h⟩ := bind_ok_iff.mp h
  obtain ⟨allowed, hallowed, h⟩ := bind_ok_iff.mp h
  obtain ⟨benchmark, hbenchmark, h⟩ := bind_ok_iff.mp h
  obtain ⟨candidateBenchmark, hcandidate, h⟩ := bind_ok_iff.mp h
  cases h
  refine ⟨?_, fun market => mem_allowed hallowed⟩
  unfold asOfUtc awareUtc at hcurrent
  dsimp only at hcurrent
  split at hcurrent
  · cases hcurrent
    rfl
  · cases hcurrent

end Setup

section Rank

variable {candidates : List CandidateMetadata} {bars : CandidateKey → List RawBar}

/-- A candidate of an allowed market can be screened, and measured if the filters leave it. -/
def Assessable (config : CandidateRankerConfig .exact) (current : Instant)
    (metadata : CandidateMetadata) (bars : List RawBar) : Prop :=
  TimesFit current bars ∧
    ∀ dataAsOf, passes? config current metadata bars = some dataAsOf →
      Measurable config current dataAsOf

def OutcomeMeasured : CandidateRankResult ⊕ PreparedCandidate → Prop
  | .inl _ => True
  | .inr item => item.Measured

theorem assess_returns_iff {current : Instant} {allowed : List MarketKey}
    {metadata : CandidateMetadata} {bars : List RawBar} :
    Returns (assess config current allowed metadata bars) OutcomeMeasured ↔
      (metadata.market ∈ allowed → Assessable config current metadata bars) := by
  unfold assess
  by_cases hallowed : metadata.market ∈ allowed
  · rw [if_neg (not_not.mpr hallowed), forall_prop_of_true hallowed]
    constructor
    · rintro ⟨outcome, h, -⟩
      obtain ⟨screened, hscreened, -⟩ := bind_ok_iff.mp h
      exact of_prepare_returns ⟨screened, hscreened⟩
    · rintro ⟨htimes, hmeasurable⟩
      refine (prepare_returns htimes hmeasurable).bind fun screened hscreened => ?_
      cases screened with
      | rejected reason dataAsOf => exact returns_ok trivial
      | passed item => exact returns_ok hscreened
  · rw [if_pos hallowed]
    exact ⟨fun _ h => absurd h hallowed, fun _ => returns_ok trivial⟩

theorem scoreAll_returns {setup : RankSetup} {prepared : List PreparedCandidate}
    (h : ∀ item ∈ prepared, item.Measured) :
    Returns (scoreAll config setup prepared) fun scored =>
      ∀ result ∈ scored, ScoreInBounds result := by
  unfold scoreAll
  refine crossSectional_returns.bind fun d hd => ?_
  refine (returns_mapM (P := ScoreInBounds) fun item hitem => ?_).mono
    fun scored hscored => hscored.2
  obtain ⟨strength, hget, hstrength⟩ := hd item hitem
  rw [hget]
  exact score_returns (h item hitem) hstrength

/-- The ranker returns a batch, and every score lies between 0 and 1 up to the rounding of its
contributions, exactly when the arguments are accepted and every candidate of an allowed market
can be assessed: its moments can be converted, and if the filters leave it, the hangover lasts
less than 39 days and the times of validity lie in the calendar. -/
theorem rank_returns_iff :
    (∃ batch, rank config normalize candidates bars asOf allowedMarkets benchmarks
        candidateBenchmarks = .ok batch ∧ ∀ result ∈ batch.ranked, ScoreInBounds result) ↔
      Accepted normalize asOf allowedMarkets benchmarks candidateBenchmarks ∧
        ∀ moment, asOf = .aware moment → ∀ metadata ∈ candidates,
          (∃ text ∈ allowedMarkets, marketOf? (normalize text) = some metadata.market) →
          Assessable config (moment - moment % second) metadata (bars metadata.key) := by
  constructor
  · rintro ⟨batch, h, -⟩
    obtain ⟨setup, scored, hsetup, hassess, -⟩ := rank_ok h
    refine ⟨rankSetup_returns_iff.mp ⟨setup, hsetup⟩, ?_⟩
    rintro moment rfl metadata hmem hmarket
    obtain ⟨hcurrent, hallowed⟩ := of_rankSetup hsetup
    obtain ⟨outcome, houtcome⟩ := hassess metadata hmem
    rw [← hcurrent]
    unfold assess at houtcome
    rw [if_neg (not_not.mpr ((hallowed _).mpr hmarket))] at houtcome
    obtain ⟨screened, hscreened, -⟩ := bind_ok_iff.mp houtcome
    exact of_prepare_returns ⟨screened, hscreened⟩
  · rintro ⟨haccepted, hassessable⟩
    obtain ⟨moment, rfl, -⟩ := haccepted.moment
    obtain ⟨setup, hsetup⟩ : ∃ setup, rankSetup config normalize (.aware moment) allowedMarkets
        benchmarks candidateBenchmarks = .ok setup := rankSetup_returns_iff.mpr haccepted
    obtain ⟨hcurrent, hallowed⟩ := of_rankSetup hsetup
    have houtcomes : Returns (candidates.mapM fun metadata =>
        assess config setup.current setup.allowed metadata (bars metadata.key)) fun outcomes =>
          outcomes.length = candidates.length ∧ ∀ outcome ∈ outcomes,
            OutcomeMeasured outcome := by
      apply returns_mapM
      intro metadata hmem
      apply assess_returns_iff.mpr
      intro hmarket
      rw [hcurrent]
      exact hassessable moment rfl metadata hmem ((hallowed _).mp hmarket)
    obtain ⟨outcomes, hread, -, hmeasured⟩ := houtcomes
    have hprepared : ∀ item ∈ outcomes.filterMap Sum.getRight?, item.Measured := by
      intro item hitem
      obtain ⟨outcome, houtcome, hright⟩ := List.mem_filterMap.mp hitem
      obtain rfl := Sum.getRight?_eq_some_iff.mp hright
      exact hmeasured _ houtcome
    obtain ⟨scored, hscored, hbounds⟩ : Returns (scoreAll config setup
        (outcomes.filterMap Sum.getRight?)) fun scored =>
          ∀ result ∈ scored, ScoreInBounds result := scoreAll_returns hprepared
    refine ⟨⟨placed scored, Ranking.insertedBy nameKey (outcomes.filterMap Sum.getLeft?)⟩,
      ?_, ?_⟩
    · unfold rank
      rw [hsetup, ok_bind, hread, ok_bind, hscored]
      rfl
    · intro result hresult
      obtain ⟨row, hrow, place, rfl⟩ := exists_of_mem_placed hresult
      exact hbounds row hrow

end Rank

def longHangover : CandidateRankerConfig .exact :=
  { defaultConfig with volumeHangoverDays := 39, hangover_pos := by decide }

/-- A hangover of 39 days before the first date of the calendar. -/
theorem long_hangover_raises :
    ¬ ∃ batch, rank longHangover id [flatCandidate] (fun _ => flatHistory 252)
        (.aware (251 * day)) ["KR"] [] [] = .ok batch ∧
      ∀ result ∈ batch.ranked, ScoreInBounds result := by
  have hraises : (rank longHangover id [flatCandidate] (fun _ => flatHistory 252)
      (.aware (251 * day)) ["KR"] [] []).toOption.isNone = true := by decide +kernel
  rintro ⟨batch, hbatch, -⟩
  rw [hbatch] at hraises
  cases hraises

end KAssetTrader.Ranker
