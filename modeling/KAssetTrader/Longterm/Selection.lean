import KAssetTrader.Library.Collect
import KAssetTrader.Longterm.Cohort

/-!
What a cohort is. Of each candidate, the signals are the first of its eligible symbols by
momentum and symbol, with their ranks; every other evaluated symbol is counted under a reason.
The cohort is one of the evaluations and of the rows that were filed by the session, when no
two rows of a period compare alike, so neither their order nor a later row changes it, and
neither changes the error it may have.
-/

namespace KAssetTrader.Longterm

open Dict LongtermSymbolEvaluation Ranking Checked
open CivilTime (Date)
open Swing (Failure Fault Number ValidBar decimalText numberText quotient)

/-- The error of arithmetic with values that are not finite, or have too many digits. -/
abbrev refused : Failure := .fault .invalidOperation

section Arithmetic

variable {a b : Number} {x y : Decimal}

theorem onlyError_quotient (hy : y ≠ 0) : OnlyError refused (quotient x y) := by
  unfold quotient
  rw [if_neg hy]
  exact onlyError_ok _

theorem onlyError_add (a b : Number) : OnlyError refused (a.add b) := by
  unfold Number.add
  split
  case h_3 s t =>
    split_ifs
    · exact onlyError_ok _
    · exact onlyError_error
  all_goals exact onlyError_ok _

theorem onlyError_sum (values : List Number) : OnlyError refused (Number.sum values) :=
  onlyError_foldlM onlyError_add

theorem onlyError_lessThan (a b : Number) : OnlyError refused (a.lessThan b) := by
  cases a <;> cases b <;> unfold Number.lessThan <;>
    first
    | exact onlyError_ok _
    | exact onlyError_error

theorem onlyError_atMost (a b : Number) : OnlyError refused (a.atMost b) :=
  (onlyError_lessThan b a).bind fun _ _ => onlyError_ok _

theorem onlyError_divide (hb : b ≠ .finite 0) : OnlyError refused (a.divide b) := by
  cases a <;> cases b <;> unfold Number.divide <;>
    first
    | exact onlyError_ok _
    | exact onlyError_error
    | exact (onlyError_quotient fun hzero => hb (congrArg Number.finite hzero)).map

theorem onlyError_decimalText (x : Decimal) : OnlyError refused (decimalText x) := by
  unfold decimalText Swing.quantizeSix
  split
  · exact onlyError_ok _
  · exact onlyError_error

theorem onlyError_numberText (a : Number) : OnlyError refused (numberText a) := by
  cases a with
  | finite x => exact onlyError_decimalText x
  | infinite _ => exact onlyError_error
  | nan => exact onlyError_ok _

theorem ne_zero_of_atMost (h : a.atMost (.finite 0) = .ok false) : a ≠ .finite 0 := by
  rintro rfl
  revert h
  decide

end Arithmetic

variable {config : LongtermShadowConfig} {signalSession : Date}

section Errors

variable {latest : Date} {evidence : FundamentalsEvidence}

theorem onlyError_growthOver {current prior : Number} (hprior : prior ≠ .finite 0) :
    OnlyError refused (growthOver current prior) :=
  (onlyError_divide hprior).bind fun _ _ => onlyError_add _ _

theorem onlyError_judgeGrowth {ttmRevenue priorRevenue ttmIncome priorIncome : Number}
    (hrevenue : priorRevenue ≠ .finite 0) (hincome : priorIncome ≠ .finite 0) :
    OnlyError refused
      (judgeGrowth config evidence ttmRevenue priorRevenue ttmIncome priorIncome) := by
  unfold judgeGrowth
  refine (onlyError_growthOver hincome).bind fun incomeGrowth _ => ?_
  refine (onlyError_growthOver hrevenue).bind fun revenueGrowth _ => ?_
  refine (onlyError_numberText _).bind fun _ _ => ?_
  refine (onlyError_numberText _).bind fun _ _ => ?_
  refine (onlyError_lessThan _ _).bind fun low _ => ?_
  split
  · exact onlyError_ok _
  refine (onlyError_lessThan _ _).bind fun low _ => ?_
  split <;> exact onlyError_ok _

theorem onlyError_judgeTtm {values : List (Number × Number)} :
    OnlyError refused (judgeTtm config signalSession latest evidence values) := by
  unfold judgeTtm
  refine (onlyError_sum _).bind fun ttmRevenue _ => ?_
  refine (onlyError_sum _).bind fun priorRevenue _ => ?_
  refine (onlyError_sum _).bind fun ttmIncome _ => ?_
  refine (onlyError_sum _).bind fun priorIncome _ => ?_
  refine (onlyError_numberText _).bind fun _ _ => ?_
  refine (onlyError_numberText _).bind fun _ _ => ?_
  refine (onlyError_numberText _).bind fun _ _ => ?_
  refine (onlyError_numberText _).bind fun _ _ => ?_
  refine (onlyError_atMost _ _).bind fun low _ => ?_
  split
  · exact onlyError_ok _
  refine (onlyError_atMost _ _).bind fun low hincome => ?_
  split
  · exact onlyError_ok _
  next hlow =>
  refine (onlyError_atMost _ _).bind fun low' hrevenue => ?_
  split
  · exact onlyError_ok _
  next hlow' =>
  rw [Bool.not_eq_true] at hlow hlow'
  subst hlow hlow'
  exact onlyError_judgeGrowth (ne_zero_of_atMost hrevenue) (ne_zero_of_atMost hincome)

theorem onlyError_judgeQuarters {recent : List QuarterFact} :
    OnlyError refused (judgeQuarters config signalSession evidence recent) := by
  unfold judgeQuarters
  split_ifs with hfew hgap
  · exact onlyError_ok _
  · exact onlyError_ok _
  split
  next hnone =>
    -- with the quarters that are needed there is a newest one
    have hempty : recent = [] := List.head?_eq_none_iff.mp hnone
    subst hempty
    have hneeded := config.ttmQuarters_pos
    simp only [List.length_nil] at hfew
    omega
  next newest _ =>
    dsimp only
    split_ifs
    · exact onlyError_ok _
    split
    · exact onlyError_ok _
    · exact onlyError_judgeTtm

theorem onlyError_optionalText (value : Option Number) :
    OnlyError refused (optionalText value) := by
  cases value with
  | none => exact onlyError_ok _
  | some number => exact (onlyError_numberText number).map

theorem onlyError_evaluateFundamentals {facts : List QuarterFact} :
    OnlyError refused (evaluateFundamentals config signalSession facts) := by
  unfold evaluateFundamentals
  dsimp only
  split_ifs
  · exact onlyError_ok _
  refine (onlyError_mapM fun fact _ => ?_).bind fun _ _ => onlyError_judgeQuarters
  refine (onlyError_optionalText _).bind fun _ _ => ?_
  refine (onlyError_optionalText _).bind fun _ _ => ?_
  exact onlyError_ok _

end Errors

section Visible

variable {facts other : List QuarterFact}

/-- No two rows of a period compare alike; a missing source counts as the empty text. -/
def Unambiguous (facts : List QuarterFact) : Prop :=
  (facts.map fun fact => (fact.periodEndDate, fact.filingDate, fact.source.getD "")).Nodup

instance : DecidablePred Unambiguous := fun _ => inferInstanceAs (Decidable (List.Nodup _))

def filed (signalSession : Date) (facts : List QuarterFact) : List QuarterFact :=
  facts.filter (QuarterFact.filedBy signalSession)

/-- Of each period the filing with the largest key is seen. -/
theorem visibleQuarters_eq : visibleQuarters signalSession facts =
    Dict.largest QuarterFact.periodEndDate QuarterFact.filingKey (filed signalSession facts) := by
  unfold visibleQuarters largest filed
  rw [List.foldl_filter]
  congr 1
  funext visible fact
  unfold showFact keepLargest
  split_ifs
  · split <;> simp only [*]
  · rfl

theorem Unambiguous.filed_keys (h : Unambiguous facts) :
    ((filed signalSession facts).map fun fact => (fact.periodEndDate, fact.filingKey)).Nodup := by
  have hfiled : Unambiguous (filed signalSession facts) :=
    h.sublist (List.filter_sublist.map _)
  have hdistinct := List.pairwise_map.mp hfiled
  refine List.pairwise_map.mpr (hdistinct.imp_of_mem ?_)
  intro a b ha hb hne hkey
  obtain ⟨hperiod, hfiling⟩ := Prod.mk.inj hkey
  obtain ⟨hdate, hsource⟩ := Prod.mk.inj (toLex.injective hfiling)
  obtain ⟨day, hday, -⟩ := (Option.any_eq_true ..).mp (List.mem_filter.mp ha).2
  obtain ⟨day', hday', -⟩ := (Option.any_eq_true ..).mp (List.mem_filter.mp hb).2
  apply hne
  rw [hday, hday'] at hdate ⊢
  rw [hperiod, hsource, show day = day' from hdate]

theorem periodEndDate_of_visible {visible : Dict Date QuarterFact} (hunique : Unambiguous facts)
    (hvisible : visible = visibleQuarters signalSession facts) {day : Date} {fact : QuarterFact}
    (h : visible.get? day = some fact) : fact.periodEndDate = day := by
  rw [hvisible, visibleQuarters_eq] at h
  exact ((get?_largest hunique.filed_keys).mp h).2.1

theorem recentQuarters_congr {visible later : Dict Date QuarterFact}
    (hperiods : ∀ day fact, visible.get? day = some fact → fact.periodEndDate = day)
    (h : later.get? = visible.get?) :
    recentQuarters config later = recentQuarters config visible := by
  have hnodup : (visible.values.map QuarterFact.periodEndDate).Nodup := by
    have hkeys := visible.nodup_filter_values QuarterFact.periodEndDate hperiods fun _ => true
    rwa [List.filter_true] at hkeys
  have hvalues : later.values.Perm visible.values := (entries_perm_of_get? h).map Prod.snd
  unfold recentQuarters
  rw [insertedBy_eq_of_perm hnodup hvalues]

theorem evaluateFundamentals_congr (hunique : Unambiguous facts)
    (hperm : (filed signalSession other).Perm (filed signalSession facts)) :
    evaluateFundamentals config signalSession other =
      evaluateFundamentals config signalSession facts := by
  have hget : (visibleQuarters signalSession other).get? =
      (visibleQuarters signalSession facts).get? := by
    rw [visibleQuarters_eq, visibleQuarters_eq]
    exact get?_largest_perm hunique.filed_keys hperm
  have hsize : (visibleQuarters signalSession other).size =
      (visibleQuarters signalSession facts).size := (entries_perm_of_get? hget).length_eq
  have hrecent : recentQuarters config (visibleQuarters signalSession other) =
      recentQuarters config (visibleQuarters signalSession facts) :=
    recentQuarters_congr (fun _ _ h => periodEndDate_of_visible hunique rfl h) hget
  unfold evaluateFundamentals
  dsimp only
  rw [hsize, hrecent]

end Visible

section Specification

variable (config : LongtermShadowConfig) (signalSession : Date)
  (fundamentals : Dict String (List QuarterFact))

def filings (symbol : String) : List QuarterFact := (fundamentals.get? symbol).getD []

/-- The judgement of the fundamentals finds no reason against the symbol. -/
def grows (item : LongtermSymbolEvaluation) : Bool :=
  match evaluateFundamentals config signalSession (filings fundamentals item.symbol) with
  | .ok ⟨none, _⟩ => true
  | _ => false

def isEligible (candidate : LongtermCandidate) (item : LongtermSymbolEvaluation) : Bool :=
  match candidate with
  | .trendMomentum => item.passing
  | .qualityGrowthTrend => item.passing && grows config signalSession fundamentals item

def LongtermSignal.momentum (signal : LongtermSignal) : Decimal := signal.metrics.momentum

def ComesBefore (momentum : Decimal) (symbol : String) (momentum' : Decimal) (symbol' : String) :
    Prop :=
  momentum' < momentum ∨ momentum = momentum' ∧ symbol < symbol'

structure CandidateSelection.Selects (selection : CandidateSelection)
    (eligible evaluations : List LongtermSymbolEvaluation) : Prop where
  passed : selection.passed = eligible.length
  conserved : selection.signals.length + selection.noSignalReasons.counted =
    evaluations.countP LongtermSymbolEvaluation.evaluated
  length : selection.signals.length = min config.topN eligible.length
  ranks : selection.signals.map LongtermSignal.rank = List.range' 1 selection.signals.length
  from_eligible : ∀ signal ∈ selection.signals, ∃ item ∈ eligible, item.symbol = signal.symbol ∧
    item.metrics = some signal.metrics
  sorted : selection.signals.Pairwise fun first second =>
    ComesBefore first.momentum first.symbol second.momentum second.symbol
  ahead : ∀ item ∈ eligible, (∀ signal ∈ selection.signals, signal.symbol ≠ item.symbol) →
    ∃ metrics, item.metrics = some metrics ∧ ∀ signal ∈ selection.signals,
      ComesBefore signal.momentum signal.symbol metrics.momentum item.symbol

end Specification

variable {reasons later : Dict NoSignalReason ℕ} {eligible other : List Eligible}
  {candidate : LongtermCandidate}

section Top

variable {keyed : List Ranked} {selection : CandidateSelection}

theorem ranked_ok {item : Eligible} {entry : Ranked} (h : item.ranked = .ok entry) :
    entry.symbol = item.item.symbol ∧ item.item.metrics = some entry.metrics := by
  unfold Eligible.ranked at h
  obtain ⟨metrics, hmetrics, h⟩ := bind_ok_iff.mp h
  cases h
  unfold metricsOf at hmetrics
  split at hmetrics
  · cases hmetrics
  next found hfound =>
    cases hmetrics
    exact ⟨rfl, hfound⟩

theorem order_lt_iff {a b : Ranked} :
    a.order < b.order ↔ ComesBefore a.metrics.momentum a.symbol b.metrics.momentum b.symbol := by
  unfold Ranked.order ComesBefore
  rw [Prod.Lex.toLex_lt_toLex, a.metrics.momentum_fits.neg, b.metrics.momentum_fits.neg]
  simp only [neg_lt_neg_iff, neg_inj]

theorem nodup_order (h : (keyed.map Ranked.symbol).Nodup) : (keyed.map Ranked.order).Nodup := by
  refine List.pairwise_map.mpr ((List.pairwise_map.mp h).imp ?_)
  intro a b hne heq
  exact hne (Prod.mk.inj (toLex.injective heq)).2

theorem map_symbol_keyed (h : eligible.mapM Eligible.ranked = .ok keyed) :
    keyed.map Ranked.symbol = eligible.map (·.item.symbol) :=
  map_eq_map_of_mapM_ok h fun _ _ _ hentry => (ranked_ok hentry).1

theorem counted_withOutside (reasons : Dict NoSignalReason ℕ) {ranked selected : ℕ}
    (hle : selected ≤ ranked) :
    (withOutside reasons ranked selected).counted + selected = reasons.counted + ranked := by
  unfold withOutside
  split_ifs
  · rw [counted_increase]
    omega
  · omega

variable (h : top config signalSession candidate eligible reasons = .ok selection)
include h

theorem top_ok :
    ∃ keyed, eligible.mapM Eligible.ranked = .ok keyed ∧
      selection.passed = eligible.length ∧
      selection.signals.length + selection.noSignalReasons.counted =
        reasons.counted + eligible.length ∧
      selection.signals.map LongtermSignal.rank = List.range' 1 selection.signals.length ∧
      selection.signals.map (fun signal => (signal.symbol, signal.metrics)) =
        ((Ranking.insertedBy Ranked.order keyed).take config.topN).map fun entry =>
          (entry.symbol, entry.metrics) := by
  unfold top at h
  obtain ⟨keyed, hkeyed, h⟩ := bind_ok_iff.mp h
  dsimp only at h
  obtain ⟨signals, hsignals, h⟩ := bind_ok_iff.mp h
  cases h
  have hlength : (insertedBy Ranked.order keyed).length = eligible.length := by
    rw [insertedBy_perm.length_eq, ← List.length_map (f := Ranked.symbol),
      map_symbol_keyed hkeyed, List.length_map]
  have hshown : ∀ entry ∈ ((insertedBy Ranked.order keyed).take config.topN).zipIdx 1,
      ∀ signal, Ranked.signal signalSession candidate entry = .ok signal →
        signal.rank = entry.2 ∧ (signal.symbol, signal.metrics) =
          (entry.1.symbol, entry.1.metrics) := by
    intro entry _ signal hsignal
    obtain ⟨trend, -, hsignal⟩ := bind_ok_iff.mp hsignal
    cases hsignal
    exact ⟨rfl, rfl⟩
  have hranks := map_eq_map_of_mapM_ok hsignals fun entry hentry signal hsignal =>
    (hshown entry hentry signal hsignal).1
  have hrows := map_eq_map_of_mapM_ok hsignals fun entry hentry signal hsignal =>
    (hshown entry hentry signal hsignal).2
  have hcount : signals.length =
      ((insertedBy Ranked.order keyed).take config.topN).length := by
    rw [← List.length_map (f := LongtermSignal.rank), hranks, List.length_map,
      List.length_zipIdx]
  refine ⟨keyed, hkeyed, hlength, ?_, ?_, ?_⟩
  · have hle : ((insertedBy Ranked.order keyed).take config.topN).length ≤
        (insertedBy Ranked.order keyed).length := List.length_take_le' _ _
    have hcounted := counted_withOutside reasons hle
    rw [counted_ordered, hcount, ← hlength]
    omega
  · rw [hranks, hcount]
    exact List.zipIdx_map_snd _ _
  · rw [hrows]
    conv_rhs => rw [← List.zipIdx_map_fst 1 (List.take config.topN _), List.map_map]
    rfl

/-- The first of the ranked symbols are selected, and every other one is counted. -/
theorem top_selects {items evaluations : List LongtermSymbolEvaluation}
    (hitems : eligible.map Eligible.item = items)
    (hsymbols : (items.map LongtermSymbolEvaluation.symbol).Nodup)
    (hcounts : reasons.counted + items.length = evaluations.countP
      LongtermSymbolEvaluation.evaluated) :
    selection.Selects config items evaluations := by
  obtain ⟨keyed, hkeyed, hpassed, hcounted, hranks, hrows⟩ := top_ok h
  subst hitems
  rw [List.length_map] at hcounts
  have hnames : (keyed.map Ranked.symbol).Nodup := by
    rw [map_symbol_keyed hkeyed]
    rwa [List.map_map] at hsymbols
  have hincreasing : (insertedBy Ranked.order keyed).Pairwise fun a b =>
      a.order < b.order := insertedBy_increasing (nodup_order hnames)
  have hkept : ∀ {symbol metrics}, (∃ signal ∈ selection.signals, signal.symbol = symbol ∧
      signal.metrics = metrics) ↔ ∃ entry ∈ (insertedBy Ranked.order keyed).take config.topN,
        entry.symbol = symbol ∧ entry.metrics = metrics := by
    intro symbol metrics
    have hmem : (symbol, metrics) ∈ selection.signals.map (fun signal =>
        (signal.symbol, signal.metrics)) ↔ (symbol, metrics) ∈
          ((insertedBy Ranked.order keyed).take config.topN).map fun entry =>
            (entry.symbol, entry.metrics) := by rw [hrows]
    simpa only [List.mem_map, Prod.mk.injEq] using hmem
  refine {
    passed := hpassed.trans (List.length_map ..).symm
    conserved := hcounted.trans hcounts
    length := ?_
    ranks := hranks
    from_eligible := ?_
    sorted := ?_
    ahead := ?_ }
  · have hlength := congrArg List.length hrows
    rw [List.length_map, List.length_map, List.length_take, insertedBy_perm.length_eq,
      ← List.length_map (f := Ranked.symbol), map_symbol_keyed hkeyed] at hlength
    simpa using hlength
  · intro signal hsignal
    obtain ⟨entry, hentry, hsymbol, hmetrics⟩ := hkept.mp ⟨signal, hsignal, rfl, rfl⟩
    have hmem : entry ∈ keyed := mem_insertedBy.mp (List.mem_of_mem_take hentry)
    obtain ⟨item, hitem, hranked⟩ := exists_of_mem_mapM_ok hkeyed hmem
    obtain ⟨hname, hfound⟩ := ranked_ok hranked
    refine ⟨item.item, List.mem_map_of_mem hitem, ?_, ?_⟩
    · rw [← hname, hsymbol]
    · rw [hfound, hmetrics]
  · have hsorted : (selection.signals.map fun signal => (signal.symbol, signal.metrics)).Pairwise
        fun first second => ComesBefore first.2.momentum first.1 second.2.momentum second.1 := by
      rw [hrows, List.pairwise_map]
      exact (hincreasing.sublist (List.take_sublist _ _)).imp order_lt_iff.mp
    exact List.pairwise_map.mp hsorted
  · intro item hitem hnot
    obtain ⟨eligibleItem, hmem, rfl⟩ := List.mem_map.mp hitem
    obtain ⟨entry, hentry, hranked⟩ := exists_mem_of_mapM_ok hkeyed hmem
    obtain ⟨hname, hfound⟩ := ranked_ok hranked
    refine ⟨entry.metrics, hfound, ?_⟩
    intro signal hsignal
    obtain ⟨first, hfirst, hsymbol, hmetrics⟩ := hkept.mp ⟨signal, hsignal, rfl, rfl⟩
    -- the symbol stands behind the limit, and every signal before it
    have hlate : entry ∈ (insertedBy Ranked.order keyed).drop config.topN := by
      have hall : entry ∈ insertedBy Ranked.order keyed := mem_insertedBy.mpr hentry
      rw [← List.take_append_drop config.topN (insertedBy Ranked.order keyed)] at hall
      rcases List.mem_append.mp hall with htake | hdrop
      · obtain ⟨found, hfoundSignal, hfoundSymbol, -⟩ := hkept.mpr ⟨entry, htake, rfl, rfl⟩
        exact absurd (hfoundSymbol.trans hname) (hnot found hfoundSignal)
      · exact hdrop
    rw [← List.take_append_drop config.topN (insertedBy Ranked.order keyed),
      List.pairwise_append] at hincreasing
    have hbefore := order_lt_iff.mp (hincreasing.2.2 first hfirst entry hlate)
    rwa [hsymbol, hmetrics, hname] at hbefore

end Top

variable {fundamentals : Dict String (List QuarterFact)}
  {evaluations : List LongtermSymbolEvaluation}

section Counts

variable {cohort : Cohort}

theorem rejected_add_passing (evaluations : List LongtermSymbolEvaluation) :
    (evaluations.filterMap LongtermSymbolEvaluation.rejection).length +
      (evaluations.filter LongtermSymbolEvaluation.passing).length =
        evaluations.countP LongtermSymbolEvaluation.evaluated := by
  induction evaluations with
  | nil => rfl
  | cons item rest ih =>
    rw [List.filterMap_cons, List.filter_cons, List.countP_cons]
    unfold rejection passing at ih ⊢
    cases hevaluated : item.evaluated with
    | false => simpa [hevaluated] using ih
    | true =>
      cases hreason : item.trendReason with
      | none => simp [← ih]; omega
      | some reason => simp [← ih]; omega

theorem judged_ok {item : LongtermSymbolEvaluation}
    {entry : LongtermSymbolEvaluation × FundamentalsEvaluation}
    (h : judged config signalSession fundamentals item = .ok entry) :
    entry.1 = item ∧
      evaluateFundamentals config signalSession (filings fundamentals item.symbol) =
        .ok entry.2 := by
  unfold judged at h
  obtain ⟨result, hresult, h⟩ := bind_ok_iff.mp h
  cases h
  exact ⟨rfl, hresult⟩

theorem judged_results {items : List LongtermSymbolEvaluation}
    {results : List (LongtermSymbolEvaluation × FundamentalsEvaluation)}
    (h : items.mapM (judged config signalSession fundamentals) = .ok results) :
    (results.filterMap qualityEligible).map Eligible.item =
        items.filter (grows config signalSession fundamentals) ∧
      (results.filterMap (·.2.reason)).length + (results.filterMap qualityEligible).length =
        items.length := by
  induction items generalizing results with
  | nil =>
    cases h
    exact ⟨rfl, rfl⟩
  | cons item rest ih =>
    rw [List.mapM_cons] at h
    obtain ⟨entry, hentry, h⟩ := bind_ok_iff.mp h
    obtain ⟨later, hlater, h⟩ := bind_ok_iff.mp h
    cases h
    obtain ⟨hitems, hlength⟩ := ih hlater
    obtain ⟨⟨item', reason, evidence⟩, rfl⟩ : ∃ entry', entry = entry' := ⟨entry, rfl⟩
    obtain ⟨rfl, hresult⟩ := judged_ok hentry
    cases reason with
    | none =>
      have hgrows : grows config signalSession fundamentals item' = true := by
        rw [grows, hresult]
      constructor
      · rw [List.filter_cons_of_pos hgrows, ← hitems]
        rfl
      · simp only [List.filterMap_cons, qualityEligible, List.length_cons]
        omega
    | some reason =>
      have hgrows : ¬ grows config signalSession fundamentals item' = true := by
        rw [grows, hresult]
        exact Bool.false_ne_true
      constructor
      · rw [List.filter_cons_of_neg hgrows, ← hitems]
        rfl
      · simp only [List.filterMap_cons, qualityEligible, List.length_cons]
        omega

theorem filter_isEligible {candidate : LongtermCandidate} :
    evaluations.filter (isEligible config signalSession fundamentals candidate) =
      match candidate with
      | .trendMomentum => evaluations.filter LongtermSymbolEvaluation.passing
      | .qualityGrowthTrend => (evaluations.filter LongtermSymbolEvaluation.passing).filter
          (grows config signalSession fundamentals) := by
  cases candidate with
  | trendMomentum => rfl
  | qualityGrowthTrend =>
    rw [List.filter_filter]
    apply List.filter_congr
    intro item _
    exact Bool.and_comm _ _

/-- Each candidate of a cohort selects from the symbols eligible for it. -/
theorem selectCohort_selects (hsymbols : (evaluations.map LongtermSymbolEvaluation.symbol).Nodup)
    (h : selectCohort config signalSession evaluations fundamentals = .ok cohort)
    (candidate : LongtermCandidate) :
    (cohort.selection candidate).Selects config
      (evaluations.filter (isEligible config signalSession fundamentals candidate))
      evaluations := by
  unfold selectCohort at h
  dsimp only at h
  obtain ⟨trendOnly, htrend, h⟩ := bind_ok_iff.mp h
  obtain ⟨results, hresults, h⟩ := bind_ok_iff.mp h
  obtain ⟨quality, hquality, h⟩ := bind_ok_iff.mp h
  cases h
  obtain ⟨hitems, hlength⟩ := judged_results hresults
  have hall := rejected_add_passing evaluations
  rw [filter_isEligible]
  cases candidate with
  | trendMomentum =>
    refine top_selects htrend ?_ (hsymbols.sublist (List.filter_sublist.map _)) ?_
    · rw [List.map_map]
      exact List.map_id' _
    · rw [counted_tally]
      simpa [counted] using hall
  | qualityGrowthTrend =>
    refine top_selects hquality hitems ?_ ?_
    · exact hsymbols.sublist ((List.filter_sublist.trans List.filter_sublist).map _)
    · rw [← hitems, List.length_map, counted_tally, counted_tally]
      simp only [counted, total_empty, Nat.zero_add]
      omega

end Counts

section Order

variable {otherFundamentals : Dict String (List QuarterFact)}
  {others : List LongtermSymbolEvaluation}

theorem onlyError_ranked (item : Eligible) :
    OnlyError (.value "evaluated symbol has no trend metrics") item.ranked := by
  refine OnlyError.bind ?_ fun _ _ => onlyError_ok _
  unfold metricsOf
  split
  · exact onlyError_error
  · exact onlyError_ok _

theorem top_congr (hsymbols : (eligible.map (·.item.symbol)).Nodup) (hperm : eligible.Perm other)
    (hreasons : later.get? = reasons.get?) :
    top config signalSession candidate other later =
      top config signalSession candidate eligible reasons := by
  unfold top
  rcases mapM_perm_cases hperm fun item _ => onlyError_ranked item with
    ⟨hkeyed, hothers⟩ | ⟨keyed, keyed', hkeyed, hothers, hsame⟩
  · rw [hkeyed, hothers]
    rfl
  · rw [hkeyed, hothers, ok_bind, ok_bind]
    have hnames : (keyed.map Ranked.symbol).Nodup := by rwa [map_symbol_keyed hkeyed]
    rw [insertedBy_eq_of_perm (nodup_order hnames) hsame.symm]
    have hcounts (ranked selected : ℕ) :
        (withOutside later ranked selected).ordered NoSignalReason.text =
          (withOutside reasons ranked selected).ordered NoSignalReason.text := by
      apply ordered_congr NoSignalReason.text_injective
      unfold withOutside
      split_ifs
      · exact get?_increase_congr hreasons
      · exact hreasons
    simp only [hcounts]

theorem judged_congr
    (hunique : ∀ symbol, Unambiguous (filings fundamentals symbol))
    (hfilings : ∀ symbol, (filed signalSession (filings otherFundamentals symbol)).Perm
      (filed signalSession (filings fundamentals symbol))) :
    judged config signalSession otherFundamentals = judged config signalSession fundamentals := by
  funext item
  unfold judged
  have hsame : evaluateFundamentals config signalSession
      ((otherFundamentals.get? item.symbol).getD []) =
        evaluateFundamentals config signalSession ((fundamentals.get? item.symbol).getD []) :=
    evaluateFundamentals_congr (hunique item.symbol) (hfilings item.symbol)
  rw [hsame]

theorem onlyError_judged (item : LongtermSymbolEvaluation) :
    OnlyError refused (judged config signalSession fundamentals item) :=
  onlyError_evaluateFundamentals.bind fun _ _ => onlyError_ok _

/-- The order of the symbols and of their filings does not matter. -/
theorem selectCohort_congr (hsymbols : (evaluations.map LongtermSymbolEvaluation.symbol).Nodup)
    (hperm : evaluations.Perm others)
    (hunique : ∀ symbol, Unambiguous (filings fundamentals symbol))
    (hfilings : ∀ symbol, (filed signalSession (filings otherFundamentals symbol)).Perm
      (filed signalSession (filings fundamentals symbol))) :
    selectCohort config signalSession others otherFundamentals =
      selectCohort config signalSession evaluations fundamentals := by
  have hpassing : (evaluations.filter passing).Perm
      (others.filter passing) := hperm.filter _
  have hnames : ((evaluations.filter passing).map
      symbol).Nodup := hsymbols.sublist (List.filter_sublist.map _)
  have hreasons : (empty.tally (others.filterMap rejection)).get? =
      (empty.tally (evaluations.filterMap rejection)).get? :=
    get?_tally_perm (hperm.filterMap _).symm
  have htrend : top config signalSession .trendMomentum
      ((others.filter passing).map (⟨·, none⟩))
      (empty.tally (others.filterMap rejection)) =
        top config signalSession .trendMomentum
          ((evaluations.filter passing).map (⟨·, none⟩))
          (empty.tally (evaluations.filterMap rejection)) := by
    refine top_congr ?_ (hpassing.map _) hreasons
    rwa [List.map_map]
  unfold selectCohort
  dsimp only
  rw [htrend, judged_congr hunique hfilings]
  congr 1
  funext trendOnly
  rcases mapM_perm_cases hpassing fun item _ => onlyError_judged item with
    ⟨hresults, hothers⟩ | ⟨results, results', hresults, hothers, hsame⟩
  · rw [hresults, hothers]
    rfl
  · rw [hresults, hothers, ok_bind, ok_bind]
    have hquality : top config signalSession .qualityGrowthTrend
        (results'.filterMap qualityEligible)
        ((empty.tally (others.filterMap rejection)).tally
          (results'.filterMap (·.2.reason))) =
        top config signalSession .qualityGrowthTrend (results.filterMap qualityEligible)
          ((empty.tally (evaluations.filterMap rejection)).tally
            (results.filterMap (·.2.reason))) := by
      refine top_congr ?_ (hsame.filterMap _) ?_
      · have hitems := (judged_results hresults).1
        have hgrowing : (((evaluations.filter passing).filter
            (grows config signalSession fundamentals)).map symbol).Nodup :=
          hnames.sublist (List.filter_sublist.map _)
        rw [← hitems, List.map_map] at hgrowing
        exact hgrowing
      · rw [get?_tally_perm (hsame.filterMap _).symm]
        exact get?_tally_congr hreasons
    rw [hquality]

end Order

/-- With distinct symbols, and rows of which no two of a period compare alike, a cohort selects
the first eligible symbols of both candidates and counts every other evaluated symbol, a symbol
that the second candidate may select is one that the first may select, and the cohort is that of
the evaluations in any order and of the filed rows in any order. -/
theorem cohort_selects (hsymbols : (evaluations.map LongtermSymbolEvaluation.symbol).Nodup)
    (hunique : ∀ symbol, Unambiguous (filings fundamentals symbol)) :
    (∀ cohort, selectCohort config signalSession evaluations fundamentals = .ok cohort →
      ∀ candidate, (cohort.selection candidate).Selects config
        (evaluations.filter (isEligible config signalSession fundamentals candidate))
        evaluations) ∧
    (∀ item, isEligible config signalSession fundamentals .qualityGrowthTrend item →
      isEligible config signalSession fundamentals .trendMomentum item) ∧
    ∀ others otherFundamentals, evaluations.Perm others →
      (∀ symbol, (filed signalSession (filings otherFundamentals symbol)).Perm
        (filed signalSession (filings fundamentals symbol))) →
      selectCohort config signalSession others otherFundamentals =
        selectCohort config signalSession evaluations fundamentals := by
  refine ⟨fun cohort h => selectCohort_selects hsymbols h, ?_, ?_⟩
  · intro item hitem
    exact (Bool.and_eq_true _ _ ▸ hitem).1
  · intro others otherFundamentals hperm hfilings
    exact selectCohort_congr hsymbols hperm hunique hfilings

/-- A row filed in February 2026, with a revenue of ten times the net income. -/
def filedRow (periodEnd : Date) (source : Option String) (netIncome : Decimal) : QuarterFact where
  fiscalPeriod := "quarter"
  periodEndDate := periodEnd
  filingDate := some ⟨2026, 2, 14, by decide⟩
  source := source
  discreteRevenue := some (.finite (10 * netIncome))
  discreteNetIncome := some (.finite netIncome)

def growingRows : List QuarterFact :=
  [filedRow ⟨2024, 3, 31, by decide⟩ none 10, filedRow ⟨2024, 6, 30, by decide⟩ none 10,
    filedRow ⟨2024, 9, 30, by decide⟩ none 10, filedRow ⟨2024, 12, 31, by decide⟩ none 10,
    filedRow ⟨2025, 3, 31, by decide⟩ none 12, filedRow ⟨2025, 6, 30, by decide⟩ none 12,
    filedRow ⟨2025, 9, 30, by decide⟩ none 12, filedRow ⟨2025, 12, 31, by decide⟩ none 12]

/-- The last quarter once more, with an empty source and without income. -/
def restatedRow : QuarterFact := filedRow ⟨2025, 12, 31, by decide⟩ (some "") 0

theorem one_share : (0 : Decimal) ≤ 1 := zero_le_one

def flatBar : ValidBar where
  sessionDate := 0
  openPrice := 1000
  high := 1000
  low := 1000
  close := 1000
  volume := 1
  value := none
  low_pos := by norm_num
  volume_nonneg := one_share
  open_le_high := le_rfl
  close_le_high := le_rfl
  low_le_open := le_rfl
  low_le_close := le_rfl

def risingSymbol : LongtermSymbolEvaluation where
  symbol := "005930"
  excludedReason := none
  metrics := some {
    signalBar := flatBar
    sma50 := 950
    sma200 := 900
    sma200Prior := 890
    priceSkip := 990
    priceBase := 660
    momentum := 1 / 2
    momentum_fits := by decide +kernel }

theorem march_isDate : CivilTime.IsDate 2026 3 2 := by decide

def march : Date := ⟨2026, 3, 2, march_isDate⟩

def cohortOf (rows : List QuarterFact) : Except Failure Cohort :=
  selectCohort defaultLongtermShadowConfig march [risingSymbol]
    (Dict.empty.set risingSymbol.symbol rows)

theorem filings_single (symbol : String) (rows : List QuarterFact) :
    filings (Dict.empty.set risingSymbol.symbol rows) symbol =
      if symbol = risingSymbol.symbol then rows else [] := by
  unfold filings
  rw [get?_set]
  split_ifs <;> rfl

/-- One symbol whose earnings grow. -/
theorem cohort_selects_rising : ∃ cohort, cohortOf growingRows = .ok cohort ∧
    (cohort.selection .qualityGrowthTrend).Selects defaultLongtermShadowConfig
      ([risingSymbol].filter (isEligible defaultLongtermShadowConfig march
        (Dict.empty.set risingSymbol.symbol growingRows) .qualityGrowthTrend)) [risingSymbol] := by
  have hunique (symbol : String) :
      Unambiguous (filings (empty.set risingSymbol.symbol growingRows) symbol) := by
    rw [filings_single]
    split_ifs <;> decide
  obtain ⟨cohort, hcohort, -⟩ :
      ∃ cohort, cohortOf growingRows = .ok cohort ∧ cohort.trendMomentum.passed = 1 :=
    exists_ok_of_check (by decide +kernel)
  exact ⟨cohort, hcohort, (cohort_selects (by decide) hunique).1 cohort hcohort
    .qualityGrowthTrend⟩

/-- Two rows of one period and filing date, of which one has no source and one an empty source,
compare alike; the row that comes first counts. -/
theorem missing_source_ties :
    ((restatedRow :: growingRows).map fun fact =>
      (fact.periodEndDate, fact.filingDate, fact.source)).Nodup ∧
    (growingRows ++ [restatedRow]).Perm (restatedRow :: growingRows) ∧
    ∃ kept replaced, cohortOf (growingRows ++ [restatedRow]) = .ok kept ∧
      cohortOf (restatedRow :: growingRows) = .ok replaced ∧
      kept.qualityGrowthTrend.signals.map LongtermSignal.symbol = ["005930"] ∧
      replaced.qualityGrowthTrend.signals = [] := by
  refine ⟨by decide, List.perm_append_singleton _ _, ?_⟩
  exact exists_ok_of_check₂ (by decide +kernel)

end KAssetTrader.Longterm
