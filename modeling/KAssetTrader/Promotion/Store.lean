import KAssetTrader.Promotion.History

/-!
The row of a promotion: what is written of it and how it is read back. Decimals
go through their plain texts, and the pass rate of the folds is checked against
the text of a fresh division. The row of a history reads back as the promotion
it was written from exactly when its decimals fit the working precision and that
quotient prints the same both ways.
-/

namespace KAssetTrader.Promotion

open Decimal PromotionMetrics

open Unicode (strip)
open Checked

variable {hash : MetricsSnapshot → String}

structure StoredEvaluation where
  passed : Bool
  metricsHash : String
  failedMetrics : List String
  checks : List ThresholdCheck

def ThresholdEvaluation.asEvidence (e : ThresholdEvaluation) : StoredEvaluation :=
  ⟨e.passed, e.metricsHash, e.failedMetrics, e.checks⟩

/-- A row of the table. `metrics` is `none` for the empty JSON object. -/
structure KAssetStrategyPromotion where
  strategyKey : String
  version : String
  state : String
  metrics : Option MetricsSnapshot
  metricsHash : Option String
  thresholdEvaluation : Option StoredEvaluation
  evidence : List PromotionEvidence
  promotionCandidateId : Option ℤ
  strategyArtifactFingerprint : Option String
  sourceCommit : Option String
  evidenceSchemaVersion : Option String
  approvedAt : Option Instant
  suspendedAt : Option Instant
  retiredAt : Option Instant
  createdAt : Instant
  updatedAt : Instant

def applyPromotion (row : KAssetStrategyPromotion) (p : StrategyPromotion) :
    KAssetStrategyPromotion :=
  { row with
    state := p.state.value
    metrics := p.metrics.map (fun m => m.1.asSnapshot)
    metricsHash := p.metricsHash
    thresholdEvaluation := p.thresholdEvaluation.map (·.asEvidence)
    evidence := p.evidence.map (·.1)
    approvedAt := p.approvedAt
    suspendedAt := p.suspendedAt
    retiredAt := p.retiredAt
    updatedAt := p.updatedAt }

/-- The row that `StrategyPromotionService.create_draft` adds for a draft. -/
def draftRow (p : StrategyPromotion) : KAssetStrategyPromotion where
  strategyKey := p.strategyKey
  version := p.version
  state := p.state.value
  metrics := none
  metricsHash := none
  thresholdEvaluation := none
  evidence := p.evidence.map (·.1)
  promotionCandidateId := p.promotionCandidateId
  strategyArtifactFingerprint := p.strategyArtifactFingerprint
  sourceCommit := p.sourceCommit
  evidenceSchemaVersion := p.evidenceSchemaVersion
  approvedAt := none
  suspendedAt := none
  retiredAt := none
  createdAt := p.createdAt
  updatedAt := p.updatedAt

/-- `Decimal(text)`: white space around the text and underscores are dropped. -/
def readDecimal (text : String) : Except PromotionError Decimal :=
  match Decimal.read ((strip text).toList.filter (· ≠ '_')) with
  | some value => .ok value
  | none => .error (.invalid "decimal.ConversionSyntax")

def metricsFromSnapshot : Option MetricsSnapshot → Except PromotionError (Option Metrics)
  | none => .ok none
  | some raw => do
      let totalReturn ← readDecimal raw.totalReturn
      let maxDrawdown ← readDecimal raw.maxDrawdown
      let winRate ← readDecimal raw.winRate
      let expectancy ← readDecimal raw.expectancy
      let excessReturn ← readDecimal raw.excessReturn
      let grossProfit ← readDecimal raw.grossProfit
      let grossLoss ← readDecimal raw.grossLoss
      let costStressedTotalReturn ← readDecimal raw.costStressedTotalReturn
      let totalCosts ← readDecimal raw.totalCosts
      let metrics ← PromotionMetrics.new
        { totalReturn, maxDrawdown, winRate, expectancy, excessReturn, grossProfit, grossLoss,
          costStressedTotalReturn, totalCosts
          tradeCount := raw.tradeCount
          walkForwardFolds := raw.walkForwardFolds
          walkForwardPassedFolds := raw.walkForwardPassedFolds
          dataQualityEvidence := raw.dataQualityEvidence
          survivorshipEvidence := raw.survivorshipEvidence
          deterministic := raw.deterministic
          backtestHashes := raw.backtestHashes }
      require (metrics.1.walkForwardPassRateText = raw.walkForwardPassRate)
        "stored walk-forward pass rate is inconsistent"
      return some metrics

/-- One check of `_threshold_from_snapshot`. -/
def checkFromSnapshot (raw : ThresholdCheck) : Except PromotionError ThresholdCheck := do
  let values := [strip raw.metric, strip raw.observed, strip raw.comparator, strip raw.required]
  require (∀ value ∈ values, value ≠ "") "promotion threshold check fields are required"
  return ⟨strip raw.metric, strip raw.observed, strip raw.comparator, strip raw.required,
    raw.passed⟩

def thresholdFromSnapshot :
    Option StoredEvaluation → Except PromotionError (Option ThresholdEvaluation)
  | none => .ok none
  | some raw => do
      let checks ← raw.checks.mapM checkFromSnapshot
      let evaluation : ThresholdEvaluation := ⟨raw.passed, raw.metricsHash, checks⟩
      require (raw.metricsHash ≠ "" ∧ checks ≠ [] ∧ raw.passed = checks.all (·.passed) ∧
        raw.failedMetrics = evaluation.failedMetrics)
        "promotion threshold summary is inconsistent"
      return some evaluation

def promotionFromRow (hash : MetricsSnapshot → String) (row : KAssetStrategyPromotion) :
    Except PromotionError StrategyPromotion := do
  let state ← PromotionState.ofValue row.state
  let metrics ← metricsFromSnapshot row.metrics
  let thresholdEvaluation ← thresholdFromSnapshot row.thresholdEvaluation
  let evidence ← row.evidence.mapM PromotionEvidence.new
  StrategyPromotion.postInit hash
    { strategyKey := row.strategyKey
      version := row.version
      state, metrics
      metricsHash := row.metricsHash
      thresholdEvaluation, evidence
      promotionCandidateId := row.promotionCandidateId
      strategyArtifactFingerprint := row.strategyArtifactFingerprint
      sourceCommit := row.sourceCommit
      evidenceSchemaVersion := row.evidenceSchemaVersion
      approvedAt := row.approvedAt
      suspendedAt := row.suspendedAt
      retiredAt := row.retiredAt
      createdAt := row.createdAt
      updatedAt := row.updatedAt }

structure KAssetStrategyPromotion.Registers (row : KAssetStrategyPromotion)
    (p : StrategyPromotion) : Prop where
  identity : row.strategyKey = p.strategyKey ∧ row.version = p.version
  trust : row.promotionCandidateId = p.promotionCandidateId ∧
    row.strategyArtifactFingerprint = p.strategyArtifactFingerprint ∧
    row.sourceCommit = p.sourceCommit ∧ row.evidenceSchemaVersion = p.evidenceSchemaVersion
  createdAt : row.createdAt = p.createdAt

theorem draftRow_registers (p : StrategyPromotion) : (draftRow p).Registers p :=
  ⟨⟨rfl, rfl⟩, ⟨rfl, rfl, rfl, rfl⟩, rfl⟩

namespace PromotionMetrics

/-- The metrics that are stored as texts and read back. -/
def decimals (m : PromotionMetrics) : List Decimal :=
  [m.totalReturn, m.maxDrawdown, m.winRate, m.expectancy, m.excessReturn, m.grossProfit,
   m.grossLoss, m.costStressedTotalReturn, m.totalCosts]

/-- The share of passed folds is zero, or at least a millionth and either a
decimal within the working precision or one whose last digit there, when
rounded, is not zero. -/
def PassRatePrints (m : PromotionMetrics) : Prop :=
  let rate : ℚ := m.walkForwardPassedFolds / m.walkForwardFolds
  m.walkForwardPassedFolds = 0 ∨
    (1 / 10 ^ 6 ≤ rate ∧
      (working.round rate = rate ∨ (Decimal.rounded 28 rate).coefficient % 10 ≠ 0))

structure Kept (m : PromotionMetrics) : Prop where
  decimals : ∀ x ∈ m.decimals, working.round x = x
  passRate : m.PassRatePrints

end PromotionMetrics

def numeric (c : Char) : Prop := c.isDigit = true ∨ c = '.' ∨ c = '-'

theorem numeric_not_space {c : Char} (h : numeric c) : ¬ Unicode.isSpace c := by
  rcases h with hdigit | rfl | rfl
  · have hrange : 48 ≤ c.toNat ∧ c.toNat ≤ 57 := by
      simpa [Char.isDigit, UInt32.le_iff_toNat_le] using hdigit
    simp only [Unicode.isSpace, Unicode.isSpaceCode, Bool.or_eq_true, Bool.and_eq_true,
      decide_eq_true_eq,
      beq_iff_eq]
    omega
  · decide
  · decide

theorem numeric_ne_underscore {c : Char} (h : numeric c) : c ≠ '_' := by
  rintro rfl
  rcases h with h | h | h
  · exact absurd h (by decide)
  · exact absurd h (by decide)
  · exact absurd h (by decide)

theorem strip_numeric {text : String} (h : ∀ c ∈ text.toList, numeric c) : strip text = text :=
  Unicode.strip_eq_self fun c hc => numeric_not_space (h c hc)

theorem decimalText_numeric (x : Decimal) : ∀ c ∈ (decimalText x).toList, numeric c := by
  intro c hc
  unfold decimalText at hc
  dsimp only at hc
  split at hc
  · obtain rfl : c = '0' := by simpa using hc
    exact Or.inl rfl
  · rw [String.toList_ofList] at hc
    exact Decimal.Numeral.mem_plain hc

theorem decimalText_ne_empty (x : Decimal) : decimalText x ≠ "" := by
  unfold decimalText
  dsimp only
  split
  · decide
  · obtain ⟨c, rest, hpoint, -⟩ := point_head
      (normalize 28 x).digits_isDigit (normalize 28 x).digits_ne_nil
      (normalize 28 x).leftDigits
    intro hempty
    have hlist := congrArg String.toList hempty
    rw [String.toList_ofList, Decimal.Numeral.plain, hpoint] at hlist
    simp at hlist

theorem readDecimal_decimalText (x : Decimal) :
    readDecimal (decimalText x) = .ok (working.round x) := by
  have hkept : (decimalText x).toList.filter (· ≠ '_') = (decimalText x).toList := by
    rw [List.filter_eq_self]
    intro c hc
    simpa using numeric_ne_underscore (decimalText_numeric x c hc)
  have hvalue : (normalize 28 x).value = _ := value_normalize (by norm_num)
  have hread : read (decimalText x).toList = some (working.round x) := by
    unfold decimalText
    dsimp only
    split
    next hzero =>
      rw [hvalue] at hzero
      have hround : working.round x = 0 := hzero
      rw [hround]
      decide +kernel
    · rw [String.toList_ofList, read_plain, hvalue]
      rfl
  unfold readDecimal
  rw [strip_numeric (decimalText_numeric x), hkept, hread]

theorem decimalText_div {passed folds : ℕ} (hrate : 0 < (passed : ℚ) / folds) :
    decimalText (working.div passed folds) =
      String.ofList (Decimal.normalize 28 ((passed : ℚ) / folds)).plain := by
  have hnormal : normalize 28 (roundDigits 28 ((passed : ℚ) / folds)) = _ :=
    normalize_roundDigits (by norm_num)
  have hvalue : (normalize 28 ((passed : ℚ) / folds)).value = _ :=
    value_normalize (by norm_num)
  have hnonzero : ¬ roundDigits 28 ((passed : ℚ) / folds) = 0 :=
    (roundDigits_eq_zero (by norm_num)).not.mpr hrate.ne'
  unfold decimalText
  simp only [Decimal.Context.div, Decimal.Context.digits, hnormal, hvalue, hnonzero, if_false]

theorem text_of_no_folds (folds : ℕ) :
    String.ofList (Decimal.quotient 28 0 folds).scientific =
      decimalText (working.div (0 : ℕ) folds) := by
  have hquotient : quotient 28 0 folds = quotient 28 0 1 := by
    simp [quotient]
  have hnone : working.div (0 : ℕ) folds = working.div (0 : ℕ) (1 : ℕ) := by
    simp [Decimal.Context.div]
  rw [hquotient, hnone]
  decide +kernel

/-- The stored pass rate and the text of a fresh division agree exactly when the
rate prints the same both ways. -/
theorem passRateText_iff (m : Metrics) :
    m.1.walkForwardPassRateText = decimalText m.1.walkForwardPassRate ↔ m.1.PassRatePrints := by
  obtain ⟨m, hbuilt⟩ := m
  obtain ⟨passed, hpassed⟩ := Int.eq_ofNat_of_zero_le hbuilt.walkForwardPassedFolds
  obtain ⟨folds, hfolds⟩ := Int.eq_ofNat_of_zero_le hbuilt.walkForwardFolds
  have hle : passed ≤ folds := by
    have hle := hbuilt.folds
    rw [hpassed, hfolds] at hle
    exact_mod_cast hle
  unfold walkForwardPassRateText walkForwardPassRate
    PromotionMetrics.PassRatePrints
  simp only [hpassed, hfolds, Int.toNat_natCast, Int.cast_natCast, Nat.cast_eq_zero]
  rcases Nat.eq_zero_or_pos passed with rfl | hpos
  · simp only [true_or, iff_true]
    split
    · decide +kernel
    · exact text_of_no_folds folds
  · have hfoldspos : 0 < folds := hpos.trans_le hle
    have hrate : (0 : ℚ) < (passed : ℚ) / folds :=
      div_pos (by exact_mod_cast hpos) (by exact_mod_cast hfoldspos)
    have hprints : (quotient 28 passed folds).scientific = _ ↔ _ :=
      quotient_scientific_iff (by norm_num) hpos hle
    simp only [hfoldspos.ne', if_false, decimalText_div hrate, String.ofList_inj, hprints,
      hpos.ne', false_or]
    rw [zpow_neg, ← one_div]
    rfl

/-- The metrics as they are read back: every decimal is rounded. -/
def PromotionMetrics.reread (m : PromotionMetrics) : PromotionMetrics :=
  { m with
    totalReturn := working.round m.totalReturn
    maxDrawdown := working.round m.maxDrawdown
    winRate := working.round m.winRate
    expectancy := working.round m.expectancy
    excessReturn := working.round m.excessReturn
    grossProfit := working.round m.grossProfit
    grossLoss := working.round m.grossLoss
    costStressedTotalReturn := working.round m.costStressedTotalReturn
    totalCosts := working.round m.totalCosts }

theorem PromotionMetrics.reread_eq_iff (m : PromotionMetrics) :
    m.reread = m ↔ ∀ x ∈ m.decimals, working.round x = x := by
  cases m
  simp only [decimals, List.forall_mem_cons, List.not_mem_nil, false_implies, implies_true,
    and_true, reread, mk.injEq]

theorem metricsFromSnapshot_asSnapshot (m : PromotionMetrics) :
    metricsFromSnapshot (some m.asSnapshot) = (do
      let metrics ← m.reread.new
      require (metrics.1.walkForwardPassRateText = decimalText m.walkForwardPassRate)
        "stored walk-forward pass rate is inconsistent"
      return some metrics) := by
  simp only [metricsFromSnapshot, asSnapshot, readDecimal_decimalText, ok_bind]
  rfl

/-- Metrics are read back exactly when the texts keep them. -/
theorem metricsFromSnapshot_iff (m : Metrics) :
    metricsFromSnapshot (some m.1.asSnapshot) = .ok (some m) ↔ m.1.Kept := by
  rw [metricsFromSnapshot_asSnapshot, bind_ok_iff]
  constructor
  · rintro ⟨metrics, hnew, hread⟩
    obtain ⟨hrate, hresult⟩ := require_bind_ok.mp hread
    obtain rfl := Option.some.inj (Except.ok.inj hresult)
    have hfields := new_fields hnew
    have hreread : metrics.1.reread = metrics.1 := hfields.symm
    exact ⟨(reread_eq_iff _).mp hreread, (passRateText_iff metrics).mp hrate⟩
  · intro hkept
    rw [(reread_eq_iff _).mpr hkept.decimals]
    refine ⟨m, m.new, ?_⟩
    rw [require_bind_ok]
    exact ⟨(passRateText_iff m).mpr hkept.passRate, rfl⟩

def Stripped (text : String) : Prop := strip text = text ∧ text ≠ ""

theorem decimalText_stripped (x : Decimal) : Stripped (decimalText x) :=
  ⟨strip_numeric (decimalText_numeric x), decimalText_ne_empty x⟩

theorem toString_stripped (z : ℤ) : Stripped (toString z) := by
  have hnat (n : ℕ) : ∀ c ∈ n.repr.toList, numeric c := by
    intro c hc
    rw [Nat.toList_repr] at hc
    exact Or.inl (Nat.isDigit_of_mem_toDigits (by norm_num) (by norm_num) hc)
  cases z with
  | ofNat n =>
    have htext : toString (Int.ofNat n) = n.repr := rfl
    rw [htext]
    exact ⟨strip_numeric (hnat n), Nat.repr_ne_empty⟩
  | negSucc n =>
    have htext : toString (Int.negSucc n) = "-" ++ (n + 1).repr := rfl
    rw [htext]
    refine ⟨strip_numeric ?_, by simp⟩
    intro c hc
    rw [String.toList_append] at hc
    rcases List.mem_append.mp hc with hc | hc
    · obtain rfl : c = '-' := by simpa using hc
      exact Or.inr (Or.inr rfl)
    · exact hnat (n + 1) c hc

/-- A check whose texts are all left alone by stripping. -/
def ThresholdCheck.Clean (check : ThresholdCheck) : Prop :=
  ∀ text ∈ [check.metric, check.observed, check.comparator, check.required], Stripped text

section Clean

variable {metric : String}

theorem clean_of {observed comparator required : String} {passed : Bool}
    (hmetric : Stripped metric) (hobserved : Stripped observed)
    (hcomparator : Stripped comparator) (hrequired : Stripped required) :
    (ThresholdCheck.mk metric observed comparator required passed).Clean := by
  intro text htext
  simp only [List.mem_cons, List.not_mem_nil, or_false] at htext
  rcases htext with rfl | rfl | rfl | rfl
  · exact hmetric
  · exact hobserved
  · exact hcomparator
  · exact hrequired

def checkTexts : List String :=
  [">=", "<=", "lossless", "undefined", "true", "false", "required", "not_required",
    "profit_factor", "total_return", "max_drawdown", "win_rate", "expectancy", "excess_return",
    "cost_stressed_total_return", "trade_count", "walk_forward_folds", "walk_forward_pass_rate",
    "data_quality_evidence", "survivorship_evidence", "deterministic"]

theorem checkTexts_stripped : ∀ text ∈ checkTexts, Stripped text := by
  simp only [Stripped]
  decide +kernel

theorem atLeast_stripped : Stripped ">=" := checkTexts_stripped _ (by simp [checkTexts])

theorem numericCheckAtLeast_clean (hmetric : Stripped metric) (observed required : Decimal) :
    (numericCheckAtLeast metric observed required).Clean :=
  clean_of hmetric (decimalText_stripped observed) atLeast_stripped
    (decimalText_stripped required)

theorem numericCheckAtMost_clean (hmetric : Stripped metric) (observed required : Decimal) :
    (numericCheckAtMost metric observed required).Clean :=
  clean_of hmetric (decimalText_stripped observed)
    (checkTexts_stripped _ (by simp [checkTexts])) (decimalText_stripped required)

theorem profitFactorCheck_clean (grossProfit grossLoss required : Decimal) :
    (profitFactorCheck grossProfit grossLoss required).Clean := by
  have hmetric : Stripped "profit_factor" := checkTexts_stripped _ (by simp [checkTexts])
  unfold profitFactorCheck
  split
  · refine clean_of hmetric ?_ atLeast_stripped (decimalText_stripped required)
    split
    · exact checkTexts_stripped _ (by simp [checkTexts])
    · exact checkTexts_stripped _ (by simp [checkTexts])
  · exact clean_of hmetric (decimalText_stripped _) atLeast_stripped
      (decimalText_stripped required)

theorem integerCheck_clean (hmetric : Stripped metric) (observed required : ℤ) :
    (integerCheck metric observed required).Clean :=
  clean_of hmetric (toString_stripped observed) atLeast_stripped (toString_stripped required)

theorem booleanCheck_clean (hmetric : Stripped metric) (observed required : Bool) :
    (booleanCheck metric observed required).Clean := by
  have hflag : ∀ flag : Bool, Stripped (toString flag) := by
    intro flag
    cases flag with
    | false => exact checkTexts_stripped "false" (by simp [checkTexts])
    | true => exact checkTexts_stripped "true" (by simp [checkTexts])
  refine clean_of hmetric (hflag observed) ?_ (hflag required)
  split
  · exact checkTexts_stripped _ (by simp [checkTexts])
  · exact checkTexts_stripped _ (by simp [checkTexts])

/-- The texts of an evaluation are left alone by stripping. -/
theorem thresholdChecks_clean (m : PromotionMetrics) (t : PromotionThresholds) :
    ∀ check ∈ thresholdChecks m t, check.Clean := by
  simp only [thresholdChecks, List.forall_mem_cons]
  refine ⟨numericCheckAtLeast_clean ?_ _ _, numericCheckAtMost_clean ?_ _ _,
    numericCheckAtLeast_clean ?_ _ _, numericCheckAtLeast_clean ?_ _ _,
    numericCheckAtLeast_clean ?_ _ _, profitFactorCheck_clean _ _ _,
    numericCheckAtLeast_clean ?_ _ _, integerCheck_clean ?_ _ _, integerCheck_clean ?_ _ _,
    numericCheckAtLeast_clean ?_ _ _, booleanCheck_clean ?_ _ _, booleanCheck_clean ?_ _ _,
    booleanCheck_clean ?_ _ _, List.forall_mem_nil _⟩ <;>
    exact checkTexts_stripped _ (by simp [checkTexts])

end Clean

theorem checkFromSnapshot_clean {check : ThresholdCheck} (h : check.Clean) :
    checkFromSnapshot check = .ok check := by
  simp only [ThresholdCheck.Clean, List.forall_mem_cons, List.not_mem_nil, false_implies,
    implies_true, and_true] at h
  obtain ⟨hmetric, hobserved, hcomparator, hrequired⟩ := h
  unfold checkFromSnapshot
  simp only [hmetric.1, hobserved.1, hcomparator.1, hrequired.1, require_bind_ok,
    List.forall_mem_cons, List.not_mem_nil, false_implies, implies_true, and_true]
  exact ⟨⟨hmetric.2, hobserved.2, hcomparator.2, hrequired.2⟩, rfl⟩

theorem thresholdFromSnapshot_asEvidence {evaluation : ThresholdEvaluation}
    (hhash : evaluation.metricsHash ≠ "")
    (h : ∃ metrics thresholds, evaluation = evaluateThresholds hash metrics thresholds) :
    thresholdFromSnapshot (some evaluation.asEvidence) = .ok (some evaluation) := by
  obtain ⟨metrics, thresholds, rfl⟩ := h
  have hchecks : (thresholdChecks metrics thresholds).mapM checkFromSnapshot =
      .ok (thresholdChecks metrics thresholds) :=
    mapM_eq_ok fun check hcheck =>
      checkFromSnapshot_clean (thresholdChecks_clean metrics thresholds check hcheck)
  unfold thresholdFromSnapshot
  simp only [ThresholdEvaluation.asEvidence, evaluateThresholds, hchecks, ok_bind, require_bind_ok]
  exact ⟨⟨hhash, by simp [thresholdChecks], trivial, trivial⟩, rfl⟩

theorem mapM_new (evidence : List Evidence) :
    (evidence.map (·.1)).mapM PromotionEvidence.new = .ok evidence := by
  induction evidence with
  | nil => rfl
  | cons item rest ih =>
    rw [List.map_cons, List.mapM_cons, item.new, ih]
    rfl

/-- The row of a version reads back as that version exactly when the texts of its
metrics keep them. -/
theorem stored_promotion_reloads_iff (hash : MetricsSnapshot → String) {p : StrategyPromotion}
    {earlier : List StrategyPromotion} (h : History hash (p :: earlier))
    {row : KAssetStrategyPromotion} (hrow : row.Registers p) :
    promotionFromRow hash (applyPromotion row p) = .ok p ↔ ∀ m ∈ p.metrics, m.1.Kept := by
  have hlineage := h.lineage
  have hmetrics : metricsFromSnapshot (p.metrics.map (fun m => m.1.asSnapshot)) = .ok p.metrics ↔
      ∀ m ∈ p.metrics, m.1.Kept := by
    cases p.metrics with
    | none => simp [metricsFromSnapshot]
    | some m => simpa using metricsFromSnapshot_iff m
  have hevaluation : thresholdFromSnapshot (p.thresholdEvaluation.map (·.asEvidence)) =
      .ok p.thresholdEvaluation := by
    cases hset : p.thresholdEvaluation with
    | none => rfl
    | some evaluation =>
      obtain ⟨hhash, hform⟩ := hlineage.evaluation evaluation hset
      exact thresholdFromSnapshot_asEvidence hhash hform
  rw [← hmetrics]
  simp only [promotionFromRow, applyPromotion, PromotionState.ofValue_value, ok_bind, hevaluation,
    mapM_new, hrow.identity.1, hrow.identity.2, hrow.trust.1, hrow.trust.2.1, hrow.trust.2.2.1,
    hrow.trust.2.2.2, hrow.createdAt]
  rw [bind_ok_iff]
  constructor
  · rintro ⟨metrics, hread, hinit⟩
    obtain ⟨-, -, -, hkept⟩ := postInit_kept hinit
    rw [hread]
    exact congrArg Except.ok hkept.symm
  · intro hread
    exact ⟨p.metrics, hread, hlineage.valid.postInit⟩

def threeFolds : Metrics :=
  let figures : PromotionMetrics :=
    ⟨3 / 10, 1 / 10, 1 / 2, 1 / 100, 1 / 10, 100, 50, 1 / 10, 5, 40, 4, 3, true, true, true,
      ["run-1"]⟩
  ⟨figures, PromotionMetrics.postInit_built (show figures.postInit = .ok figures by
    decide +kernel)⟩

/-- An approval over three folds. -/
theorem stored_promotion_reloads_iff_three_folds : ∃ p earlier,
    History (fun _ => "a1") (p :: earlier) ∧ p.state = .paperApproved ∧
      promotionFromRow (fun _ => "a1") (applyPromotion (draftRow p) p) = .ok p := by
  have hrun : ((promoted (fun _ => "a1")
      [("BACKTESTED", transitionAt 1 (some threeFolds)),
        ("PAPER_APPROVED", transitionAt 2 none)]).toOption.map fun versions =>
          versions.map fun p => (p.state, p.metrics)) =
        some [(.paperApproved, some threeFolds), (.backtested, some threeFolds),
          (.draft, none)] := by
    decide +kernel
  obtain ⟨versions, hversions, hstates⟩ := Option.map_eq_some_iff.mp hrun
  have hhistory := History.promoted (eq_ok_of_toOption hversions)
  obtain ⟨p, earlier, rfl, hp, -⟩ := List.map_eq_cons_iff.mp hstates
  obtain ⟨hstate, hmetrics⟩ := Prod.mk.inj hp
  have hkept : ∀ m ∈ p.metrics, m.1.Kept := by
    intro m hm
    rw [hmetrics] at hm
    obtain rfl := Option.mem_some_iff.mp hm
    refine ⟨by decide +kernel, Or.inr ⟨?_, Or.inl (by decide +kernel)⟩⟩
    norm_num [threeFolds]
  exact ⟨p, earlier, hhistory, hstate,
    (stored_promotion_reloads_iff (fun _ => "a1") hhistory (draftRow_registers p)).mpr hkept⟩

/-- With 17 of 23 folds passed the approved promotion is stored with the pass
rate `0.739130434782608695652173913`, and the fresh division prints one more
digit, a zero. -/
theorem seventeen_folds_unreadable :
    ¬ ∀ (hash : MetricsSnapshot → String) (p : StrategyPromotion)
      (earlier : List StrategyPromotion) (row : KAssetStrategyPromotion),
      History hash (p :: earlier) → row.Registers p →
        promotionFromRow hash (applyPromotion row p) = .ok p := by
  intro hall
  have hrun : ((promoted (fun _ => "a1")
      [("BACKTESTED", transitionAt 1 (some seventeenFolds)),
        ("PAPER_APPROVED", transitionAt 2 none)]).toOption.map fun versions =>
          versions.map fun p =>
            (promotionFromRow (fun _ => "a1") (applyPromotion (draftRow p) p)).toOption.isSome) =
        some [false, false, true] := by
    decide +kernel
  obtain ⟨versions, hversions, hreads⟩ := Option.map_eq_some_iff.mp hrun
  have hhistory := History.promoted (eq_ok_of_toOption hversions)
  obtain ⟨p, earlier, rfl, hread, -⟩ := List.map_eq_cons_iff.mp hreads
  rw [hall _ p earlier _ hhistory (draftRow_registers p)] at hread
  cases hread

end KAssetTrader.Promotion
