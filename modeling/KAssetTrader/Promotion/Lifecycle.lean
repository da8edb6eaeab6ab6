import KAssetTrader.Promotion.Metrics

/-!
The promotion of one strategy version: its record, the checks of the record's
constructor, and the transitions from draft to retirement. A transition first
decides, then builds a record from the current one; the constructor checks that
record again.
-/

namespace KAssetTrader.Promotion

open Unicode (strip)
open Checked

def utc (value : Datetime) (fieldName : String) : Except PromotionError Instant :=
  match value with
  | .naive _ => .error (.invalid (fieldName ++ " must be timezone-aware"))
  | .aware instant => .ok instant

structure StrategyPromotion where
  strategyKey : String
  version : String
  state : PromotionState
  metrics : Option Metrics
  metricsHash : Option String
  thresholdEvaluation : Option ThresholdEvaluation
  evidence : List Evidence
  promotionCandidateId : Option ℤ
  strategyArtifactFingerprint : Option String
  sourceCommit : Option String
  evidenceSchemaVersion : Option String
  approvedAt : Option Instant
  suspendedAt : Option Instant
  retiredAt : Option Instant
  createdAt : Instant
  updatedAt : Instant

/-- `re.fullmatch` of lowercase hexadecimal digits, of one of these lengths. -/
def isHex (lengths : List ℕ) (text : String) : Bool :=
  text.toList.all (fun c => c.isDigit || ('a' ≤ c && c ≤ 'f')) &&
    decide (text.toList.length ∈ lengths)

namespace StrategyPromotion

/-- The part of `__post_init__` on the trust bundle. It returns the evidence
schema version, stripped. -/
def checkTrust (p : StrategyPromotion) : Except PromotionError (Option String) := do
  let bundle := [p.promotionCandidateId.isSome, p.strategyArtifactFingerprint.isSome,
    p.sourceCommit.isSome, p.evidenceSchemaVersion.isSome]
  require (bundle.any id = true → bundle.all id = true)
    "promotion candidate trust bundle must be complete"
  match p.promotionCandidateId with
  | none => return p.evidenceSchemaVersion
  | some candidate =>
    require (1 ≤ candidate) "promotion_candidate_id must be a positive integer"
    require (isHex [64] (p.strategyArtifactFingerprint.getD "None") = true)
      "strategy_artifact_fingerprint must be lowercase 64-hex"
    require (isHex [40, 64] (p.sourceCommit.getD "None") = true)
      "source_commit must be a full lowercase Git object id"
    let evidenceSchema := strip (p.evidenceSchemaVersion.getD "None")
    require (evidenceSchema ≠ "") "evidence_schema_version is required"
    return some evidenceSchema

def latestLifecycle (p : StrategyPromotion) : Instant :=
  (p.retiredAt.or (p.suspendedAt.or p.approvedAt)).getD p.createdAt

def validateStateInvariants (p : StrategyPromotion) : Except PromotionError Unit :=
  if p.state = .draft then do
    require (p.metrics = none ∧ p.metricsHash = none) "DRAFT cannot contain backtest metrics"
    require (p.approvedAt = none ∧ p.suspendedAt = none ∧ p.retiredAt = none ∧
      p.thresholdEvaluation = none) "DRAFT cannot contain lifecycle timestamps"
  else do
    require (p.state ∈ [PromotionState.backtested, .paperApproved, .paperSuspended] →
      p.metrics ≠ none ∧ p.metricsHash ≠ none)
      (p.state.value ++ " requires metrics and metrics_hash")
    require (∀ evaluation ∈ p.thresholdEvaluation,
      p.metricsHash = some evaluation.metricsHash)
      "threshold evaluation does not match the metrics snapshot"
    require (∀ evaluation ∈ p.thresholdEvaluation,
      p.state ∈ [PromotionState.paperApproved, .paperSuspended] → evaluation.passed = true)
      "approved promotion requires passed thresholds"
    require (p.state = .backtested → p.approvedAt = none ∧ p.suspendedAt = none ∧
      p.retiredAt = none ∧ p.thresholdEvaluation = none)
      "BACKTESTED cannot contain approval lifecycle fields"
    require (p.state = .paperApproved → p.approvedAt ≠ none ∧ p.thresholdEvaluation ≠ none)
      "PAPER_APPROVED requires approval evidence"
    require (p.state = .paperApproved → p.suspendedAt = none ∧ p.retiredAt = none)
      "PAPER_APPROVED cannot be suspended or retired"
    require (p.state = .paperSuspended → p.approvedAt ≠ none ∧ p.suspendedAt ≠ none ∧
      p.thresholdEvaluation ≠ none) "PAPER_SUSPENDED requires prior approval and suspension"
    require (p.state = .paperSuspended → p.retiredAt = none) "PAPER_SUSPENDED cannot be retired"
    require (p.retiredAt ≠ none → p.state = .retired) "retired_at is valid only for RETIRED"
    require (p.state = .retired → p.retiredAt ≠ none) "RETIRED requires retired_at"
    require (p.suspendedAt ≠ none → p.approvedAt ≠ none) "suspension requires prior approval"
    require (∀ approved ∈ p.approvedAt, ∀ suspended ∈ p.suspendedAt, approved ≤ suspended)
      "suspended_at cannot precede approved_at"
    require (p.createdAt ≤ p.latestLifecycle ∧ p.latestLifecycle ≤ p.updatedAt)
      "lifecycle timestamps must be monotonic"

/-- The part of `__post_init__` on the metrics and their hash. -/
def checkMetricsHash (hash : MetricsSnapshot → String) (p : StrategyPromotion) :
    Except PromotionError Unit :=
  match p.metrics with
  | none => require (p.metricsHash = none) "metrics_hash requires metrics"
  | some metrics =>
    require (p.metricsHash = some (hash metrics.1.asSnapshot))
      "metrics_hash does not match the metrics snapshot"

/-- `StrategyPromotion.__post_init__`. Timestamps are already on the time line. -/
def postInit (hash : MetricsSnapshot → String) (p : StrategyPromotion) :
    Except PromotionError StrategyPromotion := do
  let strategyKey := strip p.strategyKey
  let version := strip p.version
  require (strategyKey ≠ "" ∧ version ≠ "") "strategy_key and version are required"
  let evidenceSchemaVersion ← p.checkTrust
  require (p.createdAt ≤ p.updatedAt) "updated_at cannot precede created_at"
  p.checkMetricsHash hash
  let built := { p with strategyKey, version, evidenceSchemaVersion }
  built.validateStateInvariants
  return built

end StrategyPromotion

def allowedTransitions : PromotionState → List PromotionState
  | .draft => [.backtested, .retired]
  | .backtested => [.paperApproved, .retired]
  | .paperApproved => [.paperSuspended, .retired]
  | .paperSuspended => [.retired]
  | .retired => []

variable (hash : MetricsSnapshot → String)

def createDraft (strategyKey version : String) (at_ : Datetime) (evidence : List Evidence)
    (promotionCandidateId : Option ℤ) (strategyArtifactFingerprint sourceCommit
      evidenceSchemaVersion : Option String) : Except PromotionError StrategyPromotion := do
  let timestamp ← utc at_ "at"
  StrategyPromotion.postInit hash
    { strategyKey, version, state := .draft, metrics := none, metricsHash := none,
      thresholdEvaluation := none, evidence, promotionCandidateId, strategyArtifactFingerprint,
      sourceCommit, evidenceSchemaVersion, approvedAt := none, suspendedAt := none,
      retiredAt := none, createdAt := timestamp, updatedAt := timestamp }

/-- The arguments of a transition besides the promotion and its target. -/
structure TransitionArgs where
  strategyKey : String
  version : String
  at_ : Datetime
  metrics : Option Metrics := none
  thresholds : PromotionThresholds := defaultPromotionThresholds
  evidence : List Evidence := []

def approvalEvidence (metricsHash : String) : Except PromotionError (List Evidence) := do
  let snapshot ← PromotionEvidence.new
    ⟨"METRICS_SNAPSHOT_HASH", "Approved metrics snapshot SHA-256.", metricsHash⟩
  let evaluation ← PromotionEvidence.new
    ⟨"THRESHOLD_EVALUATION", "Every configured PAPER promotion threshold passed.", metricsHash⟩
  return [snapshot, evaluation]

/-- The decision of `transition_promotion`: the arguments of its `replace`. -/
def transitionRecord (current : StrategyPromotion) (target : String) (args : TransitionArgs) :
    Except PromotionError StrategyPromotion := do
  raiseUnless (strip args.strategyKey = current.strategyKey ∧ strip args.version = current.version)
    (.identityMismatch "a promotion transition cannot change strategy_key or version")
  let targetState ← PromotionState.ofValue target
  raiseUnless (targetState ∈ allowedTransitions current.state)
    (.illegalTransition ("transition " ++ current.state.value ++ "->" ++ targetState.value ++
      " is not allowed"))
  let timestamp ← utc args.at_ "at"
  require (current.updatedAt ≤ timestamp) "transition time cannot precede updated_at"
  match targetState with
  | .backtested =>
    match args.metrics with
    | none => throw (.invalid "BACKTESTED requires a metrics snapshot")
    | some metrics =>
      require (args.evidence ≠ []) "BACKTESTED requires evidence"
      return { current with
        state := .backtested
        metrics := some metrics
        metricsHash := some (hash metrics.1.asSnapshot)
        evidence := current.evidence ++ args.evidence
        updatedAt := timestamp }
  | .paperApproved =>
    match args.metrics.or current.metrics with
    | none => throw (.invalid "PAPER_APPROVED requires BACKTESTED metrics")
    | some metrics =>
      let metricsHash := hash metrics.1.asSnapshot
      require (some metricsHash = current.metricsHash)
        "approval metrics must match the BACKTESTED snapshot exactly"
      let evaluation := evaluateThresholds hash metrics.1 args.thresholds
      raiseUnless (evaluation.passed = true) (.thresholdNotMet evaluation)
      let generated ← approvalEvidence evaluation.metricsHash
      return { current with
        state := .paperApproved
        metrics := some metrics
        metricsHash := some metricsHash
        thresholdEvaluation := some evaluation
        evidence := current.evidence ++ args.evidence ++ generated
        approvedAt := some timestamp
        updatedAt := timestamp }
  | .paperSuspended =>
    require (args.evidence ≠ []) "PAPER_SUSPENDED requires evidence"
    return { current with
      state := .paperSuspended
      evidence := current.evidence ++ args.evidence
      suspendedAt := some timestamp
      updatedAt := timestamp }
  | targetState =>
    require (args.evidence ≠ []) (targetState.value ++ " requires evidence")
    return { current with
      state := .retired
      evidence := current.evidence ++ args.evidence
      retiredAt := some timestamp
      updatedAt := timestamp }

def transitionPromotion (current : StrategyPromotion) (target : String) (args : TransitionArgs) :
    Except PromotionError StrategyPromotion := do
  let replaced ← transitionRecord hash current target args
  replaced.postInit hash

end KAssetTrader.Promotion
