import KAssetTrader.Promotion.Lifecycle

/-!
The history of one promotion. An accepted transition is one of four moves; each
move builds a record that the constructor accepts unchanged, and carries the
invariant of histories from the versions before it to the new one.
-/

namespace KAssetTrader.Promotion

open Unicode (strip)
open Checked

variable {hash : MetricsSnapshot → String}

/-- What `_validate_state_invariants` asks of a promotion beyond its draft. -/
structure StateInvariants (p : StrategyPromotion) : Prop where
  measured : p.state ∈ [PromotionState.backtested, .paperApproved, .paperSuspended] →
    p.metrics ≠ none ∧ p.metricsHash ≠ none
  evaluated : ∀ evaluation ∈ p.thresholdEvaluation, p.metricsHash = some evaluation.metricsHash
  passed : ∀ evaluation ∈ p.thresholdEvaluation,
    p.state ∈ [PromotionState.paperApproved, .paperSuspended] → evaluation.passed = true
  backtested : p.state = .backtested → p.approvedAt = none ∧ p.suspendedAt = none ∧
    p.retiredAt = none ∧ p.thresholdEvaluation = none
  approvedSet : p.state = .paperApproved → p.approvedAt ≠ none ∧ p.thresholdEvaluation ≠ none
  approvedOnly : p.state = .paperApproved → p.suspendedAt = none ∧ p.retiredAt = none
  suspendedSet : p.state = .paperSuspended → p.approvedAt ≠ none ∧ p.suspendedAt ≠ none ∧
    p.thresholdEvaluation ≠ none
  suspendedOnly : p.state = .paperSuspended → p.retiredAt = none
  retiredOnly : p.retiredAt ≠ none → p.state = .retired
  retiredSet : p.state = .retired → p.retiredAt ≠ none
  suspension : p.suspendedAt ≠ none → p.approvedAt ≠ none
  ordered : ∀ approved ∈ p.approvedAt, ∀ suspended ∈ p.suspendedAt, approved ≤ suspended
  monotonic : p.createdAt ≤ p.latestLifecycle ∧ p.latestLifecycle ≤ p.updatedAt

structure DraftInvariants (p : StrategyPromotion) : Prop where
  unmeasured : p.metrics = none ∧ p.metricsHash = none
  untouched : p.approvedAt = none ∧ p.suspendedAt = none ∧ p.retiredAt = none ∧
    p.thresholdEvaluation = none

theorem validateStateInvariants_ok_iff (p : StrategyPromotion) :
    p.validateStateInvariants = .ok () ↔
      if p.state = .draft then DraftInvariants p else StateInvariants p := by
  unfold StrategyPromotion.validateStateInvariants
  split
  · rw [require_bind_ok, require_eq_ok]
    exact ⟨fun h => ⟨h.1, h.2⟩, fun h => ⟨h.unmeasured, h.untouched⟩⟩
  · simp only [require_bind_ok, require_eq_ok]
    constructor
    · rintro ⟨h1, h2, h3, h4, h5, h6, h7, h8, h9, h10, h11, h12, h13⟩
      exact ⟨h1, h2, h3, h4, h5, h6, h7, h8, h9, h10, h11, h12, h13⟩
    · rintro ⟨h1, h2, h3, h4, h5, h6, h7, h8, h9, h10, h11, h12, h13⟩
      exact ⟨h1, h2, h3, h4, h5, h6, h7, h8, h9, h10, h11, h12, h13⟩

/-- A record that the constructor returns unchanged. -/
structure Valid (hash : MetricsSnapshot → String) (p : StrategyPromotion) : Prop where
  strategyKey : strip p.strategyKey = p.strategyKey ∧ p.strategyKey ≠ ""
  version : strip p.version = p.version ∧ p.version ≠ ""
  trust : p.checkTrust = .ok p.evidenceSchemaVersion
  updated : p.createdAt ≤ p.updatedAt
  metricsHash : p.metricsHash = p.metrics.map (fun m => hash m.1.asSnapshot)
  invariants : p.validateStateInvariants = .ok ()

theorem checkTrust_idem {p : StrategyPromotion} {schema : Option String}
    (h : p.checkTrust = .ok schema) (key version : String) :
    StrategyPromotion.checkTrust
      { p with strategyKey := key, version := version, evidenceSchemaVersion := schema } =
        .ok schema := by
  unfold StrategyPromotion.checkTrust at h ⊢
  obtain ⟨hbundle, h⟩ := require_bind_ok.mp h
  rw [require_bind_ok]
  cases hcandidate : p.promotionCandidateId with
  | none =>
    simp only [hcandidate] at h hbundle ⊢
    cases h
    exact ⟨hbundle, rfl⟩
  | some candidate =>
    simp only [hcandidate, require_bind_ok] at h hbundle ⊢
    obtain ⟨hpositive, hfingerprint, hcommit, hschema, hresult⟩ := h
    cases hresult
    have hall := hbundle (by simp)
    simp only [Option.isSome_some, List.all_cons, id, Bool.true_and, List.all_nil,
      Bool.and_true, Bool.and_eq_true] at hall
    simp only [Option.getD_some, Unicode.strip_strip]
    refine ⟨fun _ => ?_, hpositive, hfingerprint, hcommit, hschema, rfl⟩
    simp [hall.1, hall.2.1]

theorem checkMetricsHash_ok_iff (p : StrategyPromotion) :
    p.checkMetricsHash hash = .ok () ↔
      p.metricsHash = p.metrics.map (fun m => hash m.1.asSnapshot) := by
  unfold StrategyPromotion.checkMetricsHash
  cases p.metrics with
  | none => exact require_eq_ok
  | some metrics => exact require_eq_ok

theorem postInit_valid {p q : StrategyPromotion} (h : p.postInit hash = .ok q) :
    Valid hash q := by
  unfold StrategyPromotion.postInit at h
  obtain ⟨⟨hkey, hversion⟩, h⟩ := require_bind_ok.mp h
  obtain ⟨schema, hschema, h⟩ := bind_ok_iff.mp h
  obtain ⟨hupdated, h⟩ := require_bind_ok.mp h
  obtain ⟨_, hhash, h⟩ := bind_ok_iff.mp h
  obtain ⟨_, hinvariants, hresult⟩ := bind_ok_iff.mp h
  cases hresult
  exact ⟨⟨Unicode.strip_strip _, hkey⟩, ⟨Unicode.strip_strip _, hversion⟩,
    checkTrust_idem hschema _ _, hupdated, (checkMetricsHash_ok_iff p).mp hhash, hinvariants⟩

theorem postInit_kept {p q : StrategyPromotion} (h : p.postInit hash = .ok q) :
    q.state = p.state ∧ q.createdAt = p.createdAt ∧ q.updatedAt = p.updatedAt ∧
      q.metrics = p.metrics := by
  unfold StrategyPromotion.postInit at h
  obtain ⟨-, h⟩ := require_bind_ok.mp h
  obtain ⟨schema, -, h⟩ := bind_ok_iff.mp h
  obtain ⟨-, h⟩ := require_bind_ok.mp h
  obtain ⟨_, -, h⟩ := bind_ok_iff.mp h
  obtain ⟨_, -, hresult⟩ := bind_ok_iff.mp h
  cases hresult
  exact ⟨rfl, rfl, rfl, rfl⟩

theorem Valid.postInit {p : StrategyPromotion} (h : Valid hash p) :
    p.postInit hash = .ok p := by
  unfold StrategyPromotion.postInit
  rw [require_bind_ok, h.strategyKey.1, h.version.1]
  refine ⟨⟨h.strategyKey.2, h.version.2⟩, ?_⟩
  rw [h.trust, ok_bind, require_bind_ok]
  refine ⟨h.updated, ?_⟩
  rw [(checkMetricsHash_ok_iff p).mpr h.metricsHash, ok_bind]
  dsimp only
  rw [h.invariants, ok_bind]
  rfl

inductive Moves (hash : MetricsSnapshot → String) (current : StrategyPromotion)
    (args : TransitionArgs) : StrategyPromotion → Prop
  | backtested {metrics : Metrics} {time : Instant} : current.state = .draft →
      current.updatedAt ≤ time →
      Moves hash current args { current with
        state := .backtested
        metrics := some metrics
        metricsHash := some (hash metrics.1.asSnapshot)
        evidence := current.evidence ++ args.evidence
        updatedAt := time }
  | approved {metrics : Metrics} {time : Instant} {generated : List Evidence} :
      current.state = .backtested → current.updatedAt ≤ time →
      some (hash metrics.1.asSnapshot) = current.metricsHash →
      (evaluateThresholds hash metrics.1 args.thresholds).passed = true →
      approvalEvidence (hash metrics.1.asSnapshot) = .ok generated →
      Moves hash current args { current with
        state := .paperApproved
        metrics := some metrics
        metricsHash := some (hash metrics.1.asSnapshot)
        thresholdEvaluation := some (evaluateThresholds hash metrics.1 args.thresholds)
        evidence := current.evidence ++ args.evidence ++ generated
        approvedAt := some time
        updatedAt := time }
  | suspended {time : Instant} : current.state = .paperApproved → current.updatedAt ≤ time →
      Moves hash current args { current with
        state := .paperSuspended
        evidence := current.evidence ++ args.evidence
        suspendedAt := some time
        updatedAt := time }
  | retired {time : Instant} : current.state ≠ .retired → current.updatedAt ≤ time →
      Moves hash current args { current with
        state := .retired
        evidence := current.evidence ++ args.evidence
        retiredAt := some time
        updatedAt := time }

theorem allowed_from {state target : PromotionState} (h : target ∈ allowedTransitions state) :
    (target = .backtested ∧ state = .draft) ∨ (target = .paperApproved ∧ state = .backtested) ∨
      (target = .paperSuspended ∧ state = .paperApproved) ∨
      (target = .retired ∧ state ≠ .retired) := by
  cases state <;> cases target <;> simp_all [allowedTransitions]

theorem transitionRecord_moves {current next : StrategyPromotion} {target : String}
    {args : TransitionArgs} (h : transitionRecord hash current target args = .ok next) :
    Moves hash current args next := by
  unfold transitionRecord at h
  obtain ⟨-, h⟩ := require_bind_ok.mp h
  obtain ⟨state, -, h⟩ := bind_ok_iff.mp h
  obtain ⟨hallowed, h⟩ := require_bind_ok.mp h
  obtain ⟨time, -, h⟩ := bind_ok_iff.mp h
  obtain ⟨htime, h⟩ := require_bind_ok.mp h
  rcases allowed_from hallowed with ⟨rfl, hstate⟩ | ⟨rfl, hstate⟩ | ⟨rfl, hstate⟩ | ⟨rfl, hstate⟩
  · cases hmetrics : args.metrics with
    | none =>
      simp only [hmetrics] at h
      cases h
    | some metrics =>
      simp only [hmetrics] at h
      obtain ⟨-, hresult⟩ := require_bind_ok.mp h
      cases hresult
      exact .backtested hstate htime
  · cases hmetrics : args.metrics.or current.metrics with
    | none =>
      simp only [hmetrics] at h
      cases h
    | some metrics =>
      simp only [hmetrics] at h
      obtain ⟨hhash, h⟩ := require_bind_ok.mp h
      obtain ⟨hpassed, h⟩ := require_bind_ok.mp h
      obtain ⟨generated, hgenerated, hresult⟩ := bind_ok_iff.mp h
      cases hresult
      exact .approved hstate htime hhash hpassed hgenerated
  · obtain ⟨-, hresult⟩ := require_bind_ok.mp h
    cases hresult
    exact .suspended hstate htime
  · obtain ⟨-, hresult⟩ := require_bind_ok.mp h
    cases hresult
    exact .retired hstate htime

section Kept

variable {current next : StrategyPromotion} {args : TransitionArgs}

variable {p : StrategyPromotion} {metrics : Metrics} {time : Instant} {target : String}

theorem Valid.draftInvariants (h : Valid hash p) (hstate : p.state = .draft) :
    DraftInvariants p := by
  have hinvariants := (validateStateInvariants_ok_iff p).mp h.invariants
  rwa [if_pos hstate] at hinvariants

theorem Valid.stateInvariants (h : Valid hash p) (hstate : p.state ≠ .draft) :
    StateInvariants p := by
  have hinvariants := (validateStateInvariants_ok_iff p).mp h.invariants
  rwa [if_neg hstate] at hinvariants

theorem stateInvariants_ok (hstate : p.state ≠ .draft) (h : StateInvariants p) :
    p.validateStateInvariants = .ok () := by
  rw [validateStateInvariants_ok_iff, if_neg hstate]
  exact h

private theorem backtested_valid (hstate : current.state = .draft)
    (htime : current.updatedAt ≤ time) (hvalid : Valid hash current) : Valid hash { current with
      state := .backtested
      metrics := some metrics
      metricsHash := some (hash metrics.1.asSnapshot)
      evidence := current.evidence ++ args.evidence
      updatedAt := time } := by
  have htimes := hvalid.updated.trans htime
  obtain ⟨happroved, hsuspended, hretired, hevaluation⟩ :=
    (hvalid.draftInvariants hstate).untouched
  refine ⟨hvalid.strategyKey, hvalid.version, hvalid.trust, htimes, rfl, ?_⟩
  apply stateInvariants_ok
  · simp
  · constructor <;>
      simp [happroved, hsuspended, hretired, hevaluation, StrategyPromotion.latestLifecycle,
        htimes]

private theorem approved_valid {generated : List Evidence} (hstate : current.state = .backtested)
    (htime : current.updatedAt ≤ time)
    (hpassed : (evaluateThresholds hash metrics.1 args.thresholds).passed = true)
    (hvalid : Valid hash current) : Valid hash { current with
      state := .paperApproved
      metrics := some metrics
      metricsHash := some (hash metrics.1.asSnapshot)
      thresholdEvaluation := some (evaluateThresholds hash metrics.1 args.thresholds)
      evidence := current.evidence ++ args.evidence ++ generated
      approvedAt := some time
      updatedAt := time } := by
  have htimes := hvalid.updated.trans htime
  have hne : current.state ≠ .draft := by
    rw [hstate]
    decide
  obtain ⟨-, hsuspended, hretired, -⟩ := (hvalid.stateInvariants hne).backtested hstate
  refine ⟨hvalid.strategyKey, hvalid.version, hvalid.trust, htimes, rfl, ?_⟩
  apply stateInvariants_ok
  · simp
  · constructor <;>
      simp [hsuspended, hretired, hpassed, StrategyPromotion.latestLifecycle, htimes]
    rfl

private theorem suspended_valid (hstate : current.state = .paperApproved)
    (htime : current.updatedAt ≤ time) (hvalid : Valid hash current) : Valid hash { current with
      state := .paperSuspended
      evidence := current.evidence ++ args.evidence
      suspendedAt := some time
      updatedAt := time } := by
  have htimes := hvalid.updated.trans htime
  have hne : current.state ≠ .draft := by
    rw [hstate]
    decide
  have hkept := hvalid.stateInvariants hne
  have hmeasured := hkept.measured (by simp [hstate])
  obtain ⟨happroved, hevaluation⟩ := hkept.approvedSet hstate
  obtain ⟨hsuspended, hretired⟩ := hkept.approvedOnly hstate
  have hlatest : current.approvedAt = some current.latestLifecycle := by
    obtain ⟨approved, happroved⟩ := Option.ne_none_iff_exists'.mp happroved
    simp [StrategyPromotion.latestLifecycle, hsuspended, hretired, happroved]
  have hpassed : ∀ evaluation ∈ current.thresholdEvaluation, evaluation.passed = true :=
    fun evaluation hin => hkept.passed evaluation hin (by simp [hstate])
  have hordered : ∀ approved ∈ current.approvedAt, approved ≤ time := by
    intro approved happroved
    rw [hlatest, Option.mem_some_iff] at happroved
    rw [← happroved]
    exact hkept.monotonic.2.trans htime
  refine ⟨hvalid.strategyKey, hvalid.version, hvalid.trust, htimes, hvalid.metricsHash, ?_⟩
  apply stateInvariants_ok
  · simp
  · exact
      { measured := fun _ => hmeasured
        evaluated := hkept.evaluated
        passed := fun evaluation hin _ => hpassed evaluation hin
        backtested := by simp
        approvedSet := by simp
        approvedOnly := by simp
        suspendedSet := fun _ => ⟨happroved, by simp, hevaluation⟩
        suspendedOnly := fun _ => hretired
        retiredOnly := fun h => absurd hretired h
        retiredSet := by simp
        suspension := fun _ => happroved
        ordered := by simpa using hordered
        monotonic := by simp [StrategyPromotion.latestLifecycle, hretired, htimes] }

private theorem retired_valid (htime : current.updatedAt ≤ time) (hvalid : Valid hash current) :
    Valid hash { current with
      state := .retired
      evidence := current.evidence ++ args.evidence
      retiredAt := some time
      updatedAt := time } := by
  have htimes := hvalid.updated.trans htime
  refine ⟨hvalid.strategyKey, hvalid.version, hvalid.trust, htimes, hvalid.metricsHash, ?_⟩
  apply stateInvariants_ok
  · simp
  by_cases hstate : current.state = .draft
  · obtain ⟨happroved, hsuspended, -, hevaluation⟩ := (hvalid.draftInvariants hstate).untouched
    constructor <;>
      simp [happroved, hsuspended, hevaluation, StrategyPromotion.latestLifecycle, htimes]
  · have hkept := hvalid.stateInvariants hstate
    exact
      { measured := by simp
        evaluated := hkept.evaluated
        passed := by simp
        backtested := by simp
        approvedSet := by simp
        approvedOnly := by simp
        suspendedSet := by simp
        suspendedOnly := by simp
        retiredOnly := by simp
        retiredSet := by simp
        suspension := hkept.suspension
        ordered := hkept.ordered
        monotonic := by simp [StrategyPromotion.latestLifecycle, htimes] }

/-- Every move builds a record that the constructor accepts unchanged. -/
theorem Moves.valid (h : Moves hash current args next) (hvalid : Valid hash current) :
    Valid hash next := by
  cases h with
  | backtested hstate htime => exact backtested_valid hstate htime hvalid
  | approved hstate htime _ hpassed _ => exact approved_valid hstate htime hpassed hvalid
  | suspended hstate htime => exact suspended_valid hstate htime hvalid
  | retired _ htime => exact retired_valid htime hvalid

theorem transitionPromotion_of_record (hvalid : Valid hash current)
    (h : transitionRecord hash current target args = .ok next) :
    transitionPromotion hash current target args = .ok next := by
  unfold transitionPromotion
  rw [h, ok_bind]
  exact ((transitionRecord_moves h).valid hvalid).postInit

theorem transitionPromotion_moves (hvalid : Valid hash current)
    (h : transitionPromotion hash current target args = .ok next) :
    Moves hash current args next := by
  obtain ⟨record, hrecord, hinit⟩ := bind_ok_iff.mp h
  have hmoves := transitionRecord_moves hrecord
  cases (hmoves.valid hvalid).postInit.symm.trans hinit
  exact hmoves

end Kept

inductive History (hash : MetricsSnapshot → String) : List StrategyPromotion → Prop
  | draft {strategyKey version : String} {at_ : Datetime} {evidence : List Evidence}
      {promotionCandidateId : Option ℤ}
      {strategyArtifactFingerprint sourceCommit evidenceSchemaVersion : Option String}
      {p : StrategyPromotion} :
      createDraft hash strategyKey version at_ evidence promotionCandidateId
        strategyArtifactFingerprint sourceCommit evidenceSchemaVersion = .ok p →
      History hash [p]
  | transition {p next : StrategyPromotion} {earlier : List StrategyPromotion} {target : String}
      {args : TransitionArgs} : History hash (p :: earlier) →
      transitionPromotion hash p target args = .ok next → History hash (next :: p :: earlier)

/-- What stays, only grows or only moves on from one version to a later one. -/
structure Follows (earlier later : StrategyPromotion) : Prop where
  identity : later.strategyKey = earlier.strategyKey ∧ later.version = earlier.version
  trust : later.promotionCandidateId = earlier.promotionCandidateId ∧
    later.strategyArtifactFingerprint = earlier.strategyArtifactFingerprint ∧
    later.sourceCommit = earlier.sourceCommit ∧
    later.evidenceSchemaVersion = earlier.evidenceSchemaVersion
  evidence : earlier.evidence <+: later.evidence
  createdAt : later.createdAt = earlier.createdAt
  updatedAt : earlier.updatedAt ≤ later.updatedAt
  approvedAt : ∀ time ∈ earlier.approvedAt, later.approvedAt = some time
  suspendedAt : ∀ time ∈ earlier.suspendedAt, later.suspendedAt = some time
  retiredAt : ∀ time ∈ earlier.retiredAt, later.retiredAt = some time

theorem Follows.trans {a b c : StrategyPromotion} (hab : Follows a b) (hbc : Follows b c) :
    Follows a c where
  identity := ⟨hbc.identity.1.trans hab.identity.1, hbc.identity.2.trans hab.identity.2⟩
  trust := ⟨hbc.trust.1.trans hab.trust.1, hbc.trust.2.1.trans hab.trust.2.1,
    hbc.trust.2.2.1.trans hab.trust.2.2.1, hbc.trust.2.2.2.trans hab.trust.2.2.2⟩
  evidence := hab.evidence.trans hbc.evidence
  createdAt := hbc.createdAt.trans hab.createdAt
  updatedAt := hab.updatedAt.trans hbc.updatedAt
  approvedAt := fun time h => hbc.approvedAt time (hab.approvedAt time h)
  suspendedAt := fun time h => hbc.suspendedAt time (hab.suspendedAt time h)
  retiredAt := fun time h => hbc.retiredAt time (hab.retiredAt time h)

def StrategyPromotion.timestamps (p : StrategyPromotion) : List Instant :=
  p.createdAt :: (p.approvedAt.toList ++ p.suspendedAt.toList ++ p.retiredAt.toList ++
    [p.updatedAt])

structure Approval (hash : MetricsSnapshot → String) (p backtested : StrategyPromotion) :
    Prop where
  metricsHash : p.metricsHash = backtested.metricsHash
  met : ∃ metrics thresholds, p.metrics = some metrics ∧
    p.metricsHash = some (hash metrics.1.asSnapshot) ∧
    p.thresholdEvaluation = some (evaluateThresholds hash metrics.1 thresholds) ∧
    (∀ check ∈ (evaluateThresholds hash metrics.1 thresholds).checks, check.passed = true) ∧
    thresholds.Met metrics.1

structure Lineage (hash : MetricsSnapshot → String) (p : StrategyPromotion)
    (earlier : List StrategyPromotion) : Prop where
  valid : Valid hash p
  chronological : p.timestamps.Pairwise (· ≤ ·)
  draft : p.state = .draft → earlier = []
  backtested : p.state = .backtested → ∃ draft, earlier = [draft] ∧ draft.state = .draft
  approved : p.state = .paperApproved → ∃ backtested draft, earlier = [backtested, draft] ∧
    draft.state = .draft ∧ backtested.state = .backtested ∧ Approval hash p backtested
  evaluation : ∀ evaluation ∈ p.thresholdEvaluation, evaluation.metricsHash ≠ "" ∧
    ∃ metrics thresholds, evaluation = evaluateThresholds hash metrics thresholds
  suspended : ∀ q ∈ earlier, q.state = .paperSuspended → p.state = .retired
  unretired : ∀ q ∈ earlier, q.state ≠ .retired
  follows : ∀ q ∈ earlier, Follows q p

section Step

variable {current next : StrategyPromotion} {args : TransitionArgs}

theorem Valid.unset {p : StrategyPromotion} (h : Valid hash p) :
    (p.state ≠ .retired → p.retiredAt = none) ∧
      (p.state = .paperApproved → p.suspendedAt = none) ∧
      (p.state = .backtested → p.approvedAt = none ∧ p.suspendedAt = none) := by
  by_cases hstate : p.state = .draft
  · obtain ⟨-, -, hretired, -⟩ := (h.draftInvariants hstate).untouched
    simp [hstate, hretired]
  · have hkept := h.stateInvariants hstate
    refine ⟨fun hne => ?_, fun happroved => (hkept.approvedOnly happroved).1, fun hbacktested =>
      ⟨(hkept.backtested hbacktested).1, (hkept.backtested hbacktested).2.1⟩⟩
    by_contra hset
    exact hne (hkept.retiredOnly hset)

theorem Moves.follows (h : Moves hash current args next) (hvalid : Valid hash current) :
    Follows current next := by
  obtain ⟨hretired, hsuspended, happroved⟩ := hvalid.unset
  cases h with
  | backtested hstate htime =>
    exact ⟨⟨rfl, rfl⟩, ⟨rfl, rfl, rfl, rfl⟩, List.prefix_append _ _, rfl, htime, fun _ h => h,
      fun _ h => h, fun _ h => h⟩
  | approved hstate htime _ _ _ =>
    refine ⟨⟨rfl, rfl⟩, ⟨rfl, rfl, rfl, rfl⟩, ?_, rfl, htime, ?_, fun _ h => h, fun _ h => h⟩
    · rw [List.append_assoc]
      exact List.prefix_append _ _
    · intro time hin
      rw [(happroved hstate).1] at hin
      cases hin
  | suspended hstate htime =>
    refine ⟨⟨rfl, rfl⟩, ⟨rfl, rfl, rfl, rfl⟩, List.prefix_append _ _, rfl, htime, fun _ h => h,
      ?_, fun _ h => h⟩
    intro time hin
    rw [hsuspended hstate] at hin
    cases hin
  | retired hstate htime =>
    refine ⟨⟨rfl, rfl⟩, ⟨rfl, rfl, rfl, rfl⟩, List.prefix_append _ _, rfl, htime, fun _ h => h,
      fun _ h => h, ?_⟩
    intro time hin
    rw [hretired hstate] at hin
    cases hin

/-- A sorted list stays sorted when its last entry gives way to later ones. -/
theorem pairwise_replace_last {l : List Instant} {last : Instant} (new : List Instant)
    (h : (l ++ [last]).Pairwise (· ≤ ·)) (hlater : ∀ t ∈ new, last ≤ t)
    (hnew : new.Pairwise (· ≤ ·)) : (l ++ new).Pairwise (· ≤ ·) := by
  rw [List.pairwise_append] at h ⊢
  refine ⟨h.1, hnew, fun s hs t ht => ?_⟩
  exact (h.2.2 s hs last (by simp)).trans (hlater t ht)

theorem Moves.chronological (h : Moves hash current args next) (hvalid : Valid hash current)
    (htimes : current.timestamps.Pairwise (· ≤ ·)) : next.timestamps.Pairwise (· ≤ ·) := by
  obtain ⟨hretired, hsuspended, happroved⟩ := hvalid.unset
  unfold StrategyPromotion.timestamps at htimes ⊢
  rw [← List.cons_append] at htimes
  cases h with
  | @backtested _ time hstate htime =>
    have := pairwise_replace_last [time] htimes (by simpa using htime) (by simp)
    simpa using this
  | @approved _ time _ hstate htime _ _ _ =>
    have := pairwise_replace_last [time, time] htimes (by simpa using htime) (by simp)
    have hnone := hretired (by rw [hstate]; decide)
    simpa [happroved hstate, hnone] using this
  | @suspended time hstate htime =>
    have := pairwise_replace_last [time, time] htimes (by simpa using htime) (by simp)
    have hnone := hretired (by rw [hstate]; decide)
    simpa [hsuspended hstate, hnone] using this
  | @retired time hstate htime =>
    have := pairwise_replace_last [time, time] htimes (by simpa using htime) (by simp)
    simpa [hretired hstate] using this

theorem approvalEvidence_ne_empty {metricsHash : String} {generated : List Evidence}
    (h : approvalEvidence metricsHash = .ok generated) : metricsHash ≠ "" := by
  obtain ⟨item, hitem, -⟩ := bind_ok_iff.mp h
  unfold PromotionEvidence.new at hitem
  split at hitem
  next built hinit =>
    unfold PromotionEvidence.postInit at hinit
    obtain ⟨-, hinit⟩ := require_bind_ok.mp hinit
    obtain ⟨-, hinit⟩ := require_bind_ok.mp hinit
    obtain ⟨hreference, -⟩ := require_bind_ok.mp hinit
    rintro rfl
    exact hreference rfl
  · cases hitem

/-- A transition adds the present row to those before it. -/
theorem Lineage.step {earlier : List StrategyPromotion} (h : Lineage hash current earlier)
    (hmoves : Moves hash current args next) : Lineage hash next (current :: earlier) := by
  have hfollows := hmoves.follows h.valid
  have hall : ∀ q ∈ current :: earlier, Follows q next := by
    intro q hq
    rcases List.mem_cons.mp hq with rfl | hq
    · exact hfollows
    · exact (h.follows q hq).trans hfollows
  have hactive : current.state ≠ .retired := by
    cases hmoves with
    | backtested hstate _ => simp [hstate]
    | approved hstate _ _ _ _ => simp [hstate]
    | suspended hstate _ => simp [hstate]
    | retired hstate _ => exact hstate
  have hunretired : ∀ q ∈ current :: earlier, q.state ≠ .retired := by
    intro q hq
    rcases List.mem_cons.mp hq with rfl | hq
    · exact hactive
    · exact h.unretired q hq
  -- a suspended version is followed by the retired one alone
  have hsuspended : ∀ q ∈ current :: earlier, q.state = .paperSuspended →
      next.state = .retired := by
    intro q hq hstate
    rcases List.mem_cons.mp hq with rfl | hq
    · cases hmoves with
      | backtested hfrom _ => simp [hstate] at hfrom
      | approved hfrom _ _ _ _ => simp [hstate] at hfrom
      | suspended hfrom _ => simp [hstate] at hfrom
      | retired _ _ => rfl
    · exact absurd (h.suspended q hq hstate) hactive
  refine
    { valid := hmoves.valid h.valid
      chronological := hmoves.chronological h.valid h.chronological
      draft := ?_
      backtested := ?_
      approved := ?_
      evaluation := ?_
      suspended := hsuspended
      unretired := hunretired
      follows := hall }
  · intro hstate
    cases hmoves with
    | _ => simp at hstate
  · intro hstate
    cases hmoves with
    | backtested hfrom _ =>
      rw [h.draft hfrom]
      exact ⟨current, rfl, hfrom⟩
    | _ => simp at hstate
  · intro hstate
    cases hmoves with
    | @approved metrics _ _ hfrom _ hhash hpassed _ =>
      obtain ⟨draft, rfl, hdraft⟩ := h.backtested hfrom
      refine ⟨current, draft, rfl, hdraft, hfrom, hhash, metrics, args.thresholds, rfl, rfl, rfl,
        ?_, (evaluateThresholds_passed hash metrics.1 args.thresholds).mp hpassed⟩
      exact List.all_eq_true.mp hpassed
    | _ => simp at hstate
  · cases hmoves with
    | @approved metrics _ _ _ _ _ _ hgenerated =>
      intro evaluation hin
      obtain rfl := Option.mem_some_iff.mp hin
      exact ⟨approvalEvidence_ne_empty hgenerated, metrics.1, args.thresholds, rfl⟩
    | _ => exact h.evaluation

end Step

variable {p : StrategyPromotion}

theorem lineage_of_draft {strategyKey version : String} {at_ : Datetime} {evidence : List Evidence}
    {promotionCandidateId : Option ℤ}
    {strategyArtifactFingerprint sourceCommit evidenceSchemaVersion : Option String}
    (h : createDraft hash strategyKey version at_ evidence promotionCandidateId
      strategyArtifactFingerprint sourceCommit evidenceSchemaVersion = .ok p) :
    p.state = .draft ∧ Lineage hash p [] := by
  obtain ⟨time, -, hinit⟩ := bind_ok_iff.mp h
  have hvalid := postInit_valid hinit
  obtain ⟨hstate, hcreated, hupdated, -⟩ := postInit_kept hinit
  dsimp only at hstate hcreated hupdated
  obtain ⟨happroved, hsuspended, hretired, hevaluation⟩ :=
    (hvalid.draftInvariants hstate).untouched
  refine ⟨hstate, hvalid, ?_, fun _ => rfl, ?_, ?_, ?_, by simp, by simp, by simp⟩
  · simp [StrategyPromotion.timestamps, happroved, hsuspended, hretired, hcreated, hupdated]
  · intro hbad
    rw [hstate] at hbad
    cases hbad
  · intro hbad
    rw [hstate] at hbad
    cases hbad
  · intro evaluation hin
    rw [hevaluation] at hin
    cases hin

theorem History.lineage {earlier : List StrategyPromotion} (h : History hash (p :: earlier)) :
    Lineage hash p earlier := by
  generalize hversions : p :: earlier = versions at h
  induction h generalizing p earlier with
  | draft hdraft =>
    obtain ⟨rfl, rfl⟩ := List.cons.inj hversions
    exact (lineage_of_draft hdraft).2
  | transition _ hmove ih =>
    obtain ⟨rfl, rfl⟩ := List.cons.inj hversions
    have hlineage := ih rfl
    exact hlineage.step (transitionPromotion_moves hlineage.valid hmove)

/-- Performs transitions one after another on the newest version. -/
def replay (hash : MetricsSnapshot → String) (p : StrategyPromotion)
    (earlier : List StrategyPromotion) :
    List (String × TransitionArgs) → Except PromotionError (List StrategyPromotion)
  | [] => .ok (p :: earlier)
  | (target, args) :: rest => do
      let next ← transitionPromotion hash p target args
      replay hash next (p :: earlier) rest

variable {moves : List (String × TransitionArgs)}

theorem History.replay {earlier versions : List StrategyPromotion} (h : History hash (p :: earlier))
    (hreplay : Promotion.replay hash p earlier moves = .ok versions) :
    History hash versions := by
  induction moves generalizing p earlier with
  | nil =>
    cases hreplay
    exact h
  | cons move rest ih =>
    obtain ⟨next, hnext, hrest⟩ := bind_ok_iff.mp hreplay
    exact ih (.transition h hnext) hrest

theorem retired_absorbing (hstate : p.state = .retired) (target : String) (args : TransitionArgs) :
    ∃ e, transitionPromotion hash p target args = .error e := by
  cases h : transitionPromotion hash p target args with
  | error e => exact ⟨e, rfl⟩
  | ok next =>
    obtain ⟨record, hrecord, -⟩ := bind_ok_iff.mp h
    exfalso
    cases transitionRecord_moves hrecord with
    | backtested hfrom _ => simp [hstate] at hfrom
    | approved hfrom _ _ _ _ => simp [hstate] at hfrom
    | suspended hfrom _ => simp [hstate] at hfrom
    | retired hfrom _ => exact hfrom hstate

/-- The lifecycle of a promotion: approval is reached from a draft through one
backtest whose figures met every threshold, suspension and retirement are not
undone, identity and trust stay, evidence only grows, times only move on, and no
transition is refused for the record it would build. -/
theorem promotion_lifecycle (hash : MetricsSnapshot → String) {p : StrategyPromotion}
    {earlier : List StrategyPromotion} (h : History hash (p :: earlier)) :
    (p.state = .paperApproved → ∃ backtested draft, earlier = [backtested, draft] ∧
      draft.state = .draft ∧ backtested.state = .backtested ∧ Approval hash p backtested) ∧
    (∀ q ∈ earlier, q.state = .paperSuspended → p.state = .retired) ∧
    (∀ q ∈ earlier, q.state ≠ .retired) ∧
    (p.state = .retired →
      ∀ target args, ∃ e, transitionPromotion hash p target args = .error e) ∧
    (∀ q ∈ earlier, Follows q p) ∧
    p.timestamps.Pairwise (· ≤ ·) ∧
    p.validateStateInvariants = .ok () ∧
    (∀ target args next, transitionRecord hash p target args = .ok next →
      transitionPromotion hash p target args = .ok next ∧
        next.validateStateInvariants = .ok ()) := by
  have hlineage := h.lineage
  refine ⟨hlineage.approved, hlineage.suspended, hlineage.unretired, ?_, hlineage.follows,
    hlineage.chronological, hlineage.valid.invariants, ?_⟩
  · exact fun hstate target args => retired_absorbing hstate target args
  · intro target args next hrecord
    exact ⟨transitionPromotion_of_record hlineage.valid hrecord,
      ((transitionRecord_moves hrecord).valid hlineage.valid).invariants⟩

def seventeenFolds : Metrics :=
  let figures : PromotionMetrics :=
    ⟨3 / 10, 1 / 10, 1 / 2, 1 / 100, 1 / 10, 100, 50, 1 / 10, 5, 40, 23, 17, true, true, true,
      ["run-1"]⟩
  ⟨figures, PromotionMetrics.postInit_built (show figures.postInit = .ok figures by
    decide +kernel)⟩

def operatorReason : Evidence :=
  let reason : PromotionEvidence := ⟨"OPERATOR_REASON", "reviewed", "candidate:7"⟩
  ⟨reason, PromotionEvidence.postInit_built (show reason.postInit = .ok reason by
    decide +kernel)⟩

def transitionAt (time : Instant) (metrics : Option Metrics) : TransitionArgs :=
  { strategyKey := "qullamaggie_breakout_portfolio", version := "1.0.0", at_ := .aware time,
    metrics, evidence := [operatorReason] }

/-- A draft without a candidate, taken through these transitions. -/
def promoted (hash : MetricsSnapshot → String) (moves : List (String × TransitionArgs)) :
    Except PromotionError (List StrategyPromotion) := do
  let draft ← createDraft hash "qullamaggie_breakout_portfolio" "1.0.0" (.aware 0)
    [operatorReason] none none none none
  replay hash draft [] moves

theorem History.promoted {versions : List StrategyPromotion}
    (h : Promotion.promoted hash moves = .ok versions) :
    History hash versions := by
  obtain ⟨draft, hdraft, hreplay⟩ := bind_ok_iff.mp h
  exact (History.draft hdraft).replay hreplay

/-- A draft, its backtest and its approval. -/
theorem promotion_lifecycle_approved : ∃ p backtested draft,
    History (fun _ => "a1") [p, backtested, draft] ∧ p.state = .paperApproved ∧
      Approval (fun _ => "a1") p backtested := by
  have hrun : ((promoted (fun _ => "a1")
      [("BACKTESTED", transitionAt 1 (some seventeenFolds)),
        ("PAPER_APPROVED", transitionAt 2 none)]).toOption.map fun versions =>
          versions.map (·.state)) = some [.paperApproved, .backtested, .draft] := by
    decide +kernel
  obtain ⟨versions, hversions, hstates⟩ := Option.map_eq_some_iff.mp hrun
  have hhistory := History.promoted (eq_ok_of_toOption hversions)
  obtain ⟨p, earlier, rfl, hstate, -⟩ := List.map_eq_cons_iff.mp hstates
  obtain ⟨backtested, draft, rfl, -, -, happroval⟩ :=
    (promotion_lifecycle (fun _ => "a1") hhistory).1 hstate
  exact ⟨p, backtested, draft, hhistory, hstate, happroval⟩

end KAssetTrader.Promotion
