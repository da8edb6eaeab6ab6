import Mathlib.Tactic

/-!
The states of a paper validation and the graph of their transitions, the requests that
the service takes, and the rows of its three audit tables. A request hash is injective,
so it is kept as what it hashes.
-/

namespace KAssetTrader.Validation

inductive ValidationState where
  | draft
  | offlineEligible
  | shadowSoak
  | paperActive
  | promotionEligible
  | promoted
  | rejected
  | aborted
  deriving DecidableEq

inductive ActorRole where
  | researcher
  | reviewer
  | operator
  | system
  deriving DecidableEq

inductive ReasonCode where
  | actorIdentityUnavailable
  | forbidden
  | evidenceStampUnavailable
  | evidenceHashMismatch
  | promotionConfirmationRequired
  | promotionConfirmationMismatch
  | idempotencyConflict
  | promotionGateBlocked
  | calibrationGateBlocked
  | experimentIdentityMismatch
  | concurrentTransitionConflict
  | invalidTransition
  | terminalState
  | validationNotFound
  | authorizationIdentityMismatch
  | orderStateNotAuthorized
  deriving DecidableEq

def legalTransitions : List (ValidationState × ValidationState) :=
  [(.draft, .offlineEligible), (.offlineEligible, .shadowSoak), (.shadowSoak, .paperActive),
    (.paperActive, .promotionEligible), (.promotionEligible, .promoted),
    (.promotionEligible, .rejected), (.promotionEligible, .aborted)]

def terminalStates : List ValidationState := [.promoted, .rejected, .aborted]

/-- `decide_transition`: nothing, or the reason why the transition is not allowed. -/
def decideTransition (prior : Option ValidationState) (requested : ValidationState) :
    Option ReasonCode :=
  match prior with
  | none => if requested = .draft then none else some .invalidTransition
  | some prior =>
    if prior ∈ terminalStates then some .terminalState
    else if (prior, requested) ∈ legalTransitions then none
    else some .invalidTransition

def isOrderAuthorizable (state : ValidationState) : Bool :=
  decide (state ∈ [ValidationState.paperActive, .promotionEligible])

theorem decideTransition_none {requested : ValidationState} :
    decideTransition none requested = none ↔ requested = .draft := by
  unfold decideTransition
  split <;> simp_all

theorem decideTransition_some {prior requested : ValidationState}
    (h : decideTransition (some prior) requested = none) :
    (prior, requested) ∈ legalTransitions := by
  simp only [decideTransition] at h
  split at h
  · cases h
  · split at h
    · assumption
    · cases h

theorem promoted_prior {prior : ValidationState} (h : (prior, .promoted) ∈ legalTransitions) :
    prior = .promotionEligible := by
  cases prior <;> revert h <;> decide

structure ActorIdentity where
  actorId : String
  role : ActorRole
  deriving DecidableEq

structure ValidationIdentity where
  validationId : String
  validationVersion : ℕ
  experimentId : String
  strategyVersionId : String
  cohortId : String
  experimentHash : String
  cohortHash : String
  strategyHash : String
  configHash : String
  policyHash : String
  inputHash : String
  deriving DecidableEq

structure PromotionEligibilityEvidence where
  deterministicGatePassed : Bool
  resolvedNegativeClassCount : ℕ
  evidenceIds : List String
  deriving DecidableEq

structure FrozenInputStamp where
  bundleId : String
  contentHash : String
  promotionEligibility : Option PromotionEligibilityEvidence := none
  deriving DecidableEq

structure PolicyStamp where
  version : String
  contentHash : String
  deriving DecidableEq

structure TransitionRequest where
  identity : ValidationIdentity
  expectedPriorState : Option ValidationState
  targetState : ValidationState
  idempotencyKey : String
  reasonCode : String
  reasonText : String
  evidenceIds : List String := []
  deriving DecidableEq

structure HypothesisDraftInput where
  validationId : String
  idempotencyKey : String
  mechanism : String
  instrumentUniverse : List String
  horizon : String
  entryCriteria : List String
  exitCriteria : List String
  invalidationCriteria : List String
  dataRequirements : List String
  expectedCostHurdle : ℚ
  turnoverBound : ℚ
  riskBound : ℚ
  citedEvidence : List String
  deriving DecidableEq

structure PostmortemReviewInput where
  validationId : String
  idempotencyKey : String
  reviewText : String
  citedEvidence : List String
  deriving DecidableEq

/-- A confirmation that is not confirmed is not a `PromotionConfirmationInput`. -/
structure PromotionConfirmationInput where
  identity : ValidationIdentity
  idempotencyKey : String
  reason : String
  evidenceIds : List String
  deriving DecidableEq

structure PaperOrderAuthorization where
  identity : ValidationIdentity
  state : ValidationState
  actor : ActorIdentity
  inputBundleId : String
  policyVersion : String
  deriving DecidableEq

section Requests

/-- What a request hash hashes, beside the actor. -/
inductive Request where
  | transition (request : TransitionRequest)
  | hypothesis (request : HypothesisDraftInput)
  | review (request : PostmortemReviewInput)
  deriving DecidableEq

def Request.validationId : Request → String
  | .transition request => request.identity.validationId
  | .hypothesis request => request.validationId
  | .review request => request.validationId

def Request.idempotencyKey : Request → String
  | .transition request => request.idempotencyKey
  | .hypothesis request => request.idempotencyKey
  | .review request => request.idempotencyKey

/-- The request that `confirm_promotion` makes. -/
def PromotionConfirmationInput.request (confirmation : PromotionConfirmationInput) :
    TransitionRequest where
  identity := confirmation.identity
  expectedPriorState := some .promotionEligible
  targetState := .promoted
  idempotencyKey := confirmation.idempotencyKey
  reasonCode := "promotion_confirmed"
  reasonText := confirmation.reason
  evidenceIds := confirmation.evidenceIds

inductive Operation where
  | transition (request : TransitionRequest)
  | confirmPromotion (confirmation : PromotionConfirmationInput)
  | appendHypothesis (request : HypothesisDraftInput)
  | appendPostmortemReview (request : PostmortemReviewInput)
  | authorizeOrderSubmission (identity : ValidationIdentity)
  deriving DecidableEq

def Operation.request : Operation → Option Request
  | .transition request => some (.transition request)
  | .confirmPromotion confirmation => some (.transition confirmation.request)
  | .appendHypothesis request => some (.hypothesis request)
  | .appendPostmortemReview request => some (.review request)
  | .authorizeOrderSubmission _ => none

def Operation.validationId : Operation → String
  | .transition request => request.identity.validationId
  | .confirmPromotion confirmation => confirmation.identity.validationId
  | .appendHypothesis request => request.validationId
  | .appendPostmortemReview request => request.validationId
  | .authorizeOrderSubmission identity => identity.validationId

variable {request : Request} {actor : ActorIdentity}

theorem Operation.validationId_request (op : Operation) (h : op.request = some request) :
    op.validationId = request.validationId := by
  cases op <;> cases h <;> rfl

def Operation.roles : Operation → List ActorRole
  | .appendHypothesis _ => [.researcher]
  | .appendPostmortemReview _ => [.reviewer]
  | _ => [.operator, .system]

/-- The checks before anything is read. -/
def admission (op : Operation) (actor : ActorIdentity) : Option ReasonCode :=
  if actor.role ∉ op.roles then some .forbidden
  else match op with
  | .transition request =>
    if request.targetState = .promoted then some .promotionConfirmationRequired else none
  | _ => none

theorem admission_role {op : Operation} (h : admission op actor = none) :
    actor.role ∈ op.roles := by
  by_contra hrole
  unfold admission at h
  rw [if_pos hrole] at h
  cases h

theorem admission_transition {request : TransitionRequest}
    (h : admission (.transition request) actor = none) : request.targetState ≠ .promoted := by
  intro hpromoted
  have hrole := admission_role h
  simp only [admission, hrole, not_true_eq_false, if_false, hpromoted, if_true] at h
  cases h

/-- An admitted operation is known from its request. -/
theorem op_of_request {op op' : Operation} {actor actor' : ActorIdentity}
    (h : admission op actor = none) (h' : admission op' actor' = none)
    (hrequest : op.request = some request) (hrequest' : op'.request = some request) :
    op = op' := by
  cases op with
  | transition own =>
    cases hrequest
    cases op' with
    | transition other =>
      cases hrequest'
      rfl
    | confirmPromotion other =>
      cases hrequest'
      exact absurd rfl (admission_transition h)
    | appendHypothesis other => cases hrequest'
    | appendPostmortemReview other => cases hrequest'
    | authorizeOrderSubmission other => cases hrequest'
  | confirmPromotion own =>
    cases hrequest
    cases op' with
    | transition other =>
      cases hrequest'
      exact absurd rfl (admission_transition h')
    | confirmPromotion other =>
      obtain ⟨_, _, _, _⟩ := own
      obtain ⟨_, _, _, _⟩ := other
      simp_all [Operation.request, PromotionConfirmationInput.request]
    | appendHypothesis other => cases hrequest'
    | appendPostmortemReview other => cases hrequest'
    | authorizeOrderSubmission other => cases hrequest'
  | appendHypothesis own =>
    cases hrequest
    cases op' <;> cases hrequest'
    rfl
  | appendPostmortemReview own =>
    cases hrequest
    cases op' <;> cases hrequest'
    rfl
  | authorizeOrderSubmission own => cases hrequest

def Operation.raised : Operation → ReasonCode → ReasonCode
  | .confirmPromotion _, reason =>
    if reason ∈ [ReasonCode.experimentIdentityMismatch, .concurrentTransitionConflict,
        .invalidTransition, .terminalState] then .promotionConfirmationMismatch
    else reason
  | _, reason => reason

end Requests

/-- The columns that the three tables share. `call` is the call that appended the row,
which no table stores. -/
structure AuditColumns where
  identity : ValidationIdentity
  idempotencyKey : String
  requestHash : Request × ActorIdentity
  actor : ActorIdentity
  call : Operation
  deriving DecidableEq

/-- `PaperValidationStateTransition`, with the stamp of the frozen inputs that its call was
given; the table stores the id of its bundle. -/
structure PaperValidationStateTransition extends AuditColumns where
  sequence : ℕ
  priorState : Option ValidationState
  newState : ValidationState
  reasonCode : String
  reasonText : String
  frozen : FrozenInputStamp
  policyVersion : String
  evidenceIds : List String
  deriving DecidableEq

structure StrategyHypothesisDraft extends AuditColumns where
  draft : HypothesisDraftInput
  deriving DecidableEq

structure PaperValidationPostmortemReview extends AuditColumns where
  review : PostmortemReviewInput
  deriving DecidableEq

inductive AuditRow where
  | transition (row : PaperValidationStateTransition)
  | hypothesis (row : StrategyHypothesisDraft)
  | review (row : PaperValidationPostmortemReview)
  deriving DecidableEq

def AuditRow.columns : AuditRow → AuditColumns
  | .transition row => row.toAuditColumns
  | .hypothesis row => row.toAuditColumns
  | .review row => row.toAuditColumns

def AuditRow.sameTable : AuditRow → Request → Bool
  | .transition _, .transition _ => true
  | .hypothesis _, .hypothesis _ => true
  | .review _, .review _ => true
  | _, _ => false

def AuditRow.Matches (row : AuditRow) (request : Request) : Prop :=
  row.sameTable request = true ∧ row.columns.identity.validationId = request.validationId ∧
    row.columns.idempotencyKey = request.idempotencyKey

instance (row : AuditRow) (request : Request) : Decidable (row.Matches request) :=
  inferInstanceAs (Decidable (_ ∧ _ ∧ _))

end KAssetTrader.Validation
