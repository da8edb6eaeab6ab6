import KAssetTrader.Inbox.Rows
import KAssetTrader.Library.Dict
import KAssetTrader.Library.Transition
import KAssetTrader.Proposals.StateMachine

/-!
The rows of the order proposals: a proposal with its rungs, the attempts to
publish its approval card, and the batches that gather several cards under one
button. What a proposal orders never changes; the rest of its columns do. Digests
stand as what they hash.
-/

namespace KAssetTrader.Proposals

open Inbox (CallbackAction)

abbrev ProposalId := String

abbrev AttemptId := ℕ

abbrev BatchId := String

/-- `str(id)[:8]`. -/
def short (id : String) : String := String.ofList (id.toList.take 8)

def seconds (n : ℤ) : ℤ := n * 1000000

/-- The errors of the service; all but the last derive from `OrderProposalError`. -/
inductive ProposalError where
  | error (reason : String)
  | notFound (subject : String)
  | invalidStateTransition (current new : RungState)
  | voidNotAuthorized
  | dispatchNoLongerAuthorized (reason : String)
  | valueError (reason : String)

inductive ApprovalDispatchState where
  | pending
  | sentCurrent
  | sentSuperseded
  | failed
  | partialFailed
  | failedSuperseded
  deriving DecidableEq

def ApprovalDispatchState.value : ApprovalDispatchState → String
  | pending => "pending"
  | sentCurrent => "sent_current"
  | sentSuperseded => "sent_superseded"
  | failed => "failed"
  | partialFailed => "partial_failed"
  | failedSuperseded => "failed_superseded"

inductive ApprovalCardKind where
  | manual
  | reconfirm
  | autoVeto
  | lossCutConfirmation
  | batch
  deriving DecidableEq

/-- `_ACTIONS_BY_CARD_KIND`. -/
def ApprovalCardKind.actions : ApprovalCardKind → List CallbackAction
  | manual => [.op, .dn]
  | reconfirm => [.op, .dn]
  | autoVeto => [.vc]
  | lossCutConfirmation => [.lc, .dn]
  | batch => [.ba]

inductive Channel where
  | telegram
  | web
  deriving DecidableEq

/-- What `build_membership_digest` hashes for the card of one proposal. -/
structure ProposalDigest where
  cardKind : ApprovalCardKind
  membershipRevision : ℤ
  proposalId : ProposalId
  approvalNonce : Option String
  deriving DecidableEq

/-- One member in what `build_membership_digest` hashes for the card of a batch. -/
structure BatchDigestMember where
  proposalId : ProposalId
  approvalNonce : String
  approvalMessageId : ℤ
  approvalDispatchAttemptId : Option AttemptId
  approvalMembershipRevision : Option ℤ
  approvalMembershipDigest : Option ProposalDigest
  deriving DecidableEq

structure BatchDigest where
  membershipRevision : ℤ
  members : List BatchDigestMember
  deriving DecidableEq

/-- The binding of a published callback, by the kind of its digest. -/
structure DispatchBinding (δ : Type) where
  attemptId : AttemptId
  cardKind : ApprovalCardKind
  membershipRevision : ℤ
  membershipDigest : δ

structure CallbackEnvelope (δ : Type) where
  action : CallbackAction
  subjectShort : String
  attemptId : AttemptId
  membershipRevision : ℤ
  membershipDigest : δ
  nonce : String

structure CallbackGateSnapshot (δ : Type) where
  subjectShort : String
  state : ApprovalDispatchState
  attemptId : Option AttemptId
  cardKind : Option ApprovalCardKind
  membershipRevision : Option ℤ
  membershipDigest : Option δ
  nonce : Option String
  nonceUsed : Bool

/-- The receipt of a publication; `TelegramMethodResult` is left out of it. -/
structure ApprovalPublication where
  cardPublished : Bool
  partialDelivery : Bool
  messageId : Option ℤ
  payloadChars : ℤ
  failureCode : Option String

structure OrderProposalRung where
  rungIndex : ℤ
  side : String
  quantity : Decimal
  limitPrice : Option Decimal
  notional : Option Decimal
  state : RungState := .pendingApproval
  /-- The states before this one, the latest first. -/
  trail : List RungState := []
  approvalRevision : Option ℤ := none
  approvalHashDigest : Option String := none
  idempotencyKey : Option String := none
  brokerOrderId : Option String := none
  correlationId : Option String := none
  validatedAt : Option Instant := none
  filledQty : Option Decimal := none
  voidReason : Option String := none
  updatedAt : Instant
  deriving DecidableEq

structure ProposalTerms where
  rootProposalId : ProposalId
  supersedesProposalId : Option ProposalId
  revision : ℤ := 1
  symbol : String
  market : String
  accountMode : String
  side : String
  orderType : String
  action : String
  brokerAccountId : Option String
  targetBrokerOrderId : Option String
  exitIntent : Option String
  exitReason : Option String
  retrospectiveId : Option ℤ
  approvalIssueId : Option String
  validUntil : Option Instant
  createdAt : Instant
  deriving DecidableEq

structure LossGuardVerdict where
  violated : Bool
  source : String
  observedAt : Instant
  rungIndex : ℤ
  error : String
  deriving DecidableEq

structure Click where
  actorChannel : Channel
  actorSubject : String
  clickedAt : Instant
  nonce : String
  deriving DecidableEq

/-- The envelope under `loss_cut_confirmation`; `rungs` pairs the index of a
rung with its approval revision. -/
structure LossCutConfirmation where
  proposalId : ProposalId
  rungs : List (ℤ × ℤ)
  nonce : String
  issuedAt : Instant
  expiresAt : Instant
  firstClick : Click
  secondClick : Option Click
  deriving DecidableEq

structure ApprovalMessage where
  messageId : Option ℤ
  chatId : Option String
  sentAt : Instant
  deriving DecidableEq

/-- The keys of `source_asof` that the service reads. -/
structure SourceAsof where
  creatorAgentId : Option String := none
  lossGuardVerdict : Option LossGuardVerdict := none
  lossCutConfirmation : Option LossCutConfirmation := none
  autoApproved : Bool := false
  approvalMessage : Option ApprovalMessage := none
  approvalWindowPolicyStamp : Option String := none
  deriving DecidableEq

/-- The columns `approval_dispatch_*`. -/
structure ApprovalDispatch where
  state : Option ApprovalDispatchState := none
  attemptId : Option AttemptId := none
  attemptedAt : Option Instant := none
  publishedAt : Option Instant := none
  failureCode : Option String := none
  payloadChars : Option ℤ := none
  cardKind : Option ApprovalCardKind := none
  channel : Option Channel := none
  scopeHash : Option String := none
  evidenceHash : Option String := none
  membershipRevision : Option ℤ := none
  membershipDigest : Option ProposalDigest := none
  deriving DecidableEq

/-- The columns `approved_*`. -/
structure Approval where
  byTelegramUserId : Option String := none
  byChannel : Option Channel := none
  bySubject : Option String := none
  approvedAt : Option Instant := none
  deriving DecidableEq

structure OrderProposal where
  terms : ProposalTerms
  rungs : List OrderProposalRung
  lifecycleState : GroupState := .proposed
  supersededByProposalId : Option ProposalId := none
  noResubmit : Bool := false
  voidReason : Option String := none
  sourceAsof : SourceAsof := {}
  approvalNonce : Option String := none
  approvalNonceUsedAt : Option Instant := none
  dispatch : ApprovalDispatch := {}
  approval : Approval := {}
  commitLeaseUntil : Option Instant := none
  deriving DecidableEq

structure DispatchAttempt where
  proposalId : ProposalId
  state : ApprovalDispatchState
  attemptedAt : Instant
  completedAt : Option Instant := none
  payloadChars : ℤ
  messageId : Option ℤ := none
  failureCode : Option String := none
  cardKind : ApprovalCardKind
  channel : Channel
  scopeHash : Option String
  evidenceHash : Option String
  publicationRefDigest : Option String
  membershipRevision : ℤ
  membershipDigest : ProposalDigest

structure ApprovalBatch where
  chatId : String
  windowStartedAt : Instant
  windowClosesAt : Instant
  expiresAt : Instant
  approvalNonce : String
  approvalNonceUsedAt : Option Instant := none
  /-- `summary_dispatch_state` is `"idle"`. -/
  summaryIdle : Bool := true
  summaryMessageId : Option ℤ := none
  dispatchState : ApprovalDispatchState := .pending
  dispatchAttemptId : Option AttemptId := none
  dispatchFailureCode : Option String := none
  dispatchPublishedAt : Option Instant := none
  dispatchPayloadChars : Option ℤ := none
  membershipRevision : Option ℤ := some 1
  membershipDigest : Option BatchDigest := none
  membershipFrozenAt : Option Instant := none
  approvedByTelegramUserId : Option String := none
  approvedAt : Option Instant := none

structure ApprovalBatchMember where
  batchId : BatchId
  proposalId : ProposalId
  approvalNonceSnapshot : String
  approvalMessageId : ℤ
  addedAt : Instant
  dispatchAttemptIdSnapshot : Option AttemptId
  membershipRevisionSnapshot : Option ℤ
  membershipDigestSnapshot : Option ProposalDigest
  cardKindSnapshot : Option ApprovalCardKind
  membershipRevision : Option ℤ := none
  deriving DecidableEq

/-- The tables, in the order of their primary keys. -/
structure Store where
  proposals : Dict ProposalId OrderProposal := Dict.empty
  attempts : Dict AttemptId DispatchAttempt := Dict.empty
  batches : Dict BatchId ApprovalBatch := Dict.empty
  members : List ApprovalBatchMember := []

end KAssetTrader.Proposals
