import KAssetTrader.Proposals.Publications

/-!
The operations of the service as the actions of one system. Every operation holds
the lock of the rows it writes until it is done, so a run is any sequence of
operations, with any arguments. An operation that raises after a write leaves what
it wrote; its caller may commit that. Quantities have the twelve places of their column.
-/

namespace KAssetTrader.Proposals

open Unicode (strip)
open Checked

structure RungInput where
  rungIndex : ℤ
  side : String
  quantity : Decimal
  limitPrice : Option Decimal
  notional : Option Decimal

/-- The arguments of `create_proposal`. The verdicts of `_validate_action_contract`
and `_validate_exit_binding` are inputs, as is the deadline that
`resolve_defensive_valid_until` gives. -/
structure ProposalCreation where
  proposalId : ProposalId
  symbol : String
  market : String
  accountMode : String
  side : String
  orderType : String
  action : String := "place"
  brokerAccountId : Option String := none
  targetBrokerOrderId : Option String := none
  exitIntent : Option String := none
  exitReason : Option String := none
  retrospectiveId : Option ℤ := none
  approvalIssueId : Option String := none
  rungs : List RungInput
  validUntil : Option Instant := none
  sourceAsof : SourceAsof := {}
  creatorAgentId : Option String := none
  supersedesProposalId : Option ProposalId := none
  defensiveFloor : Option Instant := none
  contractRefusal : Option String := none
  exitRefusal : Option String := none

/-- The next `00:00` in Seoul. -/
def nextKstMidnight (now : Instant) : Instant :=
  ((now + seconds 32400) / seconds 86400 + 1) * seconds 86400 - seconds 32400

namespace ProposalCreation

def deadline (creation : ProposalCreation) (now : Instant) : Except ProposalError Instant := do
  let requested ←
    match creation.validUntil with
    | none => pure (nextKstMidnight now)
    | some validUntil => do
        raiseIf (validUntil ≤ now) (.error "valid_until must be in the future")
        pure validUntil
  return max requested (creation.defensiveFloor.getD requested)

def terms (creation : ProposalCreation) (rootId : ProposalId) (deadline now : Instant) :
    ProposalTerms where
  rootProposalId := rootId
  supersedesProposalId := creation.supersedesProposalId
  symbol := creation.symbol
  market := creation.market
  accountMode := creation.accountMode
  side := creation.side
  orderType := creation.orderType
  action := creation.action
  brokerAccountId := creation.brokerAccountId
  targetBrokerOrderId := creation.targetBrokerOrderId
  exitIntent := creation.exitIntent
  exitReason := creation.exitReason
  retrospectiveId := creation.retrospectiveId
  approvalIssueId :=
    if creation.exitIntent = some "loss_cut" then creation.approvalIssueId.map strip
    else creation.approvalIssueId
  validUntil := some deadline
  createdAt := now

def group (creation : ProposalCreation) (rootId : ProposalId) (deadline now : Instant) :
    OrderProposal where
  terms := creation.terms rootId deadline now
  rungs := creation.rungs.map fun r =>
    { rungIndex := r.rungIndex
      side := r.side
      quantity := r.quantity
      limitPrice := r.limitPrice
      notional := r.notional
      updatedAt := now }
  sourceAsof := { creation.sourceAsof with creatorAgentId := clean creation.creatorAgentId }

end ProposalCreation

/-- What `create_proposal` writes to the proposal that it replaces. -/
def OrderProposal.supersede (group : OrderProposal) (newer : ProposalId) (now : Instant) :
    OrderProposal :=
  { group with
    rungs := group.rungs.map fun rung =>
      if rung.state ∈ RungState.confirmable then rung.setState .superseded now else rung
    lifecycleState := .superseded
    supersededByProposalId := some newer
    approvalNonceUsedAt := some now }

/-- `create_proposal`. The identifiers of proposals are unique, as are the
indices of the rungs of one. -/
def Store.createProposal (s : Store) (creation : ProposalCreation) (now : Instant) :
    Except ProposalError Store := do
  raiseIf (creation.rungs = []) (.valueError "at least one rung required")
  refuse creation.contractRefusal
  let deadline ← creation.deadline now
  refuse creation.exitRefusal
  raiseIf ((s.proposals.get? creation.proposalId).isSome = true)
    (.valueError "uq_order_proposals_proposal_id")
  raiseIf (¬ (creation.rungs.map (·.rungIndex)).Nodup)
    (.valueError "uq_order_proposal_rungs_pk_index")
  match creation.supersedesProposalId with
  | none =>
    return s.putProposal creation.proposalId
      (creation.group creation.proposalId deadline now)
  | some older => do
      let superseded ← s.getProposal older
      let created := s.putProposal creation.proposalId
        (creation.group superseded.terms.rootProposalId deadline now)
      return created.putProposal older (superseded.supersede creation.proposalId now)

/-- What the broker reports of an order, and the keys it is found by. -/
structure FillEvidence where
  correlationId : Option String := none
  brokerOrderId : Option String := none
  idempotencyKey : Option String := none
  accountMode : Option String := none
  filledQty : Option Decimal := none
  terminalState : RungState
  deriving DecidableEq

def FillEvidence.Reportable (evidence : FillEvidence) : Prop :=
  evidence.terminalState ∈
    [RungState.filled, .partiallyFilled, .cancelled, .expired]

instance (evidence : FillEvidence) : Decidable evidence.Reportable :=
  inferInstanceAs (Decidable (_ ∈ _))

/-- `find_rung_by_evidence`, for rungs that accept evidence. -/
def Store.findRungByEvidence (s : Store) (evidence : FillEvidence) :
    Option (ProposalId × OrderProposalRung) :=
  let rows := s.proposals.entries.flatMap fun entry =>
    if evidence.accountMode.all (fun mode => decide (entry.2.terms.accountMode = mode)) then
      (entry.2.rungs.filter (fun r => r.state ∈ RungState.evidenceAccepting)).map
        fun r => (entry.1, r)
    else []
  let by_ (column : OrderProposalRung → Option String) (key : Option String) :=
    key.bind fun k => rows.find? fun row => decide (column row.2 = some k)
  by_ (·.brokerOrderId) evidence.brokerOrderId
  <|> by_ (·.idempotencyKey) evidence.idempotencyKey
  <|> by_ (·.correlationId) evidence.correlationId

/-- What `record_fill_evidence` does to the proposal of the rung it found. -/
def OrderProposal.acceptEvidence (group : OrderProposal) (rungIndex : ℤ)
    (evidence : FillEvidence) (now : Instant) : Except ProposalError OrderProposal := do
  let locked ← group.getRung rungIndex
  let audit : RungAudit := { updatedAt := now, filledQty := evidence.filledQty }
  if locked.state.Terminal then return group
  if locked.state = evidence.terminalState then
    if (evidence.filledQty.bind fun q => locked.filledQty.map fun old => decide (q ≤ old)) =
        some true then
      return group
    return group.putRung (locked.audited audit)
  group.transitionLockedRung locked evidence.terminalState audit

/-- What `record_fill_evidence_for_rung` does to the proposal of a rung that its
keys identify. -/
def OrderProposal.acceptEvidenceForRung (group : OrderProposal) (rungIndex : ℤ)
    (evidence : FillEvidence) (now : Instant) : Except ProposalError OrderProposal := do
  let locked ← group.getRung rungIndex
  if locked.state.Terminal then
    raiseIf (¬ (locked.state = evidence.terminalState ∧
        locked.brokerOrderId = evidence.brokerOrderId))
      (.error "proposal_terminal_evidence_conflict")
    return group
  group.transitionLockedRung locked evidence.terminalState
    { updatedAt := now, filledQty := evidence.filledQty }

/-- One candidate of `sweep_local_stale` for which the broker knows no order. -/
def OrderProposal.sweepStaleRung (group : OrderProposal) (rungIndex : ℤ) (now : Instant) :
    Except ProposalError OrderProposal := do
  let rung ← group.getRung rungIndex
  if rung.state ≠ .pendingApproval ∨ rung.brokerOrderId ≠ none then return group
  group.transitionLockedRung rung .voidedLocalStale
    { updatedAt := now, voidReason := some "no_broker_order" }

/-- One candidate of `sweep_expired`. -/
def OrderProposal.sweepOne (group : OrderProposal) (now : Instant) :
    OrderProposal × Except ProposalError Unit :=
  if ¬ group.terms.validUntil.any (fun deadline => decide (deadline ≤ now)) then (group, .ok ())
  else if group.lifecycleState ∈ GroupState.approvalTerminal then (group, .ok ())
  else if (group.invalidRung RungState.voidable).isSome then (group, .ok ())
  else group.moveAll (·.setState .expired now) fun g => { g with approvalNonce := none }

/-- `list_expiry_candidates`. -/
def Store.expiryCandidates (s : Store) (now : Instant) : List ProposalId :=
  (s.proposals.entries.filter fun entry =>
    entry.2.terms.validUntil.any (fun deadline => decide (deadline ≤ now)) &&
      decide (entry.2.lifecycleState ∉ GroupState.approvalTerminal)).map Prod.fst

/-- `sweep_expired` over its candidates. A refused move ends the sweep. -/
def Store.sweepCandidates (s : Store) (now : Instant) :
    List ProposalId → Store × Except ProposalError Unit
  | [] => (s, .ok ())
  | proposalId :: rest =>
    match s.proposals.get? proposalId with
    | none => s.sweepCandidates now rest
    | some group =>
      let (swept, result) := group.sweepOne now
      match result with
      | .error error => (s.putProposal proposalId swept, .error error)
      | .ok () => (s.putProposal proposalId swept).sweepCandidates now rest

def Store.sweepExpired (s : Store) (now : Instant) : Store × Except ProposalError Unit :=
  s.sweepCandidates now (s.expiryCandidates now)

inductive RowOperation where
  | transitionRung (rungIndex : ℤ) (newState : RungState) (audit : RungAudit)
  | markNeedsReconfirm (rungIndex : ℤ) (now : Instant)
  | expireIfNeeded (now : Instant)
  | expireRungIfNeeded (rungIndex : ℤ) (now : Instant)
  | expireMutableRungsIfNeeded (now : Instant)
  | restoreRungAfterPreSendBlock (rungIndex : ℤ) (now : Instant) (expired : Bool)
  | voidProposal (request : VoidRequest) (now : Instant)
  | recordLossGuardVerdict (rungIndex : ℤ) (error : Option String) (now : Instant)
  | assertDispatchStillAuthorized (now : Instant) (expectedNonce : Option String)
  | setApprovalNonce (nonce : String) (requireRedispatchable : Bool)
  | clearApprovalNonce (expectedNonce : Option String)
  | restoreApprovalAfterWindowBlock (nonce : String) (expired : Bool)
  | acquireCommitLease (now : Instant) (leaseSeconds : ℤ)
  | recordApproval (telegramUserId : String) (now : Instant)
  | recordChannelApproval (channel : Channel) (actorSubject : String) (now : Instant)
  | recordAutoApproval
  | recordApprovalDispatch (messageId : ℤ) (chatId : String) (stamp : Option String)
      (now : Instant)
  | issueLossCutConfirmation (firstNonce confirmationNonce : String) (actorChannel : Channel)
      (actorSubject : String) (now : Instant) (ttlSeconds : ℤ)
  | consumePublishedProposalCallback (callback : CallbackEnvelope ProposalDigest)
      (actorChannel : Channel) (actorSubject : String) (now : Instant)
  | acceptEvidenceForRung (rungIndex : ℤ) (evidence : FillEvidence) (now : Instant)
  | sweepStaleRung (rungIndex : ℤ) (now : Instant)

/-- The row after an operation; `none` when it raises without a write. -/
def RowOperation.run (proposalId : ProposalId) (group : OrderProposal) :
    RowOperation → Option OrderProposal
  | .transitionRung rungIndex newState audit =>
    (group.transitionRung rungIndex newState audit).toOption
  | .markNeedsReconfirm rungIndex now => (group.markNeedsReconfirm rungIndex now).toOption
  | .expireIfNeeded now => some (group.expireIfNeeded now).1
  | .expireRungIfNeeded rungIndex now =>
    ((group.expireRungIfNeeded rungIndex now).map Prod.fst).toOption
  | .expireMutableRungsIfNeeded now => (group.expireMutableRungsIfNeeded now).toOption
  | .restoreRungAfterPreSendBlock rungIndex now expired =>
    (group.restoreRungAfterPreSendBlock rungIndex now expired).toOption
  | .voidProposal request now => some (group.voidProposal request now).1
  | .recordLossGuardVerdict rungIndex error now =>
    some (group.recordLossGuardVerdict rungIndex error now)
  | .assertDispatchStillAuthorized now expectedNonce =>
    some (group.assertDispatchStillAuthorized now expectedNonce).1
  | .setApprovalNonce nonce requireRedispatchable =>
    (group.setApprovalNonce nonce requireRedispatchable).toOption
  | .clearApprovalNonce expectedNonce => (group.clearApprovalNonce expectedNonce).toOption
  | .restoreApprovalAfterWindowBlock nonce expired =>
    (group.restoreApprovalAfterWindowBlock nonce expired).toOption
  | .acquireCommitLease now leaseSeconds => group.acquireCommitLease now leaseSeconds
  | .recordApproval telegramUserId now => some (group.recordApproval telegramUserId now)
  | .recordChannelApproval channel actorSubject now =>
    (group.recordChannelApproval channel actorSubject now).toOption
  | .recordAutoApproval => some group.recordAutoApproval
  | .recordApprovalDispatch messageId chatId stamp now =>
    some (group.recordApprovalDispatch messageId chatId stamp now)
  | .issueLossCutConfirmation firstNonce confirmationNonce actorChannel actorSubject now
      ttlSeconds =>
      (OrderProposal.issueLossCutConfirmation proposalId group firstNonce confirmationNonce
        actorChannel actorSubject now ttlSeconds).toOption
  | .consumePublishedProposalCallback callback actorChannel actorSubject now =>
    (OrderProposal.consumePublishedProposalCallback proposalId group callback actorChannel
      actorSubject now).toOption
  | .acceptEvidenceForRung rungIndex evidence now =>
    if evidence.Reportable then (group.acceptEvidenceForRung rungIndex evidence now).toOption
    else none
  | .sweepStaleRung rungIndex now => (group.sweepStaleRung rungIndex now).toOption

inductive Operation where
  | createProposal (creation : ProposalCreation) (now : Instant)
  | onProposal (proposalId : ProposalId) (operation : RowOperation)
  | recordFillEvidence (evidence : FillEvidence) (now : Instant)
  | sweepExpired (now : Instant)
  | startApprovalDispatch (proposalId : ProposalId) (start : Store.DispatchStart)
      (now : Instant)
  | finishApprovalDispatch (proposalId : ProposalId) (attemptId : AttemptId)
      (publication : ApprovalPublication) (chatId stamp : Option String) (now : Instant)
  | finishWebApprovalDispatch (proposalId : ProposalId) (attemptId : AttemptId) (now : Instant)
  | registerApprovalBatchMember (proposalId : ProposalId) (draws : Store.BatchDraws)
      (chatId : String) (approvalMessageId : ℤ) (now : Instant) (windowSeconds ttlSeconds : ℤ)
      (summaryMemberThreshold : ℕ)
  | consumeApprovalBatchNonce (batchId : BatchId) (callback : CallbackEnvelope BatchDigest)
      (chatId telegramUserId : String) (now : Instant)
      (expectedMembers : Option (List (ProposalId × String)))
  | recordApprovalBatchPayload (batchId : BatchId) (attemptId : AttemptId) (payloadChars : ℤ)
  | finishApprovalBatchDispatch (batchId : BatchId) (attemptId : AttemptId)
      (publication : ApprovalPublication) (now : Instant)
  | releaseApprovalBatchSummaryClaim (batchId : BatchId)

def Store.recordFillEvidence (s : Store) (evidence : FillEvidence) (now : Instant) :
    Option Store :=
  if ¬ evidence.Reportable then none
  else
    match s.findRungByEvidence evidence with
    | none => some s
    | some (proposalId, rung) => do
        let group ← s.proposals.get? proposalId
        let after ← (group.acceptEvidence rung.rungIndex evidence now).toOption
        return s.putProposal proposalId after

/-- Perform an operation; `none` when it raises without a write. -/
def step (s : Store) : Operation → Option Store
  | .createProposal creation now => (s.createProposal creation now).toOption
  | .onProposal proposalId operation => do
      let group ← s.proposals.get? proposalId
      let after ← operation.run proposalId group
      return s.putProposal proposalId after
  | .recordFillEvidence evidence now => s.recordFillEvidence evidence now
  | .sweepExpired now => some (s.sweepExpired now).1
  | .startApprovalDispatch proposalId start now =>
    (s.startApprovalDispatch proposalId start now).toOption
  | .finishApprovalDispatch proposalId attemptId publication chatId stamp now =>
    ((s.finishApprovalDispatch proposalId attemptId publication chatId stamp now).map
      Prod.fst).toOption
  | .finishWebApprovalDispatch proposalId attemptId now =>
    (s.finishWebApprovalDispatch proposalId attemptId now).toOption
  | .registerApprovalBatchMember proposalId draws chatId approvalMessageId now windowSeconds
      ttlSeconds summaryMemberThreshold =>
      ((s.registerApprovalBatchMember proposalId draws chatId approvalMessageId now windowSeconds
        ttlSeconds summaryMemberThreshold).map Prod.fst).toOption
  | .consumeApprovalBatchNonce batchId callback chatId telegramUserId now expectedMembers =>
    ((s.consumeApprovalBatchNonce batchId callback chatId telegramUserId now
      expectedMembers).map Prod.fst).toOption
  | .recordApprovalBatchPayload batchId attemptId payloadChars =>
    (s.recordApprovalBatchPayload batchId attemptId payloadChars).toOption
  | .finishApprovalBatchDispatch batchId attemptId publication now =>
    ((s.finishApprovalBatchDispatch batchId attemptId publication now).map Prod.fst).toOption
  | .releaseApprovalBatchSummaryClaim batchId =>
    (s.releaseApprovalBatchSummaryClaim batchId).toOption

def Empty (s : Store) : Prop := s = {}

end KAssetTrader.Proposals
