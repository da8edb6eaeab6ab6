import KAssetTrader.Proposals.Approvals

/-!
The publication of approval cards. A publication is started in one transaction
and finished in another; in between the card is sent. Whoever finishes must still
own the publication of the proposal, otherwise the card counts as superseded.
Batches are frozen before their own card is sent, and are consumed as a whole.
-/

namespace KAssetTrader.Proposals

open Checked

/-- `build_membership_digest` for the card of one proposal. -/
def proposalDigest (kind : ApprovalCardKind) (revision : ℤ) (proposalId : ProposalId)
    (nonce : Option String) : ProposalDigest :=
  ⟨kind, revision, proposalId, nonce⟩

namespace Store

def getProposal (s : Store) (proposalId : ProposalId) : Except ProposalError OrderProposal :=
  match s.proposals.get? proposalId with
  | some group => .ok group
  | none => .error (.notFound proposalId)

def putProposal (s : Store) (proposalId : ProposalId) (group : OrderProposal) : Store :=
  { s with proposals := s.proposals.set proposalId group }

def putAttempt (s : Store) (attemptId : AttemptId) (attempt : DispatchAttempt) : Store :=
  { s with attempts := s.attempts.set attemptId attempt }

def putBatch (s : Store) (batchId : BatchId) (batch : ApprovalBatch) : Store :=
  { s with batches := s.batches.set batchId batch }

/-- The arguments of `start_approval_dispatch`. -/
structure DispatchStart where
  attemptId : AttemptId
  binding : DispatchBinding ProposalDigest
  payloadChars : ℤ
  contextMessageCount : ℤ := 0
  channel : Channel := .telegram
  scopeHash : Option String := none
  evidenceHash : Option String := none
  publicationRefDigest : Option String := none

def supersedePrevious (s : Store) (previous : Option AttemptId) (attemptId : AttemptId) : Store :=
  match previous with
  | none => s
  | some earlier =>
    if earlier = attemptId then s
    else
      { s with
        attempts := s.attempts.modify earlier fun attempt =>
          if attempt.state = .sentCurrent then
            { attempt with
              state := .sentSuperseded
              failureCode := some "approval_dispatch_superseded" }
          else attempt }

def DispatchStart.attempt (start : DispatchStart) (proposalId : ProposalId) (now : Instant) :
    DispatchAttempt where
  proposalId
  state := .pending
  attemptedAt := now
  payloadChars := start.payloadChars
  cardKind := start.binding.cardKind
  channel := start.channel
  scopeHash := start.scopeHash
  evidenceHash := start.evidenceHash
  publicationRefDigest := start.publicationRefDigest
  membershipRevision := start.binding.membershipRevision
  membershipDigest := start.binding.membershipDigest

def DispatchStart.dispatch (start : DispatchStart) (now : Instant) : ApprovalDispatch where
  state := some .pending
  attemptId := some start.attemptId
  attemptedAt := some now
  publishedAt := none
  failureCode := none
  payloadChars := some start.payloadChars
  cardKind := some start.binding.cardKind
  channel := some start.channel
  scopeHash := start.scopeHash
  evidenceHash := start.evidenceHash
  membershipRevision := some start.binding.membershipRevision
  membershipDigest := some start.binding.membershipDigest

/-- `start_approval_dispatch`. The identifiers of attempts are unique. -/
def startApprovalDispatch (s : Store) (proposalId : ProposalId) (start : DispatchStart)
    (now : Instant) : Except ProposalError Store := do
  raiseIf (start.payloadChars < 0) (.valueError "payload_chars must be non-negative")
  raiseIf (start.contextMessageCount < 0)
    (.valueError "context_message_count must be non-negative")
  raiseIf (start.binding.attemptId ≠ start.attemptId)
    (.valueError "dispatch binding attempt_id mismatch")
  let group ← s.getProposal proposalId
  raiseIf (start.binding.membershipRevision ≠ group.dispatch.membershipRevision.getD 0 + 1)
    (.error "approval_membership_revision_not_next")
  raiseIf (start.binding.cardKind = .batch) (.error "proposal_dispatch_card_kind_invalid")
  raiseIf (start.binding.membershipDigest ≠ proposalDigest start.binding.cardKind
      start.binding.membershipRevision proposalId group.approvalNonce)
    (.error "approval_membership_digest_invalid")
  raiseIf ((s.attempts.get? start.attemptId).isSome = true)
    (.valueError "uq_order_proposal_approval_dispatch_attempt_id")
  let retired := s.supersedePrevious group.dispatch.attemptId start.attemptId
  let inserted := retired.putAttempt start.attemptId (start.attempt proposalId now)
  return inserted.putProposal proposalId { group with dispatch := start.dispatch now }

/-- The attempt is the pending publication of the proposal, with the nonce it
was started for. -/
def currentOwner (group : OrderProposal) (proposalId : ProposalId) (attemptId : AttemptId)
    (attempt : DispatchAttempt) : Prop :=
  group.dispatch.state = some .pending ∧
  group.dispatch.attemptId = some attemptId ∧
  group.dispatch.cardKind = some attempt.cardKind ∧
  group.dispatch.membershipRevision = some attempt.membershipRevision ∧
  group.dispatch.membershipDigest = some attempt.membershipDigest ∧
  proposalDigest attempt.cardKind attempt.membershipRevision proposalId group.approvalNonce =
    attempt.membershipDigest

instance (group : OrderProposal) (proposalId : ProposalId) (attemptId : AttemptId)
    (attempt : DispatchAttempt) : Decidable (currentOwner group proposalId attemptId attempt) :=
  inferInstanceAs (Decidable (_ ∧ _))

def pendingAttempt (s : Store) (proposalId : ProposalId) (attemptId : AttemptId)
    (channel : Channel) : Except ProposalError DispatchAttempt :=
  match s.attempts.get? attemptId with
  | none => .error (.error "approval_dispatch_attempt_not_found")
  | some attempt => do
      raiseIf (attempt.proposalId ≠ proposalId) (.error "approval_dispatch_attempt_not_found")
      raiseIf (attempt.channel ≠ channel) (.error "approval_dispatch_channel_mismatch")
      raiseIf (attempt.state ≠ .pending) (.error "approval_dispatch_attempt_already_finished")
      return attempt

def publicationOutcome (publication : ApprovalPublication) (owner snapshotMissing : Bool) :
    ApprovalDispatchState × Option String :=
  if ¬ owner then
    (if publication.cardPublished then .sentSuperseded else .failedSuperseded,
      some "approval_dispatch_superseded")
  else if snapshotMissing then (.failed, some "approval_dispatch_snapshot_missing")
  else if publication.cardPublished then (.sentCurrent, none)
  else
    (if publication.partialDelivery then .partialFailed else .failed,
      some (publication.failureCode.getD "telegram_dispatch_failed"))

/-- The row of the proposal whose own publication is finished. -/
def published (group : OrderProposal) (publication : ApprovalPublication)
    (outcome : ApprovalDispatchState × Option String) (chatId stamp : Option String)
    (now : Instant) : OrderProposal :=
  let dispatch :=
    { group.dispatch with
      state := some outcome.1
      failureCode := outcome.2
      payloadChars := some publication.payloadChars
      publishedAt := if outcome.1 = .sentCurrent then some now else none }
  if outcome.1 = .sentCurrent then
    { group with
      dispatch
      sourceAsof := { group.sourceAsof with
        approvalMessage := some ⟨publication.messageId, chatId, now⟩
        approvalWindowPolicyStamp := stamp <|> group.sourceAsof.approvalWindowPolicyStamp } }
  else { group with dispatch, approvalNonce := none, approvalNonceUsedAt := none }

def finishApprovalDispatch (s : Store) (proposalId : ProposalId) (attemptId : AttemptId)
    (publication : ApprovalPublication) (chatId stamp : Option String) (now : Instant) :
    Except ProposalError (Store × ApprovalDispatchState) := do
  let group ← s.getProposal proposalId
  let attempt ← s.pendingAttempt proposalId attemptId .telegram
  raiseIf (publication.cardPublished = true ∧ (publication.messageId = none ∨ chatId = none))
    (.error "successful dispatch requires message_id and chat_id")
  let owner := currentOwner group proposalId attemptId attempt ∧
    (group.dispatch.channel = some attempt.channel ∨
      (group.dispatch.channel = none ∧ attempt.channel = .telegram))
  let snapshotMissing := publication.cardPublished &&
    decide (group.approvalNonce = none ∨ group.approvalNonce = some "")
  let outcome := publicationOutcome publication (decide owner) snapshotMissing
  let finished := s.putAttempt attemptId
    { attempt with
      state := outcome.1
      completedAt := some now
      messageId := publication.messageId
      failureCode := outcome.2 }
  if owner then
    return (finished.putProposal proposalId
      (published group publication outcome chatId stamp now), outcome.1)
  return (finished, outcome.1)

def finishWebApprovalDispatch (s : Store) (proposalId : ProposalId) (attemptId : AttemptId)
    (now : Instant) : Except ProposalError Store := do
  let group ← s.getProposal proposalId
  let attempt ← s.pendingAttempt proposalId attemptId .web
  raiseIf (¬ (currentOwner group proposalId attemptId attempt ∧
      group.dispatch.channel = some .web ∧ group.approvalNonce ≠ none ∧
      group.approvalNonce ≠ some ""))
    (.error "approval_dispatch_sent_superseded")
  let finished := s.putAttempt attemptId
    { attempt with state := .sentCurrent, completedAt := some now }
  return finished.putProposal proposalId
    { group with
      dispatch := { group.dispatch with
        state := some .sentCurrent
        failureCode := none
        publishedAt := some now } }

def boundedBatchExpiry (now : Instant) (ttlSeconds : ℤ) (deadlines : List (Option Instant)) :
    Instant :=
  (deadlines.filterMap id).foldl min (now + seconds ttlSeconds)

/-- `list_approval_batch_members`. -/
def batchMembers (s : Store) (batchId : BatchId) : List ApprovalBatchMember :=
  (s.members.filter (·.batchId = batchId)).mergeSort fun a b => decide (a.addedAt ≤ b.addedAt)

/-- The last row of `get_open_approval_batch`. -/
def openBatch (s : Store) (chatId : String) (now : Instant) : Option (BatchId × ApprovalBatch) :=
  (s.batches.entries.filter fun entry =>
    let batch := entry.2
    decide (batch.chatId = chatId ∧ batch.approvalNonceUsedAt = none ∧
      batch.membershipFrozenAt = none ∧ batch.dispatchState = .pending ∧
      batch.summaryIdle = true ∧ batch.summaryMessageId = none ∧
      batch.dispatchAttemptId = none ∧ batch.membershipDigest = none ∧
      now < batch.windowClosesAt ∧ now < batch.expiresAt)).getLast?

def SnapshotCurrent (group : OrderProposal) (member : ApprovalBatchMember) : Prop :=
  group.approvalNonce = some member.approvalNonceSnapshot ∧
  group.dispatch.attemptId = member.dispatchAttemptIdSnapshot ∧
  group.dispatch.membershipRevision = member.membershipRevisionSnapshot ∧
  group.dispatch.membershipDigest = member.membershipDigestSnapshot ∧
  group.dispatch.cardKind = member.cardKindSnapshot

instance (group : OrderProposal) (member : ApprovalBatchMember) :
    Decidable (SnapshotCurrent group member) :=
  inferInstanceAs (Decidable (_ ∧ _))

def digestMember (member : ApprovalBatchMember) : BatchDigestMember where
  proposalId := member.proposalId
  approvalNonce := member.approvalNonceSnapshot
  approvalMessageId := member.approvalMessageId
  approvalDispatchAttemptId := member.dispatchAttemptIdSnapshot
  approvalMembershipRevision := member.membershipRevisionSnapshot
  approvalMembershipDigest := member.membershipDigestSnapshot

/-- The values that `register_approval_batch_member` draws at random. -/
structure BatchDraws where
  batchId : BatchId
  nonce : String
  attemptId : AttemptId

/-- The batch that takes a new member: the open one of the chat, or a new one. -/
def stagingBatch (s : Store) (group : OrderProposal) (draws : BatchDraws) (chatId : String)
    (now : Instant) (windowSeconds ttlSeconds : ℤ) : BatchId × ApprovalBatch :=
  (s.openBatch chatId now).getD
    (draws.batchId,
      { chatId
        windowStartedAt := now
        windowClosesAt := now + seconds windowSeconds
        expiresAt := boundedBatchExpiry now ttlSeconds [group.terms.validUntil]
        approvalNonce := draws.nonce })

/-- `register_approval_batch_member`. It returns the binding of the batch when
the batch has been frozen for its publication. -/
def registerApprovalBatchMember (s : Store) (proposalId : ProposalId) (draws : BatchDraws)
    (chatId : String) (approvalMessageId : ℤ) (now : Instant) (windowSeconds : ℤ := 600)
    (ttlSeconds : ℤ := 600) (summaryMemberThreshold : ℕ := 2) :
    Except ProposalError (Store × Option (DispatchBinding BatchDigest)) := do
  raiseIf (summaryMemberThreshold < 2)
    (.valueError "summary_member_threshold must be at least 2")
  let group ← s.getProposal proposalId
  if batchMemberBlockReason group now ≠ none then return (s, none)
  if s.members.any (fun m => decide (m.proposalId = proposalId ∧
      some m.approvalNonceSnapshot = group.approvalNonce)) then return (s, none)
  let staging := s.stagingBatch group draws chatId now windowSeconds ttlSeconds
  let batchId := staging.1
  let batch := staging.2
  raiseIf (s.openBatch chatId now = none ∧ (s.batches.get? draws.batchId).isSome = true)
    (.valueError "uq_order_proposal_approval_batches_batch_id")
  if (s.batchMembers batchId).any (fun m => decide (m.proposalId = proposalId)) then
    return (s.putBatch batchId batch, none)
  let member : ApprovalBatchMember :=
    { batchId
      proposalId
      approvalNonceSnapshot := group.approvalNonce.getD ""
      approvalMessageId
      addedAt := now
      dispatchAttemptIdSnapshot := group.dispatch.attemptId
      membershipRevisionSnapshot := group.dispatch.membershipRevision
      membershipDigestSnapshot := group.dispatch.membershipDigest
      cardKindSnapshot := group.dispatch.cardKind }
  let staged := { s with members := s.members ++ [member] }
  let members := staged.batchMembers batchId
  let deadlines := members.filterMap fun m =>
    (s.proposals.get? m.proposalId).map (·.terms.validUntil)
  let live := members.filter fun m => (s.proposals.get? m.proposalId).any fun g =>
    decide (SnapshotCurrent g m) && (batchMemberBlockReason g now).isNone
  let bounded := { batch with expiresAt := boundedBatchExpiry now ttlSeconds deadlines }
  if live.length < summaryMemberThreshold then return (staged.putBatch batchId bounded, none)
  let revision := batch.membershipRevision.getD 1
  let digest : BatchDigest := ⟨revision, live.map digestMember⟩
  let frozen := { bounded with
    dispatchState := .pending
    dispatchAttemptId := some draws.attemptId
    dispatchFailureCode := none
    membershipRevision := some revision
    membershipDigest := some digest
    membershipFrozenAt := some now
    summaryIdle := false }
  let marked := { staged with
    members := staged.members.map fun m =>
      if m ∈ live then { m with membershipRevision := some revision } else m }
  return (marked.putBatch batchId frozen,
    some ⟨draws.attemptId, .batch, revision, digest⟩)

def assertPublishedBatchBinding (batchId : BatchId) (batch : ApprovalBatch)
    (callback : CallbackEnvelope BatchDigest) (chatId : String) (now : Instant)
    (allowExpired : Bool := false) : Except ProposalError Unit := do
  raiseIf (batch.chatId ≠ chatId) (.error "approval_batch_chat_mismatch")
  reraise
    (fun reason =>
      if reason = "nonce_mismatch" then "approval_batch_nonce_mismatch"
      else if reason = "nonce_replay" then "approval_batch_nonce_replay"
      else reason)
    (assertCallbackGate
      { subjectShort := short batchId
        state := batch.dispatchState
        attemptId := batch.dispatchAttemptId
        cardKind := some .batch
        membershipRevision := batch.membershipRevision
        membershipDigest := batch.membershipDigest
        nonce := some batch.approvalNonce
        nonceUsed := batch.approvalNonceUsedAt.isSome }
      callback)
  raiseIf (allowExpired = false ∧ batch.expiresAt ≤ now) (.error "approval_batch_expired")

structure BatchMemberSnapshot where
  proposalId : ProposalId
  approvalNonce : String
  approvalMessageId : ℤ
  dispatchBinding : DispatchBinding ProposalDigest

def getBatch (s : Store) (batchId : BatchId) : Except ProposalError ApprovalBatch :=
  match s.batches.get? batchId with
  | some batch => .ok batch
  | none => .error (.error "approval_batch_not_found")

/-- The checks of `consume_approval_batch_nonce` on one member. -/
def consumableMember (s : Store) (now : Instant) (member : ApprovalBatchMember) :
    Except ProposalError BatchMemberSnapshot :=
  match s.proposals.get? member.proposalId with
  | none => .error (.error "approval_batch_member_snapshot_invalid")
  | some group => do
      refuse ((batchMemberBlockReason group now).map fun reason =>
        "approval_batch_member_stale:" ++ member.proposalId ++ ":" ++ reason)
      match member.cardKindSnapshot, member.dispatchAttemptIdSnapshot,
        member.membershipRevisionSnapshot, member.membershipDigestSnapshot with
      | some cardKind, some attemptId, some membershipRevision, some membershipDigest =>
        raiseIf (¬ SnapshotCurrent group member) (.error "approval_batch_membership_changed")
        return {
          proposalId := member.proposalId
          approvalNonce := member.approvalNonceSnapshot
          approvalMessageId := member.approvalMessageId
          dispatchBinding := ⟨attemptId, cardKind, membershipRevision, membershipDigest⟩ }
      | _, _, _, _ => throw (.error "approval_batch_member_snapshot_invalid")

def frozenMembers (s : Store) (batchId : BatchId) (revision : ℤ) : List ApprovalBatchMember :=
  (s.batchMembers batchId).filter (·.membershipRevision = some revision)

def consumeApprovalBatchNonce (s : Store) (batchId : BatchId)
    (callback : CallbackEnvelope BatchDigest) (chatId telegramUserId : String) (now : Instant)
    (expectedMembers : Option (List (ProposalId × String))) :
    Except ProposalError (Store × List BatchMemberSnapshot) := do
  let batch ← s.getBatch batchId
  assertPublishedBatchBinding batchId batch callback chatId now
  let members := s.frozenMembers batchId callback.membershipRevision
  raiseIf (members.length < 2) (.error "approval_batch_too_small")
  let snapshots ← members.mapM (s.consumableMember now)
  raiseIf (some (BatchDigest.mk callback.membershipRevision (members.map digestMember)) ≠
      batch.membershipDigest)
    (.error "approval_batch_membership_digest_mismatch")
  raiseIf (expectedMembers.any (fun expected =>
      decide (members.map (fun m => (m.proposalId, m.approvalNonceSnapshot)) ≠ expected)) = true)
    (.error "approval_batch_membership_changed")
  return (s.putBatch batchId
    { batch with
      approvalNonceUsedAt := some now
      approvedByTelegramUserId := some telegramUserId
      approvedAt := some now }, snapshots)

def recordApprovalBatchPayload (s : Store) (batchId : BatchId) (attemptId : AttemptId)
    (payloadChars : ℤ) : Except ProposalError Store := do
  let batch ← s.getBatch batchId
  raiseIf (batch.dispatchAttemptId ≠ some attemptId ∨ batch.dispatchState ≠ .pending)
    (.error "approval_batch_dispatch_owner_mismatch")
  return s.putBatch batchId { batch with dispatchPayloadChars := some payloadChars }

def finishApprovalBatchDispatch (s : Store) (batchId : BatchId) (attemptId : AttemptId)
    (publication : ApprovalPublication) (now : Instant) :
    Except ProposalError (Store × ApprovalDispatchState) := do
  let batch ← s.getBatch batchId
  let owner := batch.dispatchState = .pending ∧ batch.dispatchAttemptId = some attemptId ∧
    batch.membershipRevision ≠ none ∧ batch.membershipDigest ≠ none ∧
    batch.membershipFrozenAt ≠ none
  let outcome := publicationOutcome publication (decide owner) false
  if ¬ owner then return (s, outcome.1)
  return (s.putBatch batchId
    { batch with
      dispatchState := outcome.1
      dispatchPublishedAt := if outcome.1 = .sentCurrent then some now else none
      dispatchFailureCode := outcome.2
      dispatchPayloadChars := some publication.payloadChars
      summaryMessageId := if outcome.1 = .sentCurrent then publication.messageId else none
      summaryIdle := decide (outcome.1 ≠ .sentCurrent) }, outcome.1)

def releaseApprovalBatchSummaryClaim (s : Store) (batchId : BatchId) :
    Except ProposalError Store := do
  let batch ← s.getBatch batchId
  return s.putBatch batchId
    { batch with
      summaryIdle := true
      dispatchState := .failed
      dispatchFailureCode := some "approval_batch_dispatch_failed" }

end Store

end KAssetTrader.Proposals
