import KAssetTrader.Proposals.Service

/-!
The approval of a proposal: the nonce of its card, the one gate that every click
passes, the second nonce of a loss cut, and the record of who approved. A click
names the card it is on; the gate compares that with what the row says is
published.
-/

namespace KAssetTrader.Proposals

open Checked

section Gate

variable {δ : Type} [DecidableEq δ]

def assertCallbackGate (snapshot : CallbackGateSnapshot δ) (callback : CallbackEnvelope δ) :
    Except String Unit := do
  raiseIf (snapshot.subjectShort ≠ callback.subjectShort) "approval_callback_subject_mismatch"
  raiseIf (snapshot.state ≠ .sentCurrent) ("approval_dispatch_" ++ snapshot.state.value)
  raiseIf (snapshot.attemptId ≠ some callback.attemptId) "approval_dispatch_attempt_mismatch"
  raiseIf (snapshot.nonce ≠ some callback.nonce) "nonce_mismatch"
  raiseIf (snapshot.nonceUsed = true) "nonce_replay"
  raiseIf (snapshot.membershipRevision ≠ some callback.membershipRevision)
    "approval_membership_revision_mismatch"
  raiseIf (snapshot.membershipDigest ≠ some callback.membershipDigest)
    "approval_membership_digest_mismatch"
  raiseIf (¬ snapshot.cardKind.any (fun kind => decide (callback.action ∈ kind.actions)) = true)
    "approval_card_action_mismatch"

structure CallbackGateSnapshot.Admits (snapshot : CallbackGateSnapshot δ)
    (callback : CallbackEnvelope δ) : Prop where
  subject : snapshot.subjectShort = callback.subjectShort
  state : snapshot.state = .sentCurrent
  attemptId : snapshot.attemptId = some callback.attemptId
  nonce : snapshot.nonce = some callback.nonce
  unused : snapshot.nonceUsed = false
  revision : snapshot.membershipRevision = some callback.membershipRevision
  digest : snapshot.membershipDigest = some callback.membershipDigest
  action : ∃ kind, snapshot.cardKind = some kind ∧ callback.action ∈ kind.actions

theorem assertCallbackGate_ok {snapshot : CallbackGateSnapshot δ} {callback : CallbackEnvelope δ}
    {u : Unit} (h : assertCallbackGate snapshot callback = .ok u) : snapshot.Admits callback := by
  unfold assertCallbackGate at h
  simp only [raiseIf_bind_ok] at h
  obtain ⟨hsubject, hstate, hattempt, hnonce, hused, hrevision, hdigest, haction⟩ := h
  unfold raiseIf at haction
  split at haction
  · cases haction
  next hkind =>
    obtain ⟨kind, hsome, hmem⟩ := (Option.any_eq_true _ _).mp (not_not.mp hkind)
    exact
      { subject := not_not.mp hsubject
        state := not_not.mp hstate
        attemptId := not_not.mp hattempt
        nonce := not_not.mp hnonce
        unused := by simpa using hused
        revision := not_not.mp hrevision
        digest := not_not.mp hdigest
        action := ⟨kind, hsome, of_decide_eq_true hmem⟩ }

end Gate

/-- `ValueError` raised again as `OrderProposalError`. -/
def reraise {α : Type} (translate : String → String) (x : Except String α) :
    Except ProposalError α :=
  x.mapError fun text => .error (translate text)

namespace OrderProposal

def setApprovalNonce (group : OrderProposal) (nonce : String) (requireRedispatchable : Bool) :
    Except ProposalError OrderProposal := do
  refuse ((approvalBlockReason group).map (·.text))
  raiseIf (requireRedispatchable = true ∧ group.dispatch.state = some .pending)
    (.error "approval_dispatch_already_pending")
  raiseIf (requireRedispatchable = true ∧ group.dispatch.state = some .sentCurrent ∧
      group.approvalNonceUsedAt = none)
    (.error "approval_dispatch_already_current")
  return { group with
    approvalNonce := nonce
    approvalNonceUsedAt := none
    dispatch := { group.dispatch with
      state := some .failed
      publishedAt := none
      failureCode := some "approval_dispatch_snapshot_missing" } }

def clearApprovalNonce (group : OrderProposal) (expectedNonce : Option String) :
    Except ProposalError OrderProposal := do
  raiseIf (expectedNonce ≠ none ∧ group.approvalNonce ≠ expectedNonce) (.error "nonce_mismatch")
  return { group with approvalNonce := none, approvalNonceUsedAt := none }

def restoreApprovalAfterWindowBlock (group : OrderProposal) (nonce : String) (expired : Bool) :
    Except ProposalError OrderProposal := do
  raiseIf (group.approvalNonce ≠ none ∧ group.approvalNonce ≠ some nonce) (.error "nonce_mismatch")
  let unclicked (envelope : LossCutConfirmation) : LossCutConfirmation :=
    if envelope.nonce = nonce then { envelope with secondClick := none } else envelope
  return { group with
    sourceAsof := { group.sourceAsof with
      lossCutConfirmation := group.sourceAsof.lossCutConfirmation.map unclicked }
    approvalNonce := if expired then none else some nonce
    approvalNonceUsedAt := none
    approval := { group.approval with byTelegramUserId := none, approvedAt := none }
    commitLeaseUntil := none }

/-- `acquire_commit_lease`: `none` when the lease is held. -/
def acquireCommitLease (group : OrderProposal) (now : Instant) (leaseSeconds : ℤ := 10) :
    Option OrderProposal :=
  if group.commitLeaseUntil.any (fun until_ => decide (now < until_)) then none
  else some { group with commitLeaseUntil := some (now + seconds leaseSeconds) }

def recordApproval (group : OrderProposal) (telegramUserId : String) (now : Instant) :
    OrderProposal :=
  { group with
    approval :=
      { byTelegramUserId := some telegramUserId
        byChannel := some .telegram
        bySubject := some telegramUserId
        approvedAt := some now } }

def recordChannelApproval (group : OrderProposal) (channel : Channel) (actorSubject : String)
    (now : Instant) : Except ProposalError OrderProposal := do
  raiseIf (actorSubject = "") (.error "approval_actor_invalid")
  return { group with
    approval :=
      { byTelegramUserId := if channel = .telegram then some actorSubject else none
        byChannel := some channel
        bySubject := some actorSubject
        approvedAt := some now } }

/-- `record_auto_approval`, `record_auto_veto` and `record_auto_notification_failure`:
all leave a dictionary under `auto_approved`. -/
def recordAutoApproval (group : OrderProposal) : OrderProposal :=
  { group with sourceAsof := { group.sourceAsof with autoApproved := true } }

/-- `record_approval_dispatch`, which can not publish a card. -/
def recordApprovalDispatch (group : OrderProposal) (messageId : ℤ) (chatId : String)
    (approvalWindowPolicyStamp : Option String) (now : Instant) : OrderProposal :=
  { group with
    sourceAsof := { group.sourceAsof with
      approvalMessage := some ⟨some messageId, some chatId, now⟩
      approvalWindowPolicyStamp :=
        approvalWindowPolicyStamp <|> group.sourceAsof.approvalWindowPolicyStamp }
    dispatch := { group.dispatch with
      state := some .failed
      attemptedAt := group.dispatch.attemptedAt <|> some now
      publishedAt := none
      failureCode := some "approval_dispatch_snapshot_missing" }
    approvalNonce := none
    approvalNonceUsedAt := none }

/-- The indices and approval revisions of the rungs that a second click confirms. -/
def confirmationBinding (group : OrderProposal) : List (ℤ × ℤ) :=
  ((group.rungs.mergeSort fun a b => decide (a.rungIndex ≤ b.rungIndex)).filter
    (fun rung => rung.state ∈ RungState.confirmable)).map
    fun rung => (rung.rungIndex, rung.approvalRevision.getD 0)

def issueLossCutConfirmation (proposalId : ProposalId) (group : OrderProposal)
    (firstNonce confirmationNonce : String) (actorChannel : Channel) (actorSubject : String)
    (now : Instant) (ttlSeconds : ℤ := 90) : Except ProposalError OrderProposal := do
  raiseIf (group.terms.exitIntent ≠ some "loss_cut")
    (.error "loss_cut_confirmation_requires_loss_cut")
  raiseIf (group.approvalNonce ≠ some firstNonce ∨ group.approvalNonceUsedAt = none)
    (.error "loss_cut_first_nonce_not_consumed")
  raiseIf (actorSubject = "") (.error "loss_cut_confirmation_actor_invalid")
  raiseIf (group.confirmationBinding = []) (.error "loss_cut_confirmation_has_no_eligible_rungs")
  let envelope : LossCutConfirmation :=
    { proposalId
      rungs := group.confirmationBinding
      nonce := confirmationNonce
      issuedAt := now
      expiresAt := now + seconds ttlSeconds
      firstClick := ⟨actorChannel, actorSubject, now, firstNonce⟩
      secondClick := none }
  return { group with
    sourceAsof := { group.sourceAsof with lossCutConfirmation := some envelope }
    approvalNonce := some confirmationNonce
    approvalNonceUsedAt := none }

def validatedLossCutConfirmationSource (proposalId : ProposalId) (group : OrderProposal)
    (nonce : String) (actorChannel : Channel) (actorSubject : String) (now : Instant) :
    Except ProposalError SourceAsof := do
  match group.sourceAsof.lossCutConfirmation with
  | none => throw (.error "loss_cut_confirmation_missing")
  | some envelope =>
    raiseIf (envelope.expiresAt ≤ now) (.error "loss_cut_confirmation_expired")
    raiseIf (envelope.firstClick.actorChannel ≠ actorChannel ∨
        envelope.firstClick.actorSubject ≠ actorSubject)
      (.error "loss_cut_confirmation_principal_mismatch")
    raiseIf (envelope.proposalId ≠ proposalId ∨ envelope.nonce ≠ nonce ∨
        envelope.rungs ≠ group.confirmationBinding)
      (.error "loss_cut_confirmation_binding_mismatch")
    return { group.sourceAsof with
      lossCutConfirmation := some
        { envelope with secondClick := some ⟨actorChannel, actorSubject, now, nonce⟩ } }

def assertPublishedProposalBinding (proposalId : ProposalId) (group : OrderProposal)
    (callback : CallbackEnvelope ProposalDigest) : Except ProposalError ApprovalCardKind := do
  refuse (callbackBlockReason group callback.nonce)
  match group.dispatch.state with
  | none => throw (.error "approval_dispatch_state_invalid")
  | some state =>
    reraise id (assertCallbackGate
      { subjectShort := short proposalId
        state
        attemptId := group.dispatch.attemptId
        cardKind := group.dispatch.cardKind
        membershipRevision := group.dispatch.membershipRevision
        membershipDigest := group.dispatch.membershipDigest
        nonce := group.approvalNonce
        nonceUsed := group.approvalNonceUsedAt.isSome }
      callback)
    match group.dispatch.cardKind with
    | none => throw (.error "approval_dispatch_card_kind_invalid")
    | some kind =>
      raiseIf (kind = .autoVeto ∧ group.sourceAsof.autoApproved = false)
        (.error "auto_veto_not_available")
      raiseIf (kind ≠ .autoVeto ∧ group.sourceAsof.autoApproved = true)
        (.error "auto_veto_nonce_requires_vc")
      return kind

/-- `consume_published_proposal_callback`. The actor counts for the second click
of a loss cut only. -/
def consumePublishedProposalCallback (proposalId : ProposalId) (group : OrderProposal)
    (callback : CallbackEnvelope ProposalDigest) (actorChannel : Channel) (actorSubject : String)
    (now : Instant) : Except ProposalError OrderProposal := do
  let _ ← group.assertPublishedProposalBinding proposalId callback
  refuse (validityRefusal group now)
  let sourceAsof ←
    (if callback.action = .lc then
      group.validatedLossCutConfirmationSource proposalId callback.nonce actorChannel
        actorSubject now
    else pure group.sourceAsof)
  return { group with approvalNonceUsedAt := some now, sourceAsof }

def currentCallbackEnvelope (proposalId : ProposalId) (group : OrderProposal)
    (action : Inbox.CallbackAction) (nonce : String) :
    Except ProposalError (CallbackEnvelope ProposalDigest) :=
  match group.dispatch.attemptId, group.dispatch.membershipRevision,
    group.dispatch.membershipDigest with
  | some attemptId, some membershipRevision, some membershipDigest =>
    .ok
      { action
        subjectShort := short proposalId
        attemptId
        membershipRevision
        membershipDigest
        nonce }
  | _, _, _ => .error (.error "approval_dispatch_snapshot_missing")

def consumeApprovalNonce (proposalId : ProposalId) (group : OrderProposal) (nonce : String)
    (now : Instant) : Except ProposalError OrderProposal := do
  refuse (callbackBlockReason group nonce)
  refuse (validityRefusal group now)
  let callback ← group.currentCallbackEnvelope proposalId .op nonce
  group.consumePublishedProposalCallback proposalId callback .telegram "" now

/-- `consume_auto_veto_nonce` and `consume_loss_cut_confirmation`, by the action. -/
def consumeCurrentCallback (proposalId : ProposalId) (group : OrderProposal)
    (action : Inbox.CallbackAction) (nonce : String) (actorChannel : Channel)
    (actorSubject : String) (now : Instant) : Except ProposalError OrderProposal := do
  refuse (callbackBlockReason group nonce)
  let callback ← group.currentCallbackEnvelope proposalId action nonce
  group.consumePublishedProposalCallback proposalId callback actorChannel actorSubject now

end OrderProposal

def batchMemberBlockReason (group : OrderProposal) (now : Instant) : Option String :=
  ((approvalBlockReason group).map (·.text))
  <|> (if group.terms.exitIntent = some "loss_cut" then some "loss_cut_excluded" else none)
  <|> (if group.sourceAsof.autoApproved then some "auto_approved_excluded" else none)
  <|> (if group.dispatch.state ≠ some .sentCurrent then some "approval_dispatch_not_current"
      else none)
  <|> (if group.dispatch.cardKind ≠ some .manual ∧ group.dispatch.cardKind ≠ some .reconfirm then
        some "approval_card_kind_not_batchable"
      else none)
  <|> validityRefusal group now
  <|> (if group.approvalNonce = none ∨ group.approvalNonce = some "" then
        some "approval_nonce_missing"
      else none)
  <|> (if group.approvalNonceUsedAt ≠ none then some "approval_nonce_used" else none)
  <|> (if group.rungs.all (fun rung => decide (rung.state ≠ .pendingApproval)) then
        some "no_pending_approval_rungs"
      else none)

end KAssetTrader.Proposals
