import KAssetTrader.Library.Unicode
import KAssetTrader.Proposals.AutoApprove
import KAssetTrader.Proposals.Operations

/-!
What the handlers of the clicks on Telegram cards read, and the revalidation of the pending
rungs of a proposal by the automatic lane, up to the submit. Every gate either lets the rung
pass or ends the turn with the row as it leaves it and an outcome. What the calendar, the
broker and the preview answer is given; the row is moved by the operations of the service. A
turn that reaches the submit says what went to the broker.
-/

namespace KAssetTrader.Proposals

open Checked

/-- What the handlers read of an `ApprovalWindowDecision`. -/
structure ApprovalWindowDecision where
  code : ApprovalWindowCode
  observedAt : Instant
  policyStamp : String

def ApprovalWindowDecision.allowed (decision : ApprovalWindowDecision) : Prop :=
  decision.code = .allow

instance (decision : ApprovalWindowDecision) : Decidable decision.allowed :=
  inferInstanceAs (Decidable (_ = _))

/-- Why a click is refused before any rung is revalidated. -/
inductive CallbackRefusal where
  | binding (error : ProposalError)
  | window (code : ApprovalWindowCode)
  | consumption (error : ProposalError)
  | leaseHeld

/-- How far a handler comes with a click. It refuses it and commits the row, it
raises and commits nothing, or it goes on with the row. -/
inductive Progress where
  | refused (reason : CallbackRefusal) (committed : OrderProposal)
  | raised
  | goesOn (now : Instant) (group : OrderProposal)

def Progress.refusal? : Progress → Option (CallbackRefusal × OrderProposal)
  | .refused reason committed => some (reason, committed)
  | .raised | .goesOn _ _ => none

theorem Progress.of_refusal? {progress : Progress} {reason : CallbackRefusal}
    {committed : OrderProposal} (h : progress.refusal? = some (reason, committed)) :
    progress = .refused reason committed := by
  cases progress with
  | refused reason' committed' =>
    cases h
    rfl
  | raised => cases h
  | goesOn now group => cases h

/-- The arguments of `_handle_approve`: the click, and what the approval window
says at its two evaluations. -/
structure ApproveClick where
  callback : CallbackEnvelope ProposalDigest
  telegramUserId : String
  firstWindow : ApprovalWindowDecision
  window : ApprovalWindowDecision

def ApproveClick.actorSubject (click : ApproveClick) : String :=
  if click.callback.action = .lc then click.telegramUserId else ""

namespace OrderProposal

def rejectWindowCallback (group : OrderProposal) (decision : ApprovalWindowDecision) : Progress :=
  if decision.code = .expired then
    match group.expireMutableRungsIfNeeded decision.observedAt with
    | .ok expired => .refused (.window decision.code) expired
    | .error _ => .raised
  else .refused (.window decision.code) group

/-- Rungs that an earlier click left for reconfirmation are pending again. -/
def reopenRungs (group : OrderProposal) (now : Instant) : Except ProposalError OrderProposal :=
  (group.rungs.filter (fun rung => rung.state = .needsReconfirm)).foldlM
    (fun g rung => g.transitionRung rung.rungIndex .pendingApproval { updatedAt := now }) group

/-- `_handle_approve` up to the call of `revalidate_fn`. The row is `seen` by the
preflight without a lock, and `group` when it is locked. -/
def handleApprove (proposalId : ProposalId) (group seen : OrderProposal) (click : ApproveClick) :
    Progress :=
  match seen.assertPublishedProposalBinding proposalId click.callback with
  | .error error => .refused (.binding error) group
  | .ok _ =>
    if ¬ click.firstWindow.allowed then group.rejectWindowCallback click.firstWindow
    else if ¬ click.window.allowed then group.rejectWindowCallback click.window
    else
      let approvalNow := click.window.observedAt
      match group.consumePublishedProposalCallback proposalId click.callback .telegram
        click.actorSubject approvalNow with
      | .error error => .refused (.consumption error) group
      | .ok consumed =>
        match consumed.acquireCommitLease approvalNow with
        | none => .refused .leaseHeld consumed
        | some leased =>
          match (leased.recordApproval click.telegramUserId approvalNow).reopenRungs
            approvalNow with
          | .error _ => .raised
          | .ok reopened => .goesOn approvalNow reopened

end OrderProposal

/-- `RungOutcomeResult`. -/
inductive RungResult where
  | submittedAcked
  | submittedResting
  | needsReconfirm
  | guardBlocked
  | unverified
  | error
  | cancelled
  | approvalRequired
  | expired
  | invalidValidUntil
  | deferSessionClosed
  | calendarUnknown
  | noExecutableWindow
  deriving DecidableEq

inductive SubmitStatus where
  | acked
  | resting

/-- A response to a submit, where an empty text counts as none. `success` is `none` when it is
neither true nor false, and the status when it is neither `acked` nor `resting`; `statusRepr` is
what `repr` writes of it. -/
structure SubmitResponse where
  success : Option Bool
  status : Option SubmitStatus := none
  statusRepr : String := "None"
  brokerOrderId : Option String := none
  correlationId : Option String := none
  idempotencyKey : Option String := none
  approvalHashDigest : Option String := none
  error : Option String := none

/-- The hook before the transport blocks, the call raises, or it returns. -/
inductive SubmitAnswer where
  | blocked (window : ApprovalWindowDecision)
  | raised (error : String)
  | answered (response : SubmitResponse)

def SubmitAnswer.Refused : SubmitAnswer → Prop
  | .blocked _ => True
  | .raised _ => False
  | .answered response => response.success = some false

/-- The broker takes the order and says how it stands. -/
def SubmitAnswer.Confirmed : SubmitAnswer → Prop
  | .answered response =>
    response.success = some true ∧ response.brokerOrderId ≠ none ∧ response.status ≠ none
  | .blocked _ | .raised _ => False

instance (answer : SubmitAnswer) : Decidable answer.Refused :=
  match answer with
  | .blocked _ => isTrue trivial
  | .raised _ => isFalse id
  | .answered _ => inferInstanceAs (Decidable (_ = _))

instance (answer : SubmitAnswer) : Decidable answer.Confirmed :=
  match answer with
  | .answered _ => inferInstanceAs (Decidable (_ ∧ _))
  | .blocked _ | .raised _ => isFalse id

inductive TargetAnswer where
  | evidenceInvalid (error : String)
  | fetchError
  | missing
  | mismatch (reason : String)
  | same

inductive CancelAnswer where
  | blocked (window : ApprovalWindowDecision)
  | rejected (reason : String)
  | unconfirmed (reason : String)
  | confirmed

inductive OppositePending where
  | clear
  | checkError
  | found

/-- What a turn is answered from outside. The approval window is evaluated several times. -/
structure AutoAnswers where
  window : ℕ → ApprovalWindowDecision
  preview : Option Preview
  /-- `_invalid_toss_preview_reason` gives a reason. -/
  invalidTossPreview : Bool := false
  buyingPowerShort : Bool := false
  target : TargetAnswer := .same
  oppositePending : OppositePending := .clear
  cancel : CancelAnswer := .confirmed
  correlationId : String
  clientOrderId : Option String
  clock : Instant
  submit : SubmitAnswer

section Turns

/-- A turn that ends before the submit: with the row and an outcome, or by an exception. -/
inductive AutoExit where
  | outcome (group : OrderProposal) (result : RungResult)
  | raised

abbrev AutoTurn := Except AutoExit

def callService {α : Type} (call : Except ProposalError α) : AutoTurn α :=
  call.mapError fun _ => .raised

/-- End the turn with the row that the service leaves. -/
def exitWith {α : Type} (call : Except ProposalError OrderProposal) (result : RungResult) :
    AutoTurn α := do
  let group ← callService call
  throw (.outcome group result)

/-- As `exitWith`, on a condition. -/
def leaveIf (condition : Prop) [Decidable condition] (call : Except ProposalError OrderProposal)
    (result : RungResult) : AutoTurn Unit :=
  if condition then exitWith call result else pure ()

def approvalWindowRungResult : ApprovalWindowCode → RungResult
  | .expired | .allow => .expired
  | .invalidValidUntil => .invalidValidUntil
  | .deferSessionClosed => .deferSessionClosed
  | .calendarUnknown => .calendarUnknown
  | .noExecutableWindow => .noExecutableWindow

namespace OrderProposal

/-- `_converge_window_block`, for a rung that has left `pending_approval`. -/
def convergeWindowBlock (group : OrderProposal) (rungIndex : ℤ)
    (decision : ApprovalWindowDecision) : Except ProposalError OrderProposal :=
  group.restoreRungAfterPreSendBlock rungIndex decision.observedAt
    (decide (decision.code = .expired))

def preMutationWindowGate (group : OrderProposal) (rungIndex : ℤ)
    (decision : ApprovalWindowDecision) : AutoTurn Unit :=
  leaveIf (¬ decision.allowed) (group.convergeWindowBlock rungIndex decision)
    (approvalWindowRungResult decision.code)

/-- The rung goes back to `pending_approval`. -/
def reopenRung (group : OrderProposal) (rungIndex : ℤ) (now : Instant) :
    Except ProposalError OrderProposal :=
  group.transitionRung rungIndex .pendingApproval { updatedAt := now }

def refusePreview (group : OrderProposal) (rungIndex : ℤ) (preview : Preview)
    (now clock : Instant) : Except ProposalError OrderProposal := do
  let reopened ← group.reopenRung rungIndex now
  if preview.guardBlocked ∧ preview.lossGuard then
    return reopened.recordLossGuardVerdict rungIndex preview.error clock
  else return reopened

def preSubmitLifecycleGate (group : OrderProposal) (rungIndex : ℤ) (expectedNonce : Option String)
    (clock : Instant) : AutoTurn Unit :=
  match group.assertDispatchStillAuthorized clock expectedNonce with
  | (_, .ok _) => pure ()
  | (burnt, .error _) =>
    match burnt.reopenRung rungIndex clock with
    | .ok reopened => throw (.outcome reopened .guardBlocked)
    | .error (.invalidStateTransition _ _) => throw (.outcome burnt .guardBlocked)
    | .error _ => throw .raised

end OrderProposal

/-- Where a turn ends that reaches the submit. `sent` holds when the order has gone out and is
not known to be rejected. -/
structure SubmitEnd where
  group : OrderProposal
  result : RungResult
  sent : Bool

def submitDiagnosticMaxLength : ℕ := 240

/-- A text on one line, cut to the length of a diagnostic. -/
def truncateSubmitDiagnostic (value : String) : String :=
  let compact := Unicode.joinWords value
  if submitDiagnosticMaxLength < compact.length then
    String.ofList (compact.toList.take (submitDiagnosticMaxLength - 1)) ++ "…"
  else compact

variable (answers : AutoAnswers) (now : Instant)

def classifySubmit (group : OrderProposal) (rungIndex : ℤ) (preview : Preview)
    (submit : SubmitResponse) : AutoTurn SubmitEnd := do
  let key := submit.idempotencyKey <|> preview.idempotencyKey
  if submit.success = some false then
    let rejected ← callService
      (group.recordRejected rungIndex (submit.error.getD "submit_rejected") now)
    return ⟨rejected, .error, false⟩
  else
    match submit.success, submit.brokerOrderId, submit.status with
    | some true, some brokerOrderId, some status =>
      let audit : RungAudit :=
        { updatedAt := now
          validatedAt := now
          brokerOrderId
          correlationId := submit.correlationId <|> some answers.correlationId
          idempotencyKey := key
          approvalHashDigest := submit.approvalHashDigest <|> preview.approvalHash }
      match status with
      | .acked =>
        let recorded ← callService (group.transitionRung rungIndex .acked audit)
        return ⟨recorded, .submittedAcked, true⟩
      | .resting =>
        let recorded ← callService (group.transitionRung rungIndex .resting audit)
        return ⟨recorded, .submittedResting, true⟩
    | _, _, _ =>
      let unverified ← callService (group.recordUnverified rungIndex
        ("ambiguous_submit_response:" ++
          truncateSubmitDiagnostic (submit.error.getD ("status=" ++ submit.statusRepr)))
        answers.correlationId
        (answers.clientOrderId <|> key) now)
      return ⟨unverified, .unverified, true⟩

/-- The submit and what is recorded of it; `onBlock` is what the block of the hook leaves. -/
def submitRung (group : OrderProposal) (rungIndex : ℤ) (preview : Preview)
    (onBlock : ApprovalWindowDecision → Except ProposalError OrderProposal) :
    AutoTurn SubmitEnd :=
  match answers.submit with
  | .blocked window => exitWith (onBlock window) (approvalWindowRungResult window.code)
  | .raised error => do
      let unverified ← callService (group.recordUnverified rungIndex
        ("submit_exception:" ++ error) answers.correlationId preview.idempotencyKey now)
      return ⟨unverified, .unverified, true⟩
  | .answered submit => classifySubmit answers now group rungIndex preview submit

/-- The preview asks for another price or quantity than the rung. -/
def rungMoved (rung : OrderProposalRung) (preview : Preview) : Prop :=
  preview.quantity ≠ some rung.quantity ∨
    rung.limitPrice ≠ none ∧ preview.price ≠ rung.limitPrice

instance (rung : OrderProposalRung) (preview : Preview) : Decidable (rungMoved rung preview) :=
  inferInstanceAs (Decidable (_ ∨ _))

def applyEligibilityGate (gate : OrderProposalRung → Preview → Except String CapCharge)
    (group : OrderProposal) (rung : OrderProposalRung) (preview : Preview) :
    AutoTurn CapCharge :=
  match gate rung preview with
  | .ok charge => pure charge
  | .error _ => exitWith (group.reopenRung rung.rungIndex now) .approvalRequired

variable (gate : OrderProposal → OrderProposalRung → Preview → Except String CapCharge)

def revalidatePlaceRung (group : OrderProposal) (rung : OrderProposalRung) :
    AutoTurn (CapCharge × SubmitEnd) := do
  let index := rung.rungIndex
  group.preMutationWindowGate index (answers.window 1)
  let revalidating ← callService
    (group.transitionRung index .revalidating { updatedAt := now })
  match answers.preview with
  | none => exitWith (revalidating.reopenRung index now) .error
  | some preview =>
    leaveIf (preview.success = some false)
      (revalidating.refusePreview index preview now answers.clock)
      (if preview.guardBlocked then .guardBlocked else .error)
    leaveIf (group.terms.accountMode = "toss_live" ∧ answers.invalidTossPreview)
      (revalidating.reopenRung index now) .error
    leaveIf (rungMoved rung preview) (revalidating.markNeedsReconfirm index now)
      .needsReconfirm
    let charge ← applyEligibilityGate now (gate group) revalidating rung preview
    revalidating.preMutationWindowGate index (answers.window 2)
    leaveIf (rung.side = "buy" ∧ rung.limitPrice ≠ none ∧ answers.buyingPowerShort)
      (revalidating.markNeedsReconfirm index now) .needsReconfirm
    revalidating.preMutationWindowGate index (answers.window 3)
    revalidating.preSubmitLifecycleGate index group.approvalNonce answers.clock
    let approved ← callService (revalidating.transitionRung index .approved { updatedAt := now })
    let submitting ← callService
      (approved.transitionRung index .submitting { updatedAt := now })
    let ended ← submitRung answers now submitting index preview fun window =>
      submitting.convergeWindowBlock index window
    return (charge, ended)

def validateTargetAction (group : OrderProposal) (rungIndex : ℤ) : AutoTurn OrderProposal := do
  let revalidating ← callService
    (group.transitionRung rungIndex .revalidating { updatedAt := now })
  match answers.target with
  | .evidenceInvalid error =>
    exitWith (revalidating.recordRejected rungIndex ("target_evidence_invalid:" ++ error) now)
      .error
  | .fetchError | .missing => exitWith (revalidating.reopenRung rungIndex now) .error
  | .mismatch reason => exitWith (revalidating.recordRejected rungIndex reason now) .error
  | .same => return revalidating

/-- `_cancel_and_confirm_target`; it returns the target. -/
def cancelAndConfirmTarget (group : OrderProposal) (rungIndex : ℤ) : AutoTurn String :=
  match group.terms.targetBrokerOrderId with
  | none =>
    exitWith (group.recordRejected rungIndex "target_broker_order_id_missing" now) .error
  | some targetId =>
    match answers.cancel with
    | .blocked window =>
      exitWith (group.convergeWindowBlock rungIndex window)
        (approvalWindowRungResult window.code)
    | .rejected reason => exitWith (group.recordRejected rungIndex reason now) .error
    | .unconfirmed reason =>
      exitWith (group.recordUnverified rungIndex reason none none now) .unverified
    | .confirmed => pure targetId

def revalidateReplaceRung (group : OrderProposal) (rung : OrderProposalRung) :
    AutoTurn (CapCharge × SubmitEnd) := do
  let index := rung.rungIndex
  group.preMutationWindowGate index (answers.window 1)
  let revalidating ← validateTargetAction answers now group index
  revalidating.preMutationWindowGate index (answers.window 2)
  match answers.preview with
  | none => exitWith (revalidating.reopenRung index now) .error
  | some preview =>
    leaveIf (preview.success = some false) (revalidating.reopenRung index now)
      (if preview.guardBlocked then .guardBlocked else .error)
    leaveIf (rungMoved rung preview) (revalidating.markNeedsReconfirm index now)
      .needsReconfirm
    let charge ← applyEligibilityGate now (gate group) revalidating rung preview
    revalidating.preMutationWindowGate index (answers.window 3)
    match answers.oppositePending with
    | .checkError => exitWith (revalidating.reopenRung index now) .error
    | .found => exitWith (revalidating.reopenRung index now) .guardBlocked
    | .clear =>
      revalidating.preMutationWindowGate index (answers.window 4)
      let approved ← callService
        (revalidating.transitionRung index .approved { updatedAt := now })
      let submitting ← callService
        (approved.transitionRung index .submitting { updatedAt := now })
      let targetId ← cancelAndConfirmTarget answers now submitting index
      let onBlock (window : ApprovalWindowDecision) :=
        submitting.recordCancelled index targetId window.observedAt
      leaveIf (¬ (answers.window 5).allowed) (onBlock (answers.window 5))
        (approvalWindowRungResult (answers.window 5).code)
      let ended ← submitRung answers now submitting index preview onBlock
      return (charge, ended)

def emptyPreview : Preview where
  success := none

/-- `_revalidate_cancel_rung`: nothing is sent. -/
def revalidateCancelRung (group : OrderProposal) (rung : OrderProposalRung) :
    AutoTurn (CapCharge × SubmitEnd) := do
  let index := rung.rungIndex
  group.preMutationWindowGate index (answers.window 1)
  let revalidating ← validateTargetAction answers now group index
  let charge ← applyEligibilityGate now (gate group) revalidating rung emptyPreview
  revalidating.preMutationWindowGate index (answers.window 2)
  let approved ← callService
    (revalidating.transitionRung index .approved { updatedAt := now })
  let submitting ← callService
    (approved.transitionRung index .submitting { updatedAt := now })
  let targetId ← cancelAndConfirmTarget answers now submitting index
  let cancelled ← callService (submitting.recordCancelled index targetId now)
  return (charge, ⟨cancelled, .cancelled, false⟩)

def revalidateRung (group : OrderProposal) (rung : OrderProposalRung) :
    AutoTurn (CapCharge × SubmitEnd) :=
  if group.terms.action = "replace" then revalidateReplaceRung answers now gate group rung
  else if group.terms.action = "cancel" then revalidateCancelRung answers now gate group rung
  else revalidatePlaceRung answers now gate group rung

end Turns

/-- Where the revalidation of a proposal ends. It has `turned` when the only pending rung
reached the submit. -/
inductive AutoRun where
  | raised
  | stopped (group : OrderProposal)
  | turned (rung : OrderProposalRung) (charge : CapCharge) (ended : SubmitEnd)

def OrderProposal.pendingRungs (group : OrderProposal) : List OrderProposalRung :=
  group.rungs.filter fun rung => rung.state = .pendingApproval

/-- `revalidate_and_submit` with the gate of the automatic lane. -/
def revalidateAndSubmit (answers : AutoAnswers) (now : Instant)
    (gate : OrderProposal → OrderProposalRung → Preview → Except String CapCharge)
    (group : OrderProposal) : AutoRun :=
  if (approvalBlockReason group).isSome then .stopped group
  else if ¬ (answers.window 0).allowed then
    let converge (g : OrderProposal) (rung : OrderProposalRung) :=
      if (answers.window 0).code = .expired then
        (g.expireRungIfNeeded rung.rungIndex (answers.window 0).observedAt).map Prod.fst
      else .ok g
    match group.pendingRungs.foldlM converge group with
    | .ok after => .stopped after
    | .error _ => .raised
  else
    match group.pendingRungs with
    | [rung] =>
      match revalidateRung answers now gate group rung with
      | .ok (charge, ended) => .turned rung charge ended
      | .error (.outcome after _) => .stopped after
      | .error .raised => .raised
    | _ => .stopped group

def autoCompletedResults (action : String) : List RungResult :=
  if action = "place" ∨ action = "replace" then [.submittedAcked, .submittedResting]
  else if action = "cancel" then [.cancelled]
  else []

end KAssetTrader.Proposals
