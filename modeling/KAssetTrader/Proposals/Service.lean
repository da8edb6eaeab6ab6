import KAssetTrader.Proposals.Rows

/-!
What the service does to one proposal under its row lock: the transitions of a
rung, expiry and retirement, and the operations on the approval nonce. Most
operations check first and write last, and return the new row or raise. Expiry,
retirement and the check before a send can raise after a write; they return the
row as they leave it beside their result.
-/

namespace KAssetTrader.Proposals

open Unicode (strip)
open Checked

/-- The reasons of `proposal_approval_block_reason`. -/
inductive BlockReason where
  | supersededBy (newer : ProposalId)
  | supersededByUnknown
  | terminal (state : GroupState)

namespace BlockReason

def text : BlockReason → String
  | supersededBy newer => "proposal_superseded_by:" ++ newer
  | supersededByUnknown => "proposal_superseded_by:unknown"
  | terminal state => "proposal_terminal:" ++ state.value

/-- The text starts with `"proposal_superseded_by:"`. -/
def isSupersession : BlockReason → Bool
  | supersededBy _ | supersededByUnknown => true
  | terminal _ => false

end BlockReason

/-- `proposal_approval_block_reason`. -/
def approvalBlockReason (group : OrderProposal) : Option BlockReason :=
  match group.supersededByProposalId with
  | some newer => some (.supersededBy newer)
  | none =>
    if group.lifecycleState = .superseded then some .supersededByUnknown
    else if group.lifecycleState ∈ GroupState.approvalTerminal then
      some (.terminal group.lifecycleState)
    else none

/-- `_proposal_callback_block_reason`. -/
def callbackBlockReason (group : OrderProposal) (nonce : String) : Option String :=
  let reason := approvalBlockReason group
  if reason.any (·.isSupersession) then reason.map (·.text)
  else if group.approvalNonce = some nonce ∧ group.approvalNonceUsedAt ≠ none then
    some "nonce_replay"
  else reason.map (·.text)

inductive ApprovalWindowCode where
  | allow
  | expired
  | invalidValidUntil
  | deferSessionClosed
  | calendarUnknown
  | noExecutableWindow
  deriving DecidableEq

def ApprovalWindowCode.value : ApprovalWindowCode → String
  | allow => "ALLOW"
  | expired => "EXPIRED"
  | invalidValidUntil => "INVALID_VALID_UNTIL"
  | deferSessionClosed => "DEFER_SESSION_CLOSED"
  | calendarUnknown => "CALENDAR_UNKNOWN"
  | noExecutableWindow => "NO_EXECUTABLE_WINDOW"

/-- The value of `valid_until`. -/
inductive ValidUntil where
  | missing
  | invalidType
  | datetime (value : Datetime)

def ValidUntil.datetime? : ValidUntil → Option Datetime
  | .datetime value => some value
  | _ => none

def ValidUntil.instant? : ValidUntil → Option Instant
  | .datetime (.aware instant) => some instant
  | _ => none

/-- `valid_until_block`, of an aware instant. -/
def validUntilBlock (value : ValidUntil) (now : Instant) : Option (ApprovalWindowCode × String) :=
  match value with
  | .missing => some (.invalidValidUntil, "valid_until_missing")
  | .invalidType => some (.invalidValidUntil, "valid_until_invalid_type")
  | .datetime (.naive _) => some (.invalidValidUntil, "valid_until_naive")
  | .datetime (.aware deadline) =>
    if deadline ≤ now then some (.expired, "now_at_or_after_valid_until") else none

def OrderProposal.validUntil (group : OrderProposal) : ValidUntil :=
  (group.terms.validUntil.map fun deadline => .datetime (.aware deadline)).getD .missing

theorem validUntilBlock_eq_some {group : OrderProposal} {now : Instant}
    {block : ApprovalWindowCode × String} (h : validUntilBlock group.validUntil now = some block) :
    group.terms.validUntil = none ∧ block = (.invalidValidUntil, "valid_until_missing") ∨
      (∃ deadline ∈ group.terms.validUntil, deadline ≤ now) ∧
        block = (.expired, "now_at_or_after_valid_until") := by
  unfold OrderProposal.validUntil at h
  cases hvalid : group.terms.validUntil with
  | none =>
    rw [hvalid] at h
    exact .inl ⟨rfl, (Option.some.inj h).symm⟩
  | some deadline =>
    rw [hvalid] at h
    simp only [Option.map_some, Option.getD_some, validUntilBlock] at h
    split_ifs at h with hpassed
    exact .inr ⟨⟨deadline, rfl, hpassed⟩, (Option.some.inj h).symm⟩

def refuse (reason : Option String) : Except ProposalError Unit :=
  match reason with
  | some text => .error (.error text)
  | none => .ok ()

def validityRefusal (group : OrderProposal) (now : Instant) : Option String :=
  (validUntilBlock group.validUntil now).map fun block =>
    "approval_window:" ++ block.1.value ++ ":" ++ block.2

theorem refuse_bind_ok {reason : Option String} {β : Type}
    {next : Unit → Except ProposalError β} {b : β} :
    (refuse reason >>= next) = .ok b ↔ reason = none ∧ next () = .ok b := by
  cases reason with
  | none => simp [refuse]
  | some text => simp [refuse]

namespace OrderProposalRung

def setState (rung : OrderProposalRung) (state : RungState) (updatedAt : Instant) :
    OrderProposalRung :=
  { rung with state, trail := rung.state :: rung.trail, updatedAt }

end OrderProposalRung

/-- The columns written with a transition; `none` leaves a column as it is.
`updatedAt` is the caller's time, or the clock of the database. -/
structure RungAudit where
  updatedAt : Instant
  approvalRevision : Option ℤ := none
  approvalHashDigest : Option String := none
  idempotencyKey : Option String := none
  brokerOrderId : Option String := none
  correlationId : Option String := none
  validatedAt : Option Instant := none
  filledQty : Option Decimal := none
  voidReason : Option String := none

def OrderProposalRung.audited (rung : OrderProposalRung) (audit : RungAudit) :
    OrderProposalRung :=
  { rung with
    approvalRevision := audit.approvalRevision <|> rung.approvalRevision
    approvalHashDigest := audit.approvalHashDigest <|> rung.approvalHashDigest
    idempotencyKey := audit.idempotencyKey <|> rung.idempotencyKey
    brokerOrderId := audit.brokerOrderId <|> rung.brokerOrderId
    correlationId := audit.correlationId <|> rung.correlationId
    validatedAt := audit.validatedAt <|> rung.validatedAt
    filledQty := audit.filledQty <|> rung.filledQty
    voidReason := audit.voidReason <|> rung.voidReason
    updatedAt := audit.updatedAt }

namespace OrderProposal

/-- `update_rung`. -/
def putRung (group : OrderProposal) (rung : OrderProposalRung) : OrderProposal :=
  { group with
    rungs := group.rungs.map fun r => if r.rungIndex = rung.rungIndex then rung else r }

def rollUp (group : OrderProposal) : OrderProposal :=
  { group with lifecycleState := recomputeGroupState (group.rungs.map (·.state)) }

/-- The rung of `_get_locked_rung`. -/
def getRung (group : OrderProposal) (rungIndex : ℤ) : Except ProposalError OrderProposalRung :=
  match group.rungs.find? (·.rungIndex = rungIndex) with
  | some rung => .ok rung
  | none => .error (.notFound (toString rungIndex))

def transitionLockedRung (group : OrderProposal) (rung : OrderProposalRung)
    (newState : RungState) (audit : RungAudit) : Except ProposalError OrderProposal := do
  raiseIf (¬ rung.state.Allows newState) (.invalidStateTransition rung.state newState)
  return (group.putRung ((rung.setState newState audit.updatedAt).audited audit)).rollUp

def transitionRung (group : OrderProposal) (rungIndex : ℤ) (newState : RungState)
    (audit : RungAudit) : Except ProposalError OrderProposal := do
  let rung ← group.getRung rungIndex
  group.transitionLockedRung rung newState audit

def markNeedsReconfirm (group : OrderProposal) (rungIndex : ℤ) (now : Instant) :
    Except ProposalError OrderProposal := do
  let rung ← group.getRung rungIndex
  group.transitionLockedRung rung .needsReconfirm
    { updatedAt := now, validatedAt := now
      approvalRevision := some (rung.approvalRevision.getD 0 + 1) }

def recordUnverified (group : OrderProposal) (rungIndex : ℤ) (reason : String)
    (correlationId idempotencyKey : Option String) (now : Instant) :
    Except ProposalError OrderProposal :=
  group.transitionRung rungIndex .unverified
    { updatedAt := now, validatedAt := now, voidReason := reason, correlationId, idempotencyKey }

def recordCancelled (group : OrderProposal) (rungIndex : ℤ) (brokerOrderId : String)
    (now : Instant) : Except ProposalError OrderProposal :=
  group.transitionRung rungIndex .cancelled { updatedAt := now, validatedAt := now, brokerOrderId }

def recordRejected (group : OrderProposal) (rungIndex : ℤ) (reason : String) (now : Instant) :
    Except ProposalError OrderProposal :=
  group.transitionRung rungIndex .rejected { updatedAt := now, voidReason := reason }

end OrderProposal

/-- The loop that moves every rung in turn. A refused move raises with the
earlier ones made. -/
def moveEach (move : OrderProposalRung → OrderProposalRung) :
    List OrderProposalRung → List OrderProposalRung × Option ProposalError
  | [] => ([], none)
  | rung :: rest =>
    if rung.state.Allows (move rung).state then
      let moved := moveEach move rest
      (move rung :: moved.1, moved.2)
    else (rung :: rest, some (.invalidStateTransition rung.state (move rung).state))

namespace OrderProposal

def moveAll (group : OrderProposal) (move : OrderProposalRung → OrderProposalRung)
    (columns : OrderProposal → OrderProposal) : OrderProposal × Except ProposalError Unit :=
  let (rungs, refused) := moveEach move group.rungs
  match refused with
  | some error => ({ group with rungs }, .error error)
  | none => (columns ({ group with rungs }).rollUp, .ok ())

def invalidRung (group : OrderProposal) (states : List RungState) : Option OrderProposalRung :=
  group.rungs.find? (fun rung => rung.state ∉ states)

def describe (rung : OrderProposalRung) : String :=
  toString rung.rungIndex ++ " in state '" ++ rung.state.value ++ "'"

/-- `expire_if_needed`. A proposal without a deadline counts as due. -/
def expireIfNeeded (group : OrderProposal) (now : Instant) :
    OrderProposal × Except ProposalError Bool :=
  if group.terms.validUntil.any (fun deadline => decide (now < deadline)) then (group, .ok false)
  else
    match group.invalidRung RungState.voidable with
    | some rung =>
      (group, .error (.error ("cannot expire proposal with rung " ++ describe rung)))
    | none =>
      let (after, result) := group.moveAll (·.setState .expired now)
        fun g => { g with approvalNonce := none }
      (after, result.map fun _ => true)

def expireRungIfNeeded (group : OrderProposal) (rungIndex : ℤ) (now : Instant) :
    Except ProposalError (OrderProposal × Bool) := do
  let rung ← group.getRung rungIndex
  match validUntilBlock group.validUntil now with
  | some (.expired, _) =>
    if rung.state = .expired then return (group, true)
    raiseIf (rung.state ∉ RungState.voidable)
      (.error ("cannot expire proposal rung " ++ describe rung))
    let after := (group.putRung (rung.setState .expired now)).rollUp
    if after.rungs.all (fun r => decide (r.state ∈ RungState.localTerminal)) then
      return ({ after with approvalNonce := none }, true)
    return (after, true)
  | _ => return (group, false)

def expireMutableRungsIfNeeded (group : OrderProposal) (now : Instant) :
    Except ProposalError OrderProposal := do
  if validUntilBlock group.validUntil now = none then return group
  (group.rungs.filter (fun rung => rung.state ∈ RungState.voidable)).foldlM
    (fun g rung => do return (← g.expireRungIfNeeded rung.rungIndex now).1) group

def restoreRungAfterPreSendBlock (group : OrderProposal) (rungIndex : ℤ) (now : Instant)
    (expired : Bool) : Except ProposalError OrderProposal := do
  let rung ← group.getRung rungIndex
  let restored ←
    (if rung.state ∈ [RungState.revalidating, .approved, .submitting] then
      group.transitionLockedRung rung .pendingApproval { updatedAt := now }
    else pure group)
  if expired then return (← restored.expireRungIfNeeded rungIndex now).1
  return restored

end OrderProposal

inductive VoidAuthority where
  | selfCreated
  | serverLossGuardInvalid
  | serverExpired
  deriving DecidableEq

namespace VoidAuthority

def value : VoidAuthority → String
  | selfCreated => "self_created"
  | serverLossGuardInvalid => "server_loss_guard_invalid"
  | serverExpired => "server_expired"

/-- `_AUTHORITY_TERMINAL_STATE`. -/
def terminalState : VoidAuthority → RungState
  | selfCreated => .voided
  | serverLossGuardInvalid => .voided
  | serverExpired => .expired

end VoidAuthority

def clean (value : Option String) : Option String :=
  (value.map strip).filter (· ≠ "")

/-- `extract_loss_guard_violation` returns a violation. -/
def SourceAsof.lossGuardViolated (source : SourceAsof) : Bool :=
  source.lossGuardVerdict.any fun verdict =>
    verdict.violated && decide (clean verdict.source = some "server_revalidation")

def authorizeVoid (group : OrderProposal) (requesterAgentId : Option String) (now : Instant) :
    Option VoidAuthority :=
  let requester := clean requesterAgentId
  if requester ≠ none ∧ requester = clean group.sourceAsof.creatorAgentId then some .selfCreated
  else if group.sourceAsof.lossGuardViolated then some .serverLossGuardInvalid
  else if group.terms.validUntil.any (fun deadline => decide (deadline ≤ now)) then
    some .serverExpired
  else none

/-- The answer of the broker lookup: the outcome for each rung, and the summary
that is added to the reason. -/
structure BrokerEvidence where
  outcome : ℤ → Option String
  summary : String

structure TossLedgerRow where
  clientOrderId : Option String
  brokerOrderId : Option String
  status : String

def TossLedgerRow.Matches (row : TossLedgerRow) (rung : OrderProposalRung) : Bool :=
  let same (key : Option String) (column : Option String) :=
    key.any (fun k => decide (k ≠ "")) && decide (column = key)
  (row.brokerOrderId.isSome || row.status != "rejected") &&
    (same rung.idempotencyKey row.clientOrderId || same rung.brokerOrderId row.brokerOrderId)

def unverifiedVoidSettlementGrace : ℤ := seconds 300

/-- The arguments of `void_proposal`. `brokerEvidence` is `none` without a lookup;
a lookup can fail. -/
structure VoidRequest where
  reason : String
  requesterAgentId : Option String
  brokerEvidence : Option (Except String BrokerEvidence)
  ledger : List TossLedgerRow

/-- The part of `void_proposal` on unverified rungs: the broker and the ledger
must both know nothing of them. It returns the summary of the evidence. -/
def proveAbsence (group : OrderProposal) (request : VoidRequest) (now : Instant) :
    Except ProposalError String := do
  let unverified := group.rungs.filter (fun rung => rung.state = .unverified)
  if unverified = [] then return ""
  match request.brokerEvidence with
  | none => throw (.error "cannot void proposal without broker absence evidence")
  | some lookup =>
    raiseIf (∃ rung ∈ unverified, now - rung.updatedAt < unverifiedVoidSettlementGrace)
      (.error "cannot void proposal: broker settlement grace has not elapsed")
    match lookup with
    | .error text => throw (.error ("broker evidence lookup failed; refusing void: " ++ text))
    | .ok evidence =>
      unverified.forM fun rung => do
        match evidence.outcome rung.rungIndex with
        | none => throw (.error "broker evidence lookup incomplete; refusing void")
        | some "found" => throw (.error "cannot void proposal: broker order exists")
        | some outcome =>
          raiseIf (outcome ≠ "absent")
            (.error "cannot void proposal: broker absence is unverified")
          raiseIf (group.terms.accountMode = "toss_live" ∧
              request.ledger.any (·.Matches rung) = true)
            (.error "cannot void proposal: toss_live_order_ledger contains broker evidence")
      return " | broker_evidence: " ++ evidence.summary

namespace OrderProposal

/-- How `void_proposal` moves one rung. -/
def retireRung (authority : VoidAuthority) (auditReason : String) (now : Instant)
    (rung : OrderProposalRung) : OrderProposalRung :=
  if rung.state = .unverified then
    { rung.setState .voidedLocalStale now with voidReason := auditReason }
  else rung.setState authority.terminalState now

def voidProposal (group : OrderProposal) (request : VoidRequest) (now : Instant) :
    OrderProposal × Except ProposalError Unit :=
  let reason := strip request.reason
  if reason = "" then (group, .error (.error "void reason is required"))
  else
    match authorizeVoid group request.requesterAgentId now with
    | none => (group, .error .voidNotAuthorized)
    | some authority =>
      match group.invalidRung (.unverified :: RungState.voidable) with
      | some rung =>
        (group, .error (.error ("cannot void proposal with rung " ++ describe rung)))
      | none =>
        match proveAbsence group request now with
        | .error error => (group, .error error)
        | .ok summary =>
          let auditReason := reason ++ " [authority=" ++ authority.value ++ "]" ++ summary
          group.moveAll (retireRung authority auditReason now) fun g =>
            { g with
              voidReason := auditReason
              noResubmit := true
              approvalNonce := none
              approvalNonceUsedAt := now }

def recordLossGuardVerdict (group : OrderProposal) (rungIndex : ℤ) (error : Option String)
    (now : Instant) : OrderProposal :=
  let text := error.getD ""
  let verdict : LossGuardVerdict :=
    { violated := true
      source := "server_revalidation"
      observedAt := now
      rungIndex
      error := String.ofList (text.toList.take 500) }
  { group with sourceAsof := { group.sourceAsof with lossGuardVerdict := some verdict } }

/-- The reason for which `assert_dispatch_still_authorized` refuses. -/
def dispatchRefusal (group : OrderProposal) (now : Instant) (expectedNonce : Option String) :
    Option String :=
  ((approvalBlockReason group).map (·.text))
  <|> (if group.noResubmit then some "proposal_no_resubmit" else none)
  <|> ((validUntilBlock group.validUntil now).map fun block => "proposal_" ++ block.2)
  <|> (if group.sourceAsof.lossGuardViolated then some "proposal_loss_guard_invalid" else none)
  <|> (if expectedNonce ≠ none ∧ group.approvalNonce ≠ expectedNonce then
        some "approval_nonce_superseded"
      else none)

/-- `assert_dispatch_still_authorized`. A refusal burns the approval nonce. -/
def assertDispatchStillAuthorized (group : OrderProposal) (now : Instant)
    (expectedNonce : Option String) : OrderProposal × Except ProposalError Unit :=
  match group.dispatchRefusal now expectedNonce with
  | some reason =>
    ({ group with approvalNonce := none, approvalNonceUsedAt := some now },
      .error (.dispatchNoLongerAuthorized reason))
  | none => (group, .ok ())

end OrderProposal

end KAssetTrader.Proposals
