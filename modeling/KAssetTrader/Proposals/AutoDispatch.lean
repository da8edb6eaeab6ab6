import KAssetTrader.Proposals.AutoSubmit
import KAssetTrader.Proposals.TossFreeze

/-!
Dispatches of the automatic lane on one date in Seoul. A dispatch holds the lock of its
proposal, then the lock of its account and market while it reads what the day has been charged,
revalidates and submits; the locks and its writes end with its transaction. Any number of
dispatches interleave, and the rungs of a proposal that none of them holds are moved by other
flows. What went out is recorded beside, whether the transaction commits or not.
-/

namespace KAssetTrader.Proposals

open Transition

structure CapKey where
  accountMode : String
  market : String
  brokerAccountId : Option String
  deriving DecidableEq

def OrderProposal.capKey (group : OrderProposal) : CapKey where
  accountMode := group.terms.accountMode
  market := group.terms.market
  brokerAccountId := group.terms.brokerAccountId

/-- How far the transaction of a dispatch is. It first has the number of pending rungs, then
what the day has been charged. -/
inductive DispatchPhase where
  | idle
  | opened (proposalId : ProposalId) (pendingCount : ℕ) (now : Instant)
  | charged (proposalId : ProposalId) (pendingCount : ℕ) (now : Instant)
      (dailyNotional : Decimal)

/-- The committed rows with their automatic approvals, the advisory locks and the dispatches.
`sent` holds the orders that went out and were not refused, at what they can execute at. -/
structure CapWorld where
  proposals : Dict ProposalId OrderProposal
  approvals : ProposalId → Option AutoApproval
  dispatchLocks : Dict ProposalId ℕ := Dict.empty
  capLocks : Dict CapKey ℕ := Dict.empty
  workers : ℕ → DispatchPhase := fun _ => .idle
  sent : ProposalId → ℤ → Option Decimal := fun _ _ => none

/-- The answers of a submit: those to the revalidation, the texts of the proposal, and whether
the transaction fails after it, in the preparation of the card or at its commit. -/
structure SubmitInput where
  answers : AutoAnswers
  screening : Screening
  gateNow : Instant
  fails : Bool := false

inductive CapAction where
  | openDispatch (worker : ℕ) (proposalId : ProposalId) (now : Instant)
      (window : ApprovalWindowDecision) (frozen : Bool) (thesis : Option String)
  | readDaily (worker : ℕ)
  | submit (worker : ℕ) (input : SubmitInput)
  | abort (worker : ℕ)
  /-- Another flow moves a rung. -/
  | move (proposalId : ProposalId) (rungIndex : ℤ) (newState : RungState) (audit : RungAudit)

variable (policy : AutoApprovePolicy)

namespace CapWorld

variable (w : CapWorld)

def chargedBy (key : CapKey) (date : ℤ) (proposalId : ProposalId) (group : OrderProposal) :
    Decimal :=
  if group.capKey = key ∧ group.terms.action ≠ "cancel" then
    match w.approvals proposalId with
    | some record =>
      if kstDate record.approvedAt = date then (group.rungs.map record.chargedNotional).sum
      else 0
    | none => 0
  else 0

/-- `auto_approved_notional_between`, from one midnight to the next. -/
def autoApprovedNotional (key : CapKey) (date : ℤ) : Decimal :=
  w.proposals.total fun proposalId group => w.chargedBy key date proposalId group

/-- What the rungs of a proposal that went out, and are not rejected, add up to. -/
def sentBy (key : CapKey) (proposalId : ProposalId) (group : OrderProposal) : Decimal :=
  if group.capKey = key then
    (group.rungs.map fun rung =>
      if rung.state = .rejected then 0 else (w.sent proposalId rung.rungIndex).getD 0).sum
  else 0

/-- What the automatic lane has sent for an account and market. -/
def sentNotional (key : CapKey) : Decimal :=
  w.proposals.total fun proposalId group => w.sentBy key proposalId group

def released (i : ℕ) : CapWorld :=
  { w with
    dispatchLocks := w.dispatchLocks.filter fun _ holder => holder ≠ i
    capLocks := w.capLocks.filter fun _ holder => holder ≠ i
    workers := Function.update w.workers i .idle }

def putRow (proposalId : ProposalId) (group : OrderProposal) : CapWorld :=
  { w with proposals := w.proposals.set proposalId group }

/-- A dispatch up to the cap. It ends here when the window is closed, no rung is pending, or
the proposal is left to a click. -/
def openDispatch (i : ℕ) (proposalId : ProposalId) (now : Instant) (window : ApprovalWindowDecision)
    (frozen : Bool) (thesis : Option String) : Option CapWorld :=
  match w.workers i, w.dispatchLocks.get? proposalId, w.proposals.get? proposalId with
  | .idle, none, some group =>
    if ¬ window.allowed then
      if window.code = .expired then
        (group.expireMutableRungsIfNeeded window.observedAt).toOption.map fun after =>
          w.putRow proposalId after
      else some w
    else if group.pendingRungs = [] ∨ (policy.limitsForMarket group.terms.market).isNone ∨
        (group.terms.accountMode = "toss_live" ∧ frozen) ∨ thesis = none then some w
    else some
      { w with
        dispatchLocks := w.dispatchLocks.set proposalId i
        workers := Function.update w.workers i
          (.opened proposalId group.pendingRungs.length now) }
  | _, _, _ => none

/-- `auto_approved_daily_notional`, once the lock of the key is free. -/
def readDaily (i : ℕ) : Option CapWorld :=
  match w.workers i with
  | .opened proposalId pendingCount now =>
    match w.proposals.get? proposalId with
    | some group =>
      if w.capLocks.get? group.capKey = none then
        some
          { w with
            capLocks := w.capLocks.set group.capKey i
            workers := Function.update w.workers i
              (.charged proposalId pendingCount now
                (w.autoApprovedNotional group.capKey (kstDate now))) }
      else none
    | none => none
  | _ => none

def sending (proposalId : ProposalId) (rung : OrderProposalRung) (preview : Option Preview) :
    CapWorld :=
  { w with
    sent := Function.update w.sent proposalId
      (Function.update (w.sent proposalId) rung.rungIndex
        (some (rung.executionNotional (preview.bind (·.currentPrice))))) }

/-- The commit of a turn that reached the submit: it is recorded as an automatic approval when
the only pending rung is completed. -/
def completed (proposalId : ProposalId) (pendingCount : ℕ) (now : Instant)
    (limits : PolicyLimits) (gateNow : Instant) (rung : OrderProposalRung)
    (charge : CapCharge) (ended : SubmitEnd) : CapWorld :=
  if pendingCount = 1 ∧ ended.result ∈ autoCompletedResults ended.group.terms.action then
    { w.putRow proposalId ended.group.recordAutoApproval with
      approvals := Function.update w.approvals proposalId (some
        { approvedAt := now
          capObservations :=
            buildAutoApproveCapObservations limits [(rung.rungIndex, charge)] gateNow }) }
  else w.putRow proposalId ended.group

/-- The rest of a dispatch, from the revalidation to the end of its transaction. -/
def submit (i : ℕ) (input : SubmitInput) : Option CapWorld :=
  match w.workers i with
  | .charged proposalId pendingCount now dailyNotional => do
      let group ← w.proposals.get? proposalId
      let limits ← policy.limitsForMarket group.terms.market
      let gate (g : OrderProposal) (rung : OrderProposalRung) (preview : Preview) :=
        evaluateAutoApproveEligibility policy limits input.screening dailyNotional g rung preview
      match revalidateAndSubmit input.answers input.gateNow gate group with
      | .raised => return w.released i
      | .stopped after =>
        return if input.fails then w.released i else (w.released i).putRow proposalId after
      | .turned rung charge ended =>
        let out :=
          if ended.sent then (w.released i).sending proposalId rung input.answers.preview
          else w.released i
        return if input.fails then out
          else out.completed proposalId pendingCount now limits input.gateNow rung charge ended
  | _ => none

/-- A transaction that fails before the submit. -/
def abort (i : ℕ) : Option CapWorld :=
  match w.workers i with
  | .idle => none
  | _ => some (w.released i)

def moveRung (proposalId : ProposalId) (rungIndex : ℤ) (newState : RungState)
    (audit : RungAudit) : Option CapWorld :=
  match w.dispatchLocks.get? proposalId, w.proposals.get? proposalId with
  | none, some group =>
    (group.transitionRung rungIndex newState audit).toOption.map fun after =>
      w.putRow proposalId after
  | _, _ => none

def step (date : ℤ) : CapAction → Option CapWorld
  | .openDispatch i proposalId now window frozen thesis =>
    if kstDate now = date then w.openDispatch policy i proposalId now window frozen thesis
    else none
  | .readDaily i => w.readDaily i
  | .submit i input => w.submit policy i input
  | .abort i => w.abort i
  | .move proposalId rungIndex newState audit => w.moveRung proposalId rungIndex newState audit

/-- Any proposals with any records are there, each with its rungs under different indices. No
dispatch has begun. -/
def Start (w : CapWorld) : Prop :=
  ∃ (proposals : Dict ProposalId OrderProposal) (approvals : ProposalId → Option AutoApproval),
    (∀ proposalId group, proposals.get? proposalId = some group →
      (group.rungs.map (·.rungIndex)).Nodup) ∧ w = { proposals, approvals }

end CapWorld

end KAssetTrader.Proposals
