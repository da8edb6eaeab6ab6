import KAssetTrader.Proposals.Operations

/-!
The interlock that stops automatic submissions of a Toss account once an order of it has
filled. Fill evidence writes it into the `auto_approved` record of the filled proposal, for the
session date of Seoul; a lookup before the next automatic submission releases it, or closes it
again, according to what the rungs and the Toss ledger prove at that moment. The rows and the
ledger are those of any run: the ledger is reconciled in between, and every database call of a
lookup may fail.
-/

namespace KAssetTrader.Proposals

open Transition
open Unicode (strip)

section Ledger

inductive LedgerOperation where
  | place
  | modify
  | cancel
  deriving DecidableEq

inductive LedgerStatus where
  | accepted
  | rejected
  | pending
  | partially
  | filled
  | cancelled
  | replaced
  | cancelRejected
  | replaceRejected
  | anomaly
  deriving DecidableEq

structure TossLiveOrderLedger where
  accountMode : String := "toss_live"
  operationKind : LedgerOperation
  market : String
  symbol : String
  side : String
  orderType : String
  quantity : Option Decimal
  price : Option Decimal
  clientOrderId : String
  brokerOrderId : Option String
  originalOrderId : Option String := none
  correlationId : Option String := none
  status : LedgerStatus
  brokerStatus : Option String
  filledQty : Option Decimal
  avgFillPrice : Option Decimal
  reconciledAt : Option Instant
  requiresManualReview : Bool := false
  manualReviewReason : Option String := none
  lastReconcileError : Option String := none

/-- `_TOSS_RESOLVED_MUTATION_SIBLING_STATUSES`. -/
def resolvedMutationSiblingStatuses : List LedgerStatus :=
  [.filled, .cancelled, .replaced, .rejected, .cancelRejected, .replaceRejected]

def tossLedgerMarket (market : String) : Option String :=
  if market = "equity_kr" then some "kr"
  else if market = "equity_us" then some "us"
  else none

def nonEmptyExactString (value : Option String) : Option String :=
  value.filter fun text => decide (text ≠ "" ∧ text = strip text)

def positiveDecimal (value : Option Decimal) : Option Decimal :=
  value.filter fun amount => decide (0 < amount)

def TossLiveOrderLedger.Clean (row : TossLiveOrderLedger) : Prop :=
  row.reconciledAt ≠ none ∧ row.requiresManualReview = false ∧ row.manualReviewReason = none ∧
    row.lastReconcileError = none

instance (row : TossLiveOrderLedger) : Decidable row.Clean :=
  inferInstanceAs (Decidable (_ ∧ _))

variable (ledger : List TossLiveOrderLedger)

def matchingTossPlaceLedgerRows (group : OrderProposal) (rung : OrderProposalRung) :
    List TossLiveOrderLedger :=
  match tossLedgerMarket group.terms.market, nonEmptyExactString rung.brokerOrderId,
      nonEmptyExactString rung.idempotencyKey with
  | some market, some brokerOrderId, some clientOrderId =>
    ledger.filter fun row => decide
      (row.accountMode = "toss_live" ∧ row.operationKind = .place ∧ row.market = market ∧
        row.symbol = group.terms.symbol ∧ row.brokerOrderId = some brokerOrderId ∧
        row.clientOrderId = clientOrderId ∧
        ∀ correlationId ∈ nonEmptyExactString rung.correlationId,
          row.correlationId = some correlationId)
  | _, _, _ => []

def hasUnresolvedTossMutationSibling (placeRow : TossLiveOrderLedger) : Bool :=
  match nonEmptyExactString placeRow.brokerOrderId with
  | none => true
  | some placeOrderId =>
    (ledger.filter fun row => decide
      (row.originalOrderId = some placeOrderId ∧
        row.operationKind ∈ [LedgerOperation.cancel, .modify])).any fun sibling =>
      decide (sibling.status ∉ resolvedMutationSiblingStatuses ∨ ¬ sibling.Clean)

/-- The one ledger row of a filled rung shows the normal fill of it. -/
def ledgerRowProves (group : OrderProposal) (rung : OrderProposalRung)
    (expectedQuantity limitPrice : Decimal) (row : TossLiveOrderLedger) : Bool :=
  decide (row.accountMode = "toss_live" ∧ row.operationKind = .place ∧
    tossLedgerMarket group.terms.market = some row.market ∧ row.symbol = group.terms.symbol ∧
    row.side = rung.side ∧ row.orderType = group.terms.orderType ∧ row.status = .filled ∧
    row.brokerStatus = some "FILLED" ∧ row.Clean) &&
  ! hasUnresolvedTossMutationSibling ledger row &&
  decide (positiveDecimal row.quantity = some expectedQuantity ∧
    positiveDecimal row.filledQty = some expectedQuantity ∧
    positiveDecimal row.price = some limitPrice) &&
  match positiveDecimal row.avgFillPrice with
  | none => false
  | some averageFillPrice =>
    ! decide (group.terms.side = "buy" ∧ limitPrice < averageFillPrice) &&
    ! decide (group.terms.side = "sell" ∧ averageFillPrice < limitPrice)

def rungReconciled (group : OrderProposal) (rung : OrderProposalRung) : Bool :=
  match positiveDecimal (some rung.quantity), positiveDecimal rung.filledQty,
      positiveDecimal rung.limitPrice with
  | some expectedQuantity, some filledQty, some limitPrice =>
    decide (filledQty = expectedQuantity ∧ rung.state = .filled ∧
      rung.side = group.terms.side) &&
    match matchingTossPlaceLedgerRows ledger group rung with
    | [row] => ledgerRowProves ledger group rung expectedQuantity limitPrice row
    | _ => false
  | _, _, _ => false

def isNormalTossFullFillReconciled (group : OrderProposal) : Bool :=
  decide ((tossLedgerMarket group.terms.market).isSome ∧ group.terms.action = "place" ∧
    group.terms.orderType = "limit" ∧ group.terms.side ∈ ["buy", "sell"] ∧ group.rungs ≠ []) &&
  group.rungs.all fun rung => rungReconciled ledger group rung

end Ledger

def kstDate (now : Instant) : ℤ := (now + seconds 32400) / seconds 86400

theorem kstDate_mono {before now : Instant} (h : before ≤ now) : kstDate before ≤ kstDate now := by
  unfold kstDate
  apply Int.ediv_le_ediv
  · decide
  · exact Int.add_le_add_right h _

inductive FreezeState where
  | frozen
  | resolved
  | unknown
  deriving DecidableEq

/-- What `session_date` holds: no date at all, a date that is written in another way than the
code writes it, or a date. -/
inductive SessionDate where
  | malformed
  | foreign
  | day (date : ℤ)
  deriving DecidableEq

structure FillFreeze where
  state : FreezeState
  reason : Option String
  filledQty : Option Decimal := none
  frozenAt : Option Instant := none
  sessionDate : SessionDate
  market : Option String
  resolution : Option (String × Instant) := none
  reopenedAt : Option Instant := none
  deriving DecidableEq

/-- The value under `toss_auto_submission_freeze`. -/
inductive FreezeEntry where
  | absent
  | malformed
  | freeze (freeze : FillFreeze)
  deriving DecidableEq

/-- The value under `auto_approved`. The last two are of a proposal whose `source_asof` has the
key but is no object, and of one where the value is no object. -/
inductive AutoApproved where
  | absent
  | object (entry : FreezeEntry)
  | sourceMalformed
  | malformed
  deriving DecidableEq

/-- `_toss_auto_submission_freeze_unavailable`. -/
def tossFreezeUnavailable (sessionDate : ℤ) (market : String) : FillFreeze where
  state := .frozen
  reason := some "toss_reconciliation_lookup_unavailable"
  sessionDate := .day sessionDate
  market := some market

/-- `_toss_freeze_is_current_session`. -/
def FillFreeze.isCurrentSession (freeze : FillFreeze) (sessionDate : ℤ) : Option Bool :=
  match freeze.sessionDate with
  | .malformed => none
  | .foreign => some false
  | .day date => some (decide (date = sessionDate))

/-- `_resolve_toss_auto_submission_freeze`. -/
def FillFreeze.resolve (freeze : FillFreeze) (now : Instant) : FillFreeze :=
  { freeze with
    state := .resolved
    resolution := some ("normal_full_fill_reconciled", now) }

/-- `_reopen_toss_auto_submission_freeze`. -/
def FillFreeze.reopen (freeze : FillFreeze) (now : Instant) : FillFreeze :=
  { freeze with
    state := .frozen
    reason := some "broker_fill_evidence"
    reopenedAt := some now }

/-- Evidence of a fill that concerns the automatic submissions of a Toss account. -/
def OrderProposal.Freezes (group : OrderProposal) (filledQty : Option Decimal) : Prop :=
  group.terms.accountMode = "toss_live" ∧ ∃ quantity ∈ filledQty, 0 < quantity

instance (group : OrderProposal) (filledQty : Option Decimal) :
    Decidable (group.Freezes filledQty) :=
  inferInstanceAs (Decidable (_ ∧ _))

/-- `_freeze_toss_auto_submission_on_fill`; `none` when it raises. -/
def AutoApproved.freezeOnFill (auto : AutoApproved) (group : OrderProposal)
    (filledQty : Option Decimal) (now : Instant) : Option AutoApproved :=
  if ¬ group.Freezes filledQty then some auto
  else
    let written : FillFreeze :=
      { state := .frozen
        reason := some "broker_fill_evidence"
        filledQty
        frozenAt := some now
        sessionDate := .day (kstDate now)
        market := some group.terms.market }
    match auto with
    | .absent | .malformed => some auto
    | .sourceMalformed => none
    | .object (.freeze existing) =>
      if existing.state = .frozen then some auto else some (.object (.freeze written))
    | .object _ => some (.object (.freeze written))

structure LookupFaults where
  listing : Bool := false
  reconciliation : List ProposalId := []
  update : List ProposalId := []

/-- `auto` holds the `auto_approved` values of the proposals. The positive fills of
automatically approved Toss proposals are recorded beside, with their times. -/
structure TossWorld where
  store : Store := {}
  auto : ProposalId → AutoApproved := fun _ => .absent
  ledger : List TossLiveOrderLedger := []
  clock : Instant
  fills : List (ProposalId × Instant) := []

/-- The order of the candidates is that in which the database returns them. -/
inductive TossAction where
  | recordFillEvidence (evidence : FillEvidence) (now : Instant)
  | recordFillEvidenceForRung (proposalId : ProposalId) (rungIndex : ℤ)
      (evidence : FillEvidence) (now : Instant)
  | lookup (group : OrderProposal) (now : Instant) (order : List ProposalId)
      (faults : LookupFaults)
  | reconcile (ledger : List TossLiveOrderLedger)

namespace TossWorld

variable (w : TossWorld)

def fill (proposalId : ProposalId) (group after : OrderProposal) (filledQty : Option Decimal)
    (now : Instant) : Option TossWorld := do
  let auto ← (w.auto proposalId).freezeOnFill group filledQty now
  return { w with
    store := w.store.putProposal proposalId after
    auto := Function.update w.auto proposalId auto
    clock := now
    fills :=
      match w.auto proposalId with
      | .object _ => if group.Freezes filledQty then (proposalId, now) :: w.fills else w.fills
      | _ => w.fills }

def recordFillEvidence (evidence : FillEvidence) (now : Instant) : Option TossWorld :=
  if ¬ evidence.Reportable then none
  else
    match w.store.findRungByEvidence evidence with
    | none => some { w with clock := now }
    | some (proposalId, rung) => do
        let group ← w.store.proposals.get? proposalId
        let locked ← (group.getRung rung.rungIndex).toOption
        if locked.state.Terminal then return { w with clock := now }
        let after ← (group.acceptEvidence rung.rungIndex evidence now).toOption
        w.fill proposalId group after evidence.filledQty now

/-- `record_fill_evidence_for_rung`, once its evidence identifies the rung. -/
def recordFillEvidenceForRung (proposalId : ProposalId) (rungIndex : ℤ)
    (evidence : FillEvidence) (now : Instant) : Option TossWorld :=
  if ¬ evidence.Reportable then none
  else do
    let group ← w.store.proposals.get? proposalId
    let locked ← (group.getRung rungIndex).toOption
    let after ← (group.acceptEvidenceForRung rungIndex evidence now).toOption
    if locked.state.Terminal then return { w with clock := now }
    w.fill proposalId group after evidence.filledQty now

/-- `list_groups_for_toss_auto_submission_freeze`. -/
def candidates (brokerAccountId : Option String) : List ProposalId :=
  (w.store.proposals.entries.filter fun entry => decide
    (entry.2.terms.accountMode = "toss_live" ∧ w.auto entry.1 ≠ .absent ∧
      entry.2.terms.brokerAccountId = brokerAccountId)).map Prod.fst

def normalFullFill (proposalId : ProposalId) : Bool :=
  (w.store.proposals.get? proposalId).any (isNormalTossFullFillReconciled w.ledger)

/-- One turn of the loop over the candidates: the freeze that it returns, if it does, and the
value that it leaves. -/
def inspectCandidate (market : String) (now : Instant) (faults : LookupFaults)
    (proposalId : ProposalId) (auto : AutoApproved) : Option FillFreeze × AutoApproved :=
  let unavailable := tossFreezeUnavailable (kstDate now) market
  match auto with
  | .absent | .object .absent => (none, auto)
  | .sourceMalformed | .malformed | .object .malformed => (some unavailable, auto)
  | .object (.freeze freeze) =>
    match freeze.isCurrentSession (kstDate now) with
    | none => (some unavailable, auto)
    | some false => (none, auto)
    | some true =>
      if freeze.state = .unknown ∨ proposalId ∈ faults.reconciliation then
        (some unavailable, auto)
      else if w.normalFullFill proposalId then
        if freeze.state = .frozen then
          if proposalId ∈ faults.update then (some unavailable, auto)
          else (none, .object (.freeze (freeze.resolve now)))
        else (none, auto)
      else if freeze.state = .resolved then
        if proposalId ∈ faults.update then (some unavailable, auto)
        else (some (freeze.reopen now), .object (.freeze (freeze.reopen now)))
      else (some freeze, auto)

def inspectCandidates (market : String) (now : Instant) (faults : LookupFaults) :
    List ProposalId → (ProposalId → AutoApproved) →
      Option FillFreeze × (ProposalId → AutoApproved)
  | [], auto => (none, auto)
  | proposalId :: rest, auto =>
    match w.inspectCandidate market now faults proposalId (auto proposalId) with
    | (some freeze, left) => (some freeze, Function.update auto proposalId left)
    | (none, left) =>
      inspectCandidates market now faults rest (Function.update auto proposalId left)

/-- `active_toss_auto_submission_freeze`, with what it leaves. -/
def activeTossAutoSubmissionFreeze (group : OrderProposal) (now : Instant)
    (order : List ProposalId) (faults : LookupFaults) : Option FillFreeze × TossWorld :=
  if group.terms.accountMode ≠ "toss_live" then (none, { w with clock := now })
  else if faults.listing then
    (some (tossFreezeUnavailable (kstDate now) group.terms.market), { w with clock := now })
  else
    let (answer, auto) := w.inspectCandidates group.terms.market now faults order w.auto
    (answer, { w with auto, clock := now })

/-- The clocks of the calls do not run backwards. -/
def step : TossAction → Option TossWorld
  | .recordFillEvidence evidence now =>
    if w.clock ≤ now then w.recordFillEvidence evidence now else none
  | .recordFillEvidenceForRung proposalId rungIndex evidence now =>
    if w.clock ≤ now then w.recordFillEvidenceForRung proposalId rungIndex evidence now
    else none
  | .lookup group now order faults =>
    if w.clock ≤ now ∧ order.Perm (w.candidates group.terms.brokerAccountId) then
      some (w.activeTossAutoSubmissionFreeze group now order faults).2
    else none
  | .reconcile ledger => some { w with ledger }

/-- Any proposals, freezes and ledger rows are there; no fill is recorded yet. -/
def Start (w : TossWorld) : Prop := w.fills = []

end TossWorld

end KAssetTrader.Proposals
