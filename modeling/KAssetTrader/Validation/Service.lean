import Mathlib.Data.List.MinMax
import KAssetTrader.Library.Dict
import KAssetTrader.Library.Transition
import KAssetTrader.Validation.Lifecycle

/-!
`PaperValidationService` in its transactions. A call runs in a transaction of its own, as
the application composes it, one statement at a time; other transactions run between any
two statements and commit or roll back. A read sees the rows that are committed. The
advisory lock of a validation is held to the end of the transaction.
-/

namespace KAssetTrader.Validation

def stream (rows : List AuditRow) (validationId : String) : List PaperValidationStateTransition :=
  rows.filterMap fun
    | .transition event =>
      if event.identity.validationId = validationId then some event else none
    | _ => none

def latest (rows : List AuditRow) (validationId : String) :
    Option PaperValidationStateTransition :=
  (stream rows validationId).argmax (·.sequence)

/-- The row with the key of a request: `_by_idempotency` and its siblings. -/
def byIdempotency (rows : List AuditRow) (request : Request) : Option AuditRow :=
  rows.find? fun row => decide (row.Matches request)

def identityMatches (event : PaperValidationStateTransition) (identity : ValidationIdentity) :
    Bool :=
  decide (event.identity.validationVersion = identity.validationVersion ∧
    event.identity.experimentId = identity.experimentId ∧
    event.identity.strategyVersionId = identity.strategyVersionId ∧
    event.identity.cohortId = identity.cohortId ∧
    event.identity.experimentHash = identity.experimentHash ∧
    event.identity.cohortHash = identity.cohortHash ∧
    event.identity.strategyHash = identity.strategyHash ∧
    event.identity.configHash = identity.configHash ∧
    event.identity.policyHash = identity.policyHash ∧
    event.identity.inputHash = identity.inputHash)

abbrev Stamps := FrozenInputStamp × PolicyStamp

/-- What a call returns, or the reason of its error. -/
inductive Reply where
  | row (row : AuditRow)
  | authorization (authorization : PaperOrderAuthorization)
  | refused (reason : ReasonCode)
  deriving DecidableEq

inductive Phase where
  | starting
  | observing
  | stamping (identity : ValidationIdentity)
  | locking (identity : ValidationIdentity) (stamps : Stamps)
  | locked (identity : ValidationIdentity) (stamps : Stamps)
  | appending (identity : ValidationIdentity) (stamps : Stamps)
  | done (reply : Reply)
  deriving DecidableEq

/-- The transaction of a call, with the row that it has flushed. `began` holds the rows
that were committed when it began, which no statement reads. -/
structure Call where
  op : Operation
  actor : ActorIdentity
  phase : Phase
  staged : Option AuditRow := none
  began : List AuditRow := []

namespace Call

def refuse (call : Call) (reason : ReasonCode) : Call :=
  { call with phase := .done (.refused (call.op.raised reason)) }

def replay (call : Call) (request : Request) (row : AuditRow) : Call :=
  if row.columns.requestHash = (request, call.actor) then { call with phase := .done (.row row) }
  else call.refuse .idempotencyConflict

def start (call : Call) (rows : List AuditRow) : Call :=
  match call.op.request with
  | none => { call with phase := .observing }
  | some request =>
    match byIdempotency rows request with
    | some row => call.replay request row
    | none =>
      match request with
      | .transition request => { call with phase := .stamping request.identity }
      | _ => { call with phase := .observing }

/-- `_trusted_current` before the lock, and what is checked of it. -/
def observe (call : Call) (rows : List AuditRow) : Call :=
  match latest rows call.op.validationId with
  | none => call.refuse .validationNotFound
  | some observed =>
    match call.op with
    | .authorizeOrderSubmission identity =>
      if identityMatches observed identity = false then
        call.refuse .authorizationIdentityMismatch
      else if isOrderAuthorizable observed.newState = false then
        call.refuse .orderStateNotAuthorized
      else { call with phase := .stamping identity }
    | _ => { call with phase := .stamping observed.identity }

/-- The gate of a transition to `PROMOTION_ELIGIBLE`. -/
def promotionGate (frozen : FrozenInputStamp) : Option ReasonCode :=
  match frozen.promotionEligibility with
  | none => some .evidenceStampUnavailable
  | some evidence =>
    if evidence.deterministicGatePassed = false then some .promotionGateBlocked
    else if evidence.resolvedNegativeClassCount < 30 then some .calibrationGateBlocked
    else none

def target (call : Call) : Option ValidationState :=
  match call.op.request with
  | some (.transition request) => some request.targetState
  | _ => none

/-- `_resolve_evidence` on what the providers answer, and the gate. -/
def stamp (call : Call) (identity : ValidationIdentity) : Option Stamps → Call
  | none => call.refuse .evidenceStampUnavailable
  | some (frozen, policy) =>
    if frozen.contentHash ≠ identity.inputHash ∨ policy.contentHash ≠ identity.policyHash then
      call.refuse .evidenceHashMismatch
    else if call.target = some .promotionEligible then
      match promotionGate frozen with
      | some reason => call.refuse reason
      | none => { call with phase := .locking identity (frozen, policy) }
    else { call with phase := .locking identity (frozen, policy) }

/-- The second look for a replay, under the lock. -/
def recheck (call : Call) (identity : ValidationIdentity) (stamps : Stamps)
    (rows : List AuditRow) : Call :=
  match call.op.request with
  | none => { call with phase := .appending identity stamps }
  | some request =>
    match byIdempotency rows request with
    | some row => call.replay request row
    | none => { call with phase := .appending identity stamps }

def transitionRow (call : Call) (request : TransitionRequest) (stamps : Stamps)
    (latest : Option PaperValidationStateTransition) : PaperValidationStateTransition where
  identity := request.identity
  idempotencyKey := request.idempotencyKey
  requestHash := (.transition request, call.actor)
  actor := call.actor
  call := call.op
  sequence := match latest with
    | none => 1
    | some event => event.sequence + 1
  priorState := latest.map (·.newState)
  newState := request.targetState
  reasonCode := request.reasonCode
  reasonText := request.reasonText
  frozen := stamps.1
  policyVersion := stamps.2.version
  evidenceIds := (request.evidenceIds ++
    if request.targetState = .promotionEligible then
      (stamps.1.promotionEligibility.map (·.evidenceIds)).getD []
    else []).reverse.dedup.reverse

def append (call : Call) (row : AuditRow) : Call :=
  { call with phase := .done (.row row), staged := some row }

/-- The end of `_append_transition`. -/
def appendTransition (call : Call) (request : TransitionRequest) (stamps : Stamps)
    (rows : List AuditRow) : Call :=
  let latest := latest rows request.identity.validationId
  if latest.any fun event => !identityMatches event request.identity then
    call.refuse .experimentIdentityMismatch
  else if latest.map (·.newState) ≠ request.expectedPriorState then
    call.refuse .concurrentTransitionConflict
  else match decideTransition (latest.map (·.newState)) request.targetState with
  | some reason => call.refuse reason
  | none => call.append (.transition (call.transitionRow request stamps latest))

/-- The end of `append_hypothesis` and of `append_postmortem_review`. -/
def appendNarrative (call : Call) (request : Request) (identity : ValidationIdentity)
    (rows : List AuditRow) (row : AuditColumns → AuditRow) : Call :=
  match latest rows request.validationId with
  | none => call.refuse .validationNotFound
  | some event =>
    if identityMatches event identity = false then call.refuse .experimentIdentityMismatch
    else call.append (row
      { identity, idempotencyKey := request.idempotencyKey,
        requestHash := (request, call.actor), actor := call.actor, call := call.op })

/-- The end of `authorize_order_submission`. -/
def authorize (call : Call) (identity : ValidationIdentity) (stamps : Stamps)
    (rows : List AuditRow) : Call :=
  match latest rows identity.validationId with
  | none => call.refuse .validationNotFound
  | some event =>
    if identityMatches event identity = false then call.refuse .authorizationIdentityMismatch
    else if isOrderAuthorizable event.newState = false then call.refuse .orderStateNotAuthorized
    else { call with
      phase := .done (.authorization
        { identity, state := event.newState, actor := call.actor,
          inputBundleId := stamps.1.bundleId, policyVersion := stamps.2.version }) }

def finish (call : Call) (identity : ValidationIdentity) (stamps : Stamps)
    (rows : List AuditRow) : Call :=
  match call.op with
  | .transition request => call.appendTransition request stamps rows
  | .confirmPromotion confirmation => call.appendTransition confirmation.request stamps rows
  | .appendHypothesis request =>
    call.appendNarrative (.hypothesis request) identity rows fun columns =>
      .hypothesis { columns with draft := request }
  | .appendPostmortemReview request =>
    call.appendNarrative (.review request) identity rows fun columns =>
      .review { columns with review := request }
  | .authorizeOrderSubmission identity => call.authorize identity stamps rows

def read (call : Call) (rows : List AuditRow) : Option Call :=
  match call.phase with
  | .starting => some (call.start rows)
  | .observing => some (call.observe rows)
  | .locked identity stamps => some (call.recheck identity stamps rows)
  | .appending identity stamps => some (call.finish identity stamps rows)
  | _ => none

end Call

/-- The committed rows, in the order of their commits, the advisory locks with their
holders, and the open transactions. -/
structure ValidationSystem where
  rows : List AuditRow := []
  locks : Dict String ℕ := Dict.empty
  calls : Dict ℕ Call := Dict.empty

inductive ValidationAction where
  | begin (id : ℕ) (actor : ActorIdentity) (op : Operation)
  | read (id : ℕ)
  | stamp (id : ℕ) (answer : Option Stamps)
  | lock (id : ℕ)
  | commit (id : ℕ)
  | rollback (id : ℕ)

namespace ValidationSystem

def begun (w : ValidationSystem) (actor : ActorIdentity) (op : Operation) : Call :=
  let call : Call := { op, actor, phase := .starting, began := w.rows }
  match admission op actor with
  | none => call
  | some reason => call.refuse reason

def release (w : ValidationSystem) (id : ℕ) (rows : List AuditRow) : ValidationSystem where
  rows := rows
  locks := w.locks.filter fun _ holder => decide (holder ≠ id)
  calls := w.calls.erase id

def step (w : ValidationSystem) : ValidationAction → Option ValidationSystem
  | .begin id actor op =>
    if (w.calls.get? id).isSome then none
    else some { w with calls := w.calls.set id (w.begun actor op) }
  | .read id =>
    (w.calls.get? id).bind fun call =>
      (call.read w.rows).map fun call => { w with calls := w.calls.set id call }
  | .stamp id answer =>
    match w.calls.get? id with
    | some call =>
      match call.phase with
      | .stamping identity =>
        some { w with calls := w.calls.set id (call.stamp identity answer) }
      | _ => none
    | none => none
  | .lock id =>
    match w.calls.get? id with
    | some call =>
      match call.phase with
      | .locking identity stamps =>
        -- The lock waits for the end of the transaction that holds it.
        if (w.locks.get? call.op.validationId).isSome then none
        else some
          { w with
            locks := w.locks.set call.op.validationId id
            calls := w.calls.set id { call with phase := .locked identity stamps } }
      | _ => none
    | none => none
  | .commit id =>
    match w.calls.get? id with
    | some call =>
      match call.phase with
      | .done _ => some (w.release id (w.rows ++ call.staged.toList))
      | _ => none
    | none => none
  | .rollback id =>
    match w.calls.get? id with
    | some _ => some (w.release id w.rows)
    | none => none

end ValidationSystem

end KAssetTrader.Validation
