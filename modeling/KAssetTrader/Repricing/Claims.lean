import KAssetTrader.Library.Dict
import KAssetTrader.Library.Transition
import KAssetTrader.Recommendation.Row

/-!
The claim store of the repricing flow. A claim is a row: one generation of one watch
fire, held by the owner of its token until a lease runs out. Every function here is one
database statement on the table, or the Python that follows a statement; how statements
of several ticks interleave is the subject of the next module.
-/

namespace KAssetTrader.Repricing

open Unicode (strip)

abbrev EventUuid := ℕ

inductive ClaimLifecycle where
  | started
  | proposalCreated
  | rejectedWithReason
  | expiredUnprocessed
  | awaitingReconcile
  deriving DecidableEq

/-- `NON_RECLAIMABLE_STATES`. -/
def ClaimLifecycle.nonReclaimable : ClaimLifecycle → Bool
  | .proposalCreated | .rejectedWithReason | .awaitingReconcile => true
  | .started | .expiredUnprocessed => false

def present : Option String → Bool
  | none => false
  | some text => decide (strip text ≠ "")

/-- `SessionOutcome.__post_init__`. -/
def isComplete (state : ClaimLifecycle) (proposalId rejectionReason : Option String) : Bool :=
  match state with
  | .proposalCreated => present proposalId && rejectionReason.isNone
  | .rejectedWithReason => present rejectionReason && proposalId.isNone
  | .expiredUnprocessed | .awaitingReconcile =>
    decide (proposalId.getD "" = "") && decide (rejectionReason.getD "" = "")
  | .started => false

/-- What a session produced for one fire. An outcome that would resolve a fire to
nothing cannot be built. -/
structure SessionOutcome where
  state : ClaimLifecycle
  proposalId : Option String := none
  rejectionReason : Option String := none
  complete : isComplete state proposalId rejectionReason = true

theorem SessionOutcome.state_ne_started (outcome : SessionOutcome) : outcome.state ≠ .started := by
  intro h
  have hcomplete := outcome.complete
  rw [h] at hcomplete
  cases hcomplete

def awaitingReconcile : SessionOutcome where
  state := .awaitingReconcile
  complete := by decide

/-- Proof that a caller holds one generation of a claim. -/
structure ClaimHandle where
  eventUuid : EventUuid
  symbol : String
  generation : ℕ
  ownerToken : ℕ

/-- `WatchEventRepricingClaim`, less its primary key. -/
structure ClaimRow where
  eventUuid : EventUuid
  symbol : String
  market : String
  generation : ℕ
  ownerToken : ℕ
  claimedBy : String
  state : ClaimLifecycle
  proposalId : Option String := none
  rejectionReason : Option String := none
  claimedAt : Instant
  leaseExpiresAt : Instant
  finalisedAt : Option Instant := none

abbrev Claims := Dict ℕ ClaimRow

def ClaimRow.heldBy (row : ClaimRow) (handle : ClaimHandle) : Bool :=
  decide (row.eventUuid = handle.eventUuid ∧ row.generation = handle.generation ∧
    row.ownerToken = handle.ownerToken ∧ row.state = .started)

/-- A claim whose lease has run out before anything ended it. -/
def ClaimRow.lapsed (row : ClaimRow) (now : Instant) : Bool :=
  decide (row.state = .started ∧ row.leaseExpiresAt ≤ now)

def ClaimRow.expire (row : ClaimRow) (now : Instant) : ClaimRow :=
  { row with state := .expiredUnprocessed, finalisedAt := some now }

def ClaimRow.finalise (row : ClaimRow) (outcome : SessionOutcome) (now : Instant) : ClaimRow :=
  { row with
    state := outcome.state
    proposalId := outcome.proposalId
    rejectionReason := outcome.rejectionReason
    finalisedAt := some now }

section Statements

variable (rows : Claims)

/-- `_current_row`: the latest generation of an event. -/
def currentRow (event : EventUuid) : Option (ℕ × ClaimRow) :=
  (rows.entries.filter fun e => e.2.eventUuid = event).argmax fun e => e.2.generation

def activeSymbols (now : Instant) : List String :=
  (rows.values.filter fun row => row.state = .started && decide (now < row.leaseExpiresAt)).map
    (·.symbol)

/-- The one statement of `sweep_expired`. -/
def sweepExpired (now : Instant) : Claims :=
  rows.mapValues fun _ row => if row.lapsed now then row.expire now else row

/-- The conditional update of `try_claim`, by primary key. -/
def expireRow (id : ℕ) (now : Instant) : Claims :=
  rows.mapValues fun key row =>
    if key = id ∧ row.state = .started then row.expire now else row

inductive IntegrityError where
  | uniqueViolation

/-- Whether a row stands in the way of a new claim: the constraint on the event and its
generation, and the partial index of one started claim for each symbol. -/
def ClaimRow.conflicts (row new : ClaimRow) : Bool :=
  decide ((row.eventUuid = new.eventUuid ∧ row.generation = new.generation) ∨
    (row.state = .started ∧ row.symbol = new.symbol))

/-- The insert of a started claim under the unique indexes of the table. -/
def insertRow (id : ℕ) (new : ClaimRow) : Except IntegrityError Claims :=
  if rows.values.any fun row => row.conflicts new then .error .uniqueViolation
  else .ok (rows.set id new)

/-- A write from someone who no longer owns the claim. -/
inductive ClaimNotHeld where
  | notHeld

/-- `finalise`: write a terminal, fenced on the handle. -/
def finalise (handle : ClaimHandle) (outcome : SessionOutcome) (now : Instant) :
    Except ClaimNotHeld Claims :=
  if rows.values.any fun row => row.heldBy handle then
    .ok (rows.mapValues fun _ row =>
      if row.heldBy handle then row.finalise outcome now else row)
  else .error .notHeld

/-- `release`: delete the row of a claim that provably started nothing. -/
def release (handle : ClaimHandle) : Except ClaimNotHeld Claims :=
  if rows.values.any fun row => row.heldBy handle then
    .ok (rows.filter fun _ row => !row.heldBy handle)
  else .error .notHeld

end Statements

/-- The arguments of `try_claim`. -/
structure ClaimCall where
  eventUuid : EventUuid
  symbol : String
  market : String
  claimedBy : String
  now : Instant
  lease : ℤ

/-- How far the transaction of a `try_claim` has come: it will expire the lapsed claim it
has read, or insert the next generation, perhaps with a claim it has expired itself. -/
inductive Progress where
  | expiring (call : ClaimCall) (id generation : ℕ)
  | inserting (call : ClaimCall) (generation : ℕ) (expired : Option ℕ)

/-- The select of `try_claim` and what follows from the row it read; `none` when the
call returns without a claim. -/
def readLatest (rows : Claims) (call : ClaimCall) : Option Progress :=
  match currentRow rows call.eventUuid with
  | none => some (.inserting call 1 none)
  | some (id, latest) =>
    if latest.state = .started then
      if call.now < latest.leaseExpiresAt then none
      else some (.expiring call id latest.generation)
    else if latest.state.nonReclaimable then none
    else some (.inserting call (latest.generation + 1) none)

/-- Whether the conditional update matches the row that was read. -/
def expiryMatches (rows : Claims) (id : ℕ) : Bool :=
  (rows.get? id).any fun row => decide (row.state = .started)

/-- After the conditional update. The number of rows it matched is not looked at: the
transaction goes on to the insert either way. -/
def afterExpiry (rows : Claims) (call : ClaimCall) (id generation : ℕ) : Progress :=
  .inserting call (generation + 1) (if expiryMatches rows id then some id else none)

/-- The row that `try_claim` inserts. -/
def ClaimCall.row (call : ClaimCall) (generation ownerToken : ℕ) : ClaimRow where
  eventUuid := call.eventUuid
  symbol := call.symbol
  market := call.market
  generation := generation
  ownerToken := ownerToken
  claimedBy := call.claimedBy
  state := .started
  claimedAt := call.now
  leaseExpiresAt := call.now + call.lease

def ClaimCall.handle (call : ClaimCall) (generation ownerToken : ℕ) : ClaimHandle where
  eventUuid := call.eventUuid
  symbol := call.symbol
  generation := generation
  ownerToken := ownerToken

/-- The table as the transaction sees it before its insert. -/
def ownView (rows : Claims) (call : ClaimCall) : Option ℕ → Claims
  | none => rows
  | some id => expireRow rows id call.now

def commitClaim (rows : Claims) (nextId : ℕ) (call : ClaimCall) (generation : ℕ)
    (expired : Option ℕ) (ownerToken : ℕ) : Except IntegrityError Claims :=
  insertRow (ownView rows call expired) nextId (call.row generation ownerToken)

end KAssetTrader.Repricing
