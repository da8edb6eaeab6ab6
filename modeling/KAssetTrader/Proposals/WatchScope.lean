import KAssetTrader.Library.ReadCommitted
import KAssetTrader.Proposals.Turns

/-!
The seam through which a watcher turns an alert into an order proposal. It inspects the scope
of the order under an advisory lock of its transaction, keeps a reservation of that inspection
in the service, and creates a proposal only from a reservation of the transaction that is
still open. Any number of workers, each a service with its session, run transactions; between
the calls of the seam a worker performs any operations of the service, and a transaction can
fail or be rolled back at any point.
-/

namespace KAssetTrader.Proposals

open Transition

structure ScopeKey where
  symbol : String
  market : String
  accountMode : String
  brokerAccountId : Option String
  deriving DecidableEq

structure WatchToOrderScope extends ScopeKey where
  action : String

def OrderProposal.scopeKey (group : OrderProposal) : ScopeKey where
  symbol := group.terms.symbol
  market := group.terms.market
  accountMode := group.terms.accountMode
  brokerAccountId := group.terms.brokerAccountId

def OrderProposal.Active (group : OrderProposal) : Prop :=
  ∃ rung ∈ group.rungs, ¬ rung.state.Terminal

instance (group : OrderProposal) : Decidable group.Active :=
  inferInstanceAs (Decidable (∃ rung ∈ group.rungs, _))

/-- `WatchToOrderScopeRung`. -/
structure ScopeRung where
  rungIndex : ℤ
  side : String
  state : RungState
  brokerOrderId : Option String
  correlationId : Option String

/-- `WatchToOrderScopeGroup`. -/
structure ScopeGroup where
  proposalId : ProposalId
  rootProposalId : ProposalId
  lifecycleState : GroupState
  action : String
  rungs : List ScopeRung

def scopeGroup (entry : ProposalId × OrderProposal) : ScopeGroup where
  proposalId := entry.1
  rootProposalId := entry.2.terms.rootProposalId
  lifecycleState := entry.2.lifecycleState
  action := entry.2.terms.action
  rungs := entry.2.rungs.map fun rung =>
    { rungIndex := rung.rungIndex
      side := rung.side
      state := rung.state
      brokerOrderId := rung.brokerOrderId
      correlationId := rung.correlationId }

/-- `list_active_watch_to_order_scope_groups`, with the rungs of each group. -/
def activeScopeGroups (rows : Dict ProposalId OrderProposal) (key : ScopeKey) : List ScopeGroup :=
  (rows.entries.filter fun entry => entry.2.scopeKey = key ∧ entry.2.Active).map scopeGroup

/-- `WatchToOrderScopeInspection`. -/
structure Inspection where
  scope : WatchToOrderScope
  lockAcquired : Bool
  activeGroups : List ScopeGroup
  lockFailureCode : Option String := none
  reservationToken : Option ℕ := none

/-- `_WatchToOrderScopeReservation`; a transaction is known by its number. -/
structure Reservation where
  token : ℕ
  transaction : ℕ
  activeGroupProposalIds : List ProposalId

def ProposalCreation.Requests (creation : ProposalCreation) (scope : WatchToOrderScope) : Prop :=
  creation.symbol = scope.symbol ∧ creation.market = scope.market ∧
    creation.accountMode = scope.accountMode ∧
    creation.brokerAccountId = scope.brokerAccountId ∧ creation.action = scope.action

instance (creation : ProposalCreation) (scope : WatchToOrderScope) :
    Decidable (creation.Requests scope) :=
  inferInstanceAs (Decidable (_ ∧ _))

/-- A transaction of a session that has not ended. A failed statement deactivates it; when
the connection is lost it still counts as active, but no statement succeeds. Either way the
database has rolled it back. -/
inductive TransactionState where
  | live
  | deactivated
  | lost
  deriving DecidableEq

structure SessionTransaction where
  id : ℕ
  state : TransactionState := .live

structure Worker where
  transaction : Option SessionTransaction := none
  reservations : Dict ScopeKey Reservation := Dict.empty

/-- The number of the transaction in which the statements of a worker succeed. -/
def Worker.live (worker : Worker) : Option ℕ :=
  match worker.transaction with
  | some ⟨id, .live⟩ => some id
  | _ => none

structure Issued where
  inspection : Inspection
  transaction : ℕ

structure Attempt where
  token : ℕ
  transaction : ℕ
  key : ScopeKey
  proposalId : ProposalId
  deriving DecidableEq

/-- The proposals with the transactions on them, the advisory locks by the worker that holds
them, and the workers. The identifiers of proposals are drawn afresh. What was inspected,
attempted and created through the seam is recorded beside. -/
structure WatchWorld where
  rows : Rows ProposalId OrderProposal := {}
  scopeLocks : Dict ScopeKey ℕ := Dict.empty
  workers : ℕ → Worker := fun _ => {}
  nextTransaction : ℕ := 0
  nextToken : ℕ := 0
  drawn : List ProposalId := []
  issued : List Issued := []
  attempts : List Attempt := []
  created : List Attempt := []

inductive WatchAction where
  | inspect (worker : ℕ) (scope : WatchToOrderScope)
  | create (worker : ℕ) (inspection : Inspection) (creation : ProposalCreation) (now : Instant)
  /-- Any operation of the service; `others` holds the other tables as it reads them. -/
  | operate (worker : ℕ) (others : Store) (operation : Operation)
  | commit (worker : ℕ)
  | rollback (worker : ℕ)
  | fail (worker : ℕ) (deactivated : Bool)

/-- The identifiers that an operation gives to new rows. -/
def Operation.draws : Operation → List ProposalId
  | .createProposal creation _ => [creation.proposalId]
  | _ => []

namespace WatchWorld

section Steps

variable (w : WatchWorld) (i : ℕ)

/-- The first statement of a session begins a transaction. -/
def begun : WatchWorld :=
  match (w.workers i).transaction with
  | some _ => w
  | none =>
    { w with
      workers := Function.update w.workers i
        { w.workers i with transaction := some { id := w.nextTransaction } }
      nextTransaction := w.nextTransaction + 1 }

def reserve (transaction : ℕ) (scope : WatchToOrderScope) : WatchWorld :=
  let groups := activeScopeGroups (w.rows.view i) scope.toScopeKey
  { w with
    scopeLocks := w.scopeLocks.set scope.toScopeKey i
    workers := Function.update w.workers i
      { w.workers i with
        reservations := (w.workers i).reservations.set scope.toScopeKey
          { token := w.nextToken
            transaction
            activeGroupProposalIds := groups.map (·.proposalId) } }
    nextToken := w.nextToken + 1
    issued := w.issued ++ [
      { inspection :=
          { scope
            lockAcquired := true
            activeGroups := groups
            reservationToken := some w.nextToken }
        transaction }] }

/-- The inspection that another worker's lock turns away. -/
def turnAway (transaction : ℕ) (scope : WatchToOrderScope) : WatchWorld :=
  { w with
    issued := w.issued ++ [
      { inspection :=
          { scope
            lockAcquired := false
            activeGroups := []
            lockFailureCode := some "watch_to_order_scope_lock_unavailable" }
        transaction }] }

/-- `inspect_watch_to_order_scope`. -/
def inspect (scope : WatchToOrderScope) : Option WatchWorld :=
  let w := w.begun i
  match (w.workers i).live with
  | none => none
  | some transaction =>
    if ∃ holder ∈ w.scopeLocks.get? scope.toScopeKey, holder ≠ i then
      some (w.turnAway transaction scope)
    else some (w.reserve i transaction scope)

/-- The reservation is used up before anything is validated or inserted. -/
def spend (key : ScopeKey) (attempt : Attempt) : WatchWorld :=
  { w with
    workers := Function.update w.workers i
      { w.workers i with reservations := (w.workers i).reservations.erase key }
    drawn := attempt.proposalId :: w.drawn
    attempts := w.attempts ++ [attempt] }

/-- `create_proposal_in_watch_to_order_scope`; not enabled where it refuses. -/
def create (inspection : Inspection) (creation : ProposalCreation) (now : Instant) :
    Option WatchWorld :=
  let key := inspection.scope.toScopeKey
  match (w.workers i).transaction, (w.workers i).reservations.get? key with
  | some transaction, some reservation =>
    if inspection.lockAcquired ∧ inspection.reservationToken = some reservation.token ∧
        reservation.transaction = transaction.id ∧ transaction.state ≠ .deactivated ∧
        creation.Requests inspection.scope ∧ reservation.activeGroupProposalIds = [] ∧
        creation.proposalId ∉ w.drawn then
      let attempt : Attempt :=
        { token := reservation.token
          transaction := transaction.id
          key
          proposalId := creation.proposalId }
      let spent := w.spend i key attempt
      if transaction.state = .lost then some spent
      else match ({ proposals := w.rows.view i } : Store).createProposal creation now with
        | .error _ => some spent
        | .ok store =>
          (w.rows.write i store.proposals).map fun rows =>
            { spent with
              rows
              created := spent.created ++ [attempt] }
    else none
  | _, _ => none

def operate (others : Store) (operation : Operation) : Option WatchWorld :=
  let w := w.begun i
  if (w.workers i).live.isSome ∧ ∀ id ∈ operation.draws, id ∉ w.drawn then do
    let after ← Proposals.step { others with proposals := w.rows.view i } operation
    let rows ← w.rows.write i after.proposals
    return { w with
      rows
      drawn := operation.draws ++ w.drawn }
  else none

/-- The world after a transaction has ended in the database, with `rows` as it leaves them. -/
def ended (rows : Rows ProposalId OrderProposal) (transaction : Option SessionTransaction) :
    WatchWorld :=
  { w with
    rows
    scopeLocks := w.scopeLocks.filter fun _ holder => holder ≠ i
    workers := Function.update w.workers i { w.workers i with transaction } }

def step : WatchAction → Option WatchWorld
  | .inspect i scope => w.inspect i scope
  | .create i inspection creation now => w.create i inspection creation now
  | .operate i others operation => w.operate i others operation
  | .commit i => (w.workers i).live.map fun _ => w.ended i (w.rows.commit i) none
  | .rollback i => (w.workers i).transaction.map fun _ => w.ended i (w.rows.rollback i) none
  | .fail i deactivated => (w.workers i).live.map fun id =>
    w.ended i (w.rows.rollback i)
      (some { id, state := if deactivated then .deactivated else .lost })

end Steps

/-- Proposals are there already; no worker has begun. -/
def Start (w : WatchWorld) : Prop :=
  ∃ committed : Dict ProposalId OrderProposal,
    (∀ id group, committed.get? id = some group → group.Kept) ∧
      w = { rows := { committed }, drawn := committed.keys }

end WatchWorld

end KAssetTrader.Proposals
