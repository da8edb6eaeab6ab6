import KAssetTrader.Consumer.Orders
import KAssetTrader.Recommendation.Claims

/-!
Any number of consumers that execute one approved recommendation. A consumer
claims it, reads the claim back, looks for the order of the client id, submits
one when there is none, fills it and ends the recommendation. Every read of a
table and every commit is a step of its own, so another consumer can act, or
the consumer can crash, between any two of them. The verdicts of policy, risk
and quotes are inputs; so are the prices.
-/

namespace KAssetTrader.Consumer

open Position Recommendation Transition
open Paper (OrderSide CorrelationId)
open Unicode (strip)

structure Target where
  recommendationId : String
  ownerUserId : ℤ
  market : Market

def Target.clientOrderId (target : Target) : String := clientOrderIdOf target.recommendationId

/-- A claim as its consumer holds it: the token that it committed with the end
of its lease, and the token that it read back. -/
structure Claim where
  now : Instant
  committed : String
  leaseUntil : Instant
  token : String

/-- Where a consumer stands. `inSubmit` tells whether an exception is handled
by `run_once`, around its submit, or by `_reconcile_client_order`. -/
inductive Phase where
  | idle
  /-- The row is selected for update. -/
  | selected (now : Instant)
  /-- The attempts are used up, and the order has been read. -/
  | limitRead (now : Instant) (seen : Option AIRecommendation.OrderSeen)
  | committed (claim : Claim)
  | starting (claim : Claim)
  /-- No order was found: intent, expiry, preview and policy are judged. -/
  | checking (claim : Claim)
  /-- Still no order: the chase guard and the last assessment. -/
  | submitting (claim : Claim)
  | placing (claim : Claim)
  | placed (claim : Claim) (orderId : String)
  | conflicted (claim : Claim)
  | reconciling (claim : Claim) (inSubmit : Bool) (order : PaperOrder)
  | filling (claim : Claim) (inSubmit : Bool) (order : PaperOrder)
  /-- No trade was found for the order. -/
  | executing (claim : Claim) (inSubmit : Bool) (order : PaperOrder)
  /-- The execution was refused, and the order is to be rejected. -/
  | rejecting (claim : Claim) (inSubmit : Bool) (order : PaperOrder)
  /-- The trade was there already, and the execution is rolled back. -/
  | duplicate (claim : Claim) (inSubmit : Bool) (order : PaperOrder)
  | executed (claim : Claim) (inSubmit : Bool) (order : PaperOrder)
  | applying (claim : Claim) (inSubmit : Bool) (order : PaperOrder) (trade : PaperTrade)
  | applied (claim : Claim) (inSubmit : Bool) (order : PaperOrder)
  /-- The order is reconciled; its envelope is built. -/
  | settled (claim : Claim) (inSubmit : Bool) (order : PaperOrder)
  /-- An exception, with the order as it is in memory, when it is. -/
  | raised (claim : Claim) (inSubmit : Bool) (order : Option PaperOrder)
  | completing (claim : Claim) (orderId : String)
  | reconcilingCompletion (claim : Claim) (orderId : String)
  | failing (claim : Claim) (reason : String)

inductive Event where
  | select (now : Instant) (recommendationId : Option String) (automationOnly : Bool)
  | readOrder
  | commitClaim (token : String)
  | next
  | refuse (reason : String)
  | place (orderId : String) (quantity : Decimal)
  | execute (tradeId : ℤ) (totalCost : Decimal)
  | throw
  | complete (ambiguous : Bool)
  | reconcile (seen : AIRecommendation String)
  | fail
  | crash

inductive Write where
  | nothing
  | row (action : RowAction String)
  | insertOrder (order : PaperOrder)
  | insertTrade (trade : PaperTrade) (account : PaperAccount)
  | updateOrder (loaded modified : PaperOrder)

structure World where
  clock : Instant
  shared : SharedRow String
  orders : List PaperOrder
  trades : List PaperTrade
  account : PaperAccount
  consumers : ℕ → Phase

namespace World

variable (w : World)

/-- `get_by_client_order_id`. -/
def orderOfClient (clientOrderId : String) : Option PaperOrder :=
  w.orders.find? (·.clientOrderId = clientOrderId)

/-- `get`, and the refresh of an order. -/
def order (orderId : String) : Option PaperOrder := w.orders.find? (·.id = orderId)

/-- `_trade_by_correlation`. -/
def trade (correlationId : CorrelationId) : Option PaperTrade :=
  w.trades.find? (·.correlationId = correlationId)

def perform : Write → Option World
  | .nothing => some w
  | .row action => (w.shared.step action).map fun shared => { w with shared }
  | .insertOrder order => some { w with orders := w.orders ++ [order] }
  | .insertTrade trade account => some { w with trades := w.trades ++ [trade], account }
  | .updateOrder loaded modified =>
    some { w with orders := w.orders.map fun stored =>
      if stored.id = loaded.id then stored.flush loaded modified else stored }

end World

section Advance

/-- `_claim_lease_block_reason`: the token of a claim that can be used. -/
def usableToken (row : AIRecommendation String) (now : Instant) : Option String :=
  match row.paperExecutionToken, row.paperExecutionClaimedAt,
      row.paperExecutionLeaseExpiresAt with
  | some token, some claimedAt, some leaseExpiresAt =>
    if strip token ≠ "" ∧ 1 ≤ row.paperExecutionAttemptCount ∧ claimedAt < leaseExpiresAt ∧
        now < leaseExpiresAt then some token
    else none
  | _, _, _ => none

def sideOf (row : AIRecommendation String) : OrderSide :=
  if row.action = .buy then .buy else .sell

/-- The consumer lets go of everything it holds. -/
def Phase.release : Phase → Write
  | .selected _ => .row .rollback
  | .limitRead _ _ => .row .rollback
  | _ => .nothing

def Phase.thrown : Phase → Option Phase
  | .submitting c => some (.raised c true none)
  | .placing c => some (.raised c true none)
  | .placed c _ => some (.raised c true none)
  | .conflicted c => some (.raised c true none)
  | .reconciling c inSubmit order => some (.raised c inSubmit (some order))
  | .filling c inSubmit order => some (.raised c inSubmit (some order))
  | .executing c inSubmit order => some (.raised c inSubmit (some order))
  | .duplicate c inSubmit _ => some (.raised c inSubmit none)
  | .executed c inSubmit order => some (.raised c inSubmit (some order))
  | .applying c inSubmit order _ => some (.raised c inSubmit (some order))
  | .applied c inSubmit order => some (.raised c inSubmit (some order))
  | .settled c inSubmit order => some (.raised c inSubmit (some order))
  | _ => none

variable (target : Target) (w : World)

/-- `_reconcile_existing` reads the trade of an order that is still pending. -/
def reconcileExisting (c : Claim) (inSubmit : Bool) (order : PaperOrder) : Phase :=
  if order.status ≠ .pending then .settled c inSubmit order
  else match w.trade (.order order.id) with
    | some trade => .applying c inSubmit order trade
    | none => .filling c inSubmit order

/-- `_fill` executes an order for which it finds no trade. -/
def fill (c : Claim) (inSubmit : Bool) (order : PaperOrder) : Phase :=
  match w.trade order.correlationId with
  | some trade => .applying c inSubmit order trade
  | none => .executing c inSubmit order

def execute (c : Claim) (inSubmit : Bool) (order : PaperOrder) (tradeId : ℤ)
    (totalCost : Decimal) : Option (Phase × Write) :=
  match executeOrder target.market w.account order.side
      (order.quantity - order.filledQuantity) totalCost with
  | .error _ => some (.rejecting c inSubmit order, .nothing)
  | .ok (settled, account) =>
    if (w.trade order.correlationId).isSome then
      some (.duplicate c inSubmit order, .nothing)
    else if w.trades.all (·.id ≠ tradeId) then
      some (.executed c inSubmit order,
        .insertTrade { id := tradeId, correlationId := order.correlationId
                       quantity := settled } account)
    else none

/-- `_apply_trade_metadata`. -/
def applyTrade (c : Claim) (inSubmit : Bool) (order : PaperOrder) (trade : PaperTrade) :
    Phase × Write :=
  if order.hasTrade trade then (.settled c inSubmit order, .nothing)
  else match order.withTrade trade with
    | .error _ => (.raised c inSubmit (some order), .nothing)
    | .ok modified => (.applied c inSubmit modified, .updateOrder order modified)

/-- `_finish_order_result`, by the status in the result. -/
def finishOrder (c : Claim) (order : PaperOrder) : Phase :=
  match order.status with
  | .rejected => .failing c "paper_order_rejected"
  | .filled => .completing c order.id
  | _ => .idle

def lookUp (absent : Phase) (found : PaperOrder → Phase) : Phase :=
  match w.orderOfClient target.clientOrderId with
  | none => absent
  | some order => found order

def advance : Phase → Event → Option (Phase × Write)
  | .idle, .select now recommendationId automationOnly =>
    if now ≤ w.clock then
      some (.selected now, .row (.select target.ownerUserId now recommendationId automationOnly))
    else none
  | .selected now, .readOrder =>
    if paperExecutionMaxAttempts ≤ w.shared.row.paperExecutionAttemptCount then
      some (.limitRead now ((w.orderOfClient target.clientOrderId).map fun order =>
        { id := order.id, status := order.status.text }), .nothing)
    else none
  | .selected now, .commitClaim token =>
    -- The token is a fresh one of hexadecimal digits.
    if w.shared.row.paperExecutionAttemptCount < paperExecutionMaxAttempts ∧
        token ∉ w.shared.tokens ∧ strip token = token then
      some (.committed ⟨now, token, normalizedNow now + paperExecutionLease, token⟩,
        .row (.commitClaim none token))
    else none
  | .limitRead _ seen, .commitClaim token => some (.idle, .row (.commitClaim seen token))
  | .committed c, .next =>
    match usableToken w.shared.row c.now with
    | some token => some (.starting { c with token }, .nothing)
    | none => some (.idle, .nothing)
  | .starting c, .next => some (lookUp target w (.checking c) (.reconciling c false), .nothing)
  | .checking c, .next => some (lookUp target w (.submitting c) (.reconciling c false), .nothing)
  | .checking c, .refuse reason => some (.failing c reason, .nothing)
  | .submitting c, .next => some (lookUp target w (.placing c) (.reconciling c true), .nothing)
  | .submitting c, .refuse reason => some (.failing c reason, .nothing)
  | .placing c, .place orderId quantity =>
    if 0 < quantity ∧ w.orders.all (·.id ≠ orderId) then
      if (w.orderOfClient target.clientOrderId).isSome then some (.conflicted c, .nothing)
      else some (.placed c orderId, .insertOrder
        { id := orderId, clientOrderId := target.clientOrderId
          side := sideOf w.shared.row, quantity })
    else none
  | .placed c orderId, .next => (w.order orderId).map fun order => (.filling c true order, .nothing)
  | .conflicted c, .next =>
    some (lookUp target w (.raised c true none) (.reconciling c true), .nothing)
  | .reconciling c inSubmit order, .next =>
    some (reconcileExisting w c inSubmit order, .nothing)
  | .filling c inSubmit order, .next => some (fill w c inSubmit order, .nothing)
  | .executing c inSubmit order, .execute tradeId totalCost =>
    execute target w c inSubmit order tradeId totalCost
  | .rejecting c inSubmit order, .next =>
    some (.raised c inSubmit (some order.reject), .updateOrder order order.reject)
  | .duplicate c inSubmit order, .next =>
    match w.trade order.correlationId, w.order order.id with
    | some trade, some fresh => some (.applying c inSubmit fresh trade, .nothing)
    | _, _ => some (.raised c inSubmit none, .nothing)
  | .executed c inSubmit order, .next =>
    match w.trade order.correlationId with
    | some trade => some (.applying c inSubmit order trade, .nothing)
    | none => some (.raised c inSubmit (some order), .nothing)
  | .applying c inSubmit order trade, .next => some (applyTrade c inSubmit order trade)
  | .applied c inSubmit order, .next =>
    (w.order order.id).map fun fresh => (.settled c inSubmit fresh, .nothing)
  | .settled c _ order, .next => some (finishOrder c order, .nothing)
  | .raised c true _, .next => some (lookUp target w .idle (.reconciling c false), .nothing)
  | .raised c true _, .refuse reason =>
    some (lookUp target w (.failing c reason) (.reconciling c false), .nothing)
  | .raised c false order, .next =>
    match order.or (w.orderOfClient target.clientOrderId) with
    | some latest =>
      if latest.status = .rejected then some (.failing c "paper_order_rejected", .nothing)
      else some (.idle, .nothing)
    | none => some (.idle, .nothing)
  | .completing c orderId, .complete ambiguous =>
    some (if ambiguous then .reconcilingCompletion c orderId else .idle,
      .row (.complete target.ownerUserId target.recommendationId c.token orderId
        (w.order orderId).isSome c.now))
  | .reconcilingCompletion c orderId, .reconcile seen =>
    some (.idle, .row (.reconcile seen target.ownerUserId target.recommendationId c.token
      orderId (w.order orderId).isSome c.now))
  | .failing c reason, .fail =>
    some (.idle, .row (.fail target.ownerUserId target.recommendationId c.token reason c.now))
  | phase, .throw => phase.thrown.map fun raised => (raised, .nothing)
  | phase, .crash => some (.idle, phase.release)
  | _, _ => none

end Advance

/-- A step of the system: time passes, other orders change the account, or a
consumer takes a step. -/
inductive Action where
  | wait (now : Instant)
  | trade (account : PaperAccount)
  | consumer (i : ℕ) (event : Event)

namespace World

variable (target : Target) (w : World)

def step : Action → Option World
  | .wait now => if w.clock ≤ now then some { w with clock := now } else none
  | .trade account => some { w with account }
  | .consumer i event =>
    (advance target w (w.consumers i) event).bind fun (phase, write) =>
      (w.perform write).map fun t =>
        { t with consumers := Function.update t.consumers i phase }

/-- The recommendation is approved and not claimed, and has no order. -/
def Start : Prop :=
  w.shared.Created ∧ w.shared.row.decision = .approved ∧ w.orders = [] ∧ w.trades = [] ∧
    ∀ i, w.consumers i = .idle

end World

end KAssetTrader.Consumer
