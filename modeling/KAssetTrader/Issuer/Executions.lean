import KAssetTrader.Issuer.HardRisk
import KAssetTrader.Library.Transition
import KAssetTrader.Position.State

/-!
Any number of executions of one owner's recommendations, started by the sweeps
or by an approval. A sweep holds the owner's lock while it executes; an approval
takes no lock. Each reads the positions, then the orders, is judged by the hard
risk policy, inserts its order and fills it, every step in a transaction of its
own. Prices, limits, usage, verdicts of other gates and fills are inputs.
-/

namespace KAssetTrader.Issuer

open Paper Position
open Watermark (AccountStateEvaluation)

def marketText : Market → String
  | .krx => "KRX"
  | .us => "US"

/-- A symbol of a market. The settlement book of the market gives the currency
of its orders and the instrument type of its positions. -/
abbrev Listing := Market × String

/-- Two listings that the issuer rule counts together. -/
def SameIssuer (a b : Listing) : Prop :=
  a.1 = b.1 ∧ issuerSymbolFilter a.2 (marketText a.1) b.2

instance (a b : Listing) : Decidable (SameIssuer a b) := inferInstanceAs (Decidable (_ ∧ _))

section SameIssuer

variable {a b c : Listing}

theorem SameIssuer.symm (h : SameIssuer a b) : SameIssuer b a := by
  obtain ⟨hmarket, hfilter⟩ := h
  exact ⟨hmarket.symm, hmarket ▸ issuerSymbolFilter_symm hfilter⟩

end SameIssuer

/-- `trading_day_start`: the local midnight of the settlement book. -/
structure TradingDays where
  start : Market → Instant → Instant
  start_le : ∀ market now, start market now ≤ now
  start_mono : ∀ market, Monotone (start market)

/-- What started an execution: `run_paper_automation_once` or
`run_approved_recommendation_once`. -/
inductive Entry where
  | scheduled
  | approved
  deriving DecidableEq

structure OrderRequest where
  clientOrderId : String
  market : Market
  symbol : String
  side : OrderSide
  quantity : Decimal

/-- An execution; `fitted` once its quantity has been cut to the budget. -/
structure Execution where
  entry : Entry
  now : Instant
  request : OrderRequest
  fitted : Bool := false

def Execution.listing (run : Execution) : Listing := (run.request.market, run.request.symbol)

/-- The columns of `AndroidPaperOrder` that the issuer rule reads; `entry` records what placed
it, none for an order that the owner placed. -/
structure PaperOrder where
  id : String
  clientOrderId : String
  market : Market
  symbol : String
  side : OrderSide
  quantity : Decimal
  status : OrderStatus
  createdAt : Instant
  entry : Option Entry

namespace PaperOrder

def listing (order : PaperOrder) : Listing := (order.market, order.symbol)

def AutoBuy (order : PaperOrder) : Prop := order.entry.isSome ∧ order.side = .buy

instance (order : PaperOrder) : Decidable order.AutoBuy := inferInstanceAs (Decidable (_ ∧ _))

end PaperOrder

structure AutomatedBuy where
  listing : Listing
  createdAt : Instant
  entry : Option Entry
  deriving DecidableEq

/-- `PaperPosition`; `automated` records that an automated buy is part of it. -/
structure PaperPosition where
  quantity : Decimal
  totalInvested : Decimal
  automated : Bool := false

/-- What the first reads of the policy found. -/
structure Counts where
  position : Option PositionView
  sameSymbolBuys : ℕ
  sameIssuerHeld : ℕ

inductive Phase where
  | idle
  | claimed (run : Execution)
  /-- The positions have been read. -/
  | counted (run : Execution) (counts : Counts)
  /-- The policy has passed. -/
  | approved (run : Execution)
  | placed (run : Execution) (orderId : String)
  | traded (run : Execution) (orderId : String)

def Phase.run : Phase → Option Execution
  | .idle => none
  | .claimed run | .counted run _ | .approved run | .placed run _ | .traded run _ => some run

def Phase.checking : Phase → Option Execution
  | .counted run _ | .approved run => some run
  | _ => none

/-- What the policy judges besides the counts; the price of the recommendation
stands in for a quote that is missing. -/
structure Inputs where
  quotedPrice : Option Decimal
  recommendationPrice : Decimal
  baseRiskReasons : List String := []
  accountState : Option AccountStateEvaluation := none
  snapshot : AITradingSnapshot

inductive Event where
  | begin (entry : Entry) (now : Instant) (request : OrderRequest)
  /-- The lookup of the client order id. -/
  | lookUp
  | count
  | judge (inputs : Inputs)
  | place (orderId : String) (createdAt : Instant)
  | execute (settled invested : Decimal)
  | refuse
  | settle
  | stop

/-- A step of the system: time passes, the owner places an order, another trade
changes a position, or an execution takes a step. -/
inductive Action where
  | wait (now : Instant)
  | order (order : PaperOrder)
  | trade (listing : Listing) (quantity invested : Decimal)
  | execution (i : ℕ) (event : Event)

structure World where
  clock : Instant
  lock : Option ℕ := none
  orders : List PaperOrder := []
  /-- The orders that have a trade. -/
  trades : List String := []
  positions : Dict Listing PaperPosition := .empty
  executions : ℕ → Phase := fun _ => .idle

namespace World

variable (w : World)

/-- `get_by_client_order_id`. -/
def orderOfClient (clientOrderId : String) : Option PaperOrder :=
  w.orders.find? (·.clientOrderId = clientOrderId)

def order (orderId : String) : Option PaperOrder := w.orders.find? (·.id = orderId)

def autoBuys : List AutomatedBuy :=
  (w.orders.filter fun order => order.AutoBuy).map fun order =>
    ⟨order.listing, order.createdAt, order.entry⟩

def sameIssuerHeld (listing : Listing) : ℕ :=
  w.positions.entries.countP fun entry =>
    entry.1.1 = listing.1 ∧ 0 < entry.2.quantity ∧
      issuerSymbolFilter entry.1.2 (marketText listing.1) listing.2

/-- The buy orders since an instant whose symbol meets a condition. -/
def buysSince (market : Market) (start : Instant) (P : String → Prop) [DecidablePred P] : ℕ :=
  w.orders.countP fun order =>
    order.market = market ∧ P order.symbol ∧ order.side = .buy ∧ start ≤ order.createdAt

def withPhase (i : ℕ) (phase : Phase) : World :=
  { w with executions := Function.update w.executions i phase }

/-- The end of an execution; a sweep releases the lock. -/
def finish (i : ℕ) (run : Execution) : World :=
  { w.withPhase i .idle with lock := if run.entry = .scheduled then none else w.lock }

/-- An order that is found is reconciled: filled if it is still pending. -/
def reconcile (i : ℕ) (run : Execution) (order : PaperOrder) : World :=
  if order.status = .pending then w.withPhase i (.placed run order.id) else w.finish i run

def withStatus (orderId : String) (status : OrderStatus) : World :=
  { w with orders := w.orders.map fun order =>
      if order.id = orderId then { order with status } else order }

/-- A position after its quantity has changed; without a quantity it is gone. -/
def withPosition (listing : Listing) (position : PaperPosition) : World :=
  { w with positions :=
      if 0 < position.quantity then w.positions.set listing position
      else w.positions.erase listing }

def held (listing : Listing) : Decimal := ((w.positions.get? listing).map (·.quantity)).getD 0

/-- Whether an automated buy is part of a position. -/
def automated (listing : Listing) : Bool :=
  ((w.positions.get? listing).map (·.automated)).getD false

end World

section Steps

variable (days : TradingDays)

/-- The reads of the positions, and of the orders of the same symbol. -/
def countsOf (w : World) (run : Execution) : Counts where
  position := (w.positions.get? run.listing).bind fun position =>
    if 0 < position.quantity then some ⟨position.quantity, position.totalInvested⟩ else none
  sameSymbolBuys := w.buysSince run.request.market (days.start run.request.market run.now)
    (· = run.request.symbol)
  sameIssuerHeld := if run.request.side = .buy then w.sameIssuerHeld run.listing else 0

/-- All reads of the policy, the orders of the issuer last. -/
def readsOf (w : World) (run : Execution) (counts : Counts) : AccountReads where
  position := counts.position
  sameSymbolBuys := counts.sameSymbolBuys
  sameIssuerHeld := counts.sameIssuerHeld
  sameIssuerBuys :=
    if run.request.side = .buy then
      w.buysSince run.request.market (days.start run.request.market run.now)
        (issuerSymbolFilter · (marketText run.request.market) run.request.symbol)
    else 0

def judged (w : World) (run : Execution) (counts : Counts) (inputs : Inputs) : HardRiskResult :=
  evaluateHardRisk
    { action := run.request.side
      market := marketText run.request.market
      quantity := run.request.quantity
      referencePrice := inputs.quotedPrice.getD inputs.recommendationPrice
      baseRiskReasons := inputs.baseRiskReasons
      accountState := inputs.accountState }
    inputs.snapshot (readsOf days w run counts)

/-- `_budget_fitted_quantity`: the whole lots that the budget admits of a buy
that only the budget refuses. -/
def budgetFittedQuantity (request : OrderRequest) (quotedPrice : Option Decimal)
    (result : HardRiskResult) : Option Decimal :=
  if result.passed ∨ request.side ≠ .buy then none
  else if (result.checks.filter (!·.passed)).map (·.rule) ≠ [.budget] then none
  else match result.maxBuyNotional, quotedPrice with
  | some notional, some price =>
    if price ≤ 0 then none
    else
      let lot : Decimal := match request.market with
        | .krx => 1
        | .us => 1 / 10000
      let fitted := ctx.mul (Decimal.truncate (ctx.div (ctx.div notional price) lot)) lot
      if fitted ≤ 0 ∨ request.quantity ≤ fitted then none else some fitted
  | _, _ => none

/-- `_assess` after an evaluation: an order that passes is placed, one that only
the budget refuses is assessed once more with the quantity that fits. -/
def assess (w : World) (i : ℕ) (run : Execution) (counts : Counts) (inputs : Inputs) : World :=
  let result := judged days w run counts inputs
  if result.passed then w.withPhase i (.approved run)
  else if run.fitted then w.finish i run
  else match budgetFittedQuantity run.request inputs.quotedPrice result with
  | none => w.finish i run
  | some quantity =>
    w.withPhase i (.claimed { run with
      request := { run.request with quantity }, fitted := true })

def newOrder (run : Execution) (orderId : String) (createdAt : Instant) : PaperOrder where
  id := orderId
  clientOrderId := run.request.clientOrderId
  market := run.request.market
  symbol := run.request.symbol
  side := run.request.side
  quantity := run.request.quantity
  status := .pending
  createdAt := createdAt
  entry := some run.entry

def World.traded (w : World) (order : PaperOrder) (settled invested : Decimal) : World :=
  match order.side with
  | .buy => w.withPosition order.listing
      { quantity := w.held order.listing + settled
        totalInvested := invested
        automated := w.automated order.listing || order.entry.isSome }
  | .sell => w.withPosition order.listing
      { quantity := w.held order.listing - settled
        totalInvested := invested
        automated := w.automated order.listing }

/-- The trade of an order that is still pending, unless it has been made. -/
def executeOrder (w : World) (i : ℕ) (run : Execution) (order : PaperOrder)
    (settled invested : Decimal) : Option World :=
  if order.status ≠ .pending then some (w.finish i run)
  else if order.id ∈ w.trades then some (w.withPhase i (.traded run order.id))
  else if 0 < settled ∧ (order.side = .sell → settled ≤ w.held order.listing) then
    some ({ w.traded order settled invested with trades := order.id :: w.trades }.withPhase i
      (.traded run order.id))
  else none

def advance (w : World) (i : ℕ) : Phase → Event → Option World
  | .idle, .begin entry now request =>
    if now ≤ w.clock then
      match entry with
      | .approved => some (w.withPhase i (.claimed { entry, now, request }))
      | .scheduled =>
        if w.lock = none then
          some ({ w with lock := some i }.withPhase i (.claimed { entry, now, request }))
        else none
    else none
  | .claimed run, .lookUp => (w.orderOfClient run.request.clientOrderId).map (w.reconcile i run)
  | .claimed run, .count => some (w.withPhase i (.counted run (countsOf days w run)))
  | .counted run counts, .judge inputs => some (assess days w i run counts inputs)
  | .approved run, .place orderId createdAt =>
    match w.orderOfClient run.request.clientOrderId with
    | some order => some (w.reconcile i run order)
    | none =>
      if run.now ≤ createdAt ∧ createdAt ≤ w.clock ∧ w.orders.all (·.id ≠ orderId) then
        some ({ w with orders := w.orders ++ [newOrder run orderId createdAt] }.withPhase i
          (.placed run orderId))
      else none
  | .placed run orderId, .execute settled invested =>
    (w.order orderId).bind fun order => executeOrder w i run order settled invested
  | .placed run orderId, .refuse =>
    (w.order orderId).bind fun order =>
      if order.status = .pending ∧ order.id ∉ w.trades then
        some ((w.withStatus orderId .rejected).finish i run)
      else none
  | .traded run orderId, .settle => some ((w.withStatus orderId .filled).finish i run)
  | phase, .stop => phase.run.map (w.finish i)
  | _, _ => none

def World.step (w : World) : Action → Option World
  | .wait now => if w.clock ≤ now then some { w with clock := now } else none
  | .order order =>
    if order.entry = none ∧ w.orders.all (·.id ≠ order.id) then
      some { w with orders := w.orders ++ [order] }
    else none
  | .trade listing quantity invested =>
    some (w.withPosition listing { quantity, totalInvested := invested
                                   automated := w.automated listing })
  | .execution i event => advance days w i (w.executions i) event

end Steps

/-- No execution is under way, and no automated buy has been made. -/
structure World.Start (w : World) : Prop where
  lock : w.lock = none
  orders : w.orders = []
  trades : w.trades = []
  positions : ∀ listing position, w.positions.get? listing = some position →
    0 < position.quantity ∧ position.automated = false
  executions : ∀ i, w.executions i = .idle

end KAssetTrader.Issuer
