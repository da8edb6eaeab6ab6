import KAssetTrader.Proposals.TossFreeze

/-!
The reconciliation of a live Toss order with what the broker reports of it. The evidence is
cumulative; a reconcile books the difference to the quantity of the ledger row into the execution
ledger and `review.trades` and writes the status by which the next scan selects the row.
-/

namespace KAssetTrader.Toss

open Proposals (LedgerOperation LedgerStatus TossLiveOrderLedger)

/-- The broker's order. The amounts are finite: the comparisons of the classification raise for
NaN, and the columns refuse an infinite quantity or price. -/
structure TossOrder where
  status : String
  filledQuantity : Option Decimal := none
  averageFilledPrice : Option Decimal := none
  commission : Option Decimal := none
  tax : Option Decimal := none
  deriving DecidableEq

inductive Verdict where
  | filled
  | partially
  | pending
  | none
  deriving DecidableEq

structure TossFillEvidence where
  verdict : Verdict
  localStatus : LedgerStatus
  brokerStatus : String
  filledQty : Decimal
  avgPrice : Option Decimal
  feeTotal : Decimal

def TossOrder.ShowsFill (order : TossOrder) : Prop :=
  0 < order.filledQuantity.getD 0 ∧ 0 < order.averageFilledPrice.getD 0

instance : DecidablePred TossOrder.ShowsFill := fun _ => inferInstanceAs (Decidable (_ ∧ _))

def filledOutcome (brokerStatus : String) : Verdict × LedgerStatus :=
  if brokerStatus = "FILLED" then (.filled, .filled)
  else if brokerStatus = "REPLACED" then (.partially, .replaced)
  else if brokerStatus = "CANCELED" then (.partially, .cancelled)
  else (.partially, .partially)

def unfilledOutcome (brokerStatus : String) : Verdict × LedgerStatus :=
  if brokerStatus = "PENDING" ∨ brokerStatus = "PARTIAL_FILLED" then (.pending, .pending)
  else if brokerStatus = "CANCELED" then (.none, .cancelled)
  else if brokerStatus = "REJECTED" then (.none, .rejected)
  else if brokerStatus = "REPLACED" then (.none, .replaced)
  else if brokerStatus = "CANCEL_REJECTED" then (.pending, .cancelRejected)
  else if brokerStatus = "REPLACE_REJECTED" then (.pending, .replaceRejected)
  else (.pending, .pending)

structure ExecutionLedgerUpsert where
  fillSeq : ℤ
  filledQty : Decimal
  filledPrice : Decimal
  filledNotional : Decimal
  feeAmount : Decimal

structure Trade where
  price : Decimal
  quantity : Decimal
  totalAmount : Decimal
  fee : Decimal

/-- What is stored for one order: its row of the Toss ledger, its fills in the execution ledger,
and its row of `review.trades`, where the account and the order are the key. -/
structure Books where
  row : TossLiveOrderLedger
  fills : List ExecutionLedgerUpsert := []
  trade : Option Trade := none

def updateReconcileOutcome (row : TossLiveOrderLedger) (now : Instant) (evidence : TossFillEvidence)
    (filledQty avgFillPrice : Option Decimal) : TossLiveOrderLedger :=
  { row with
    status := evidence.localStatus
    brokerStatus := some evidence.brokerStatus
    filledQty := filledQty.or row.filledQty
    avgFillPrice := avgFillPrice.or row.avgFillPrice
    reconciledAt := some now }

/-- Insert of `review.trades`; on a conflict it does nothing. -/
def saveOrderFill (trade : Option Trade) (price quantity fee : Decimal) : Option Trade :=
  trade.or (some ⟨price, quantity, price * quantity, fee⟩)

section Reconcile

-- `str.upper`, and the 32 bit hash of the order with the quantities before and after a fill.
variable (upper : String → String) (fillSeq : Decimal → Decimal → ℤ)

def classifyTossOrderEvidence (order : TossOrder) : TossFillEvidence :=
  let brokerStatus := upper order.status
  let feeTotal := order.commission.getD 0 + order.tax.getD 0
  if order.ShowsFill then
    let (verdict, localStatus) := filledOutcome brokerStatus
    ⟨verdict, localStatus, brokerStatus, order.filledQuantity.getD 0, order.averageFilledPrice,
      feeTotal⟩
  else
    let (verdict, localStatus) := unfilledOutcome brokerStatus
    ⟨verdict, localStatus, brokerStatus, 0, none, feeTotal⟩

def upsertTossExecutionFill (fills : List ExecutionLedgerUpsert) (evidence : TossFillEvidence)
    (previousFilledQty delta avgPrice : Decimal) : List ExecutionLedgerUpsert :=
  let seq := fillSeq previousFilledQty (previousFilledQty + delta)
  ⟨seq, delta, avgPrice, delta * avgPrice, evidence.feeTotal⟩ ::
    fills.filter fun fill => fill.fillSeq ≠ seq

/-- `_reconcile_one_toss_row`, not as a dry run. -/
def reconcileOneTossRow (books : Books) (now : Instant) (order : TossOrder) : Books :=
  let evidence := classifyTossOrderEvidence upper order
  let outcome := updateReconcileOutcome books.row now evidence
  if evidence.verdict = .pending then
    if evidence.localStatus ∈ [LedgerStatus.cancelRejected, .replaceRejected] then
      { books with row := outcome none none }
    else books
  else if books.row.operationKind = .cancel ∨ evidence.verdict = .none then
    { books with row := outcome none none }
  else
    let already := books.row.filledQty.getD 0
    let delta := evidence.filledQty - already
    let avgPrice := evidence.avgPrice.getD 0
    let row := outcome (some evidence.filledQty) (some avgPrice)
    if delta ≤ 0 then { books with row }
    else
      { row
        fills := upsertTossExecutionFill fillSeq books.fills evidence already delta avgPrice
        trade := saveOrderFill books.trade avgPrice delta evidence.feeTotal }

/-- The rows `list_open` selects, when its scan is not limited. -/
def Open (row : TossLiveOrderLedger) : Prop :=
  row.status ∈ [LedgerStatus.accepted, .pending, .partially] ∧
    row.operationKind ∈ [LedgerOperation.place, .modify, .cancel]

instance : DecidablePred Open := fun _ => inferInstanceAs (Decidable (_ ∧ _))

def Terminal (order : TossOrder) : Prop :=
  upper order.status = "FILLED" ∧ order.ShowsFill ∨
    upper order.status ∈ ["CANCELED", "REJECTED", "REPLACED"]

/-- The row leaves the open rows exactly when the order is over. -/
def ClosedWithOrder (books : Books) (now : Instant) (order : TossOrder) : Prop :=
  ¬ Open (reconcileOneTossRow upper fillSeq books now order).row ↔ Terminal upper order

end Reconcile

variable {upper : String → String} {fillSeq : Decimal → Decimal → ℤ} {books : Books} {now : Instant}
  {order : TossOrder}

@[simp] theorem reconcile_kind :
    (reconcileOneTossRow upper fillSeq books now order).row.operationKind =
      books.row.operationKind := by
  simp only [reconcileOneTossRow]
  split_ifs <;> rfl

/-- With fill evidence the row of a placement gets the status of the evidence, also when nothing
of it is left to book. -/
theorem reconcile_status_filled (hkind : books.row.operationKind = .place)
    (hfill : order.ShowsFill) :
    (reconcileOneTossRow upper fillSeq books now order).row.status =
      (filledOutcome (upper order.status)).2 := by
  have hverdict : (filledOutcome (upper order.status)).1 ≠ .pending ∧
      (filledOutcome (upper order.status)).1 ≠ .none := by
    unfold filledOutcome
    split_ifs <;> exact ⟨nofun, nofun⟩
  simp only [reconcileOneTossRow, classifyTossOrderEvidence, if_pos hfill, hkind,
    if_neg hverdict.1, hverdict.2, reduceCtorEq, or_self, ↓reduceIte]
  split_ifs <;> rfl

/-- Without it the row keeps its status while the order is pending, unless a cancellation or a
replacement of it was refused. -/
theorem reconcile_status_unfilled (hkind : books.row.operationKind = .place)
    (hfill : ¬ order.ShowsFill) :
    (reconcileOneTossRow upper fillSeq books now order).row.status =
      if unfilledOutcome (upper order.status) = (.pending, .pending) then books.row.status
      else (unfilledOutcome (upper order.status)).2 := by
  simp only [reconcileOneTossRow, classifyTossOrderEvidence, if_neg hfill, unfilledOutcome]
  split_ifs <;> simp_all [updateReconcileOutcome]

/-- A row of kind place leaves the open rows exactly when its order is over, but for an order
refused after a partial fill, whose row stays, and for one whose cancellation or replacement was
refused before any fill, whose row leaves although the order can still fill. -/
theorem closed_with_order_iff (upper : String → String) (fillSeq : Decimal → Decimal → ℤ)
    (books : Books) (now : Instant) (order : TossOrder)
    (hkind : books.row.operationKind = .place) (hopen : Open books.row) :
    ClosedWithOrder upper fillSeq books now order ↔
      ¬ (upper order.status = "REJECTED" ∧ order.ShowsFill) ∧
        ¬ (upper order.status ∈ ["CANCEL_REJECTED", "REPLACE_REJECTED"] ∧ ¬ order.ShowsFill) := by
  have hstatus := hopen.1
  by_cases hfill : order.ShowsFill
  · simp only [ClosedWithOrder, Open, reconcile_status_filled hkind hfill, reconcile_kind, hkind,
      Terminal, hfill, filledOutcome]
    split_ifs <;> simp_all
  · simp only [ClosedWithOrder, Open, reconcile_status_unfilled hkind hfill, reconcile_kind, hkind,
      Terminal, hfill, unfilledOutcome]
    split_ifs with hpending
    · rcases hpending with h | h <;> simp_all
    all_goals simp_all

def placed : Books where
  row := {
    operationKind := .place, market := "kr", symbol := "005930", side := "buy",
    orderType := "limit", quantity := some 2, price := some 110, clientOrderId := "client",
    brokerOrderId := some "order", status := .accepted, brokerStatus := none, filledQty := none,
    avgFillPrice := none, reconciledAt := none }

/-- An order that is still pending. -/
theorem closed_with_order_pending :
    ClosedWithOrder id (fun _ _ => 0) placed 0 ⟨"PENDING", none, none, none, none⟩ :=
  (closed_with_order_iff id (fun _ _ => 0) placed 0 ⟨"PENDING", none, none, none, none⟩ rfl
    (by decide)).2 (by decide)

/-- The broker refuses to cancel an order, which stays in its book; the next scan does not see
it. -/
theorem refused_cancel_closes :
    ¬ ClosedWithOrder id (fun _ _ => 0) placed 0 ⟨"CANCEL_REJECTED", none, none, none, none⟩ := by
  unfold ClosedWithOrder Terminal
  decide +kernel

end KAssetTrader.Toss
