import KAssetTrader.Paper.Recovery

/-!
Runs of the calls on Android orders, with orders of other callers in between,
when any call may stop after any of its commits. The condition on a run excludes
one stop, that of an amendment between its trade and its order row, and lots
that the quote and the symbol of an order do not agree on.
-/

namespace KAssetTrader.Paper

inductive OrderAction where
  | submit (ownerUserId : ℤ) (request : OrderRequest) (answers : Answers)
  | cancel (ownerUserId : ℤ) (orderId : String)
  | amend (ownerUserId : ℤ) (orderId : String) (amendment : AmendRequest) (answers : Answers)
  | reconcile (ownerUserId : ℤ) (orderId : String) (answers : Answers)
  | trade (o : OrderCall) (correlation : Option String)

section Runs

variable (resolveMarketType : String → Option (InstrumentType × String))

def committedBy (db : Tables) : OrderAction → List Tables
  | .submit ownerUserId request answers =>
    (submit resolveMarketType ownerUserId request answers).committed db
  | .cancel ownerUserId orderId => (cancel ownerUserId orderId).committed db
  | .amend ownerUserId orderId amendment answers =>
    (amend resolveMarketType ownerUserId orderId amendment answers).committed db
  | .reconcile ownerUserId orderId answers =>
    (reconcile resolveMarketType ownerUserId orderId answers).committed db
  | .trade o correlation =>
    (placeOrder resolveMarketType
      { o with correlationId := correlation.map .other }).committed db

/-- What is stored when a call ends, or stops after a number of its commits. -/
def storedAfter (db : Tables) (commits : List Tables) : Option ℕ → Tables
  | none => commits.getLastD db
  | some stop => (commits.take stop).getLastD db

def orderStep (db : Tables) (a : OrderAction × Option ℕ) : Option Tables :=
  some (storedAfter db (committedBy resolveMarketType db a.1) a.2)

/-- No amendment stops after its second commit, that of its trade, and a
quantity that the risk check admits is settled whole. -/
def Recoverable (db : Tables) : OrderAction × Option ℕ → Prop
  | (.submit _ request answers, _) =>
    ∀ quote, answers.quote = .ok quote →
      LotsAgree resolveMarketType quote.symbol request.quantity answers
  | (.amend _ orderId amendment answers, stop) =>
    stop ≠ some 2 ∧ ∀ order, db.orders.get? orderId = some order →
      LotsAgree resolveMarketType order.symbol
        (amendment.quantity.getD order.quantity) answers
  | _ => True

def NoOrders (db : Tables) : Prop :=
  db.orders = .empty ∧ ∀ orderId, db.tradesOf orderId = []

variable {resolveMarketType} {db db' : Tables} {commits : List Tables}

theorem NoOrders.sound (h : NoOrders db) : Sound resolveMarketType db := by
  have hnone (id : String) : db.orders.get? id = none := by
    rw [h.1, Dict.get?_empty]
  constructor
  case unknown =>
    intro id _
    exact h.2 id
  all_goals
    intro id order horder
    rw [hnone] at horder
    cases horder

theorem AllSound.storedAfter (hsound : Sound resolveMarketType db)
    (h : AllSound resolveMarketType commits) (stop : Option ℕ) :
    Sound resolveMarketType (storedAfter db commits stop) := by
  have hlast (l : List Tables) (hl : ∀ c ∈ l, Sound resolveMarketType c) :
      Sound resolveMarketType (l.getLastD db) := by
    rcases List.mem_cons.mp (List.getLastD_mem_cons (l := l) (a := db)) with hsame | hmem
    · rw [hsame]
      exact hsound
    · exact hl _ hmem
  cases stop with
  | none => exact hlast commits h
  | some stop => exact hlast _ fun c hc => h c (List.mem_of_mem_take hc)

theorem Amended.storedAfter (hsound : Sound resolveMarketType db)
    (h : Amended resolveMarketType commits) {stop : Option ℕ} (hstop : stop ≠ some 2) :
    Sound resolveMarketType (storedAfter db commits stop) := by
  rcases h with hall | ⟨amended, traded, filled, rfl, hamended, hfilled⟩
  · exact hall.storedAfter hsound stop
  · match stop with
    | none => exact hfilled
    | some 0 => exact hsound
    | some 1 => exact hamended
    | some 2 => exact absurd rfl hstop
    | some (n + 3) => simpa [KAssetTrader.Paper.storedAfter] using hfilled

theorem committed_of_wp {α : Type} {x : Transaction α} {P : List Tables → Prop}
    (h : Session.wp x (fun _ => Committed P (Session.begin db))
      (fun _ => Committed P (Session.begin db)) (Session.begin db)) :
    P (x.committed db) := by
  obtain ⟨commits, hcommits, hP⟩ := Session.finish_of_wp h
  rw [Session.committed, hcommits]
  exact hP

theorem Sound.orderStep (hsound : Sound resolveMarketType db) {a : OrderAction × Option ℕ}
    (hok : Recoverable resolveMarketType db a)
    (hstep : orderStep resolveMarketType db a = some db') : Sound resolveMarketType db' := by
  cases hstep
  obtain ⟨action, stop⟩ := a
  cases action with
  | submit ownerUserId request answers =>
    have hcommits : AllSound resolveMarketType
        ((submit resolveMarketType ownerUserId request answers).committed db) :=
      committed_of_wp (wp_submit hsound rfl request hok)
    exact hcommits.storedAfter hsound stop
  | cancel ownerUserId orderId =>
    have hcommits : AllSound resolveMarketType ((cancel ownerUserId orderId).committed db) :=
      committed_of_wp (wp_cancel hsound)
    exact hcommits.storedAfter hsound stop
  | amend ownerUserId orderId amendment answers =>
    obtain ⟨hstop, hlots⟩ := hok
    have hcommits : Amended resolveMarketType
        ((amend resolveMarketType ownerUserId orderId amendment answers).committed db) :=
      committed_of_wp (wp_amend hsound amendment hlots)
    exact hcommits.storedAfter hsound hstop
  | reconcile ownerUserId orderId answers =>
    have hcommits : AllSound resolveMarketType
        ((reconcile resolveMarketType ownerUserId orderId answers).committed db) :=
      committed_of_wp (wp_reconcile hsound rfl)
    exact hcommits.storedAfter hsound stop
  | trade o correlation =>
    have hother (orderId : String) : correlation.map .other ≠ some (CorrelationId.order orderId) ∧
        ∀ prior, correlation.map .other ≠ some (CorrelationId.fill orderId prior) := by
      cases correlation <;> simp
    have hcommits : AllSound resolveMarketType
        ((placeOrder resolveMarketType
          { o with correlationId := correlation.map .other }).committed db) :=
      committed_of_wp (wp_placeOrder_sound hsound hother)
    exact hcommits.storedAfter hsound stop

/-- Along every run whose fills are read back, a cancelled or rejected order has no trade, and a
filled one has the trade that it describes. -/
theorem closed_orders_match_trades
    (h : Transition.ReachableVia NoOrders (orderStep resolveMarketType)
      (Recoverable resolveMarketType) db)
    {orderId : String} {order : AndroidPaperOrder}
    (horder : db.orders.get? orderId = some order) :
    (order.status = .cancelled ∨ order.status = .rejected → db.tradesOf orderId = []) ∧
    (order.status = .filled → ∃ trade, db.tradesOf orderId = [trade] ∧
      trade.correlationId = some (.order orderId) ∧
      order.filledQuantity = trade.quantity.value ∧
      order.averageFillPrice = some trade.price.value) := by
  have hsound : Sound resolveMarketType db := by
    apply Transition.invariant (P := fun db => Sound resolveMarketType db) _ _ h
    · intro s hs
      exact hs.sound
    · intro s a t hsound hok hstep
      exact hsound.orderStep hok hstep
  have hmatched := hsound.matched _ _ horder
  have hid : order.id = orderId := hsound.keyed _ _ horder
  constructor
  · intro hclosed
    rcases hclosed with hstatus | hstatus
    · simpa only [AndroidPaperOrder.Matches, hstatus] using hmatched
    · simpa only [AndroidPaperOrder.Matches, hstatus] using hmatched
  · intro hstatus
    simpa only [AndroidPaperOrder.Matches, hstatus, hid] using hmatched

end Runs

def fundedAccount : PaperAccount where
  cashKrw := .ofUnits 0 no_units
  cashUsd := .ofUnits 10000000 (by norm_num)

def fundedTables : Tables where
  accounts := Dict.empty.set 1 fundedAccount
  positions := .empty
  trades := []
  managed := []
  orders := .empty

def fiftyDollars : Quote where
  market := "NASDAQ"
  symbol := "AAPL"
  currency := .usd
  price := 50

def quoted : Answers where
  riskQuote := .ok fiftyDollars
  account := .ok 1
  quote := .ok fiftyDollars
  orderId := "o-1"

def oneShare (limitPrice : Decimal) : OrderRequest where
  clientOrderId := some "c-1"
  broker := "PAPER"
  side := .buy
  orderType := .limit
  quantity := 1
  limitPrice := some limitPrice
  quantity_pos := by norm_num

/-- A new limit that the quote crosses. -/
def raised : AmendRequest where
  limitPrice := some 60
  quantity_pos := by simp

/-- The limit of an open order is raised; the call stops after its trade, and
the order is cancelled. -/
def lostFill : List (OrderAction × Option ℕ) :=
  [(.submit 7 (oneShare 40) quoted, none), (.amend 7 "o-1" raised quoted, some 2),
    (.cancel 7 "o-1", none)]

theorem fundedTables_noOrders : NoOrders fundedTables := ⟨rfl, fun _ => rfl⟩

theorem oneShare_recoverable (stop : Option ℕ) :
    Recoverable usOnly fundedTables (.submit 7 (oneShare 60) quoted, stop) := by
  intro quote _ riskQuote _ _ instrumentType resolved hresolved
  cases hresolved
  have hwhole : quantizeExecutionQuantity 1 .equityUs = 1 := by decide +kernel
  exact congrArg Except.ok hwhole

/-- An order that is placed and filled at once. -/
theorem closed_orders_match_trades_filled :
    ∃ (db : Tables) (order : AndroidPaperOrder),
      (db.orders.get? "o-1" = some order ∧ order.status = .filled) ∧
      ∃ trade : PaperTrade, db.tradesOf "o-1" = [trade] ∧
        trade.correlationId = some (.order "o-1") ∧
        order.filledQuantity = trade.quantity.value ∧
        order.averageFillPrice = some trade.price.value := by
  have hreached : Transition.ReachableVia NoOrders (orderStep usOnly) (Recoverable usOnly)
      (storedAfter fundedTables
        (committedBy usOnly fundedTables (.submit 7 (oneShare 60) quoted)) none) :=
    .step (.start fundedTables_noOrders) (oneShare_recoverable none) rfl
  obtain ⟨order, horder, hstatus⟩ :
      ∃ order, (storedAfter fundedTables
        (committedBy usOnly fundedTables (.submit 7 (oneShare 60) quoted)) none).orders.get?
          "o-1" = some order ∧ order.status = .filled :=
    Transition.exists_run (by decide +kernel)
  exact ⟨_, order, ⟨horder, hstatus⟩, (closed_orders_match_trades hreached horder).2 hstatus⟩

/-- A fill whose session ends before it is read back, and a cancel after it. -/
theorem amended_fill_lost :
    ∃ (db : Tables) (order : AndroidPaperOrder),
      Transition.Reachable NoOrders (orderStep usOnly) db ∧
      db.orders.get? "o-1" = some order ∧ order.status = .cancelled ∧
      (db.tradesOf "o-1").length = 1 := by
  have hrun : (Transition.run (orderStep usOnly) fundedTables lostFill).any (fun db =>
      (db.orders.get? "o-1").any fun order =>
        order.status = .cancelled ∧ (db.tradesOf "o-1").length = 1) = true := by
    decide +kernel
  obtain ⟨db, hdb, hlost⟩ := (Option.any_eq_true _ _).mp hrun
  obtain ⟨order, horder, hlost⟩ := (Option.any_eq_true _ _).mp hlost
  obtain ⟨hstatus, hcount⟩ := of_decide_eq_true hlost
  exact ⟨db, order, Transition.reachable_of_run fundedTables_noOrders hdb, horder, hstatus, hcount⟩

end KAssetTrader.Paper
