import KAssetTrader.Paper.Fills

/-!
The calls on Android orders, each followed to every database it commits. All but
an amendment leave the orders matched with their trades after each commit. An
amendment commits its trade before its order row, and an order that is not
pending is not reconciled.
-/

namespace KAssetTrader.Paper

open AndroidPaperOrder Session Decimal

variable {resolveMarketType : String → Option (InstrumentType × String)}
  {s : SessionState Tables} {order row : AndroidPaperOrder} {ownerUserId : ℤ}
  {answers : Answers}

/-- What a call may have committed when it ends: `P` of the databases since the
state `s`. -/
def Committed (P : List Tables → Prop) (s t : SessionState Tables) : Prop :=
  ∃ commits, t.commits = s.commits ++ commits ∧ P commits

variable (resolveMarketType) in
def AllSound (commits : List Tables) : Prop := ∀ db ∈ commits, Sound resolveMarketType db

variable {t : SessionState Tables} {quantity : Decimal} {approved : Bool}

theorem AllSound.nothing (ht : t.commits = s.commits) :
    Committed (AllSound resolveMarketType) s t :=
  ⟨[], by simpa using ht, by simp [AllSound]⟩

theorem AndroidPaperOrder.StoredAs.quantity_exact (h : order.StoredAs row)
    (hplaces : order.quantity.HasPlaces 8) :
    row.quantity = order.quantity ∧ ctx.sub order.quantity 0 = order.quantity := by
  obtain ⟨column, hcolumn, hquantity⟩ := h.quantity
  have hvalue := storeColumn_exact hplaces hcolumn
  have hsize : |order.quantity| < 10 ^ 19 := by
    rw [← hvalue]
    exact (column_size (by norm_num) column).trans (by norm_num)
  refine ⟨hquantity.trans hvalue, ?_⟩
  rw [Context.sub, sub_zero]
  exact ctx_round (by norm_num) hplaces hsize

theorem AndroidPaperOrder.row_places (h : order.row = .ok order) : order.quantity.HasPlaces 8 := by
  obtain ⟨column, -, hquantity⟩ := (row_ok h).quantity
  rw [hquantity]
  exact column.places

theorem wp_place (ownerUserId : ℤ) (marketPrice : Decimal)
    (hsound : Sound resolveMarketType s.view) (hstored : s.stored = s.view)
    (hrow : s.view.orders.get? order.id = some order) (hpending : order.status = .pending)
    (hnone : s.view.tradesOf order.id = []) :
    Session.wp (place resolveMarketType ownerUserId order marketPrice)
      (fun _ => Committed (AllSound resolveMarketType) s)
      (fun _ => Committed (AllSound resolveMarketType) s) s := by
  have hself := hsound.stored _ _ hrow
  have hmatched := hsound.matched _ _ hrow
  simp only [AndroidPaperOrder.Matches, hpending] at hmatched
  obtain ⟨hzero, hid, -⟩ := hmatched
  unfold place
  apply wp_ite
  · intro _
    have hunfilled : Unfilled resolveMarketType s.view order order :=
      ⟨hzero, hid, hself, hsound.whole _ _ hrow, .inl hnone⟩
    have hall (commits : List Tables) (h : FillOutcome s.view order order commits) :
        AllSound resolveMarketType commits := by
      rcases h.sound hsound hunfilled hrow with hall | ⟨hstatus, -⟩
      · exact hall
      · exact absurd hpending hstatus
    refine wp_fill hunfilled hstored ?_ ?_ ?_
    · rw [Option.getD_none, hzero]
      exact ((row_ok hself).quantity_exact
        (row_places hself)).2
    · intro _ t commits houtcome ht
      exact ⟨commits, ht, hall commits houtcome⟩
    · intro _ t commits houtcome ht
      exact ⟨commits, ht, hall commits houtcome⟩
  · intro _
    have hopen := row_status hself .open order.rejectReason
    apply wp_storeOrder
    · intro failure _
      exact AllSound.nothing rfl
    · intro stored hstoredRow
      cases hstoredRow.symm.trans hopen
      have hwhole : order.Whole resolveMarketType := hsound.whole _ _ hrow
      have hpositive : 0 < order.quantity := hsound.positive _ _ hrow
      refine ⟨_, rfl, List.forall_mem_singleton.mpr ?_⟩
      exact hsound.withOrder order.id _ rfl ⟨hzero, hid, hnone⟩ hwhole hpositive hopen

variable (hsound : Sound resolveMarketType s.view)

section

include hsound

theorem wp_reconcileExisting (hstored : s.stored = s.view)
    (hrow : s.view.orders.get? order.id = some order) :
    Session.wp (reconcileExisting resolveMarketType ownerUserId order answers)
      (fun _ => Committed (AllSound resolveMarketType) s)
      (fun _ => Committed (AllSound resolveMarketType) s) s := by
  unfold reconcileExisting
  apply wp_ite
  · intro _
    exact AllSound.nothing rfl
  intro _
  apply wp_ite
  swap
  · intro _
    exact AllSound.nothing rfl
  intro hpending
  have hself := hsound.stored _ _ hrow
  have hmatched := hsound.matched _ _ hrow
  simp only [AndroidPaperOrder.Matches, hpending] at hmatched
  obtain ⟨hzero, hid, htrades⟩ := hmatched
  rw [wp_bind, wp_read]
  rcases htrades with hnone | ⟨trade, hfills, htrades⟩
  · rw [tradeByCorrelation_none hnone]
    simp only
    refine wp_lift_bind (fun quote _ => ?_) fun _ _ => AllSound.nothing rfl
    exact wp_place _ _ hsound hstored hrow hpending hnone
  · rw [tradeByCorrelation_fills htrades hfills]
    have hunfilled : Unfilled resolveMarketType s.view order order :=
      ⟨hzero, hid, hself, hsound.whole _ _ hrow, .inr ⟨trade, hfills, htrades⟩⟩
    apply wp_applyTradeMetadata hzero hid hfills hself
    refine ⟨_, rfl, List.forall_mem_singleton.mpr ?_⟩
    exact hsound.filledBy hunfilled hrow (fun _ _ => ⟨rfl, rfl⟩) htrades hfills

theorem orderOfClient_row {clientOrderId : String}
    (h : s.view.orderOfClient ownerUserId clientOrderId = some order) :
    s.view.orders.get? order.id = some order := by
  obtain ⟨⟨id, stored⟩, hentry, rfl⟩ := List.mem_map.mp (List.mem_of_find?_eq_some h)
  have hget := (s.view.orders.get?_eq_some).mpr hentry
  rwa [hsound.keyed id stored hget]

theorem wp_submitNew (hstored : s.stored = s.view)
    (hnew : order.filledQuantity = 0 ∧ order.paperTradeId = none ∧ order.status = .pending)
    (hplaces : order.quantity.HasPlaces 8) (hpositive : 0 < order.quantity)
    (hwhole : order.Whole resolveMarketType) {marketPrice : Decimal} :
    Session.wp (submitNew resolveMarketType ownerUserId order answers marketPrice)
      (fun _ => Committed (AllSound resolveMarketType) s)
      (fun _ => Committed (AllSound resolveMarketType) s) s := by
  obtain ⟨hzero, hid, hpending⟩ := hnew
  rw [submitNew, wp_bind, wp_read]
  apply wp_ite
  · intro _
    rw [wp_bind, wp_rollback, wp_bind, wp_read]
    simp only [hstored]
    split
    · exact AllSound.nothing rfl
    next existing hexisting =>
    exact wp_reconcileExisting (s := ⟨s.view, s.view, s.commits⟩) hsound rfl
      (orderOfClient_row hsound hexisting)
  intro hconflicts
  have hunknown : s.view.orders.get? order.id = none := by
    by_contra hknown
    exact hconflicts (.inl (Option.isSome_iff_ne_none.mpr hknown))
  have hnone := hsound.unknown _ hunknown
  rw [wp_bind]
  apply wp_storeOrder
  · intro failure _
    exact AllSound.nothing rfl
  intro row hrow
  have has := row_ok hrow
  obtain ⟨hquantity, -⟩ := has.quantity_exact hplaces
  have hrowZero : row.filledQuantity = 0 := by
    rw [has.filledQuantity, hzero]
    exact HasPlaces.zero.quantizeHalfUp
  have hmatched : row.Matches (s.view.tradesOf order.id) := by
    simp only [AndroidPaperOrder.Matches, has.status, hpending]
    exact ⟨hrowZero, has.paperTradeId.trans hid, .inl hnone⟩
  have hrowWhole : row.Whole resolveMarketType := by
    intro instrumentType symbol hresolved
    rw [has.symbol] at hresolved
    rw [hquantity]
    exact hwhole instrumentType symbol hresolved
  have hafter := hsound.withOrder order.id row has.id hmatched hrowWhole
    (hquantity.symm ▸ hpositive) (row_row hrow)
  have hplaced := wp_place ownerUserId marketPrice
    (s := ⟨s.view.withOrder order.id row, s.view.withOrder order.id row,
      s.commits ++ [s.view.withOrder order.id row]⟩)
    hafter rfl (by rw [has.id]; simp [Tables.withOrder_get?]) (has.status.trans hpending)
    (by rw [has.id]; exact hnone)
  have hextend (t : SessionState Tables)
      (h : Committed (AllSound resolveMarketType)
        ⟨s.view.withOrder order.id row, s.view.withOrder order.id row,
          s.commits ++ [s.view.withOrder order.id row]⟩ t) :
      Committed (AllSound resolveMarketType) s t := by
    obtain ⟨commits, ht, hall⟩ := h
    refine ⟨s.view.withOrder order.id row :: commits, by simp [ht], ?_⟩
    exact List.forall_mem_cons.mpr ⟨hafter, hall⟩
  exact wp_mono hplaced (fun _ => hextend) (fun _ => hextend)

end

variable (resolveMarketType) in
/-- A quantity that the risk check admits is one that the fill of the symbol
settles whole. -/
def LotsAgree (symbol : String) (quantity : Decimal) (answers : Answers) : Prop :=
  ∀ quote, answers.riskQuote = .ok quote →
    quantizeExecutionQuantity quantity (quotedInstrumentType quote) = quantity →
    ∀ instrumentType resolved, resolveMarketType symbol = some (instrumentType, resolved) →
      settledQuantity instrumentType quantity = .ok quantity

theorem assessRisk_lots (h : assessRisk quantity answers = .ok approved) :
    ∃ quote, answers.riskQuote = .ok quote ∧
      quantizeExecutionQuantity quantity (quotedInstrumentType quote) = quantity := by
  obtain ⟨quote, hquote, h⟩ := Checked.bind_ok_iff.mp h
  refine ⟨quote, hquote, ?_⟩
  by_contra hlots
  rw [if_pos hlots] at h
  cases h

theorem assessRisk_places (h : assessRisk quantity answers = .ok approved) :
    quantity.HasPlaces 8 := by
  obtain ⟨quote, -, hlots⟩ := assessRisk_lots h
  have hsettled : settledQuantity (quotedInstrumentType quote) quantity = .ok quantity := by
    rw [← hlots] at *
    cases hcurrency : quote.currency with
    | krw => simp [quotedInstrumentType, hcurrency, settledQuantity] at hlots ⊢; exact hlots
    | usd => simp [quotedInstrumentType, hcurrency, settledQuantity] at hlots ⊢; exact hlots
  exact settledQuantity_places hsettled

theorem LotsAgree.whole {symbol : String} (h : LotsAgree resolveMarketType symbol quantity answers)
    (hrisk : assessRisk quantity answers = .ok approved) {instrumentType : InstrumentType}
    {resolved : String} (hresolved : resolveMarketType symbol = some (instrumentType, resolved)) :
    settledQuantity instrumentType quantity = .ok quantity := by
  obtain ⟨quote, hquote, hlots⟩ := assessRisk_lots hrisk
  exact h quote hquote hlots _ _ hresolved

section

include hsound

theorem wp_submit (hstored : s.stored = s.view) (request : OrderRequest)
    (hlots : ∀ quote, answers.quote = .ok quote → LotsAgree resolveMarketType quote.symbol
      request.quantity answers) :
    Session.wp (submit resolveMarketType ownerUserId request answers)
      (fun _ => Committed (AllSound resolveMarketType) s)
      (fun _ => Committed (AllSound resolveMarketType) s) s := by
  unfold submit
  apply wp_ite
  · intro _
    exact AllSound.nothing rfl
  intro _
  cases request.clientOrderId with
  | none => exact AllSound.nothing rfl
  | some clientOrderId =>
  rw [wp_bind, wp_read]
  cases hexisting : s.view.orderOfClient ownerUserId clientOrderId with
  | some existing =>
    exact wp_reconcileExisting hsound hstored (orderOfClient_row hsound hexisting)
  | none =>
  have hraise (_ : Failure) : Committed (AllSound resolveMarketType) s s :=
    AllSound.nothing rfl
  refine wp_lift_bind (fun _ _ => ?_) fun failure _ => hraise failure
  refine wp_lift_bind (fun approved hrisk => ?_) fun failure _ => hraise failure
  apply wp_ite
  · intro _
    exact AllSound.nothing rfl
  intro _
  refine wp_lift_bind (fun accountId _ => ?_) fun failure _ => hraise failure
  refine wp_lift_bind (fun quote hquote => ?_) fun failure _ => hraise failure
  apply wp_submitNew hsound hstored
  · exact ⟨rfl, rfl, rfl⟩
  · exact assessRisk_places hrisk
  · exact request.quantity_pos
  · intro instrumentType resolved hresolved
    exact (hlots quote hquote).whole hrisk hresolved

variable {orderId : String}

theorem Sound.working (hrow : s.view.orders.get? orderId = some order) (hworking : order.Working) :
    order.status = .open ∧ order.filledQuantity = 0 ∧ order.paperTradeId = none ∧
      s.view.tradesOf orderId = [] := by
  have hmatched := hsound.matched _ _ hrow
  rcases hworking with hopen | hpartial
  · simp only [AndroidPaperOrder.Matches, hopen] at hmatched
    exact ⟨hopen, hmatched⟩
  · simp only [AndroidPaperOrder.Matches, hpartial] at hmatched

theorem wp_cancel :
    Session.wp (cancel ownerUserId orderId)
      (fun _ => Committed (AllSound resolveMarketType) s)
      (fun _ => Committed (AllSound resolveMarketType) s) s := by
  rw [cancel, wp_bind]
  apply wp_getOrder
  · intro _
    exact AllSound.nothing rfl
  intro order hrow _
  apply wp_ite
  swap
  · intro _
    exact AllSound.nothing rfl
  intro hworking
  obtain ⟨-, -, -, hnone⟩ := hsound.working hrow hworking
  have hself := hsound.stored _ _ hrow
  have hid : order.id = orderId := hsound.keyed _ _ hrow
  have hcancelled := row_status hself .cancelled order.rejectReason
  apply wp_storeOrder
  · intro _ _
    exact AllSound.nothing rfl
  · intro row hrow'
    cases hrow'.symm.trans hcancelled
    have hwhole : order.Whole resolveMarketType := hsound.whole _ _ hrow
    have hpositive : 0 < order.quantity := hsound.positive _ _ hrow
    refine ⟨_, rfl, List.forall_mem_singleton.mpr ?_⟩
    exact hsound.withOrder order.id _ rfl (hid ▸ hnone) hwhole hpositive hcancelled

theorem wp_reconcile (hstored : s.stored = s.view) :
    Session.wp (reconcile resolveMarketType ownerUserId orderId answers)
      (fun _ => Committed (AllSound resolveMarketType) s)
      (fun _ => Committed (AllSound resolveMarketType) s) s := by
  rw [reconcile, wp_bind]
  apply wp_getOrder
  · intro _
    exact AllSound.nothing rfl
  intro order hrow _
  apply wp_reconcileExisting hsound hstored
  rwa [hsound.keyed _ _ hrow]

end

variable (resolveMarketType) in
/-- What an amendment commits: sound databases, or the amended order, its trade
and the filled order, of which the second is not. -/
def Amended (commits : List Tables) : Prop :=
  AllSound resolveMarketType commits ∨
    ∃ amended traded filled, commits = [amended, traded, filled] ∧
      Sound resolveMarketType amended ∧ Sound resolveMarketType filled

theorem Amended.nothing (ht : t.commits = s.commits) :
    Committed (Amended resolveMarketType) s t :=
  ⟨[], by simpa using ht, .inl (by simp [AllSound])⟩

variable (hsound : Sound resolveMarketType s.view)
include hsound

theorem wp_applyAmendment (hopen : order.status = .open) (hzero : order.filledQuantity = 0)
    (hid : order.paperTradeId = none) (hnone : s.view.tradesOf order.id = [])
    (hplaces : order.quantity.HasPlaces 8) (hpositive : 0 < order.quantity)
    (hwhole : order.Whole resolveMarketType) (quote : Quote) :
    Session.wp (applyAmendment resolveMarketType ownerUserId order quote)
      (fun _ => Committed (Amended resolveMarketType) s)
      (fun _ => Committed (Amended resolveMarketType) s) s := by
  have hamended (row : AndroidPaperOrder) (hrow : order.row = .ok row) :
      Sound resolveMarketType (s.view.withOrder order.id row) := by
    have has := row_ok hrow
    obtain ⟨hquantity, -⟩ := has.quantity_exact hplaces
    have hmatched : row.Matches (s.view.tradesOf order.id) := by
      simp only [AndroidPaperOrder.Matches, has.status, hopen]
      refine ⟨?_, has.paperTradeId.trans hid, hnone⟩
      rw [has.filledQuantity, hzero]
      exact HasPlaces.zero.quantizeHalfUp
    have hrowWhole : row.Whole resolveMarketType := by
      intro instrumentType symbol hresolved
      rw [has.symbol] at hresolved
      rw [hquantity]
      exact hwhole instrumentType symbol hresolved
    exact hsound.withOrder order.id row has.id hmatched hrowWhole (hquantity.symm ▸ hpositive)
      (row_row hrow)
  unfold applyAmendment
  apply wp_ite
  swap
  · intro _
    apply wp_storeOrder
    · intro _ _
      exact Amended.nothing rfl
    · intro row hrow
      exact ⟨_, rfl, .inl (List.forall_mem_singleton.mpr (hamended row hrow))⟩
  intro _
  apply wp_ite
  · intro hremaining
    apply wp_storeOrder
    · intro _ _
      exact Amended.nothing rfl
    · intro row hrow
      -- An order that can be stored has a quantity left to fill.
      have hexact := ((row_ok hrow).quantity_exact hplaces).2
      rw [hzero] at hremaining
      exact absurd (hexact.symm.trans hremaining) hpositive.ne'
  intro _
  rw [wp_bind, saveOrder]
  refine wp_lift_bind (fun row hrow => ?_) fun _ _ => Amended.nothing rfl
  rw [wp_modify, wp_bind, wp_commit]
  have hafter := hamended row hrow
  have hunfilled : Unfilled resolveMarketType (s.view.withOrder order.id row) order row :=
    ⟨hzero, hid, hrow, hwhole, .inl hnone⟩
  have hget : (s.view.withOrder order.id row).orders.get? order.id = some row := by
    simp [Tables.withOrder_get?]
  have hcommitted (t : SessionState Tables) (commits : List Tables)
      (h : FillOutcome (s.view.withOrder order.id row) order row commits)
      (ht : t.commits = s.commits ++ [s.view.withOrder order.id row] ++ commits) :
      Committed (Amended resolveMarketType) s t := by
    refine ⟨s.view.withOrder order.id row :: commits, by simp [ht], ?_⟩
    rcases h.sound hafter hunfilled hget with hall | ⟨-, traded, filled, rfl, hfilled⟩
    · exact .inl (List.forall_mem_cons.mpr ⟨hafter, hall⟩)
    · exact .inr ⟨_, traded, filled, rfl, hafter, hfilled⟩
  apply wp_fill hunfilled rfl
  · rw [Option.getD_some, hzero]
    exact ((row_ok hrow).quantity_exact hplaces).2
  · intro _ t commits houtcome ht
    exact hcommitted t commits houtcome ht
  · intro _ t commits houtcome ht
    exact hcommitted t commits houtcome ht

theorem wp_amend {orderId : String} (amendment : AmendRequest)
    (hlots : ∀ order, s.view.orders.get? orderId = some order → LotsAgree resolveMarketType
      order.symbol (amendment.quantity.getD order.quantity) answers) :
    Session.wp (amend resolveMarketType ownerUserId orderId amendment answers)
      (fun _ => Committed (Amended resolveMarketType) s)
      (fun _ => Committed (Amended resolveMarketType) s) s := by
  rw [amend, wp_bind]
  apply wp_getOrder
  · intro _
    exact Amended.nothing rfl
  intro order hrow _
  apply wp_ite
  · intro _
    exact Amended.nothing rfl
  intro hamendable
  have hworking : order.Working := by
    by_contra hnot
    exact hamendable (.inr hnot)
  obtain ⟨hopen, hzero, hid, hnone⟩ := hsound.working hrow hworking
  obtain rfl : order.id = orderId := hsound.keyed _ _ hrow
  apply wp_ite
  · intro _
    exact Amended.nothing rfl
  intro _
  cases amendment.limitPrice <|> order.limitPrice with
  | none => exact Amended.nothing rfl
  | some limitPrice =>
  have hraise (_ : Failure) : Committed (Amended resolveMarketType) s s := Amended.nothing rfl
  refine wp_lift_bind (fun _ _ => ?_) fun failure _ => hraise failure
  refine wp_lift_bind (fun _ _ => ?_) fun failure _ => hraise failure
  refine wp_lift_bind (fun approved hrisk => ?_) fun failure _ => hraise failure
  apply wp_ite
  · intro _
    exact Amended.nothing rfl
  intro _
  refine wp_lift_bind (fun quote _ => ?_) fun failure _ => hraise failure
  apply wp_applyAmendment hsound
  · exact hopen
  · exact hzero
  · exact hid
  · exact hnone
  · exact assessRisk_places hrisk
  · cases hquantity : amendment.quantity with
    | none => exact hsound.positive order.id order hrow
    | some quantity => exact amendment.quantity_pos quantity hquantity
  · intro instrumentType symbol hresolved
    exact (hlots order hrow).whole hrisk hresolved

theorem wp_placeOrder_sound {o : OrderCall}
    (hother : ∀ orderId, o.correlationId ≠ some (.order orderId) ∧ ∀ prior, o.correlationId ≠ some
      (.fill orderId prior)) :
    Session.wp (placeOrder resolveMarketType o)
      (fun _ => Committed (AllSound resolveMarketType) s)
      (fun _ => Committed (AllSound resolveMarketType) s) s := by
  rw [placeOrder, wp_tryCatch]
  apply wp_executeOrder
  · constructor
    · intro reason
      exact ⟨[s.view], rfl, List.forall_mem_singleton.mpr hsound⟩
    · intro failure view hvalue
      cases failure with
      | value reason => exact absurd rfl (hvalue reason)
      | _ => exact AllSound.nothing rfl
  · intro p pnl trade db' _ htrade hexecuted
    refine ⟨[db'], rfl, List.forall_mem_singleton.mpr ?_⟩
    apply hsound.otherTrade hexecuted
    intro orderId hof
    rw [PaperTrade.OfOrder, htrade.correlationId] at hof
    obtain ⟨horder, hfill⟩ := hother orderId
    split at hof
    next hid => exact horder (hof ▸ hid)
    next hid => exact hfill _ (hof ▸ hid)
    · exact hof

end KAssetTrader.Paper
