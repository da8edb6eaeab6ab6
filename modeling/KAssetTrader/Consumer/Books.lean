import KAssetTrader.Consumer.Moves

/-!
What the tables of orders and trades keep over every interleaving of consumers
and crashes: one order for the client id, one trade for the order, and a row of
the order that agrees with its trade. A snapshot that a consumer works on may
be stale, but it agrees with the trade as well.
-/

namespace KAssetTrader.Consumer

open Position Recommendation Transition

def Phase.snapshot : Phase → Option PaperOrder
  | .reconciling _ _ order => some order
  | .filling _ _ order => some order
  | .executing _ _ order => some order
  | .rejecting _ _ order => some order
  | .duplicate _ _ order => some order
  | .executed _ _ order => some order
  | .applying _ _ order _ => some order
  | .applied _ _ order => some order
  | .settled _ _ order => some order
  | .raised _ _ order => order
  | _ => none

/-- The trade whose metadata a consumer is about to write. -/
def Phase.matched : Phase → Option PaperTrade
  | .applying _ _ _ trade => some trade
  | _ => none

/-- A snapshot that agrees with the trades, of an order that is stored. -/
structure Known (w : World) (order : PaperOrder) : Prop where
  settlement : Settlement w.trades order
  stored : ∃ stored ∈ w.orders, stored.id = order.id ∧ stored.quantity = order.quantity

structure Tables (target : Target) (w : World) : Prop where
  single : w.orders.length ≤ 1
  client : ∀ order ∈ w.orders, order.clientOrderId = target.clientOrderId
  trades : ∀ order ∈ w.orders, OrderTrades target.market w.trades order
  no_trades : w.orders = [] → w.trades = []
  stored : ∀ order ∈ w.orders, Settlement w.trades order

structure Books (target : Target) (w : World) : Prop extends Tables target w where
  snapshots : ∀ i, ∀ order ∈ (w.consumers i).snapshot, Known w order
  matched : ∀ i, ∀ trade ∈ (w.consumers i).matched, trade ∈ w.trades

variable {p p' : Phase} {target : Target} {w w' : World} {write : Write}

section Snapshots

variable {e : Event}

theorem Moves.snapshot (h : Moves target w p p' write) {order : PaperOrder}
    (horder : p'.snapshot = some order) :
    order ∈ w.orders ∨ p.snapshot = some order ∨
      ∃ loaded, write = .updateOrder loaded order := by
  cases h with
  | found _ hmem =>
    cases horder
    exact .inl hmem
  | readPlaced hmem =>
    cases horder
    exact .inl hmem
  | reread _ hmem =>
    cases horder
    exact .inl hmem
  | refreshed hmem =>
    cases horder
    exact .inl hmem
  | rejected =>
    cases horder
    exact .inr (.inr ⟨_, rfl⟩)
  | apply =>
    cases horder
    exact .inr (.inr ⟨_, rfl⟩)
  | thrown hthrown =>
    cases p <;> simp only [Phase.thrown, Option.some.injEq, reduceCtorEq] at hthrown <;>
      subst hthrown <;> simp_all [Phase.snapshot]
  | complete hnext =>
    rcases hnext with rfl | rfl <;> cases horder
  | _ => first | exact .inr (.inl horder) | cases horder

theorem Moves.matched (h : Moves target w p p' write) {trade : PaperTrade}
    (htrade : p'.matched = some trade) : trade ∈ w.trades := by
  cases h with
  | pendingTrade _ hmem =>
    cases htrade
    exact hmem
  | fillTrade hmem =>
    cases htrade
    exact hmem
  | reread hmem _ =>
    cases htrade
    exact hmem
  | executedTrade hmem =>
    cases htrade
    exact hmem
  | thrown hthrown =>
    cases p <;> simp only [Phase.thrown, Option.some.injEq, reduceCtorEq] at hthrown <;>
      subst hthrown <;> cases htrade
  | complete hnext =>
    rcases hnext with rfl | rfl <;> cases htrade
  | _ => cases htrade

end Snapshots

variable {t : World}

section Tables

variable {order loaded modified : PaperOrder}

theorem Tables.known (h : Tables target w) (horder : order ∈ w.orders) : Known w order :=
  ⟨h.stored order horder, order, horder, rfl, rfl⟩

theorem Tables.same (h : Tables target w) {other : PaperOrder} (horder : order ∈ w.orders)
    (hother : other ∈ w.orders) : order = other :=
  eq_of_length_le_one h.single horder hother

theorem Known.trades (h : Known w order) (htables : Tables target w) :
    OrderTrades target.market w.trades order := by
  obtain ⟨stored, hstored, hid, hquantity⟩ := h.stored
  obtain ⟨hordered, hsettled, hsingle⟩ := htables.trades stored hstored
  exact ⟨hquantity ▸ hordered, by simpa only [hid, hquantity] using hsettled, hsingle⟩

theorem Tables.absent (h : Tables target w)
    (hnone : w.orderOfClient target.clientOrderId = none) : w.orders = [] := by
  rw [List.eq_nil_iff_forall_not_mem]
  intro order horder
  have hdiffers := List.find?_eq_none.mp hnone order horder
  simp [h.client order horder] at hdiffers

variable {account after : PaperAccount} {totalCost settled : Decimal}

theorem Known.unfilled (h : Known w order) (htables : Tables target w)
    (hnone : w.trade order.correlationId = none)
    (hok : executeOrder target.market account order.side (order.quantity - order.filledQuantity)
      totalCost = .ok (settled, after)) :
    order.filledQuantity = 0 ∧ w.trades = [] := by
  have htrades := h.trades htables
  obtain ⟨hsettled, hpos⟩ := executeOrder_ok hok
  have hfilled : order.filledQuantity = 0 := by
    rcases h.settlement with ⟨hzero, -⟩ | ⟨trade, htrade, -, hfilled, -⟩
    · exact hzero
    · rw [hfilled, (htrades.settled trade htrade).2.1,
        quantize_remainder htrades.ordered.le] at hsettled
      exact absurd hsettled hpos.ne'
  refine ⟨hfilled, ?_⟩
  rw [List.eq_nil_iff_forall_not_mem]
  intro trade htrade
  have hdiffers := List.find?_eq_none.mp hnone trade htrade
  simp [PaperOrder.correlationId, hfilled, (htrades.settled trade htrade).1] at hdiffers

theorem Tables.insertOrder (h : Tables target w)
    (hnone : w.orderOfClient target.clientOrderId = none)
    (hclient : order.clientOrderId = target.clientOrderId) (hquantity : 0 < order.quantity)
    (hnew : order.status = .pending ∧ order.filledQuantity = 0 ∧ order.paperTradeId = none) :
    Tables target { w with orders := w.orders ++ [order] } := by
  have horders := h.absent hnone
  have htrades := h.no_trades horders
  have hmem (o : PaperOrder) (ho : o ∈ w.orders ++ [order]) : o = order := by
    simpa [horders] using ho
  refine ⟨by simp [horders], fun o ho => ?_, fun o ho => ?_, by simp, fun o ho => ?_⟩
  · rw [hmem o ho, hclient]
  · obtain rfl := hmem o ho
    exact ⟨hquantity, by simp [htrades], by simp [htrades]⟩
  · obtain rfl := hmem o ho
    exact .inl ⟨hnew.2.1, hnew.2.2, .inl hnew.1⟩

theorem Tables.insertTrade (h : Tables target w) (hknown : Known w order) {tradeId : ℤ}
    (hnone : w.trade order.correlationId = none)
    (hok : executeOrder target.market account order.side (order.quantity - order.filledQuantity)
      totalCost = .ok (settled, after)) :
    Tables target { w with
      trades := w.trades ++ [⟨tradeId, order.correlationId, settled⟩], account := after } := by
  obtain ⟨hfilled, htrades⟩ := hknown.unfilled h hnone hok
  obtain ⟨hsettled, hpos⟩ := executeOrder_ok hok
  obtain ⟨stored, hstored, hid, hquantity⟩ := hknown.stored
  refine ⟨h.single, h.client, fun o ho => ?_, fun hnil => ?_, fun o ho => ?_⟩
  · obtain rfl := h.same ho hstored
    refine ⟨(h.trades o ho).ordered, fun trade htrade => ?_, by simp [htrades]⟩
    obtain rfl : trade = ⟨tradeId, order.correlationId, settled⟩ := by
      simpa [htrades] using htrade
    refine ⟨by simp [PaperOrder.correlationId, hfilled, hid], ?_, hpos⟩
    rw [hsettled, hfilled, sub_zero, hquantity]
  · exact absurd hstored (by simp [show w.orders = [] from hnil])
  · exact (h.stored o ho).mono fun t ht => List.mem_append_left _ ht

/-- A change of an order that a consumer commits: a rejection, or the metadata
of a trade. -/
def Changes (w : World) (loaded modified : PaperOrder) : Prop :=
  modified = loaded.reject ∨ ∃ trade ∈ w.trades, loaded.withTrade trade = .ok modified

theorem Changes.settlement (h : Changes w loaded modified) (hknown : Known w loaded)
    (htables : Tables target w) : Settlement w.trades modified ∧ modified.id = loaded.id ∧
      modified.quantity = loaded.quantity ∧
      ∀ stored ∈ w.orders, stored.id = loaded.id → stored.quantity = loaded.quantity →
        Settlement w.trades (stored.flush loaded modified) := by
  have htrades := hknown.trades htables
  rcases h with rfl | ⟨trade, htrade, hok⟩
  · refine ⟨hknown.settlement.reject, rfl, rfl, fun stored hstored _ _ => ?_⟩
    rw [PaperOrder.flush_reject]
    split
    · exact htables.stored stored hstored
    · exact (htables.stored stored hstored).reject
  · obtain ⟨-, hstatus, hid, hquantity, hfilled, htradeId⟩ :=
      htrades.flush_withTrade loaded hknown.settlement htrade hok
    obtain ⟨hcorrelation, -, -⟩ := htrades.settled trade htrade
    have hnotPending : modified.status ≠ .pending := by
      rw [hstatus]
      split <;> simp
    have hwhole : modified.status = .filled → trade.quantity = loaded.quantity := by
      rw [hstatus]
      split
      next hquantity => exact fun _ => hquantity
      · simp
    refine ⟨.inr ⟨trade, htrade, hid ▸ hcorrelation, hfilled, htradeId, hnotPending,
      hquantity ▸ hwhole⟩, hid, hquantity, fun stored hstored hstoredId hstoredQuantity => ?_⟩
    obtain ⟨hflush, -⟩ := htrades.flush_withTrade stored hknown.settlement htrade hok
    rw [hflush]
    exact .inr ⟨trade, htrade, hstoredId ▸ hcorrelation, rfl, rfl, hnotPending,
      hstoredQuantity ▸ hwhole⟩

theorem Tables.updateOrder (h : Tables target w) (hknown : Known w loaded)
    (hchanges : Changes w loaded modified)
      (ht : w.perform (.updateOrder loaded modified) = some t) :
    Tables target t ∧ Known t modified ∧ ∀ o, Known w o → Known t o := by
  cases ht
  obtain ⟨hsettlement, hid, hquantity, hflush⟩ := hchanges.settlement hknown h
  obtain ⟨stored, hstored, hstoredId, hstoredQuantity⟩ := hknown.stored
  have hrow (o : PaperOrder) (ho : o ∈ w.orders) :
      (if o.id = loaded.id then o.flush loaded modified else o) = o.flush loaded modified := by
    rw [h.same ho hstored, if_pos hstoredId]
  have hmem (o : PaperOrder) (ho : o ∈ w.orders.map fun stored =>
      if stored.id = loaded.id then stored.flush loaded modified else stored) :
      o = stored.flush loaded modified := by
    obtain ⟨row, hrowMem, rfl⟩ := List.mem_map.mp ho
    rw [hrow row hrowMem, h.same hrowMem hstored]
  have hstoredMem : stored.flush loaded modified ∈ w.orders.map fun stored =>
      if stored.id = loaded.id then stored.flush loaded modified else stored :=
    List.mem_map.mpr ⟨stored, hstored, hrow stored hstored⟩
  refine ⟨⟨?_, fun o ho => ?_, fun o ho => ?_, fun hnil => ?_, fun o ho => ?_⟩, ?_, ?_⟩
  · simpa using h.single
  · rw [hmem o ho]
    exact h.client stored hstored
  · obtain ⟨hordered, hsettled, hsingle⟩ := h.trades stored hstored
    rw [hmem o ho]
    exact ⟨hordered, hsettled, hsingle⟩
  · have hempty : w.orders = [] := by simpa using hnil
    simp [hempty] at hstored
  · rw [hmem o ho]
    exact hflush stored hstored hstoredId hstoredQuantity
  · exact ⟨hsettlement, _, hstoredMem, hstoredId.trans hid.symm,
      hstoredQuantity.trans hquantity.symm⟩
  · intro o ho
    obtain ⟨row, hrowMem, hrowId, hrowQuantity⟩ := ho.stored
    obtain rfl := h.same hrowMem hstored
    exact ⟨ho.settlement, _, hstoredMem, hrowId, hrowQuantity⟩

end Tables

variable {a : Action}

theorem Tables.perform (h : Tables target w) (hmoves : Moves target w p p' write)
    (hsnapshot : ∀ order ∈ p.snapshot, Known w order)
    (hmatched : ∀ trade ∈ p.matched, trade ∈ w.trades) (ht : w.perform write = some t) :
    Tables target t ∧ (∀ o, Known w o → Known t o) ∧ (∀ trade ∈ w.trades, trade ∈ t.trades) ∧
      ∀ order ∈ p'.snapshot, Known t order := by
  have hkept (hkeeps : ∀ o, Known w o → Known t o) (hupdate : ∀ loaded modified,
      write ≠ .updateOrder loaded modified) : ∀ order ∈ p'.snapshot, Known t order := by
    intro order horder
    rcases hmoves.snapshot horder with hmem | hsame | ⟨loaded, hwrite⟩
    · exact hkeeps order (h.known hmem)
    · exact hkeeps order (hsnapshot order hsame)
    · exact absurd hwrite (hupdate loaded order)
  cases write with
  | nothing =>
    cases ht
    exact ⟨h, fun _ ho => ho, fun _ ht => ht, hkept (fun _ ho => ho) (by simp)⟩
  | row action =>
    obtain ⟨shared, -, rfl⟩ := Option.map_eq_some_iff.mp ht
    have hkeeps (o : PaperOrder) (ho : Known w o) : Known { w with shared } o :=
      ⟨ho.settlement, ho.stored⟩
    exact ⟨⟨h.single, h.client, h.trades, h.no_trades, h.stored⟩, hkeeps, fun _ ht => ht,
      hkept hkeeps (by simp)⟩
  | insertOrder order =>
    cases ht
    have hkeeps (hnone : w.orderOfClient target.clientOrderId = none) (o : PaperOrder)
        (ho : Known w o) : Known { w with orders := w.orders ++ [order] } o := by
      obtain ⟨stored, hstored, -⟩ := ho.stored
      simp [h.absent hnone] at hstored
    cases hmoves with
    | place hquantity hnone =>
      exact ⟨h.insertOrder hnone rfl hquantity ⟨rfl, rfl, rfl⟩, hkeeps hnone, fun _ ht => ht,
        hkept (hkeeps hnone) (by simp)⟩
  | insertTrade trade account =>
    cases ht
    have hkeeps (o : PaperOrder) (ho : Known w o) :
        Known { w with trades := w.trades ++ [trade], account } o :=
      ⟨ho.settlement.mono fun t ht => List.mem_append_left _ ht, ho.stored⟩
    cases hmoves with
    | executed hnone hok =>
      exact ⟨h.insertTrade (hsnapshot _ rfl) hnone hok, hkeeps,
        fun t ht => List.mem_append_left _ ht, hkept hkeeps (by simp)⟩
  | updateOrder loaded modified =>
    have htrades : t.trades = w.trades := by
      cases ht
      rfl
    have hupdate (hloaded : Known w loaded) (hchanges : Changes w loaded modified)
        (hnext : ∀ order ∈ p'.snapshot, order = modified) :
        Tables target t ∧ (∀ o, Known w o → Known t o) ∧ (∀ trade ∈ w.trades, trade ∈ t.trades) ∧
          ∀ order ∈ p'.snapshot, Known t order := by
      obtain ⟨htables, hmodified, hkeeps⟩ := h.updateOrder hloaded hchanges ht
      exact ⟨htables, hkeeps, fun trade htrade => htrades ▸ htrade,
        fun order horder => hnext order horder ▸ hmodified⟩
    cases hmoves with
    | rejected =>
      exact hupdate (hsnapshot _ rfl) (.inl rfl) fun o ho => (Option.some.inj ho).symm
    | apply _ hok =>
      exact hupdate (hsnapshot _ rfl) (.inr ⟨_, hmatched _ rfl, hok⟩)
        fun o ho => (Option.some.inj ho).symm

/-- A step keeps the books: a trade is booked in the transaction that fills its order. -/
theorem Books.step (h : Books target w) (hstep : w.step target a = some w') :
    Books target w' := by
  cases a with
  | wait now =>
    simp only [World.step] at hstep
    split at hstep
    · cases hstep
      exact ⟨⟨h.single, h.client, h.trades, h.no_trades, h.stored⟩,
        fun i order horder => ⟨(h.snapshots i order horder).1, (h.snapshots i order horder).2⟩,
        h.matched⟩
    · cases hstep
  | trade account =>
    cases hstep
    exact ⟨⟨h.single, h.client, h.trades, h.no_trades, h.stored⟩,
      fun i order horder => ⟨(h.snapshots i order horder).1, (h.snapshots i order horder).2⟩,
      h.matched⟩
  | consumer i e =>
    obtain ⟨p', write, t, -, hmoves, hperform, rfl⟩ := step_moves hstep
    obtain ⟨htables, hkeeps, hgrows, hnext⟩ :=
      h.toTables.perform hmoves (h.snapshots i) (h.matched i) hperform
    obtain ⟨-, hconsumers, -⟩ := perform_frame hperform
    refine ⟨⟨htables.single, htables.client, htables.trades, htables.no_trades,
      htables.stored⟩, fun j order horder => ?_, fun j trade htrade => ?_⟩
    · have hknown : Known t order := by
        simp only [phase_after hconsumers] at horder
        split at horder
        · exact hnext order horder
        · exact hkeeps order (h.snapshots j order horder)
      exact ⟨hknown.settlement, hknown.stored⟩
    · simp only [phase_after hconsumers] at htrade
      split at htrade
      · exact hgrows trade (hmoves.matched htrade)
      · exact hgrows trade (h.matched j trade htrade)

theorem reachable_books (h : Reachable World.Start (World.step target) w) : Books target w := by
  refine invariant (fun s hs => ?_) (fun _ _ _ hinv _ hst => hinv.step hst) h
  obtain ⟨-, -, horders, htrades, hidle⟩ := hs
  exact ⟨⟨by simp [horders], by simp [horders], by simp [horders], fun _ => htrades,
    by simp [horders]⟩, fun i order horder => by simp [hidle, Phase.snapshot] at horder,
    fun i trade htrade => by simp [hidle, Phase.matched] at htrade⟩

end KAssetTrader.Consumer
