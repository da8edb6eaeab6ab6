import KAssetTrader.Paper.LimitRuns

/-!
Fills of resting orders. A fill is one transaction: the reservation goes back to the
ledger and the trade takes the same amount from it. The link of the order to its trade
comes after it and changes nothing that the books count.
-/

namespace KAssetTrader.Paper

open Dict Decimal Transition

variable {desk desk' : LimitDesk} {order : PaperPendingOrder}
  {resolveEquity : String → Option (EquityType × String)} {orderId : ℕ} {accountId : ℤ}

section Fill

variable {tables : Tables} {now : Instant}

variable (h : DeskKept accountId desk) (horder : desk.orders.get? orderId = some order)
  (hpending : order.status = .pending)
  (hok : fillOrder resolveEquity accountId desk.tables order now = .ok tables)
include h horder hpending hok

theorem CashKept.fill :
    CashKept accountId (desk.withFill orderId tables now) := by
  have hkept := h.rows.rows orderId order horder
  obtain ⟨account, cash, trade, haccount, hcash, htrade, _, hgross, hexecuted⟩ :=
    fillOrder_ok hkept hok
  obtain ⟨before, hbefore, hledger, hfunded⟩ := h.cash.ledger
  cases haccount.symm.trans hbefore
  have hback : (released accountId desk.tables cash).accounts.get? accountId =
      some (account.withCash .krw cash) := by
    simp [released, get?_modify, haccount]
  obtain ⟨after, hafter, hmoved, hnonneg⟩ := hexecuted.krw hback
  rw [if_pos ⟨htrade.accountId, htrade.currency⟩, PaperAccount.withCash_krw,
    releasedCash_ok hcash hpending] at hmoved
  have hbooked : _ = desk.booked accountId + _ :=
    booked_append h.cash.resetAt hexecuted.trades
  rw [if_pos ⟨htrade.accountId, htrade.currency⟩] at hbooked
  have hreserved := reserved_modify (f := fun row => row.fill now) horder
  have hnone : (order.fill now).held = 0 := if_neg (fun hboth => by cases hboth.1)
  refine ⟨⟨after, hafter, ?_, fun hholds => ?_⟩, ?_⟩
  · change after.cashKrw.value + LimitDesk.reserved (desk.withFill orderId tables now) =
      LimitDesk.booked { desk with tables := tables } accountId
    rw [LimitDesk.reserved, LimitDesk.withFill, hreserved, hnone, hmoved, hbooked, ← hledger]
    ring
  · apply hnonneg
    · have hbuys := hfunded (HoldsBuy.of_modify (fun _ hp => by cases hp) hholds)
      rw [PaperAccount.withCash_krw, releasedCash_ok hcash hpending]
      exact add_nonneg hbuys hkept.held_nonneg
    · exact fun _ => hgross
  · change desk.resetAt ≤ tables.trades.length
    rw [hexecuted.trades, List.length_append]
    exact h.cash.resetAt.trans (Nat.le_add_right _ _)

theorem FillsKept.fill :
    FillsKept accountId (desk.withFill orderId tables now) := by
  obtain ⟨account, cash, trade, _, _, htrade, hid, _, hexecuted⟩ :=
    fillOrder_ok (h.rows.rows orderId order horder) hok
  have hopen : order.status ≠ .filled := by
    rw [hpending]
    nofun
  obtain ⟨hunfilled, hunlinked⟩ := h.fills.not_filled horder hopen
  have htrades : tables.trades = desk.tables.trades ++ [trade] := hexecuted.trades
  have hother : ∀ id row, id ≠ orderId → desk.orders.get? id = some row →
      (desk.withFill orderId tables now).orders.get? id = some row := by
    intro id row hne hrow
    simp only [LimitDesk.withFill]
    rw [get?_modify, if_neg hne, hrow]
  constructor
  · exact hexecuted.ids_lt hid h.fills.ids
  · exact hexecuted.ids_nodup hid h.fills.ids h.fills.idsNodup
  · intro id tradeId hmem
    rcases List.mem_cons.mp hmem with hhead | htail
    · cases hhead
      refine ⟨order.fill now, trade, ?_, rfl, ?_, hid, htrade.restated rfl rfl rfl rfl⟩
      · simp [LimitDesk.withFill, get?_modify, horder]
      · change trade ∈ tables.trades
        rw [htrades]
        exact List.mem_append_right _ (List.mem_singleton_self _)
    · obtain ⟨row, filling, hrow, hfilled, hfilling, hfillingId, hfill⟩ :=
        h.fills.filled id tradeId htail
      have hne : id ≠ orderId := by
        rintro rfl
        exact hunfilled tradeId htail
      refine ⟨row, filling, hother id row hne hrow, hfilled, ?_, hfillingId, hfill⟩
      change filling ∈ tables.trades
      rw [htrades]
      exact List.mem_append_left _ hfilling
  · intro id row hrow hfilled
    obtain ⟨before, hbefore, ⟨rfl, _⟩ | ⟨_, rfl⟩⟩ := of_get?_modify hrow
    · exact ⟨_, List.mem_cons_self⟩
    · obtain ⟨tradeId, hmem⟩ := h.fills.recorded id row hbefore hfilled
      exact ⟨tradeId, List.mem_cons_of_mem _ hmem⟩
  · change (orderId :: desk.fills.map (·.1)).Nodup
    refine List.nodup_cons.mpr ⟨fun hmem => ?_, h.fills.orderOnce⟩
    obtain ⟨⟨_, tradeId⟩, hfill, rfl⟩ := List.mem_map.mp hmem
    exact hunfilled tradeId hfill
  · change (desk.tables.nextTradeId :: desk.fills.map (·.2)).Nodup
    refine List.nodup_cons.mpr ⟨fun hmem => ?_, h.fills.tradeOnce⟩
    obtain ⟨⟨id, tradeId⟩, hfill, heq⟩ := List.mem_map.mp hmem
    obtain ⟨_, filling, _, _, hfilling, rfl, _⟩ := h.fills.filled id tradeId hfill
    exact absurd (h.fills.ids filling hfilling) (heq ▸ lt_irrefl _)
  · intro id row tradeId hrow hlink
    obtain ⟨before, hbefore, ⟨rfl, rfl⟩ | ⟨_, rfl⟩⟩ := of_get?_modify hrow
    · cases horder.symm.trans hbefore
      change order.paperTradeId = some tradeId at hlink
      rw [hunlinked] at hlink
      cases hlink
    · exact List.mem_cons_of_mem _ (h.fills.linked id row tradeId hbefore hlink)

theorem DeskKept.fill :
    DeskKept accountId (desk.withFill orderId tables now) where
  cash := CashKept.fill h horder hpending hok
  rows := h.rows.modify fun _ hkept => hkept.restated rfl rfl rfl rfl rfl
  fills := FillsKept.fill h horder hpending hok

end Fill

variable {tradeId : ℤ} {correlationId : CorrelationId}

@[simp] theorem labelled_id (trade : PaperTrade) :
    (labelled tradeId correlationId trade).id = trade.id := by
  unfold labelled
  split <;> rfl

theorem totalOver_labelled (P : PaperTrade → Prop) [DecidablePred P]
    {value : PaperTrade → Decimal}
    (hP : ∀ trade : PaperTrade, P (labelled tradeId correlationId trade) ↔ P trade)
    (hvalue : ∀ trade : PaperTrade, value (labelled tradeId correlationId trade) = value trade)
    (trades : List PaperTrade) :
    totalOver P value (trades.map (labelled tradeId correlationId)) = totalOver P value trades := by
  have hfilter : ∀ trade, decide (P (labelled tradeId correlationId trade)) = decide (P trade) :=
    fun trade => decide_eq_decide.mpr (hP trade)
  simp only [totalOver, List.filter_map, List.map_map, Function.comp_def, hfilter, hvalue]

theorem FillTrade.labelled {trade : PaperTrade} (h : FillTrade accountId order trade) :
    FillTrade accountId order (labelled tradeId correlationId trade) := by
  unfold Paper.labelled
  split
  · exact ⟨h.accountId, h.symbol, h.side, h.currency, h.quantity, h.price⟩
  · exact h

def LimitDesk.linked (desk : LimitDesk) (orderId : ℕ) (correlationId : CorrelationId)
    (tradeId : ℤ) : LimitDesk :=
  { desk with
    tables := { desk.tables with
      trades := desk.tables.trades.map (labelled tradeId correlationId) }
    orders := desk.orders.modify orderId fun row => { row with paperTradeId := some tradeId } }

theorem linkTrade_ok (h : linkTrade accountId desk orderId order = some desk') :
    desk' = desk ∨ ∃ tradeId, latestTradeId accountId desk.tables.trades order.symbol order.side =
      some tradeId ∧ desk' = desk.linked orderId order.correlationId tradeId := by
  unfold linkTrade at h
  split at h
  · exact .inl (Option.some.inj h).symm
  next tradeId hlatest =>
    split at h
    · cases h
    · exact .inr ⟨tradeId, hlatest, (Option.some.inj h).symm⟩

theorem latestTradeId_append {trades : List PaperTrade} {trade : PaperTrade}
    (h : FillTrade accountId order trade) :
    latestTradeId accountId (trades ++ [trade]) order.symbol order.side = some trade.id := by
  have hmatch : trade.accountId = accountId ∧ trade.symbol = order.symbol ∧
      trade.side = order.side := ⟨h.accountId, h.symbol, h.side⟩
  simp [latestTradeId, List.filter_append, hmatch]

theorem CashKept.link (h : CashKept accountId desk) :
    CashKept accountId (desk.linked orderId correlationId tradeId) := by
  obtain ⟨account, haccount, hledger, hfunded⟩ := h.ledger
  have hreserved : (desk.linked orderId correlationId tradeId).reserved = desk.reserved :=
    total_modify_of_eq (fun _ (row : PaperPendingOrder) => row.held) desk.orders
      (g := fun row => { row with paperTradeId := some tradeId }) fun _ _ => rfl
  have hfields : ∀ trade, (labelled tradeId correlationId trade).side = trade.side ∧
      (labelled tradeId correlationId trade).accountId = trade.accountId ∧
      (labelled tradeId correlationId trade).currency = trade.currency ∧
      (labelled tradeId correlationId trade).totalAmount = trade.totalAmount ∧
      (labelled tradeId correlationId trade).fee = trade.fee := by
    intro trade
    unfold labelled
    split
    · exact ⟨rfl, rfl, rfl, rfl, rfl⟩
    · exact ⟨rfl, rfl, rfl, rfl, rfl⟩
  have hsince : (desk.linked orderId correlationId tradeId).since =
      desk.since.map (labelled tradeId correlationId) :=
    List.map_drop.symm
  have hspent : spentCash accountId .krw (desk.linked orderId correlationId tradeId).since =
      spentCash accountId .krw desk.since := by
    rw [hsince]
    apply totalOver_labelled
    · intro trade
      obtain ⟨hside, hid, hcurrency, _, _⟩ := hfields trade
      rw [hside, hid, hcurrency]
    · intro trade
      obtain ⟨_, _, _, htotal, hfee⟩ := hfields trade
      rw [htotal, hfee]
  have hreceived : receivedCash accountId .krw (desk.linked orderId correlationId tradeId).since =
      receivedCash accountId .krw desk.since := by
    rw [hsince]
    apply totalOver_labelled
    · intro trade
      obtain ⟨hside, hid, hcurrency, _, _⟩ := hfields trade
      rw [hside, hid, hcurrency]
    · intro trade
      obtain ⟨_, _, _, htotal, hfee⟩ := hfields trade
      rw [htotal, hfee]
  refine ⟨⟨account, haccount, ?_, fun hholds => hfunded ?_⟩, ?_⟩
  · rw [hreserved, hledger, LimitDesk.booked, LimitDesk.booked, hspent, hreceived]
    rfl
  · exact HoldsBuy.of_modify (f := fun row => { row with paperTradeId := some tradeId })
      (fun _ hp => ⟨hp, rfl⟩) hholds
  · change desk.resetAt ≤ (desk.tables.trades.map (labelled tradeId correlationId)).length
    rw [List.length_map]
    exact h.resetAt

theorem FillsKept.link (h : FillsKept accountId desk) (hfill : (orderId, tradeId) ∈ desk.fills) :
    FillsKept accountId (desk.linked orderId correlationId tradeId) := by
  constructor
  · intro trade htrade
    obtain ⟨before, hbefore, rfl⟩ := List.mem_map.mp htrade
    rw [labelled_id]
    exact h.ids before hbefore
  · change ((desk.tables.trades.map (labelled tradeId correlationId)).map (·.id)).Nodup
    simp only [List.map_map, Function.comp_def, labelled_id]
    exact h.idsNodup
  · intro id fillId hmem
    obtain ⟨row, trade, hrow, hfilled, htrade, hid, hkept⟩ := h.filled id fillId hmem
    refine ⟨if id = orderId then { row with paperTradeId := some tradeId } else row,
      labelled tradeId correlationId trade, ?_, ?_, List.mem_map_of_mem htrade,
      (labelled_id trade).trans hid, ?_⟩
    · change (desk.orders.modify orderId _).get? id = _
      rw [get?_modify, hrow]
      split <;> rfl
    · split <;> exact hfilled
    · split
      · exact hkept.labelled.restated rfl rfl rfl rfl
      · exact hkept.labelled
  · intro id row hrow hfilled
    obtain ⟨before, hbefore, ⟨_, rfl⟩ | ⟨_, rfl⟩⟩ := of_get?_modify hrow
    · exact h.recorded id before hbefore hfilled
    · exact h.recorded id _ hbefore hfilled
  · exact h.orderOnce
  · exact h.tradeOnce
  · intro id row linkId hrow hlink
    obtain ⟨before, hbefore, ⟨rfl, rfl⟩ | ⟨_, rfl⟩⟩ := of_get?_modify hrow
    · cases hlink
      exact hfill
    · exact h.linked id _ linkId hbefore hlink

theorem DeskKept.link (h : DeskKept accountId desk) (hfill : (orderId, tradeId) ∈ desk.fills) :
    DeskKept accountId (desk.linked orderId correlationId tradeId) where
  cash := h.cash.link
  rows := h.rows.modify fun _ hkept => hkept.restated rfl rfl rfl rfl rfl
  fills := h.fills.link hfill

end KAssetTrader.Paper
