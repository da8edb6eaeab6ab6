import KAssetTrader.Consumer.Books

/-!
An approved recommendation is executed at most once: there is one order of its
client id, and one trade for each correlation id. A recommendation that has
succeeded has a filled order, as long as no consumer commits a rejection over
an order that another one has filled.
-/

namespace KAssetTrader.Consumer

open Position Recommendation Transition
open Paper (OrderStatus)

def World.StoredFilled (w : World) : Prop := ∃ order ∈ w.orders, order.status = .filled

def Phase.reportsFilled : Phase → Prop
  | .limitRead _ seen => seen.any (·.status == "FILLED") = true
  | .completing _ _ => True
  | .reconcilingCompletion _ _ => True
  | p => ∃ order ∈ p.snapshot, order.status = .filled

/-- The consumer commits no rejection over a filled order next. -/
def Phase.RejectsOpen (orders : List PaperOrder) : Phase → Prop
  | .rejecting _ _ order => order.status = .rejected ∨
      ∀ stored ∈ orders, stored.id = order.id → stored.status ≠ .filled
  | _ => True

instance (orders : List PaperOrder) (p : Phase) : Decidable (p.RejectsOpen orders) := by
  cases p <;> unfold Phase.RejectsOpen <;> infer_instance

def World.RejectsOpen (w : World) : Action → Prop
  | .consumer i .next => (w.consumers i).RejectsOpen w.orders
  | _ => True

instance (w : World) (a : Action) : Decidable (w.RejectsOpen a) := by
  unfold World.RejectsOpen
  split <;> infer_instance

section Reports

variable {target : Target} {w w' t : World} {p p' : Phase} {write : Write} {a : Action}

theorem reportsFilled_of_snapshot {order : PaperOrder} (h : p.snapshot = some order)
    (hfilled : order.status = .filled) : p.reportsFilled := by
  cases p <;> simp only [Phase.snapshot, reduceCtorEq, Option.some.injEq] at h <;>
    exact ⟨order, by simp [Phase.snapshot, h], hfilled⟩

theorem text_filled {status : OrderStatus} : status.text = "FILLED" ↔ status = .filled := by
  cases status <;> simp [OrderStatus.text]

/-- Where a report that the order is filled comes from: the table, what the
consumer knew before, or its own write. -/
theorem Moves.reportsFilled (h : Moves target w p p' write) (hreports : p'.reportsFilled) :
    w.StoredFilled ∨ p.reportsFilled ∨
      ∃ loaded modified, write = .updateOrder loaded modified ∧ modified.status = .filled := by
  have hsnapshot {order : PaperOrder} (horder : p'.snapshot = some order)
      (hfilled : order.status = .filled) : w.StoredFilled ∨ p.reportsFilled ∨
        ∃ loaded modified, write = .updateOrder loaded modified ∧ modified.status = .filled := by
    rcases h.snapshot horder with hmem | hsame | ⟨loaded, hwrite⟩
    · exact .inl ⟨order, hmem, hfilled⟩
    · exact .inr (.inl (reportsFilled_of_snapshot hsame hfilled))
    · exact .inr (.inr ⟨loaded, order, hwrite, hfilled⟩)
  have hcases : (∃ order, p'.snapshot = some order ∧ order.status = .filled) ∨
      (∃ now seen, p' = .limitRead now seen ∧ seen.any (·.status == "FILLED") = true) ∨
      (∃ c orderId, p' = .completing c orderId) ∨
      ∃ c orderId, p' = .reconcilingCompletion c orderId := by
    cases p' with
    | limitRead now seen => exact .inr (.inl ⟨now, seen, rfl, hreports⟩)
    | completing c orderId => exact .inr (.inr (.inl ⟨c, orderId, rfl⟩))
    | reconcilingCompletion c orderId => exact .inr (.inr (.inr ⟨c, orderId, rfl⟩))
    | _ => exact .inl hreports
  rcases hcases with ⟨order, horder, hfilled⟩ | ⟨now, seen, rfl, hseen⟩ | ⟨c, orderId, rfl⟩ |
    ⟨c, orderId, rfl⟩
  · exact hsnapshot horder hfilled
  · cases h with
    | readLimit _ =>
      obtain ⟨seen, hseen, hstatus⟩ := (Option.any_eq_true _ _).mp hseen
      obtain ⟨order, horder, rfl⟩ := Option.map_eq_some_iff.mp hseen
      exact .inl ⟨order, mem_of_orderOfClient horder, text_filled.mp (by simpa using hstatus)⟩
    | complete hnext => rcases hnext with hnext | hnext <;> cases hnext
    | thrown hthrown => cases p <;> simp [Phase.thrown] at hthrown
  · cases h with
    | orderFilled hstatus => exact .inr (.inl ⟨_, rfl, hstatus⟩)
    | complete hnext => rcases hnext with hnext | hnext <;> cases hnext
    | thrown hthrown => cases p <;> simp [Phase.thrown] at hthrown
  · cases h with
    | complete _ => exact .inr (.inl trivial)
    | thrown hthrown => cases p <;> simp [Phase.thrown] at hthrown

variable {loaded modified : PaperOrder} {i : ℕ}

theorem Tables.filled_update (h : Tables target w) (hknown : Known w loaded)
    (ht : w.perform (.updateOrder loaded modified) = some t) :
    t.StoredFilled ↔
      if modified.status = loaded.status then w.StoredFilled else modified.status = .filled := by
  cases ht
  obtain ⟨stored, hstored, hid, -⟩ := hknown.stored
  have hfilled : w.StoredFilled ↔ stored.status = .filled :=
    ⟨fun ⟨order, horder, hstatus⟩ => h.same hstored horder ▸ hstatus,
      fun hstatus => ⟨stored, hstored, hstatus⟩⟩
  have hflush : (stored.flush loaded modified).status = .filled ↔
      if modified.status = loaded.status then w.StoredFilled else modified.status = .filled := by
    simp only [PaperOrder.flush, hfilled]
    split <;> rfl
  rw [← hflush]
  constructor
  · rintro ⟨order, horder, hstatus⟩
    obtain ⟨row, hrow, rfl⟩ := List.mem_map.mp horder
    obtain rfl := h.same hrow hstored
    simpa [hid] using hstatus
  · exact fun hstatus => ⟨_, List.mem_map.mpr ⟨stored, hstored, if_pos hid⟩, hstatus⟩

theorem filled_perform_iff (hmoves : Moves target w p p' write)
    (hupdate : ∀ loaded modified, write ≠ .updateOrder loaded modified)
    (ht : w.perform write = some t) : t.StoredFilled ↔ w.StoredFilled := by
  cases write with
  | nothing =>
    cases ht
    exact Iff.rfl
  | row action =>
    obtain ⟨shared, -, rfl⟩ := Option.map_eq_some_iff.mp ht
    exact Iff.rfl
  | insertOrder order =>
    cases ht
    have hpending : order.status = .pending := by
      cases hmoves
      rfl
    simp [World.StoredFilled, or_and_right, exists_or, hpending]
  | insertTrade trade account =>
    cases ht
    exact Iff.rfl
  | updateOrder loaded modified => exact absurd rfl (hupdate loaded modified)

theorem Books.apply_status (h : Books target w) {c : Claim} {inSubmit : Bool} {trade : PaperTrade}
    (hphase : w.consumers i = .applying c inSubmit loaded trade)
    (hok : loaded.withTrade trade = .ok modified) :
    modified.status ≠ loaded.status ∧ (w.StoredFilled → modified.status = .filled) := by
  have hknown := h.snapshots i loaded (by rw [hphase]; rfl)
  have htrade := h.matched i trade (by rw [hphase]; rfl)
  have htrades := hknown.trades h.toTables
  obtain ⟨-, -, hopen⟩ := htrades.withTrade_open hknown.settlement htrade hok
  obtain ⟨-, hmodified, -⟩ :=
    htrades.flush_withTrade loaded hknown.settlement htrade hok
  refine ⟨?_, fun ⟨order, horder, hstatus⟩ => ?_⟩
  · rw [hmodified]
    split <;> rcases hopen with hopen | hopen <;> simp [hopen]
  · obtain ⟨stored, hstored, -, hquantity⟩ := hknown.stored
    obtain rfl := h.same horder hstored
    -- The stored row was filled by the same trade.
    have hwhole : trade.quantity = loaded.quantity := by
      rcases h.stored order hstored with ⟨-, -, hopen⟩ | ⟨other, hother, -, -, -, -, hwhole⟩
      · rcases hopen with hpending | hrejected
        · simp [hpending] at hstatus
        · simp [hrejected] at hstatus
      · rw [eq_of_length_le_one htrades.single htrade hother, hwhole hstatus, hquantity]
    rw [hmodified, if_pos hwhole]

theorem Books.filled_perform (h : Books target w) (hfilled : w.StoredFilled) {e : Event}
    (hopen : w.RejectsOpen (.consumer i e))
    (hadvance : advance target w (w.consumers i) e = some (p', write))
    (ht : w.perform write = some t) : t.StoredFilled := by
  have hmoves := advance_moves hadvance
  by_cases hupdate : ∃ loaded modified, write = .updateOrder loaded modified
  · obtain ⟨loaded, modified, rfl⟩ := hupdate
    obtain rfl := update_event hadvance
    generalize hphase : w.consumers i = p at hmoves
    have hknown (hsnapshot : p.snapshot = some loaded) : Known w loaded :=
      h.snapshots i loaded (hphase ▸ hsnapshot)
    cases hmoves with
    | rejected =>
      rw [h.filled_update (hknown rfl) ht]
      simp only [World.RejectsOpen, hphase, Phase.RejectsOpen] at hopen
      rcases hopen with hrejected | hunfilled
      · simpa [PaperOrder.reject, hrejected] using hfilled
      · obtain ⟨stored, hstored, hid, -⟩ := (hknown rfl).stored
        obtain ⟨order, horder, hstatus⟩ := hfilled
        exact absurd (h.same horder hstored ▸ hstatus) (hunfilled stored hstored hid)
    | apply _ hok =>
      obtain ⟨hchanged, hwhole⟩ := h.apply_status hphase hok
      rw [h.filled_update (hknown rfl) ht, if_neg hchanged]
      exact hwhole hfilled
  · exact (filled_perform_iff hmoves (fun loaded modified heq =>
      hupdate ⟨loaded, modified, heq⟩) ht).mpr hfilled

theorem Books.filled_by_update (h : Books target w)
    (hmoves : Moves target w (w.consumers i) p' (.updateOrder loaded modified))
    (hmodified : modified.status = .filled) (ht : w.perform (.updateOrder loaded modified) = some t)
    : t.StoredFilled := by
  generalize hphase : w.consumers i = p at hmoves
  cases hmoves with
  | rejected => cases hmodified
  | apply _ hok =>
    have hknown := h.snapshots i loaded (by rw [hphase]; rfl)
    rw [h.filled_update hknown ht, if_neg (h.apply_status hphase hok).1]
    exact hmodified

theorem Moves.succeeded {action : RowAction String} {shared : SharedRow String}
    (h : Moves target w p p' (.row action)) (hstep : w.shared.step action = some shared)
    (hsucceeded : shared.row.paperExecutionStatus = some .succeeded) :
    w.shared.row.paperExecutionStatus = some .succeeded ∨ p.reportsFilled := by
  rcases step_succeeded hstep hsucceeded with hbefore | hends | ⟨order, token, rfl, hfilled⟩
  · exact .inl hbefore
  · cases h with
    | complete _ => exact .inr trivial
    | reconcile => exact .inr trivial
    | _ => simp [RowAction.ends] at hends
  · cases h with
    | claim _ _ _ => simp at hfilled
    | exhausted => exact .inr hfilled

/-- What consumers report, and a success, is borne out by the table. -/
structure FilledKept (w : World) : Prop where
  reports : ∀ i, (w.consumers i).reportsFilled → w.StoredFilled
  row : w.shared.row.paperExecutionStatus = some .succeeded → w.StoredFilled

/-- A rejection that finds its order open leaves true what consumers report. -/
theorem FilledKept.step (h : FilledKept w) (hbooks : Books target w) (hopen : w.RejectsOpen a)
    (hstep : w.step target a = some w') : FilledKept w' := by
  cases a with
  | wait now =>
    simp only [World.step] at hstep
    split at hstep
    · cases hstep
      exact ⟨h.reports, h.row⟩
    · cases hstep
  | trade account =>
    cases hstep
    exact ⟨h.reports, h.row⟩
  | consumer i e =>
    obtain ⟨p', write, t, hadvance, hmoves, hperform, rfl⟩ := step_moves hstep
    obtain ⟨-, hconsumers, hshared, haction⟩ := perform_frame hperform
    have hkeeps (hfilled : w.StoredFilled) : t.StoredFilled :=
      hbooks.filled_perform hfilled hopen hadvance hperform
    have hnext (hreports : p'.reportsFilled) : t.StoredFilled := by
      rcases hmoves.reportsFilled hreports with hstored | hbefore |
        ⟨loaded, modified, rfl, hmodified⟩
      · exact hkeeps hstored
      · exact hkeeps (h.reports i hbefore)
      · exact hbooks.filled_by_update hmoves hmodified hperform
    refine ⟨fun j hreports => ?_, fun hsucceeded => ?_⟩
    · show t.StoredFilled
      by_cases hj : j = i
      · subst hj
        exact hnext (by simpa using hreports)
      · refine hkeeps (h.reports j ?_)
        simpa [hj, hconsumers] using hreports
    · show t.StoredFilled
      by_cases hrow : ∃ action, write = .row action
      · obtain ⟨action, rfl⟩ := hrow
        obtain ⟨-, -, hrowStep⟩ := haction action rfl
        rcases hmoves.succeeded hrowStep hsucceeded with hbefore | hreports
        · exact hkeeps (h.row hbefore)
        · exact hkeeps (h.reports i hreports)
      · have hsame : t.shared = w.shared := hshared fun action heq => hrow ⟨action, heq⟩
        exact hkeeps (h.row (by rw [← hsame]; exact hsucceeded))

theorem reachable_filledKept
    (h : ReachableVia World.Start (World.step target) World.RejectsOpen w) : FilledKept w := by
  refine invariant_of_reachable (fun s hs => ?_) (fun _ _ _ hreach hinv hopen hst => ?_) h
  · obtain ⟨hcreated, -, -, -, hidle⟩ := hs
    refine ⟨fun i hreports => ?_, fun hsucceeded => ?_⟩
    · simp [hidle, Phase.reportsFilled, Phase.snapshot] at hreports
    · simp [hcreated.1] at hsucceeded
  · exact hinv.step (reachable_books (hreach.mono fun _ _ _ => trivial)) hopen hst

end Reports

variable {target : Target} {w : World}

def World.SuccessFilled (target : Target) (w : World) : Prop :=
  w.shared.row.paperExecutionStatus = some .succeeded →
    ∃ order ∈ w.orders, order.clientOrderId = target.clientOrderId ∧ order.status = .filled

/-- At most one order has the client id, and at most one trade each correlation
id. -/
structure World.ExecutedOnce (target : Target) (w : World) : Prop where
  orders : (w.orders.filter (·.clientOrderId = target.clientOrderId)).length ≤ 1
  trades : ∀ correlationId, (w.trades.filter (·.correlationId = correlationId)).length ≤ 1

theorem Tables.trades_length (h : Tables target w) : w.trades.length ≤ 1 := by
  cases horders : w.orders with
  | nil => simp [h.no_trades horders]
  | cons order rest => exact (h.trades order (by simp [horders])).single

/-- Over every interleaving of consumers, crashes and expiring leases, an
approved recommendation is executed at most once; and when it has succeeded its
order is filled, unless a rejection was committed over it. -/
theorem executed_at_most_once (target : Target) :
    (∀ w, Reachable World.Start (World.step target) w → w.ExecutedOnce target) ∧
    ∀ w, ReachableVia World.Start (World.step target) World.RejectsOpen w →
      w.SuccessFilled target := by
  refine ⟨fun w h => ?_, fun w h hsucceeded => ?_⟩
  · have htables := (reachable_books h).toTables
    exact ⟨(List.length_filter_le _ _).trans htables.single,
      fun correlationId => (List.length_filter_le _ _).trans htables.trades_length⟩
  · obtain ⟨order, horder, hfilled⟩ := (reachable_filledKept h).row hsucceeded
    have hbooks := reachable_books (h.mono fun _ _ _ => trivial)
    exact ⟨order, horder, hbooks.client order horder, hfilled⟩

/-- The recommendation to sell a holding of ten shares. -/
def exitTarget : Target := ⟨"r", 1, .krx⟩

def approvedExit : AIRecommendation String where
  ownerUserId := 1
  id := "r"
  action := .sell
  decision := .approved
  rationale := ["stop"]
  source := some "kasset-automation"
  createdAt := 0
  validUntil := some 3600000000
  decidedAt := some 0
  updatedAt := 0

def beforeClaims : World where
  clock := 0
  shared := ⟨approvedExit, none, []⟩
  orders := []
  trades := []
  account := ⟨true, 0, 10⟩
  consumers := fun _ => .idle

theorem start_beforeClaims : beforeClaims.Start :=
  ⟨⟨rfl, rfl, rfl, rfl⟩, rfl, rfl, rfl, fun _ => rfl⟩

/-- A consumer claims the recommendation and reads its claim back. -/
def claimBy (i : ℕ) (now : Instant) (token : String) : List Action :=
  [.consumer i (.select now none true), .consumer i (.commitClaim token), .consumer i .next]

/-- It finds no order, and submits one that is still to be executed. -/
def submitBy (i : ℕ) : List Action :=
  [.consumer i .next, .consumer i .next, .consumer i .next, .consumer i (.place "o" 10),
   .consumer i .next, .consumer i .next]

/-- It executes the order, and writes the metadata of its trade. -/
def fillBy (i : ℕ) : List Action :=
  [.consumer i (.execute 1 1000), .consumer i .next, .consumer i .next, .consumer i .next]

def completeBy (i : ℕ) : List Action := [.consumer i .next, .consumer i (.complete false)]

/-- One consumer claims, submits, fills and completes. -/
theorem executed_at_most_once_single :
    ∃ w, run (World.step exitTarget) beforeClaims
        (claimBy 0 0 "first" ++ submitBy 0 ++ fillBy 0 ++ completeBy 0) = some w ∧
      w.shared.row.paperExecutionStatus = some .succeeded ∧ w.ExecutedOnce exitTarget ∧
      ∃ order ∈ w.orders, order.clientOrderId = exitTarget.clientOrderId ∧
        order.status = .filled := by
  have hstatus : (run (World.step exitTarget) beforeClaims
      (claimBy 0 0 "first" ++ submitBy 0 ++ fillBy 0 ++ completeBy 0)).bind
        (·.shared.row.paperExecutionStatus) = some .succeeded := by decide +kernel
  obtain ⟨w, hrun, hsucceeded⟩ := Option.bind_eq_some_iff.mp hstatus
  have hopen : Along (World.step exitTarget) World.RejectsOpen beforeClaims
      (claimBy 0 0 "first" ++ submitBy 0 ++ fillBy 0 ++ completeBy 0) := by decide +kernel
  exact ⟨w, hrun, hsucceeded,
    (executed_at_most_once exitTarget).1 w (reachable_of_run start_beforeClaims hrun),
    (executed_at_most_once exitTarget).2 w
      ((ReachableVia.start start_beforeClaims).run hopen hrun) hsucceeded⟩

/-- A consumer that outlives its lease has its execution refused, since the
holding is sold already, and marks as rejected the order that the next consumer
has filled and reported. -/
def lateRejection : List Action :=
  claimBy 0 0 "first" ++ submitBy 0 ++ [.wait paperExecutionLease] ++
    claimBy 1 paperExecutionLease "second" ++
    [.consumer 1 .next, .consumer 1 .next, .consumer 1 .next] ++ fillBy 1 ++ completeBy 1 ++
    [.consumer 0 (.execute 2 1000), .consumer 0 .next]

/-- A submit that is refused after another consumer has filled the order marks it as rejected. -/
theorem late_rejection_over_filled :
    ∃ w, run (World.step exitTarget) beforeClaims lateRejection = some w ∧
      ¬ w.SuccessFilled exitTarget := by
  obtain ⟨w, hrun, hsucceeded, hunfilled⟩ :
      ∃ w, run (World.step exitTarget) beforeClaims lateRejection = some w ∧
        w.shared.row.paperExecutionStatus = some .succeeded ∧
        ∀ order ∈ w.orders, order.status ≠ .filled :=
    exists_run (by decide +kernel)
  refine ⟨w, hrun, fun hkept => ?_⟩
  obtain ⟨order, horder, -, hfilled⟩ := hkept hsucceeded
  exact hunfilled order horder hfilled

end KAssetTrader.Consumer
