import KAssetTrader.Toss.Reconcile

/-!
What a run of reconciles books for one order. The first booking takes the key of `review.trades`,
and every booking charges the cumulative fee and the cumulative average price, so the totals are
those of the last evidence only when a single booking was made.
-/

namespace KAssetTrader.Toss

/-- The totals of the execution ledger, and the quantity in `review.trades`. -/
structure Totals where
  quantity : Decimal
  notional : Decimal
  fee : Decimal
  traded : Decimal
  deriving DecidableEq

def Books.totals (books : Books) : Totals where
  quantity := (books.fills.map (·.filledQty)).sum
  notional := (books.fills.map (·.filledNotional)).sum
  fee := (books.fills.map (·.feeAmount)).sum
  traded := (books.trade.map (·.quantity)).getD 0

def Books.Unbooked (books : Books) : Prop :=
  books.row.filledQty.getD 0 = 0 ∧ books.fills = [] ∧ books.trade = none

variable (upper : String → String) (fillSeq : Decimal → Decimal → ℤ)

/-- Cumulative quantity, notional and fee of the evidence. -/
def figures (order : TossOrder) : Decimal × Decimal × Decimal :=
  let evidence := classifyTossOrderEvidence upper order
  (evidence.filledQty, evidence.filledQty * evidence.avgPrice.getD 0, evidence.feeTotal)

def Totals.single (figures : Decimal × Decimal × Decimal) : Totals :=
  ⟨figures.1, figures.2.1, figures.2.2, figures.1⟩

def reconciles (books : Books) (observations : List (Instant × TossOrder)) : Books :=
  observations.foldl (fun books o => reconcileOneTossRow upper fillSeq books o.1 o.2) books

variable {books : Books} {observations : List (Instant × TossOrder)} (now : Instant)
  {order : TossOrder}

theorem figures_quantity :
    (figures upper order).1 = if order.ShowsFill then order.filledQuantity.getD 0 else 0 := by
  simp only [figures, classifyTossOrderEvidence]
  split_ifs <;> rfl

theorem shows_fill_iff : order.ShowsFill ↔ 0 < (figures upper order).1 := by
  rw [figures_quantity]
  split_ifs with h
  · simp [h, h.1]
  · simp [h]

theorem verdict_quiet_iff :
    (classifyTossOrderEvidence upper order).verdict ∈ [Verdict.pending, .none] ↔
      ¬ order.ShowsFill := by
  simp only [classifyTossOrderEvidence, filledOutcome, unfilledOutcome]
  split_ifs <;> simp_all

theorem reconcile_quiet (hquiet : books.row.operationKind = .cancel ∨ ¬ order.ShowsFill) :
    let after := reconcileOneTossRow upper fillSeq books now order
    after.row.filledQty = books.row.filledQty ∧ after.fills = books.fills ∧
      after.trade = books.trade := by
  have hverdict := hquiet.imp_right (verdict_quiet_iff upper).2
  simp only [reconcileOneTossRow]
  split_ifs <;> simp_all [updateReconcileOutcome]

theorem reconcile_fill (hkind : books.row.operationKind ≠ .cancel) (hfill : order.ShowsFill) :
    let after := reconcileOneTossRow upper fillSeq books now order
    let evidence := classifyTossOrderEvidence upper order
    let already := books.row.filledQty.getD 0
    after.row.filledQty = some evidence.filledQty ∧
      after.fills = (if evidence.filledQty - already ≤ 0 then books.fills
        else upsertTossExecutionFill fillSeq books.fills evidence already
          (evidence.filledQty - already) (evidence.avgPrice.getD 0)) ∧
      after.trade = if evidence.filledQty - already ≤ 0 then books.trade
        else saveOrderFill books.trade (evidence.avgPrice.getD 0) (evidence.filledQty - already)
          evidence.feeTotal := by
  have hverdict := mt (verdict_quiet_iff upper).1 (not_not.2 hfill)
  simp only [List.mem_cons, List.not_mem_nil, or_false, not_or] at hverdict
  simp only [reconcileOneTossRow, if_neg hverdict.1, hkind, hverdict.2, or_self, if_false]
  split_ifs <;> simp [updateReconcileOutcome]

theorem reconcile_first (hkind : books.row.operationKind ≠ .cancel) (hfill : order.ShowsFill)
    (hfresh : books.Unbooked) :
    let after := reconcileOneTossRow upper fillSeq books now order
    after.totals = .single (figures upper order) ∧
      after.row.filledQty = some (figures upper order).1 ∧ after.trade.isSome := by
  obtain ⟨halready, hfills, htrade⟩ := hfresh
  obtain ⟨hqty, hafter, hsaved⟩ := reconcile_fill upper fillSeq now hkind hfill
  have hpos : 0 < (classifyTossOrderEvidence upper order).filledQty :=
    (shows_fill_iff upper).1 hfill
  rw [halready, sub_zero, if_neg hpos.not_ge] at hafter hsaved
  simp [Books.totals, hafter, hsaved, hqty, hfills, htrade, upsertTossExecutionFill, saveOrderFill,
    figures, Totals.single]

/-- Once a booking was made, evidence of the same cumulative quantity books nothing, and none
changes the row of `review.trades`. -/
theorem reconcile_later (order : TossOrder) (htrade : books.trade.isSome) :
    let after := reconcileOneTossRow upper fillSeq books now order
    after.trade = books.trade ∧
      (books.row.filledQty = some (figures upper order).1 →
        after.fills = books.fills ∧ after.row.filledQty = books.row.filledQty) := by
  by_cases hquiet : books.row.operationKind = .cancel ∨ ¬ order.ShowsFill
  · obtain ⟨hqty, hfills, hsame⟩ := reconcile_quiet upper fillSeq now hquiet
    exact ⟨hsame, fun _ => ⟨hfills, hqty⟩⟩
  · rw [not_or, not_not] at hquiet
    obtain ⟨hqty, hfills, hsaved⟩ := reconcile_fill upper fillSeq now hquiet.1 hquiet.2
    obtain ⟨trade, htrade⟩ := Option.isSome_iff_exists.1 htrade
    refine ⟨by rw [hsaved]; split_ifs <;> simp [saveOrderFill, htrade], fun hsame => ?_⟩
    rw [hfills, hqty, hsame]
    exact ⟨if_pos (by simp [figures]), rfl⟩

theorem reconciles_quiet (books : Books)
    (hquiet : ∀ o ∈ observations, books.row.operationKind = .cancel ∨ ¬ o.2.ShowsFill) :
    let after := reconciles upper fillSeq books observations
    after.row.operationKind = books.row.operationKind ∧ after.row.filledQty = books.row.filledQty ∧
      after.fills = books.fills ∧ after.trade = books.trade := by
  induction observations generalizing books with
  | nil => exact ⟨rfl, rfl, rfl, rfl⟩
  | cons o rest ih =>
    obtain ⟨ho, hrest⟩ := List.forall_mem_cons.1 hquiet
    obtain ⟨hqty, hfills, htrade⟩ := reconcile_quiet upper fillSeq o.1 ho
    have := ih (reconcileOneTossRow upper fillSeq books o.1 o.2) (by simpa using hrest)
    simpa only [reconciles, List.foldl_cons, reconcile_kind, hqty, hfills, htrade] using this

theorem reconciles_later (books : Books) (observations : List (Instant × TossOrder))
    (htrade : books.trade.isSome) :
    let after := reconciles upper fillSeq books observations
    after.trade = books.trade ∧
      ((∀ o ∈ observations, books.row.filledQty = some (figures upper o.2).1) →
        after.fills = books.fills) := by
  induction observations generalizing books with
  | nil => exact ⟨rfl, fun _ => rfl⟩
  | cons o rest ih =>
    obtain ⟨hsame, hstep⟩ := reconcile_later upper fillSeq o.1 o.2 htrade
    obtain ⟨hkept, hfills⟩ := ih (reconcileOneTossRow upper fillSeq books o.1 o.2)
      (by rwa [hsame])
    refine ⟨hkept.trans hsame, fun h => ?_⟩
    obtain ⟨ho, hrest⟩ := List.forall_mem_cons.1 h
    obtain ⟨hbooked, hqty⟩ := hstep ho
    exact (hfills fun b hb => hqty.trans (hrest b hb)).trans hbooked

/-- A run whose first evidence shows a fill leaves that quantity in `review.trades`, and a single
booking when no later evidence has more. -/
theorem reconciles_first {first : Instant × TossOrder} (observations : List (Instant × TossOrder))
    (hkind : books.row.operationKind ≠ .cancel) (hfill : first.2.ShowsFill)
    (hfresh : books.Unbooked) :
    let totals := (reconciles upper fillSeq books (first :: observations)).totals
    totals.traded = (figures upper first.2).1 ∧
      ((∀ o ∈ observations, (figures upper first.2).1 = (figures upper o.2).1) →
        totals = .single (figures upper first.2)) := by
  obtain ⟨hbooked, hqty, htraded⟩ := reconcile_first upper fillSeq first.1 hkind hfill hfresh
  obtain ⟨htrade, hfills⟩ := reconciles_later upper fillSeq _ observations htraded
  simp only [reconciles, List.foldl_cons] at *
  refine ⟨?_, fun hsame => ?_⟩
  · simpa [Books.totals, htrade, Totals.single] using congrArg Totals.traded hbooked
  · rw [← hbooked]
    simp only [Books.totals, htrade, hfills fun o ho => hqty.trans (congrArg some (hsame o ho))]

/-- Over any run of evidence that does not decrease, the totals are those of a reconcile of the
last evidence alone exactly when the first evidence that shows a fill already shows the quantity,
the notional and the fee of the last. -/
theorem totals_of_last_iff (upper : String → String) (fillSeq : Decimal → Decimal → ℤ)
    (books : Books) (observations : List (Instant × TossOrder)) (last : Instant × TossOrder)
    (hfresh : books.Unbooked)
    (hgrow : (observations ++ [last]).Pairwise fun a b => figures upper a.2 ≤ figures upper b.2) :
    (reconciles upper fillSeq books (observations ++ [last])).totals =
        (reconcileOneTossRow upper fillSeq books last.1 last.2).totals ↔
      (books.row.operationKind ≠ .cancel → ∀ first,
        (observations ++ [last]).find? (·.2.ShowsFill) = some first →
          figures upper first.2 = figures upper last.2) := by
  by_cases hquiet : ∀ o ∈ observations ++ [last],
      books.row.operationKind = .cancel ∨ ¬ o.2.ShowsFill
  · have hall := reconciles_quiet upper fillSeq books hquiet
    have hone := reconcile_quiet upper fillSeq last.1 (hquiet last (by simp))
    refine iff_of_true (by simp only [Books.totals, hall, hone]) fun hkind first hfirst => ?_
    exact absurd (by simpa using List.find?_some hfirst)
      ((hquiet first (List.mem_of_find?_eq_some hfirst)).resolve_left hkind)
  · push Not at hquiet
    obtain ⟨o, ho, hkind, hshows⟩ := hquiet
    have hsome : ((observations ++ [last]).find? (·.2.ShowsFill)).isSome :=
      List.find?_isSome.2 ⟨o, ho, by simpa using hshows⟩
    obtain ⟨first, hfirst⟩ := Option.isSome_iff_exists.1 hsome
    obtain ⟨hfill, before, after, hsplit, hbefore⟩ := List.find?_eq_some_iff_append.1 hfirst
    have hfill : first.2.ShowsFill := by simpa using hfill
    have hlast : ∀ o ∈ observations ++ [last], figures upper o.2 ≤ figures upper last.2 := by
      intro o ho
      rcases List.mem_append.1 ho with ho | ho
      · exact (List.pairwise_append.1 hgrow).2.2 o ho last (by simp)
      · rw [List.mem_singleton.1 ho]
    have hlastfill : last.2.ShowsFill := (shows_fill_iff upper).2 <|
      ((shows_fill_iff upper).1 hfill).trans_le
        (hlast first (List.mem_of_find?_eq_some hfirst)).1
    -- nothing is booked before the first fill
    obtain ⟨hkind', hfresh'⟩ := reconciles_quiet upper fillSeq books
      fun o ho => .inr (by simpa using hbefore o ho)
    obtain ⟨htraded, hsingle⟩ := reconciles_first upper fillSeq after
      (hkind' ▸ hkind) hfill (by simpa only [Books.Unbooked, hfresh'] using hfresh)
    have hone := (reconcile_first upper fillSeq last.1 hkind hlastfill hfresh).1
    have hrun : reconciles upper fillSeq books (observations ++ [last]) =
        reconciles upper fillSeq (reconciles upper fillSeq books before) (first :: after) := by
      simp [hsplit, reconciles]
    rw [hsplit] at hgrow hlast
    have hsame (hq : (figures upper first.2).1 = (figures upper last.2).1) (o) (ho : o ∈ after) :
        (figures upper first.2).1 = (figures upper o.2).1 :=
      (List.rel_of_pairwise_cons (List.pairwise_append.1 hgrow).2.1 ho).1.antisymm
        (hq ▸ (hlast o (by simp [ho])).1)
    rw [hrun, hone]
    constructor
    · intro heq _ other hother
      obtain rfl := Option.some.inj (hfirst.symm.trans hother)
      have hq := htraded.symm.trans (congrArg Totals.traded heq)
      have heq := (hsingle (hsame hq)).symm.trans heq
      simp only [Totals.single, Totals.mk.injEq] at heq
      exact Prod.ext heq.1 (Prod.ext heq.2.1 heq.2.2.1)
    · intro h
      have hlastfirst := h hkind first hfirst
      rw [hsingle (hsame (congrArg Prod.fst hlastfirst)), hlastfirst]

def bothFilled : TossOrder := ⟨"FILLED", some 2, some 110, some 2, none⟩

/-- A pending answer before both fills. -/
theorem totals_of_last_pending :
    (reconciles id (fun _ _ => 0) placed ([(0, ⟨"PENDING", none, none, none, none⟩)] ++
      [(1, bothFilled)])).totals =
      (reconcileOneTossRow id (fun _ _ => 0) placed 1 bothFilled).totals :=
  (totals_of_last_iff id (fun _ _ => 0) placed [(0, ⟨"PENDING", none, none, none, none⟩)]
    (1, bothFilled) (by simp [Books.Unbooked, placed]) (by decide +kernel)).2 fun _ first h => by
      have hfirst : some (1, bothFilled) = some first := .trans (by decide +kernel) h
      rw [← Option.some.inj hfirst]

/-- The first share at 100 was seen on its own: the trade keeps its quantity, and the second is
booked at the average price and with the fee of both. -/
theorem totals_of_two_fills :
    placed.Unbooked ∧
      figures id ⟨"PARTIAL_FILLED", some 1, some 100, some 1, none⟩ ≤ figures id bothFilled ∧
      (reconciles id (fun already _ => already.num) placed
        [(0, ⟨"PARTIAL_FILLED", some 1, some 100, some 1, none⟩), (1, bothFilled)]).totals =
          ⟨2, 210, 3, 1⟩ ∧
      (reconcileOneTossRow id (fun already _ => already.num) placed 1 bothFilled).totals =
        ⟨2, 220, 2, 2⟩ := by
  refine ⟨by simp [Books.Unbooked, placed], ?_, by decide +kernel, by decide +kernel⟩
  decide +kernel

end KAssetTrader.Toss
