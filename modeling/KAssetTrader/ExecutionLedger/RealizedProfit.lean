import KAssetTrader.Library.Decimal
import KAssetTrader.Library.Ranking

/-!
The realised profit of the execution ledger, first in first out, over exact arithmetic. The lots
of a scope depend on the fills of the scope alone, and a sell is annotated from the lots that the
fills before it leave; a sell that they do not cover has consumed them all the same.
-/

namespace KAssetTrader.ExecutionLedger

open Ranking

/-- A fill, with the columns that the annotation reads and writes. -/
structure ExecutionLedgerRead where
  broker : String
  accountMode : String
  venue : String
  instrumentType : String
  symbol : String
  currency : String
  brokerOrderId : String
  fillSeq : ℤ
  side : String
  filledQty : Decimal
  filledNotional : Decimal
  filledAt : Instant
  costBasisNotional : Option Decimal := none
  realizedProfit : Option Decimal := none
  realizedProfitRate : Option Decimal := none

abbrev MatchKey := String × String × String × String × String × String

abbrev ItemKey := String × String × String × String × ℤ

/-- What is left of a buy, and what a unit of it cost. -/
abbrev Lot := Decimal × Decimal

structure Annotation where
  costBasis : Decimal
  profit : Decimal
  rate : Decimal

namespace ExecutionLedgerRead

variable (item : ExecutionLedgerRead)

def ledgerMatchKey : MatchKey :=
  (item.broker, item.accountMode, item.venue, item.instrumentType, item.symbol, item.currency)

def ledgerItemKey : ItemKey :=
  (item.broker, item.accountMode, item.venue, item.brokerOrderId, item.fillSeq)

def annotate (costBasis : Decimal) : Annotation :=
  let profit := item.filledNotional - costBasis
  ⟨costBasis, profit, if costBasis ≠ 0 then profit / costBasis * 100 else 0⟩

end ExecutionLedgerRead

/-- What a sell leaves of the lots, what it took of them cost, and what they did not cover. -/
structure Consumption where
  lots : List Lot
  costBasis : Decimal
  remaining : Decimal

/-- The loop over the lots. A lot that is not used up has covered all that remained. -/
def consume : List Lot → Decimal → Decimal → Consumption
  | [], remaining, costBasis => ⟨[], costBasis, remaining⟩
  | (lotQty, lotUnitCost) :: rest, remaining, costBasis =>
    if remaining ≤ 0 then ⟨(lotQty, lotUnitCost) :: rest, costBasis, remaining⟩
    else
      let matchedQty := min remaining lotQty
      let costBasis := costBasis + matchedQty * lotUnitCost
      if lotQty - matchedQty ≤ 0 then consume rest (remaining - matchedQty) costBasis
      else ⟨(lotQty - matchedQty, lotUnitCost) :: rest, costBasis, remaining - matchedQty⟩

def fillLots (lots : List Lot) (item : ExecutionLedgerRead) : List Lot × Option Consumption :=
  if item.filledQty ≤ 0 then (lots, none)
  else if item.side = "buy" then
    (lots ++ [(item.filledQty, item.filledNotional / item.filledQty)], none)
  else if item.side = "sell" then
    let consumption := consume lots item.filledQty 0
    (consumption.lots, some consumption)
  else (lots, none)

/-- The lots and annotations so far, and what each sell has consumed. -/
structure Ledger where
  lots : MatchKey → List Lot := fun _ => []
  annotations : ItemKey → Option Annotation := fun _ => none
  consumed : List (ExecutionLedgerRead × Consumption) := []

def annotationOf (sellKeys : List ItemKey) (lots : List Lot) (item : ExecutionLedgerRead) :
    Option Annotation :=
  (fillLots lots item).2.bind fun consumption =>
    if 0 < consumption.remaining ∨ item.ledgerItemKey ∉ sellKeys then none
    else some (item.annotate consumption.costBasis)

def Ledger.add (sellKeys : List ItemKey) (s : Ledger) (item : ExecutionLedgerRead) : Ledger :=
  let lots := s.lots item.ledgerMatchKey
  { lots := Function.update s.lots item.ledgerMatchKey (fillLots lots item).1
    annotations :=
      match annotationOf sellKeys lots item with
      | none => s.annotations
      | some values => Function.update s.annotations item.ledgerItemKey (some values)
    consumed := s.consumed ++ ((fillLots lots item).2.map fun c => (item, c)).toList }

def ledger (sellItems historyItems : List ExecutionLedgerRead) : Ledger :=
  (sortedBy (·.filledAt) historyItems).foldl
    (Ledger.add (sellItems.map (·.ledgerItemKey))) {}

def annotateRealizedProfit (sellItems historyItems : List ExecutionLedgerRead) :
    List ExecutionLedgerRead :=
  sellItems.map fun item =>
    match (ledger sellItems historyItems).annotations item.ledgerItemKey with
    | none => item
    | some values =>
      { item with
        costBasisNotional := some values.costBasis
        realizedProfit := some values.profit
        realizedProfitRate := some values.rate }

def openQuantity (lots : List Lot) : Decimal := (lots.map (·.1)).sum

def openCost (lots : List Lot) : Decimal := (lots.map fun lot => lot.1 * lot.2).sum

/-- The cost that the sells of a scope have consumed, for which a condition holds of what they
left uncovered. -/
def Ledger.consumedCost (s : Ledger) (scope : MatchKey) (p : Decimal → Bool) : Decimal :=
  ((s.consumed.filter fun c => c.1.ledgerMatchKey = scope && p c.2.remaining).map
    (·.2.costBasis)).sum

def bought (historyItems : List ExecutionLedgerRead) (scope : MatchKey) : Decimal :=
  ((historyItems.filter fun item => item.side = "buy" ∧ item.ledgerMatchKey = scope).map
    (·.filledNotional)).sum

structure RealizedFifo (sellItems historyItems : List ExecutionLedgerRead) : Prop where
  conserved : ∀ scope,
    (ledger sellItems historyItems).consumedCost scope (· ≤ 0) +
      (ledger sellItems historyItems).consumedCost scope (0 < ·) +
      openCost ((ledger sellItems historyItems).lots scope) = bought historyItems scope
  attached : ∀ c ∈ (ledger sellItems historyItems).consumed,
    c.1.ledgerItemKey ∈ sellItems.map (·.ledgerItemKey) →
      (ledger sellItems historyItems).annotations c.1.ledgerItemKey =
        if 0 < c.2.remaining then none else some (c.1.annotate c.2.costBasis)
  covered : ∀ item ∈ historyItems, item.side = "sell" →
    item.ledgerItemKey ∈ sellItems.map (·.ledgerItemKey) →
      (((ledger sellItems historyItems).annotations item.ledgerItemKey).isSome ↔
        item.filledQty ≤ openQuantity ((ledger sellItems
          (historyItems.filter (·.filledAt < item.filledAt))).lots item.ledgerMatchKey))
  permuted : ∀ other, other.Perm historyItems →
    annotateRealizedProfit sellItems other = annotateRealizedProfit sellItems historyItems
  ofScope : ∀ item ∈ historyItems,
    (ledger sellItems historyItems).annotations item.ledgerItemKey =
      (ledger sellItems (historyItems.filter fun other =>
        other.ledgerMatchKey = item.ledgerMatchKey ∧ other.filledAt ≤ item.filledAt)).annotations
          item.ledgerItemKey

variable {lots : List Lot} {remaining costBasis : Decimal} {sellKeys : List ItemKey} {s : Ledger}
  {item : ExecutionLedgerRead} {items : List ExecutionLedgerRead}

theorem openQuantity_nonneg (hlots : ∀ lot ∈ lots, 0 < lot.1) : 0 ≤ openQuantity lots := by
  apply List.sum_nonneg
  intro quantity hquantity
  obtain ⟨lot, hlot, rfl⟩ := List.mem_map.mp hquantity
  exact (hlots lot hlot).le

theorem consume_spec (hlots : ∀ lot ∈ lots, 0 < lot.1) :
    (∀ lot ∈ (consume lots remaining costBasis).lots, 0 < lot.1) ∧
      (consume lots remaining costBasis).costBasis +
        openCost (consume lots remaining costBasis).lots = costBasis + openCost lots ∧
      (0 < (consume lots remaining costBasis).remaining ↔ openQuantity lots < remaining) := by
  induction lots generalizing remaining costBasis with
  | nil => exact ⟨hlots, rfl, Iff.rfl⟩
  | cons lot rest ih =>
    obtain ⟨lotQty, unitCost⟩ := lot
    obtain ⟨hlot, hrest⟩ := List.forall_mem_cons.mp hlots
    have hnonneg := openQuantity_nonneg hrest
    have hquantity : openQuantity ((lotQty, unitCost) :: rest) = lotQty + openQuantity rest := rfl
    have hcost : openCost ((lotQty, unitCost) :: rest) = lotQty * unitCost + openCost rest := rfl
    unfold consume
    split
    next hnone =>
      exact ⟨hlots, rfl, iff_of_false hnone.not_gt (by rw [hquantity]; linarith)⟩
    next hsome =>
      dsimp only
      rw [hquantity, hcost]
      split
      next hused =>
        have hall : min remaining lotQty = lotQty :=
          le_antisymm (min_le_right _ _) (by linarith)
        rw [hall]
        obtain ⟨hpos, hsum, hleft⟩ :=
          @ih (remaining - lotQty) (costBasis + lotQty * unitCost) hrest
        refine ⟨hpos, by rw [hsum]; ring, hleft.trans ?_⟩
        exact ⟨fun h => by linarith, fun h => by linarith⟩
      next hleft =>
        have hall : min remaining lotQty = remaining := by
          rcases min_choice remaining lotQty with h | h
          · exact h
          · rw [h] at hleft
            linarith
        rw [hall] at hleft ⊢
        refine ⟨List.forall_mem_cons.mpr ⟨by linarith, hrest⟩, ?_, ?_⟩
        · change costBasis + remaining * unitCost +
            ((lotQty - remaining) * unitCost + openCost rest) = _
          ring
        · exact iff_of_false (by linarith) (by linarith)

theorem lots_add (scope : MatchKey) : (s.add sellKeys item).lots scope =
    if item.ledgerMatchKey = scope then (fillLots (s.lots scope) item).1 else s.lots scope := by
  unfold Ledger.add
  split
  next hsame =>
    subst hsame
    exact Function.update_self _ _ _
  next hother => exact Function.update_of_ne (Ne.symm hother) _ _

theorem fillLots_spec (hlots : ∀ lot ∈ lots, 0 < lot.1) :
    (∀ lot ∈ (fillLots lots item).1, 0 < lot.1) ∧
      ((fillLots lots item).2.elim 0 (·.costBasis)) + openCost (fillLots lots item).1 =
        openCost lots +
          if 0 < item.filledQty ∧ item.side = "buy" then item.filledNotional else 0 := by
  unfold fillLots
  by_cases hqty : 0 < item.filledQty
  · rw [if_neg hqty.not_ge]
    by_cases hbuy : item.side = "buy"
    · rw [if_pos hbuy, if_pos ⟨hqty, hbuy⟩]
      constructor
      · intro lot hlot
        rcases List.mem_append.mp hlot with h | h
        · exact hlots lot h
        · rw [List.mem_singleton.mp h]
          exact hqty
      · have hcost : item.filledQty * (item.filledNotional / item.filledQty) =
            item.filledNotional := mul_div_cancel₀ _ hqty.ne'
        simp [openCost, hcost]
    · have hnone : ¬ (0 < item.filledQty ∧ item.side = "buy") := fun h => hbuy h.2
      rw [if_neg hbuy, if_neg hnone]
      by_cases hsell : item.side = "sell"
      · rw [if_pos hsell]
        obtain ⟨hpos, hcost, -⟩ := @consume_spec lots item.filledQty 0 hlots
        exact ⟨hpos, hcost.trans (add_comm _ _)⟩
      · rw [if_neg hsell]
        exact ⟨hlots, add_comm _ _⟩
  · rw [if_pos (not_lt.mp hqty), if_neg fun h => hqty h.1]
    exact ⟨hlots, add_comm _ _⟩

theorem lots_foldl (scope : MatchKey) : (items.foldl (Ledger.add sellKeys) s).lots scope =
    (items.filter (·.ledgerMatchKey = scope)).foldl (fun lots item => (fillLots lots item).1)
      (s.lots scope) := by
  induction items generalizing s with
  | nil => rfl
  | cons item rest ih =>
    rw [List.foldl_cons, ih, lots_add, List.filter_cons]
    by_cases hsame : item.ledgerMatchKey = scope
    · rw [if_pos hsame, if_pos (decide_eq_true hsame), List.foldl_cons]
    · rw [if_neg hsame, if_neg (by simpa using hsame)]

theorem lots_pos (scope : MatchKey) :
    ∀ lot ∈ (items.foldl (Ledger.add sellKeys) {}).lots scope, 0 < lot.1 := by
  rw [lots_foldl]
  generalize items.filter (·.ledgerMatchKey = scope) = fills
  induction fills using List.reverseRecOn with
  | nil => exact List.forall_mem_nil _
  | append_singleton fills last ih =>
    rw [List.foldl_append]
    exact (fillLots_spec ih).1

theorem consumedCost_add (scope : MatchKey) :
    (s.add sellKeys item).consumedCost scope (· ≤ 0) +
        (s.add sellKeys item).consumedCost scope (0 < ·) =
      s.consumedCost scope (· ≤ 0) + s.consumedCost scope (0 < ·) +
        if item.ledgerMatchKey = scope then (fillLots (s.lots scope) item).2.elim 0 (·.costBasis)
        else 0 := by
  unfold Ledger.consumedCost Ledger.add
  dsimp only
  by_cases hsame : item.ledgerMatchKey = scope
  · subst hsame
    rcases (fillLots (s.lots item.ledgerMatchKey) item).2 with _ | consumption
    · simp
    · by_cases hleft : consumption.remaining ≤ 0
      · simp [hleft, hleft.not_gt]
        ring
      · simp [hleft, not_le.mp hleft]
        ring
  · rcases (fillLots (s.lots item.ledgerMatchKey) item).2 with _ | consumption
    · simp [hsame]
    · simp [hsame]

theorem cost_foldl (hpos : ∀ item ∈ items, 0 < item.filledQty) (scope : MatchKey) :
    (items.foldl (Ledger.add sellKeys) {}).consumedCost scope (· ≤ 0) +
        (items.foldl (Ledger.add sellKeys) {}).consumedCost scope (0 < ·) +
        openCost ((items.foldl (Ledger.add sellKeys) {}).lots scope) = bought items scope := by
  induction items using List.reverseRecOn with
  | nil => simp [Ledger.consumedCost, openCost, bought]
  | append_singleton items last ih =>
    have hqty := hpos last (List.mem_append_right _ (List.mem_singleton_self _))
    have hcost := ih fun item hitem => hpos item (List.mem_append_left _ hitem)
    have hopen := @lots_pos sellKeys items scope
    rw [List.foldl_append, List.foldl_cons, List.foldl_nil, consumedCost_add, lots_add]
    have hbought : bought (items ++ [last]) scope = bought items scope +
        if last.side = "buy" ∧ last.ledgerMatchKey = scope then last.filledNotional else 0 := by
      unfold bought
      rw [List.filter_append, List.map_append, List.sum_append, List.filter_singleton]
      congr 1
      by_cases h : last.side = "buy" ∧ last.ledgerMatchKey = scope
      · simp [h]
      · simp [h]
    rw [hbought, ← hcost]
    by_cases hsame : last.ledgerMatchKey = scope
    · have hlast := (@fillLots_spec _ last hopen).2
      simp only [hqty, true_and] at hlast
      simp only [hsame, if_true, and_true]
      linarith
    · simp only [hsame, if_false, and_false, add_zero]

theorem annotations_foldl {key : ItemKey} (hkey : key ∉ items.map (·.ledgerItemKey)) :
    (items.foldl (Ledger.add sellKeys) s).annotations key = s.annotations key := by
  induction items generalizing s with
  | nil => rfl
  | cons item rest ih =>
    rw [List.map_cons, List.mem_cons, not_or] at hkey
    rw [List.foldl_cons, ih hkey.2]
    unfold Ledger.add
    dsimp only
    cases annotationOf sellKeys (s.lots item.ledgerMatchKey) item with
    | none => rfl
    | some values => exact Function.update_of_ne hkey.1 _ _

theorem annotations_split {before after : List ExecutionLedgerRead}
    (hkeys : ((before ++ item :: after).map (·.ledgerItemKey)).Nodup) :
    ((before ++ item :: after).foldl (Ledger.add sellKeys) {}).annotations item.ledgerItemKey =
      annotationOf sellKeys ((before.foldl (Ledger.add sellKeys) {}).lots item.ledgerMatchKey)
        item := by
  rw [List.map_append, List.map_cons] at hkeys
  have hbefore := (List.nodup_cons.mp (List.perm_middle.nodup_iff.mp hkeys)).1
  rw [List.mem_append, not_or] at hbefore
  rw [List.foldl_append, List.foldl_cons, annotations_foldl hbefore.2]
  have hnone : (before.foldl (Ledger.add sellKeys) {}).annotations item.ledgerItemKey = none :=
    annotations_foldl hbefore.1
  generalize before.foldl (Ledger.add sellKeys) {} = s at hnone ⊢
  unfold Ledger.add
  dsimp only
  cases h : annotationOf sellKeys (s.lots item.ledgerMatchKey) item with
  | none => exact hnone
  | some values => exact Function.update_self _ _ _

theorem consumed_split {c : ExecutionLedgerRead × Consumption}
    (hc : c ∈ (items.foldl (Ledger.add sellKeys) {}).consumed) :
    ∃ before after, items = before ++ c.1 :: after ∧
      (fillLots ((before.foldl (Ledger.add sellKeys) {}).lots c.1.ledgerMatchKey) c.1).2 =
        some c.2 := by
  induction items using List.reverseRecOn with
  | nil => exact absurd hc List.not_mem_nil
  | append_singleton items last ih =>
    rw [List.foldl_append] at hc
    rcases List.mem_append.mp hc with hold | hnew
    · obtain ⟨before, after, hitems, hfill⟩ := ih hold
      exact ⟨before, after ++ [last], by rw [hitems, List.append_assoc]; rfl, hfill⟩
    · rw [Option.mem_toList, Option.map_eq_some_iff] at hnew
      obtain ⟨consumption, hfill, rfl⟩ := hnew
      exact ⟨items, [], rfl, hfill⟩

theorem annotationOf_isSome (hlots : ∀ lot ∈ lots, 0 < lot.1) (hqty : 0 < item.filledQty)
    (hsell : item.side = "sell") (hkey : item.ledgerItemKey ∈ sellKeys) :
    (annotationOf sellKeys lots item).isSome ↔ item.filledQty ≤ openQuantity lots := by
  have hfill : (fillLots lots item).2 = some (consume lots item.filledQty 0) := by
    simp [fillLots, hqty.not_ge, hsell]
  unfold annotationOf
  rw [hfill, Option.bind_some, ← not_lt, ← (@consume_spec lots item.filledQty 0 hlots).2.2]
  split
  next hnone =>
    have hleft := hnone.resolve_right fun h => h hkey
    exact iff_of_false Bool.false_ne_true fun h => h hleft
  next hsome => exact iff_of_true rfl fun h => hsome (.inl h)

variable {sellItems historyItems : List ExecutionLedgerRead}
  (htimes : (historyItems.map (·.filledAt)).Nodup)
  (hkeys : (historyItems.map (·.ledgerItemKey)).Nodup)

include hkeys in
theorem sorted_keys :
    ((sortedBy (·.filledAt) historyItems).map (·.ledgerItemKey)).Nodup :=
  (sortedBy_perm.map _).nodup_iff.mpr hkeys

include htimes hkeys

theorem annotations_ledger (hitem : item ∈ historyItems) :
    (ledger sellItems historyItems).annotations item.ledgerItemKey =
      annotationOf (sellItems.map (·.ledgerItemKey))
        ((ledger sellItems (historyItems.filter (·.filledAt < item.filledAt))).lots
          item.ledgerMatchKey) item := by
  have hsorted := sortedBy_increasing htimes
  have hmem : item ∈ sortedBy (·.filledAt) historyItems := mem_sortedBy.mpr hitem
  obtain ⟨before, after, hsplit⟩ := List.append_of_mem hmem
  have hdistinct := sorted_keys hkeys
  rw [hsplit] at hsorted hdistinct
  obtain ⟨-, hafter, hbefore⟩ := List.pairwise_append.mp hsorted
  have hearlier : before.filter (·.filledAt < item.filledAt) = before :=
    List.filter_eq_self.mpr fun other hother =>
      decide_eq_true (hbefore other hother item List.mem_cons_self)
  have hlater : (item :: after).filter (·.filledAt < item.filledAt) = [] := by
    apply List.filter_eq_nil_iff.mpr
    intro other hother hlt
    rcases List.mem_cons.mp hother with rfl | hmem
    · exact absurd (of_decide_eq_true hlt) (lt_irrefl _)
    · exact absurd (of_decide_eq_true hlt) ((List.pairwise_cons.mp hafter).1 other hmem).not_gt
  unfold ledger
  rw [sortedBy_filter htimes, hsplit, annotations_split hdistinct, List.filter_append, hearlier,
    hlater, List.append_nil]

omit hkeys in
theorem lots_ofScope (item : ExecutionLedgerRead) :
    (ledger sellItems ((historyItems.filter fun other =>
        other.ledgerMatchKey = item.ledgerMatchKey ∧ other.filledAt ≤ item.filledAt).filter
          (·.filledAt < item.filledAt))).lots item.ledgerMatchKey =
      (ledger sellItems (historyItems.filter (·.filledAt < item.filledAt))).lots
        item.ledgerMatchKey := by
  unfold ledger
  rw [List.filter_filter, sortedBy_filter htimes, sortedBy_filter htimes, lots_foldl, lots_foldl,
    List.filter_filter, List.filter_filter]
  congr 2
  funext other
  by_cases hlt : other.filledAt < item.filledAt
  · simp [hlt, hlt.le]
  · simp [hlt]

def sampleFill (side : String) (fillSeq : ℤ) (filledQty filledNotional : Decimal) :
    ExecutionLedgerRead :=
  { broker := "toss", accountMode := "live", venue := "KRX", instrumentType := "stock"
    symbol := "005930", currency := "KRW", brokerOrderId := "order", fillSeq, side, filledQty
    filledNotional, filledAt := fillSeq }

end KAssetTrader.ExecutionLedger
