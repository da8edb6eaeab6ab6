import KAssetTrader.Issuer.Rule

/-!
Runs of executions. When counts are kept apart, an issuer has one automated buy
a day and the account one automated symbol of it. The lock alone gives the sweeps
one buy a day. Two approvals that overlap break the rule, and so does an order
that a sweep left pending over a night.
-/

namespace KAssetTrader.Issuer

open Transition Paper Position

variable {days : TradingDays} {w t : World}

variable (days) in
def OncePerDay (buys : List AutomatedBuy) : Prop :=
  buys.Pairwise fun a b => SameIssuer a.listing b.listing →
    days.start a.listing.1 a.createdAt ≠ days.start b.listing.1 b.createdAt

theorem oncePerDay_of_before {buys : List AutomatedBuy}
    (h : buys.Pairwise fun a b => Before days a b.listing b.createdAt) : OncePerDay days buys := by
  refine h.imp fun {a b} hbefore hissuer hday => ?_
  have hlt := hbefore hissuer
  have hle := days.start_le a.listing.1 a.createdAt
  rw [hday] at hle
  exact absurd hle (not_le.mpr hlt)

theorem World.Start.kept (h : w.Start) : RuleKept days w := by
  have hidle {i : ℕ} {p : Phase} (hi : w.executions i = p) : p = .idle :=
    hi.symm.trans (h.executions i)
  have hopen (order : PaperOrder) : ¬ w.Open order := by
    intro hopen
    have hmem := hopen.mem
    rw [h.orders] at hmem
    cases hmem
  have hheld (listing : Listing) : ¬ w.AutoHeld listing := by
    rintro ⟨position, hposition, hauto⟩
    rw [(h.positions listing position hposition).2] at hauto
    cases hauto
  have hbuys : w.autoBuys = [] := by
    rw [World.autoBuys, h.orders]
    rfl
  constructor
  · intro listing position hposition
    exact (h.positions listing position hposition).1
  · intro i run hrun
    rw [h.executions i] at hrun
    cases hrun
  · intro i run counts hi
    cases hidle hi
  · intro i run hi
    cases hidle hi
  · intro i j a b _ ha
    rw [h.executions i] at ha
    cases ha
  · intro order horder
    exact absurd horder (hopen order)
  · intro a b ha
    exact absurd ha (hopen a)
  · intro a b ha
    exact absurd ha (hheld a)
  · rw [hbuys]
    exact .nil

/-- In every run that keeps its counts apart, an issuer has at most one automated
buy a settlement day, and the account holds at most one symbol of it through
automated buys. -/
theorem issuer_rule_holds
    (h : Transition.ReachableVia World.Start (World.step days) CountsApart w) :
    OncePerDay days w.autoBuys ∧
      ∀ a b, w.AutoHeld a → w.AutoHeld b → SameIssuer a b → a = b := by
  have hkept : RuleKept days w := by
    apply invariant (P := fun w => RuleKept days w) _ _ h
    · intro s hs
      exact hs.kept
    · intro s a t hkept hok hstep
      exact hkept.step hok hstep
  exact ⟨oncePerDay_of_before hkept.dated, hkept.heldSingle⟩

/-- The automated buys that a sweep has placed. -/
def World.sweptBuys (w : World) : List AutomatedBuy :=
  w.autoBuys.filter fun buy => buy.entry = some .scheduled

def day : ℤ := 86400 * 1000000

/-- The offsets from UTC: nine hours ahead in Seoul, five behind in New York in
winter. -/
def winterOffset : Market → ℤ
  | .krx => 9 * 3600 * 1000000
  | .us => -5 * 3600 * 1000000

def winterDays : TradingDays where
  start market now := (now + winterOffset market) / day * day - winterOffset market
  start_le market now := by
    have hle := Int.ediv_mul_le (now + winterOffset market) (show day ≠ 0 by decide)
    exact Int.sub_right_le_of_le_add hle
  start_mono market := by
    intro a b hab
    have hle := Int.ediv_le_ediv (show 0 < day by decide)
      (Int.add_le_add_right hab (winterOffset market))
    have hmul := Int.mul_le_mul_of_nonneg_right hle (show 0 ≤ day by decide)
    exact Int.sub_le_sub_right hmul _

def unlimited : AITradingSnapshot where
  limits :=
    { operatingBudgetKrw := 1000000, operatingBudgetUsd := 1000, maxSymbolAllocation := 1
      maxConcurrentHoldings := none, maxBuysPerDay := none, maxSellsPerDay := none
      maxOrdersPerDay := none, sameSymbolReentryLimit := none }
  usageByCurrency := .empty
  killSwitch := false

def inputs : Inputs where
  quotedPrice := some 100
  recommendationPrice := 100
  snapshot := unlimited

def buyOf (clientOrderId symbol : String) : OrderRequest where
  clientOrderId := clientOrderId
  market := .krx
  symbol := symbol
  side := .buy
  quantity := 1

/-- A common share and the preferred share of its issuer. -/
def common : OrderRequest := buyOf "ai-rec:1" "009150"

def preferred : OrderRequest := buyOf "ai-rec:2" "009155"

/-- Two approvals of the same day, each judged before the other has placed its
order. -/
def overlapping : List Action :=
  [.execution 0 (.begin .approved 0 common), .execution 1 (.begin .approved 0 preferred),
    .execution 0 .count, .execution 1 .count, .execution 0 (.judge inputs),
    .execution 1 (.judge inputs), .execution 0 (.place "o-0" 0), .execution 1 (.place "o-1" 0),
    .execution 0 (.execute 1 100), .execution 1 (.execute 1 100)]

/-- A sweep stops after it has placed its order; on the next day another one buys
the preferred share before the order is reconciled. -/
def leftPending : List Action :=
  [.execution 0 (.begin .scheduled 0 common), .execution 0 .count,
    .execution 0 (.judge inputs), .execution 0 (.place "o-0" 0), .execution 0 .stop, .wait day,
    .execution 1 (.begin .scheduled day preferred), .execution 1 .count,
    .execution 1 (.judge inputs), .execution 1 (.place "o-1" day),
    .execution 1 (.execute 1 100), .execution 1 .settle,
    .execution 0 (.begin .scheduled day common), .execution 0 .lookUp,
    .execution 0 (.execute 1 100)]

def initial : World := { clock := 0 }

theorem initial_start : initial.Start := by
  refine ⟨rfl, rfl, rfl, ?_, fun _ => rfl⟩
  intro listing position hposition
  cases hposition

/-- The account holds both shares, each through an automated buy. -/
def holdsBoth (w : World) : Bool :=
  w.automated (.krx, "009150") && w.automated (.krx, "009155")

/-- Two approvals break both parts of the rule, and sweeps alone the second. -/
theorem issuer_rule_broken :
    (∃ w, Transition.Reachable World.Start (World.step winterDays) w ∧ holdsBoth w = true ∧
      ¬ OncePerDay winterDays w.autoBuys) ∧
    ∃ w, Transition.Reachable World.Start (World.step winterDays) w ∧ holdsBoth w = true ∧
      w.autoBuys = w.sweptBuys := by
  constructor
  · obtain ⟨w, hw, hboth, hbuys⟩ :
        ∃ w, run (World.step winterDays) initial overlapping = some w ∧ holdsBoth w = true ∧
          w.autoBuys = [⟨(.krx, "009150"), 0, some .approved⟩,
            ⟨(.krx, "009155"), 0, some .approved⟩] :=
      exists_run (by decide +kernel)
    refine ⟨w, reachable_of_run initial_start hw, hboth, ?_⟩
    rw [hbuys, OncePerDay, List.pairwise_cons]
    rintro ⟨hfirst, -⟩
    exact hfirst _ (List.mem_singleton_self _) (by decide +kernel) rfl
  · obtain ⟨w, hw, hboth, hbuys⟩ :
        ∃ w, run (World.step winterDays) initial leftPending = some w ∧ holdsBoth w = true ∧
          w.autoBuys = w.sweptBuys :=
      exists_run (by decide +kernel)
    exact ⟨w, reachable_of_run initial_start hw, hboth, hbuys⟩

def single : List Action :=
  [.execution 0 (.begin .approved 0 common), .execution 0 .count,
    .execution 0 (.judge inputs), .execution 0 (.place "o-0" 0), .execution 0 (.execute 1 100)]

theorem single_apart :
    Transition.Along (World.step winterDays) CountsApart initial single := by
  refine ⟨trivial, fun t ht => ⟨?_, fun _ _ => ⟨trivial, fun _ _ => ⟨trivial, fun _ _ =>
    ⟨trivial, fun _ _ => trivial⟩⟩⟩⟩⟩
  obtain rfl : initial.withPhase 0 (.claimed { entry := .approved, now := 0, request := common }) =
      t := Option.some.inj ht
  intro run _ _
  constructor
  · intro j other hj hother
    simp [World.withPhase, Function.update_of_ne hj, initial, Phase.checking] at hother
  · intro order hopen
    cases hopen.mem

/-- One automated buy of a share of the issuer. -/
theorem issuer_rule_holds_single :
    ∃ w : World, (OncePerDay winterDays w.autoBuys ∧
      ∀ a b, w.AutoHeld a → w.AutoHeld b → SameIssuer a b → a = b) ∧
      w.automated (.krx, "009150") = true := by
  obtain ⟨w, hw, hheld⟩ : ∃ w, run (World.step winterDays) initial single = some w ∧
      w.automated (.krx, "009150") = true :=
    exists_run (by decide +kernel)
  exact ⟨w, issuer_rule_holds ((Transition.ReachableVia.start initial_start).run single_apart hw),
    hheld⟩

end KAssetTrader.Issuer
