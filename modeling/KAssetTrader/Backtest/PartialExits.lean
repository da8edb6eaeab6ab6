import KAssetTrader.Manager.Lifecycle
import KAssetTrader.Backtest.Queues
import KAssetTrader.Library.Rounding

/-!
The partial exit of a Korean holding, live and in the backtest. The live manager
rounds the share of the holding down to whole shares, but sells at least one share
of two, and keeps at least one; the backtest rounds down to the lot of the market,
and skips what rounds to nothing. Both round the product of the holding and the
fraction first, so the shares are compared for any context, as long as its
rounding does not reach a share of the holding.
-/

namespace KAssetTrader.Backtest

open Checked Position Manager

section Quantities

variable {ctx : Decimal.Context} {u : Decimal} {n : ℕ} {fraction lot : Decimal}

/-- What the live manager sells: the whole shares of the rounded product, of two shares or
more at least one and at most all but one. -/
def liveShares (ctx : Decimal.Context) (n : ℕ) (fraction : Decimal) : ℤ :=
  if n = 1 then ⌊ctx.mul n fraction⌋ else min (n - 1) (max 1 ⌊ctx.mul n fraction⌋)

/-- The two engines where the lot of the backtest is a number of whole shares. The backtest
sells all only where the rounding of the quotient reaches the lots of the holding. -/
structure LotsCompared (ctx : Decimal.Context) (size n : ℕ)
    (fraction live backtest : Decimal) : Prop where
  backtest_eq : backtest = (size * ⌊ctx.div (ctx.mul n fraction) size⌋ : ℤ)
  within : backtest ≤ n
  left : ctx.sub n backtest = n - backtest
  sold_out : backtest = n ↔ size ∣ n ∧ ctx.div (ctx.mul n fraction) size = n / size
  agree : live = backtest ↔
    (n = 1 ∧ (ctx.mul n fraction < 1 ∨ size = 1)) ∨
    (2 ≤ n ∧ 1 ≤ ctx.mul n fraction ∧ (size : ℤ) ∣ liveShares ctx n fraction ∧
      (size = 1 → ctx.mul n fraction < n))

/-- What the two engines sell of a holding of whole shares. -/
structure SharesCompared (ctx : Decimal.Context) (u lot : Decimal) (n : ℕ)
    (fraction live backtest : Decimal) : Prop where
  live_eq : live = liveShares ctx n fraction
  live_within : 0 ≤ live ∧ live ≤ n
  live_leaves : 2 ≤ n → 1 ≤ live ∧ live ≤ n - 1
  backtest_within : 0 ≤ backtest ∧ backtest ≤ (1 + u) ^ 2 * n
  lots : ∀ size : ℕ, lot = size → LotsCompared ctx size n fraction live backtest

section Product

variable (h : ctx.Rounds u) (hn : 1 ≤ n) (hsmall : n * u < 1) (hpos : 0 < fraction)
  (hlt : fraction < 1)
include h hn hsmall hpos hlt

/-- The rounded product of a holding and a fraction is not beyond the holding. -/
theorem product_between : 0 < ctx.mul n fraction ∧ ctx.mul n fraction ≤ n := by
  have hshares : (0 : ℚ) < n := by exact_mod_cast hn
  have hless : (n : ℚ) * fraction ≤ n := mul_le_of_le_one_right hshares.le hlt.le
  refine ⟨h.round_pos (mul_pos hshares hpos), ?_⟩
  calc ctx.mul n fraction ≤ ctx.round n := h.monotone hless
    _ = n := h.natCast hsmall

theorem floor_product_le : 0 ≤ ⌊ctx.mul n fraction⌋ ∧ ⌊ctx.mul n fraction⌋ ≤ n := by
  obtain ⟨hproduct, hle⟩ := product_between h hn hsmall hpos hlt
  refine ⟨Int.floor_nonneg.mpr hproduct.le, ?_⟩
  have hfloor : (⌊ctx.mul n fraction⌋ : ℚ) ≤ n := (Int.floor_le _).trans hle
  exact_mod_cast hfloor

theorem liveShares_between :
    0 ≤ liveShares ctx n fraction ∧ liveShares ctx n fraction ≤ n ∧
      (2 ≤ n → 1 ≤ liveShares ctx n fraction ∧ liveShares ctx n fraction ≤ n - 1) := by
  have hfloor := floor_product_le h hn hsmall hpos hlt
  have hshares : liveShares ctx n fraction =
    if n = 1 then ⌊ctx.mul n fraction⌋ else min (n - 1) (max 1 ⌊ctx.mul n fraction⌋) := rfl
  split at hshares <;> omega

/-- `_quantity_for_signal` of a Korean holding of whole shares. -/
theorem quantityForSignal_krx :
    quantityForSignal ctx .krx n fraction = liveShares ctx n fraction := by
  obtain ⟨hproduct, hle⟩ := product_between h hn hsmall hpos hlt
  have hraw : max 0 (min (n : ℚ) (ctx.mul n fraction)) = ctx.mul n fraction := by
    rw [min_eq_right hle, max_eq_right hproduct.le]
  have htruncate : Decimal.truncate (ctx.mul n fraction) = (⌊ctx.mul n fraction⌋ : ℤ) := by
    rw [Decimal.truncate, if_pos hproduct.le]
  simp only [quantityForSignal, hraw, htruncate]
  by_cases hone : n = 1
  · rw [if_neg (by simp [hone]), liveShares, if_pos hone]
  · have htwo : (2 : ℚ) ≤ n := by
      have : 2 ≤ n := by omega
      exact_mod_cast this
    have hless : ctx.sub n 1 = ((n - 1 : ℤ) : ℚ) := by
      have hpred : ((n - 1 : ℕ) : ℚ) * u < 1 := by
        refine lt_of_le_of_lt ?_ hsmall
        have hnonneg := h.nonneg
        gcongr
        omega
      have hkept := h.natCast hpred
      rw [Nat.cast_sub hn, Nat.cast_one] at hkept
      rw [Decimal.Context.sub, hkept]
      push_cast
      rfl
    rw [if_pos ⟨hlt, htwo⟩, liveShares, if_neg hone, hless]
    push_cast
    rfl

end Product

section Lots

variable {size : ℕ} {product : Decimal} (h : ctx.Rounds u) (hsize : 1 ≤ size)
  (hsmall : n * u < 1) (hproduct : 0 < product) (hle : product ≤ n)
include h hsize hsmall hproduct hle

omit hsmall hle in
theorem quotient_floor_nonneg : 0 ≤ ⌊ctx.div product size⌋ :=
  Int.floor_nonneg.mpr (h.round_nonneg (by positivity))

/-- One rounding of the quotient moves the lots by less than a share. -/
theorem lots_lt : ((size * ⌊ctx.div product size⌋ : ℤ) : ℚ) < product + 1 := by
  have hlot : (0 : ℚ) < size := by exact_mod_cast hsize
  have hnonneg := h.nonneg
  have hshare : (0 : ℚ) ≤ product / size := by positivity
  have hmoved : product * u < 1 := lt_of_le_of_lt (by gcongr) hsmall
  calc
    ((size * ⌊ctx.div product size⌋ : ℤ) : ℚ) = size * (⌊ctx.div product size⌋ : ℚ) := by
      push_cast
      rfl
    _ ≤ size * ctx.div product size := by
      gcongr
      exact Int.floor_le _
    _ ≤ size * ((1 + u) * (product / size)) := by
      gcongr
      exact h.round_le hshare
    _ = product + product * u := by
      field_simp
    _ < product + 1 := by gcongr

theorem lots_le : (size * ⌊ctx.div product size⌋ : ℤ) ≤ n := by
  have hlt := lots_lt h hsize hsmall hproduct hle
  have hbound : ((size * ⌊ctx.div product size⌋ : ℤ) : ℚ) < ((n + 1 : ℤ) : ℚ) := by
    push_cast at hlt ⊢
    linarith
  have hint : (size * ⌊ctx.div product size⌋ : ℤ) < n + 1 := by exact_mod_cast hbound
  omega

omit hproduct in
/-- Whole lots that the product pays for survive the rounding of the quotient. -/
theorem le_quotient_floor {k : ℤ} (hnonneg : 0 ≤ k) (hlots : ((size * k : ℤ) : ℚ) ≤ product) :
    k ≤ ⌊ctx.div product size⌋ := by
  have hlot : (0 : ℚ) < size := by exact_mod_cast hsize
  have hone : (1 : ℚ) ≤ size := by exact_mod_cast hsize
  push_cast at hlots
  have hshare : (k : ℚ) ≤ product / size := by
    rw [le_div_iff₀ hlot]
    linarith
  have hkept : ctx.round k = k := by
    apply h.whole
    have hk : (0 : ℚ) ≤ k := by exact_mod_cast hnonneg
    have hu := h.nonneg
    rw [abs_of_nonneg hk]
    have hkn : (k : ℚ) ≤ n := by nlinarith
    exact lt_of_le_of_lt (by gcongr) hsmall
  apply Int.le_floor.mpr
  calc (k : ℚ) = ctx.round k := hkept.symm
    _ ≤ ctx.div product size := h.monotone hshare

omit hsmall hle in
theorem quotient_lt_one (hidem : ctx.round product = product) (hless : product < 1) :
    ⌊ctx.div product size⌋ = 0 := by
  have hone : (1 : ℚ) ≤ size := by exact_mod_cast hsize
  have hshare : product / size ≤ product := div_le_self hproduct.le hone
  rw [Int.floor_eq_zero_iff]
  refine ⟨h.round_nonneg (by positivity), ?_⟩
  calc ctx.div product size ≤ ctx.round product := h.monotone hshare
    _ = product := hidem
    _ < 1 := hless

omit hproduct in
theorem sold_out_iff : (size * ⌊ctx.div product size⌋ : ℤ) = n ↔
    size ∣ n ∧ ctx.div product size = n / size := by
  have hlot : (0 : ℚ) < size := by exact_mod_cast hsize
  constructor
  · intro hall
    have hdvd : size ∣ n := Int.natCast_dvd_natCast.mp ⟨_, hall.symm⟩
    obtain ⟨m, rfl⟩ := hdvd
    have hfloor : ⌊ctx.div product size⌋ = m := by
      have hne : (size : ℤ) ≠ 0 := by omega
      push_cast at hall
      exact mul_left_cancel₀ hne hall
    have hquotient : (((size * m : ℕ) : ℚ)) / size = m := by
      push_cast
      field_simp
    refine ⟨⟨m, rfl⟩, le_antisymm ?_ ?_⟩
    · have hkept : ctx.round (m : ℚ) = m := by
        apply h.natCast
        have hnonneg := h.nonneg
        refine lt_of_le_of_lt ?_ hsmall
        gcongr
        exact Nat.le_mul_of_pos_left m hsize
      calc ctx.div product size ≤ ctx.round (((size * m : ℕ) : ℚ) / size) :=
            h.monotone (by gcongr)
        _ = ((size * m : ℕ) : ℚ) / size := by rw [hquotient, hkept]
    · rw [hquotient]
      calc (m : ℚ) = (⌊ctx.div product size⌋ : ℚ) := by rw [hfloor, Int.cast_natCast]
        _ ≤ ctx.div product size := Int.floor_le _
  · rintro ⟨⟨m, rfl⟩, hquotient⟩
    have hwhole : ctx.div product size = m := by
      rw [hquotient]
      push_cast
      field_simp
    rw [hwhole, Int.floor_natCast]
    push_cast
    rfl

end Lots

section Compared

variable (h : ctx.Rounds u) (hn : 1 ≤ n) (hsmall : n * u < 1) (hpos : 0 < fraction)
  (hlt : fraction < 1)
include h hn hsmall hpos hlt

/-- Whole-share lots agree with the live quantity where it is a number of lots that the
product pays for. For a single share and for the lot of one share the two limits of the
live manager decide. -/
theorem shares_agree {size : ℕ} (hsize : 1 ≤ size) :
    liveShares ctx n fraction = size * ⌊ctx.div (ctx.mul n fraction) size⌋ ↔
      (n = 1 ∧ (ctx.mul n fraction < 1 ∨ size = 1)) ∨
      (2 ≤ n ∧ 1 ≤ ctx.mul n fraction ∧ (size : ℤ) ∣ liveShares ctx n fraction ∧
        (size = 1 → ctx.mul n fraction < n)) := by
  obtain ⟨hproduct, hle⟩ := product_between h hn hsmall hpos hlt
  have hidem : ctx.round (ctx.mul n fraction) = ctx.mul n fraction := h.idem _
  have hfew := quotient_lt_one h hsize hproduct hidem
  have hall := lots_le h hsize hsmall hproduct hle
  have hlots := lots_lt h hsize hsmall hproduct hle
  have hsome := quotient_floor_nonneg h hsize hproduct
  have hpays (k : ℤ) := le_quotient_floor h hsize hsmall hle (k := k)
  have hbelow := Int.floor_le (ctx.mul n fraction)
  have habove := Int.lt_floor_add_one (ctx.mul n fraction)
  have hfloor := floor_product_le h hn hsmall hpos hlt
  have hsingle : size = 1 → ⌊ctx.div (ctx.mul n fraction) size⌋ = ⌊ctx.mul n fraction⌋ := by
    rintro rfl
    rw [Decimal.Context.div, Nat.cast_one, div_one, hidem]
  have hshares : liveShares ctx n fraction =
    if n = 1 then ⌊ctx.mul n fraction⌋ else min (n - 1) (max 1 ⌊ctx.mul n fraction⌋) := rfl
  generalize liveShares ctx n fraction = live at *
  generalize ctx.mul n fraction = product at *
  generalize ⌊ctx.div product size⌋ = lots at *
  rcases lt_or_ge product 1 with hless | hmore
  · -- Nothing is sold by the lots; the live manager sells one share of two.
    have hnone : ⌊product⌋ = 0 := Int.floor_eq_zero_iff.mpr ⟨hproduct.le, hless⟩
    rw [hfew hless, mul_zero]
    constructor
    · intro hzero
      split at hshares
      next hone => exact .inl ⟨hone, .inl hless⟩
      · omega
    · rintro (⟨hone, -⟩ | ⟨-, hge, -⟩)
      · rw [hshares, if_pos hone, hnone]
      · exact absurd hge (not_le.mpr hless)
  have hwhole : 1 ≤ ⌊product⌋ := Int.le_floor.mpr (by exact_mod_cast hmore)
  constructor
  · intro heq
    by_cases hone : n = 1
    · have hunit : (size : ℤ) * lots = 1 := by
        rw [if_pos hone] at hshares
        omega
      have hlot : size = 1 := Int.natCast_dvd_natCast.mp ⟨lots, by simpa using hunit.symm⟩ |>
        Nat.dvd_one.mp
      exact .inl ⟨hone, .inr hlot⟩
    · refine .inr ⟨by omega, hmore, ⟨lots, heq⟩, fun hlot => lt_of_le_of_ne hle ?_⟩
      intro hfull
      have hwholes : ⌊product⌋ = n := by rw [hfull, Int.floor_natCast]
      rw [hsingle hlot, hlot, hwholes, Nat.cast_one, one_mul] at heq
      rw [if_neg hone, hwholes] at hshares
      omega
  · rintro (⟨hone, hless | hlot⟩ | ⟨htwo, -, ⟨k, hk⟩, hone⟩)
    · exact absurd hmore (not_le.mpr hless)
    · rw [hshares, if_pos hone, hsingle hlot, hlot]
      simp
    rw [if_neg (by omega : n ≠ 1)] at hshares
    have hlive : live ≤ ⌊product⌋ := by omega
    have hk0 : 0 ≤ k := by
      have hsize' : (0 : ℤ) < size := by omega
      by_contra hneg
      have : (size : ℤ) * k < 0 := mul_neg_of_pos_of_neg hsize' (not_le.mp hneg)
      omega
    have hlow : k ≤ lots := by
      apply hpays k hk0
      rw [← hk]
      exact le_trans (by exact_mod_cast hlive) hbelow
    have hhigh : lots ≤ k := by
      rcases Nat.eq_or_lt_of_le hsize with hlot | hlot
      · have hlast : ⌊product⌋ < (n : ℤ) := Int.floor_lt.mpr (by exact_mod_cast hone hlot.symm)
        rw [hsingle hlot.symm]
        rw [← hlot, Nat.cast_one, one_mul] at hk
        omega
      · have hnext : (size : ℤ) * lots < ⌊product⌋ + 2 := by
          have hreal : ((size * lots : ℤ) : ℚ) < ((⌊product⌋ + 2 : ℤ) : ℚ) := by
            push_cast at hlots ⊢
            linarith
          exact_mod_cast hreal
        have hnear : (size : ℤ) * lots ≤ size * k + 1 := by omega
        have htwoLots : (2 : ℤ) ≤ size := by omega
        by_contra hmoreLots
        have hnextLot : (size : ℤ) * (k + 1) ≤ size * lots := by
          gcongr
          omega
        rw [mul_add, mul_one] at hnextLot
        omega
    rw [hk, le_antisymm hhigh hlow]

theorem lotsCompared {size : ℕ} (hsize : 1 ≤ size) {live backtest : Decimal}
    (hlive : live = liveShares ctx n fraction)
    (hbacktest : backtest = Sizing.roundToLot ctx (ctx.mul n fraction) size) :
    LotsCompared ctx size n fraction live backtest := by
  obtain ⟨hproduct, hle⟩ := product_between h hn hsmall hpos hlt
  have hquotient : (0 : ℚ) ≤ ctx.div (ctx.mul n fraction) size := h.round_nonneg (by positivity)
  have hall := lots_le h hsize hsmall hproduct hle
  have hsome : 0 ≤ (size * ⌊ctx.div (ctx.mul n fraction) size⌋ : ℤ) :=
    mul_nonneg (by omega) (quotient_floor_nonneg h hsize hproduct)
  have hkept (m : ℤ) (hm : 0 ≤ m) (hmn : m ≤ n) : ctx.round m = m := by
    apply h.whole
    have hnonneg := h.nonneg
    have hmQ : (0 : ℚ) ≤ m := by exact_mod_cast hm
    have hmnQ : (m : ℚ) ≤ n := by exact_mod_cast hmn
    rw [abs_of_nonneg hmQ]
    exact lt_of_le_of_lt (by gcongr) hsmall
  have hvalue : backtest = (size * ⌊ctx.div (ctx.mul n fraction) size⌋ : ℤ) := by
    rw [hbacktest, Sizing.roundToLot, Decimal.truncate, if_pos hquotient, Decimal.Context.mul,
      mul_comm, ← hkept _ hsome hall]
    push_cast
    rfl
  refine ⟨hvalue, ?_, ?_, ?_, ?_⟩
  · rw [hvalue]
    exact_mod_cast hall
  · have hrest := hkept (n - size * ⌊ctx.div (ctx.mul n fraction) size⌋) (by omega) (by omega)
    rw [hvalue, Decimal.Context.sub]
    push_cast at hrest ⊢
    exact hrest
  · rw [hvalue, ← sold_out_iff h hsize hsmall hle]
    exact_mod_cast Iff.rfl
  · rw [hlive, hvalue, ← shares_agree h hn hsmall hpos hlt hsize]
    exact_mod_cast Iff.rfl

theorem sharesCompared (hlot : 0 < lot) {live backtest : Decimal}
    (hlive : live = liveShares ctx n fraction)
    (hbacktest : backtest = Sizing.roundToLot ctx (ctx.mul n fraction) lot) :
    SharesCompared ctx u lot n fraction live backtest := by
  obtain ⟨hproduct, hle⟩ := product_between h hn hsmall hpos hlt
  obtain ⟨hnonneg, hwithin, hleaves⟩ := liveShares_between h hn hsmall hpos hlt
  have hquotient : 0 ≤ ctx.mul n fraction / lot := by positivity
  have hrounded : 0 ≤ ctx.div (ctx.mul n fraction) lot := h.round_nonneg hquotient
  have hlots : 0 ≤ Decimal.truncate (ctx.div (ctx.mul n fraction) lot) * lot :=
    mul_nonneg (Decimal.truncate_nonneg hrounded) hlot.le
  have hu := h.nonneg
  refine ⟨hlive, ?_, ?_, ⟨?_, ?_⟩, ?_⟩
  · rw [hlive]
    exact ⟨by exact_mod_cast hnonneg, by exact_mod_cast hwithin⟩
  · intro htwo
    rw [hlive]
    obtain ⟨hone, hless⟩ := hleaves htwo
    exact ⟨by exact_mod_cast hone, by exact_mod_cast hless⟩
  · rw [hbacktest]
    exact h.round_nonneg hlots
  · calc
      backtest = ctx.mul (Decimal.truncate (ctx.div (ctx.mul n fraction) lot)) lot := hbacktest
      _ ≤ (1 + u) * (Decimal.truncate (ctx.div (ctx.mul n fraction) lot) * lot) :=
        h.round_le hlots
      _ ≤ (1 + u) * ((1 + u) * (n / lot) * lot) := by
        gcongr
        calc
          Decimal.truncate (ctx.div (ctx.mul n fraction) lot) ≤
              ctx.div (ctx.mul n fraction) lot := Decimal.truncate_le hrounded
          _ ≤ (1 + u) * (ctx.mul n fraction / lot) := h.round_le hquotient
          _ ≤ (1 + u) * (n / lot) := by gcongr
      _ = (1 + u) ^ 2 * n := by field_simp
  · rintro size rfl
    have hsize : 1 ≤ size := by
      have : 0 < size := by exact_mod_cast hlot
      omega
    exact lotsCompared h hn hsmall hpos hlt hsize hlive hbacktest

end Compared

end Quantities

section Engines

variable {engine : Engine} {config : PortfolioBacktestConfig} {manager : PositionManagerConfig}
  {n : ℕ}

variable {order : PendingExit} {ctx : Decimal.Context} {s : ManagedPositionState}
  {bar : PositionBar} {evaluation : PositionEvaluation}

theorem exitQuantity_krx {position : PortfolioPosition} (hmarket : order.key.market = .kr)
    (hlt : order.quantityFraction < 1) :
    exitQuantity engine config order position =
      Sizing.roundToLot engine.ctx (engine.ctx.mul position.quantity order.quantityFraction)
        config.positionSizing.krxLotSize := by
  rw [exitQuantity, if_neg (not_le.mpr hlt), hmarket]
  rfl

theorem keepHolding_signal {levels : ExitLevels}
    (hok : keepHolding ctx manager s bar levels = .ok evaluation) : evaluation.signal = none := by
  have hlast : ∀ raised : Except String ManagedPositionState,
      (do
        let updated ← raised
        let state ← ManagedPositionState.postInit
          { updated with
            highestClose := max s.highestClose bar.close, lastEvaluatedAt := some bar.asOf }
        return ({ state, signal := none } : PositionEvaluation)) = .ok evaluation →
      evaluation.signal = none := by
    intro raised hraised
    obtain ⟨updated, -, hraised⟩ := bind_ok_iff.mp hraised
    obtain ⟨state, -, hraised⟩ := bind_ok_iff.mp hraised
    cases hraised
    rfl
  unfold keepHolding at hok
  dsimp only at hok
  split at hok
  · split at hok
    · exact hlast _ hok
    · exact hlast _ hok
  · exact hlast _ hok

theorem partial_signal {barsHeld : ℤ} {trendIntact : Bool}
    (hok : evaluatePosition ctx manager s bar barsHeld trendIntact = .ok evaluation)
    {exit : PositionExitSignal} (hsignal : evaluation.signal = some exit)
    (hkind : exit.kind = .partialSell) :
    exit.quantityFraction = manager.partialFraction ∧
      evaluation.state.partialExitCompleted = true := by
  have hfull : ∀ {kind : ExitKind} {price : Decimal} {reason : String} {levels : ExitLevels},
      kind ≠ .partialSell → exitFully s bar kind price reason levels ≠ .ok evaluation := by
    intro kind price reason levels hne hexit
    obtain ⟨state, -, hexit⟩ := bind_ok_iff.mp hexit
    obtain ⟨full, hfull, hexit⟩ := bind_ok_iff.mp hexit
    obtain ⟨key, -, hfull⟩ := bind_ok_iff.mp hfull
    cases hfull
    cases hexit
    cases hsignal
    exact hne hkind
  unfold evaluatePosition at hok
  split_ifs at hok
  · obtain ⟨levels, -, hok⟩ := bind_ok_iff.mp hok
    unfold evaluateCovered at hok
    dsimp only at hok
    split_ifs at hok
    · exact absurd hok (hfull (by decide))
    · exact absurd hok (hfull (by decide))
    · exact absurd hok (hfull (by decide))
    · exact absurd hok (hfull (by decide))
    · obtain ⟨state, hstate, hok⟩ := bind_ok_iff.mp hok
      obtain rfl := ManagedPositionState.eq_of_postInit hstate
      obtain ⟨found, hfound, hok⟩ := bind_ok_iff.mp hok
      obtain ⟨key, -, hfound⟩ := bind_ok_iff.mp hfound
      cases hfound
      cases hok
      cases hsignal
      exact ⟨rfl, rfl⟩
    · exact absurd hok (hfull (by decide))
    · rw [keepHolding_signal hok] at hsignal
      cases hsignal
    · exact absurd hok (hfull (by decide))
  · obtain ⟨state, -, hok⟩ := bind_ok_iff.mp hok
    cases hok
    cases hsignal

/-- A partial exit leaves the state of the manager alone, and no position where it sells
all of it. -/
theorem executeExit_leaves {u : Decimal} (h : engine.ctx.Rounds u)
    {opens : List (CandidateKey × OpenPrice)} {before after : RunState}
    {position : PortfolioPosition} (hok : executeExit engine config opens before order = .ok after)
    (hposition : before.positions.get? order.key = some position) (hn : 1 ≤ n)
    (hsmall : n * u < 1) (hquantity : position.quantity = n)
    (hnonneg : 0 ≤ exitQuantity engine config order position) :
    (exitQuantity engine config order position < n →
      ∃ left, after.positions.get? order.key = some left ∧
        left.quantity = engine.ctx.sub n (exitQuantity engine config order position) ∧
        left.managerState = position.managerState) ∧
    (n ≤ exitQuantity engine config order position →
      after.positions.get? order.key = none) := by
  have hshares : (0 : ℚ) < n := by exact_mod_cast hn
  unfold executeExit at hok
  split at hok
  next reference signal hreference hsignal =>
    simp only [hposition] at hok
    split at hok
    next hskipped =>
      have hzero : exitQuantity engine config order position = 0 :=
        le_antisymm hskipped hnonneg
      cases hok
      refine ⟨fun _ => ⟨position, hposition, ?_, rfl⟩, fun hall => ?_⟩
      · rw [hzero, Decimal.Context.sub, sub_zero, h.natCast hsmall, hquantity]
      · rw [hzero] at hall
        exact absurd hall (not_le.mpr hshares)
    · cases hok
      rw [← hquantity]
      constructor
      · intro hkeeps
        have hremaining : ¬ engine.ctx.sub position.quantity
            (exitQuantity engine config order position) ≤ 0 :=
          not_le.mpr (h.round_pos (sub_pos.mpr hkeeps))
        simp only [fillExit, hremaining, if_false, Dict.get?_modify, if_true, hposition]
        exact ⟨_, rfl, rfl, rfl⟩
      · intro hall
        have hremaining : engine.ctx.sub position.quantity
            (exitQuantity engine config order position) ≤ 0 :=
          h.round_nonpos (sub_nonpos.mpr hall)
        simp only [fillExit, hremaining, if_true]
        rw [Dict.get?_erase, if_pos rfl]
  · cases hok

end Engines

variable {service : PositionManagerService} {origin s : ManagedPositionState} {n : ℕ}
  {u : Decimal}

/-- A partial exit in the life of a position: the flag is left alone when it is asked for and
sized, and set when it has succeeded. Of one share nothing is sold in part, unless the
rounding of the product makes it a whole share. -/
structure LiveLadder (service : PositionManagerService) (s : ManagedPositionState) (n : ℕ) :
    Prop where
  asked : ∀ o evaluation s', persistDaily service.ctx service.config s o = .ok (evaluation, s') →
    evaluation.signal.map (·.kind) = some .partialSell → s'.partialExitCompleted = false
  sized : ∀ now holding input exit horizon sized, holding.market = .krx →
    input.quantity = (n : Decimal) →
    exit.kind = .partialSell → exit.quantityFraction = service.config.partialFraction →
    sizeExit service now holding input s exit horizon = .ok sized →
      sized.state.partialExitCompleted = s.partialExitCompleted ∧
      (liveShares service.ctx n service.config.partialFraction ≠ 0 → sized.exit = exit ∧
        sized.quantity = liveShares service.ctx n service.config.partialFraction) ∧
      (liveShares service.ctx n service.config.partialFraction = 0 →
        n = 1 ∧ (sized.quantity = 0 ∨ sized.exit.kind ≠ .partialSell))
  sold : ∀ now s', completePartial service.ctx service.config s now = .ok s' →
    s'.partialExitCompleted = true

theorem liveLadder (hrounds : service.ctx.Rounds u) (hn : 1 ≤ n) (hsmall : n * u < 1)
    (h : Managed origin s) : LiveLadder service s n := by
  obtain ⟨hpos, hlt⟩ := service.config.fraction_between
  obtain ⟨hnonneg, -, hleaves⟩ := liveShares_between hrounds hn hsmall hpos hlt
  refine ⟨?_, ?_, ?_⟩
  · intro o evaluation s' hok hkind
    exact (asking_partial_keeps h.valid hok hkind).2
  · intro now holding input exit horizon sized hmarket hquantity hkind hfraction hok
    have hsold : quantityForSignal service.ctx holding.market input.quantity
        exit.quantityFraction = liveShares service.ctx n service.config.partialFraction := by
      rw [hmarket, hquantity, hfraction]
      exact quantityForSignal_krx hrounds hn hsmall hpos hlt
    unfold sizeExit at hok
    rw [hsold] at hok
    by_cases hnone : liveShares service.ctx n service.config.partialFraction = 0
    · have hone : n = 1 := by omega
      have hsingle : input.quantity = 1 := by rw [hquantity, hone, Nat.cast_one]
      dsimp only at hok
      rw [if_pos ⟨by rw [hnone, Int.cast_zero], hmarket, hsingle, hkind⟩] at hok
      obtain ⟨raised, hraised, hok⟩ := bind_ok_iff.mp hok
      have hflag := (raiseToFloor_managed h hraised).2.2.2
      obtain ⟨hstate, hunsold⟩ : sized.state = raised ∧
          (sized.quantity = 0 ∨ sized.exit.kind ≠ .partialSell) := by
        split at hok
        · cases hok
          exact ⟨rfl, .inl (by rw [hnone, Int.cast_zero])⟩
        · obtain ⟨followUp, -, hok⟩ := bind_ok_iff.mp hok
          split at hok
          · cases hok
            exact ⟨rfl, .inl (by rw [hnone, Int.cast_zero])⟩
          · split at hok
            next hlater =>
              cases hok
              exact ⟨rfl, .inr hlater⟩
            · cases hok
              exact ⟨rfl, .inl (by rw [hnone, Int.cast_zero])⟩
      refine ⟨?_, fun hne => absurd hnone hne, fun _ => ⟨hone, hunsold⟩⟩
      rw [hstate]
      exact hflag
    · have hsome : 0 < liveShares service.ctx n service.config.partialFraction := by omega
      have hsome : ¬ ((liveShares service.ctx n service.config.partialFraction : ℤ) : ℚ) ≤ 0 := by
        rw [not_le]
        exact_mod_cast hsome
      dsimp only at hok
      rw [if_neg fun hfalse => hsome hfalse.1] at hok
      cases hok
      exact ⟨rfl, fun _ => ⟨rfl, rfl⟩, fun hzero => absurd hzero hnone⟩
  · intro now s' hok
    exact (completePartial_managed h hok).2.2.2

/-- A partial exit of a Korean holding of whole shares, in the backtest and live, for any lot
of the backtest and any context whose rounding does not reach a share of the holding. Both
ask for the fraction of the configuration. The backtest marks the partial exit when it is
asked for, sold or not, and the live manager when it has succeeded. -/
theorem partial_exits_compared (engine : Engine) (config : PortfolioBacktestConfig)
    {market : Market} {symbol : String} {entryPrice initialAtr : Decimal} {entryAt : Instant}
    {strategyVersion : String} {positionCycleId : Option ℤ} {effectiveAt : Option Instant}
    {strategyStop : Option Decimal} {events : List LifecycleEvent}
    (hrounds : engine.ctx.Rounds u) (hservice : service.ctx = engine.ctx)
    (hconfig : service.config = config.positionManager)
    (hinit : initializePosition service.ctx service.config market symbol entryPrice initialAtr
      entryAt strategyVersion positionCycleId effectiveAt strategyStop = .ok origin)
    (hrun : lifecycle service.ctx service.config origin events = .ok s) (hn : 1 ≤ n)
    (hsmall : n * u < 1) :
    LiveLadder service s n ∧
      (∀ (state : ManagedPositionState) bar barsHeld trendIntact evaluation exit,
        evaluatePosition engine.ctx config.positionManager state bar barsHeld trendIntact =
          .ok evaluation →
        evaluation.signal = some exit → exit.kind = .partialSell →
        exit.quantityFraction = config.positionManager.partialFraction ∧
          evaluation.state.partialExitCompleted = true) ∧
      ∀ (order : PendingExit) (position : PortfolioPosition), order.key.market = .kr →
        order.quantityFraction = config.positionManager.partialFraction →
        position.quantity = n →
          SharesCompared engine.ctx u config.positionSizing.krxLotSize n
            config.positionManager.partialFraction
            (quantityForSignal service.ctx .krx n service.config.partialFraction)
            (exitQuantity engine config order position) ∧
          ∀ opens before after, executeExit engine config opens before order = .ok after →
            before.positions.get? order.key = some position →
            (exitQuantity engine config order position < n →
              ∃ left, after.positions.get? order.key = some left ∧
                left.quantity = engine.ctx.sub n (exitQuantity engine config order position) ∧
                left.managerState = position.managerState) ∧
            (n ≤ exitQuantity engine config order position →
              after.positions.get? order.key = none) := by
  obtain ⟨hpos, hlt⟩ := config.positionManager.fraction_between
  obtain ⟨horigin, -⟩ := initializePosition_spec hinit
  obtain ⟨hmanaged, -⟩ := lifecycle_managed (initializePosition_managed hinit) horigin hrun
  refine ⟨liveLadder (hservice ▸ hrounds) hn hsmall hmanaged, ?_, ?_⟩
  · intro state bar barsHeld trendIntact evaluation exit hok hsignal hkind
    exact partial_signal hok hsignal hkind
  · intro order position hmarket hfraction hquantity
    have hcompared : SharesCompared engine.ctx u config.positionSizing.krxLotSize n
        config.positionManager.partialFraction
        (quantityForSignal service.ctx .krx n service.config.partialFraction)
        (exitQuantity engine config order position) := by
      apply sharesCompared hrounds hn hsmall hpos hlt config.positionSizing.lots_positive.1
      · rw [hservice, hconfig]
        exact quantityForSignal_krx hrounds hn hsmall hpos hlt
      · rw [exitQuantity_krx hmarket (hfraction ▸ hlt), hquantity, hfraction]
    refine ⟨hcompared, ?_⟩
    intro opens before after hok hposition
    exact executeExit_leaves hrounds hok hposition hn hsmall hquantity
      hcompared.backtest_within.1

/-- A live partial exit of one of two shares. -/
theorem partial_exits_compared_two :
    ∃ service : PositionManagerService, ∃ s, LiveLadder service s 2 := by
  obtain ⟨origin, hinit, -⟩ := exists_ok_of_check
    (x := initializePosition exactService.ctx exactService.config .krx "005930" 100 10 0 "v1"
      (some 1) none none) (P := fun _ => True) (by decide +kernel)
  refine ⟨exactService, origin, ?_⟩
  have hrun : lifecycle exactService.ctx exactService.config origin [] = .ok origin := rfl
  exact (partial_exits_compared sampleEngine crash.config Decimal.Context.exact_rounds rfl rfl
    hinit hrun (by decide) (by simp)).1

/-- The shares that the two engines sell of a holding, at the working precision. -/
def soldShares (lot : Decimal) (hlot : 0 < lot) (n fraction : Decimal) : Decimal × Decimal :=
  (quantityForSignal (.digits 28) .krx n fraction,
    exitQuantity { sampleEngine with ctx := .digits 28 }
      { crash.config with
        positionSizing := { sampleConfig.positionSizing with
          krxLotSize := lot
          lots_positive := ⟨hlot, sampleConfig.positionSizing.lots_positive.2⟩ } }
      { key := ⟨.kr, "005930"⟩, signalIndex := 0, quantityFraction := fraction
        reason := .partialSell }
      { entrySignalAt := 0, entryAt := 1, entryPrice := 100, quantity := n
        entryFeeRemaining := 0, entrySlippageRemaining := 0, managerState := openedAt 0
        barsHeld := 1, lastClose := 100 })

/-- Of two shares three tenths are sold live only. With a lot of ten the backtest sells none
of eleven where the live manager sells five. A fraction of 28 nines rounds the product to
the holding, and the backtest sells all of it; where the holding has as many digits as the
context, it sells a share more than there are. -/
theorem two_shares_sold_live_only :
    soldShares 1 (by decide) 2 (3 / 10) = (1, 0) ∧
      soldShares 10 (by decide) 11 (1 / 2) = (5, 0) ∧
      soldShares 1 (by decide) 11 (1 - 1 / 10 ^ 28) = (10, 11) ∧
      soldShares 3 (by decide) (10 ^ 28 - 2) (1 - 1 / 10 ^ 29) =
        (10 ^ 28 - 3, 10 ^ 28 - 1) := by
  decide +kernel

end KAssetTrader.Backtest
