import KAssetTrader.Paper.LimitBooks

/-!
The price at which a limit order rests. The floor to the tick of the band keeps the order of the
prices across the bands, as the threshold of a band is a multiple of its tick; below a hundredth
the tick is finer than the money scale, and the rounding to the scale may go up.
-/

namespace KAssetTrader.Paper

open Decimal

variable {price other rested : Decimal} {b : Decimal × Decimal}

/-- The first band whose threshold the price reaches. -/
def band (price : Decimal) : Option (Decimal × Decimal) :=
  tickBands.find? fun band => decide (band.1 ≤ price)

def tick (price : Decimal) : Decimal := ((band price).map (·.2)).getD (1 / 100000)

def floorToTick (price : Decimal) : Decimal := ⌊price / tick price⌋ * tick price

/-- The context rounds neither the division by the tick nor the product with it. -/
def WithinPrecision (price : Decimal) : Prop :=
  ctx.div price (tick price) = price / tick price ∧
    ctx.mul (⌊price / tick price⌋ : ℤ) (tick price) = floorToTick price

theorem snapLimitDown_eq (h : WithinPrecision price) : snapLimitDown price = floorToTick price := by
  rw [← h.2, ← h.1]
  rfl

theorem tickBands_spec : ∀ b ∈ tickBands,
    0 < b.2 ∧ 1 / 100 ≤ b.1 ∧ (b.1 / b.2).den = 1 ∧ (b.2 * 10 ^ 4).den = 1 := by
  decide +kernel

theorem tickBands_unit : ∀ b ∈ tickBands, 1 / 10000 ≤ b.2 := by decide +kernel

theorem band_eq_none_iff : band price = none ↔ price < 1 / 100 := by
  refine List.find?_eq_none.trans ⟨fun h => ?_, fun h b hb => ?_⟩
  · simpa using h (1 / 100, 1 / 10000) (by simp [tickBands])
  · simpa using h.trans_le (tickBands_spec b hb).2.1

theorem tick_of_band (h : band price = some b) : tick price = b.2 := by simp [tick, h]

theorem tick_of_lt (h : price < 1 / 100) : tick price = 1 / 100000 := by
  simp [tick, band_eq_none_iff.mpr h]

theorem tick_pos : 0 < tick price := by
  cases h : band price with
  | none => norm_num [tick, h]
  | some b =>
    rw [tick_of_band h]
    exact (tickBands_spec b (List.mem_of_find?_eq_some h)).1

theorem floorToTick_le : floorToTick price ≤ price :=
  (le_div_iff₀ tick_pos).mp (Int.floor_le _)

theorem threshold_le (h : band price = some b) : b.1 ≤ floorToTick price := by
  obtain ⟨hpos, -, hden, -⟩ := tickBands_spec b (List.mem_of_find?_eq_some h)
  have hle : b.1 ≤ price := by simpa using List.find?_some h
  have hthreshold : b.1 / b.2 = (b.1 / b.2).num := (Rat.den_eq_one_iff _).mp hden |>.symm
  rw [floorToTick, tick_of_band h, ← div_le_iff₀ hpos, hthreshold, Int.cast_le, Int.le_floor,
    ← hthreshold]
  exact div_le_div_of_nonneg_right hle hpos.le

theorem band_between (h : band other = some b) (hlow : b.1 ≤ price) (hle : price ≤ other) :
    band price = some b := by
  obtain ⟨-, before, after, hsplit, hbefore⟩ := List.find?_eq_some_iff_append.mp h
  refine List.find?_eq_some_iff_append.mpr ⟨decide_eq_true hlow, before, after, hsplit, ?_⟩
  intro a ha
  have hnot : other < a.1 := by simpa using hbefore a ha
  simpa using hle.trans_lt hnot

theorem floorToTick_mono (hle : price ≤ other) : floorToTick price ≤ floorToTick other := by
  have hsame (htick : tick price = tick other) : floorToTick price ≤ floorToTick other := by
    rw [floorToTick, floorToTick, htick]
    have hpos : 0 < tick other := tick_pos
    gcongr
  cases h : band other with
  | none =>
    have hsmall := band_eq_none_iff.mp h
    exact hsame (by rw [tick_of_lt hsmall, tick_of_lt (hle.trans_lt hsmall)])
  | some b =>
    by_cases hlow : b.1 ≤ price
    · exact hsame (by rw [tick_of_band h, tick_of_band (band_between h hlow hle)])
    · exact floorToTick_le.trans ((not_le.mp hlow).le.trans (threshold_le h))

theorem floorToTick_nonneg (hpos : 0 < price) : 0 ≤ floorToTick price :=
  mul_nonneg (Int.cast_nonneg (Int.floor_nonneg.mpr (div_pos hpos tick_pos).le)) tick_pos.le

theorem floorToTick_places (h : 1 / 100 ≤ price) :
    HasPlaces 4 (floorToTick price) ∧ tick (floorToTick price) = tick price := by
  obtain ⟨b, hb⟩ := Option.ne_none_iff_exists'.mp fun hnone => h.not_gt (band_eq_none_iff.mp hnone)
  obtain ⟨-, -, -, hden⟩ := tickBands_spec b (List.mem_of_find?_eq_some hb)
  refine ⟨⟨⌊price / tick price⌋ * (b.2 * 10 ^ 4).num, ?_⟩, ?_⟩
  · rw [Int.cast_mul, (Rat.den_eq_one_iff _).mp hden, floorToTick, tick_of_band hb]
    ring
  · rw [tick_of_band hb, tick_of_band (band_between hb (threshold_le hb) floorToTick_le)]

theorem rested_eq (hexact : WithinPrecision price) (h : quantizeFillPrice price = .ok rested) :
    rested = (floorToTick price).quantizeHalfUp 4 := by
  rw [quantizeFillPrice, snapLimitDown_eq hexact] at h
  exact quantizeMoney_ok h

theorem rested_multiple (hpos : 0 < price) (h : rested = (floorToTick price).quantizeHalfUp 4) :
    ∃ n : ℤ, rested = n * tick rested := by
  by_cases hlarge : 1 / 100 ≤ price
  · obtain ⟨hplaces, htick⟩ := floorToTick_places hlarge
    rw [hplaces.quantizeHalfUp] at h
    exact ⟨⌊price / tick price⌋, by rw [h, htick]; rfl⟩
  · have hle : rested ≤ 1 / 100 := h ▸ quantizeHalfUp_le (floorToTick_nonneg hpos)
      ⟨100, by norm_num⟩ (floorToTick_le.trans (not_le.mp hlarge).le)
    obtain ⟨n, hn⟩ := h ▸ quantizeHalfUp_hasPlaces 4 (floorToTick price)
    rcases hle.lt_or_eq with hlt | heq
    · exact ⟨10 * n, by rw [tick_of_lt hlt, hn]; push_cast; ring⟩
    · exact ⟨100, by rw [heq]; decide +kernel⟩

theorem rested_again (hpos : 0 < price) (h : rested = (floorToTick price).quantizeHalfUp 4)
    (hok : quantizeMoney rested = .ok rested) : quantizeFillPrice rested = .ok rested := by
  obtain ⟨n, hn⟩ := rested_multiple hpos h
  have hplaces : HasPlaces 4 rested := h ▸ quantizeHalfUp_hasPlaces 4 (floorToTick price)
  have hsize : |rested| * 10 ^ 4 < 10 ^ precision := by
    unfold quantizeMoney at hok
    split at hok
    next hsize => rwa [hplaces.quantizeHalfUp] at hsize
    · cases hok
  have hdiv : rested / tick rested = n := by
    rw [div_eq_iff tick_pos.ne']
    exact hn
  have hcount : |(n : ℚ)| * 10 ^ 0 < 10 ^ precision := by
    rw [← hdiv, abs_div, abs_of_pos tick_pos, pow_zero, mul_one, div_lt_iff₀ tick_pos]
    by_cases hlarge : 1 / 100 ≤ rested
    · obtain ⟨b, hb⟩ :=
        Option.ne_none_iff_exists'.mp fun hnone => hlarge.not_gt (band_eq_none_iff.mp hnone)
      have hunit : (1 : ℚ) / 10000 ≤ tick rested := by
        rw [tick_of_band hb]
        exact tickBands_unit b (List.mem_of_find?_eq_some hb)
      have := mul_le_mul_of_nonneg_left hunit (by positivity : (0 : ℚ) ≤ 10 ^ precision)
      linarith
    · have hnonneg : 0 ≤ rested := h ▸ quantizeHalfUp_nonneg (floorToTick_nonneg hpos)
      rw [abs_of_nonneg hnonneg, tick_of_lt (not_le.mp hlarge)]
      norm_num [precision]
      linarith
  have hexact : WithinPrecision rested := by
    refine ⟨?_, ?_⟩
    · rw [hdiv]
      exact (congrArg ctx.round hdiv).trans
        (Context.digits_round ⟨n, by norm_num⟩ hcount)
    · rw [floorToTick, hdiv, Int.floor_intCast]
      exact Context.digits_round (hn ▸ hplaces) (hn ▸ hsize)
  rw [quantizeFillPrice, snapLimitDown_eq hexact, floorToTick, hdiv, Int.floor_intCast, ← hn, hok]

structure RestsWell (price rested : Decimal) : Prop where
  le : rested ≤ price
  multiple : ∃ n : ℤ, rested = n * tick rested
  again : quantizeFillPrice rested = .ok rested
  mono : ∀ other later, price ≤ other → WithinPrecision other →
    quantizeFillPrice other = .ok later → rested ≤ later

/-- An order rests well exactly when its price is at least a hundredth, or its fifth decimal is
less than five; else the order rests above the price. -/
theorem rests_well_iff (price rested : Decimal) (hpos : 0 < price)
    (hexact : WithinPrecision price) (h : quantizeFillPrice price = .ok rested) :
    RestsWell price rested ↔ (price < 1 / 100 → ⌊price * 100000⌋ % 10 < 5) := by
  have heq := rested_eq hexact h
  have hok : quantizeMoney rested = .ok rested := by
    have hsame := h
    rw [quantizeFillPrice, snapLimitDown_eq hexact] at hsame
    unfold quantizeMoney at hsame ⊢
    rwa [heq, (quantizeHalfUp_hasPlaces 4 _).quantizeHalfUp, ← heq] at *
  have hle : rested ≤ price ↔ (price < 1 / 100 → ⌊price * 100000⌋ % 10 < 5) := by
    by_cases hlarge : 1 / 100 ≤ price
    · rw [heq, (floorToTick_places hlarge).1.quantizeHalfUp]
      exact iff_of_true floorToTick_le fun hsmall => absurd hlarge hsmall.not_ge
    · have hnonneg := floorToTick_nonneg hpos
      have hfloor : floorToTick price = ⌊price * 100000⌋ / 100000 := by
        rw [floorToTick, tick_of_lt (not_le.mp hlarge), one_div, div_inv_eq_mul]
        rfl
      have hhalf : floorToTick price * 10 ^ 4 + 1 / 2 =
          ((⌊price * 100000⌋ + 5 : ℤ) : ℚ) / (10 : ℕ) := by
        rw [hfloor]
        push_cast
        ring
      -- the whole number of hundred-thousandths decides
      have hwhole (k : ℤ) : (k : ℚ) ≤ price * 10 ^ 4 ↔ 10 * k ≤ ⌊price * 100000⌋ := by
        rw [Int.le_floor]
        push_cast
        constructor <;> intro h <;> linarith
      rw [heq, quantizeHalfUp, if_pos hnonneg, hhalf, Rat.floor_intCast_div_natCast,
        div_le_iff₀ (by positivity), hwhole, imp_iff_right (not_le.mp hlarge)]
      generalize ⌊price * 100000⌋ = n
      omega
  exact ⟨fun hwell => hle.mp hwell.le, fun hcond => ⟨hle.mpr hcond, rested_multiple hpos heq,
    rested_again hpos heq hok, fun other later hprice hother hlater => by
      rw [heq, rested_eq hother hlater]
      exact quantizeHalfUp_mono (floorToTick_nonneg hpos) (floorToTick_mono hprice)⟩⟩

instance : DecidablePred WithinPrecision := fun _ => inferInstanceAs (Decidable (_ ∧ _))

/-- A price between two ticks. -/
theorem rests_well_on_tick : RestsWell 1234 1230 :=
  (rests_well_iff 1234 1230 (by norm_num) (by decide +kernel)
    (Checked.eq_ok_of_toOption (by decide +kernel))).mpr (by norm_num)

/-- A buy at six hundred-thousandths rests at a ten-thousandth. -/
theorem rests_above_price : quantizeFillPrice (6 / 100000) = .ok (1 / 10000) ∧
    WithinPrecision (6 / 100000) ∧ ¬ RestsWell (6 / 100000) (1 / 10000) :=
  ⟨Checked.eq_ok_of_toOption (by decide +kernel), by decide +kernel, fun h =>
    absurd h.le (by norm_num)⟩

end KAssetTrader.Paper
