import KAssetTrader.Position.ExitLevels

/-!
The evaluation of one completed daily bar. Arithmetic goes through a rounding
context; comparisons and maxima do not. An evaluation that passes the input
checks has one of four outcomes, and every fact about it is derived from the
theorem that lists them.
-/

namespace KAssetTrader.Position

open Checked

def openingStop (ctx : Decimal.Context) (config : PositionManagerConfig)
    (entryPrice initialAtr : Decimal) (strategyStop : Option Decimal) : Decimal :=
  let atrStop := ctx.sub entryPrice (ctx.mul config.initialStopAtr initialAtr)
  match strategyStop with
  | some stop => if 0 < stop ∧ stop < entryPrice then max atrStop stop else atrStop
  | none => atrStop

def initializePosition (ctx : Decimal.Context) (config : PositionManagerConfig)
    (market : Market) (symbol : String) (entryPrice initialAtr : Decimal) (entryAt : Instant)
    (strategyVersion : String) (positionCycleId : Option ℤ)
    (exitLevelsEffectiveAt : Option Instant) (strategyStop : Option Decimal) :
    Except String ManagedPositionState :=
  if entryPrice ≤ 0 then .error "entry_price must be positive and finite"
  else if initialAtr ≤ 0 then .error "initial_atr must be positive and finite"
  else
    let initialStop := openingStop ctx config entryPrice initialAtr strategyStop
    if initialStop ≤ 0 then .error "initial stop must stay above zero"
    else ManagedPositionState.postInit
      { market, symbol, entryPrice, initialAtr, initialStop
        currentStop := initialStop
        highestClose := entryPrice
        partialExitCompleted := false
        entryAt
        lastEvaluatedAt := none
        strategyVersion, positionCycleId
        exitLevelsEffectiveAt := some (exitLevelsEffectiveAt.getD entryAt)
        exitLevelHistory := [] }

def exitSignalKey (market : Market) (symbol : String) (kind : ExitKind) (signalAt : Instant)
    (positionCycleId : Option ℤ) : Except String ExitSignalKey :=
  if symbol = "" then .error "market and symbol must identify a PAPER position"
  else if positionCycleId.any (· < 1) then .error "position_cycle_id must be positive"
  else .ok { market, symbol, positionCycleId, kind, signalAt }

def signal (s : ManagedPositionState) (bar : PositionBar) (kind : ExitKind)
    (fraction price : Decimal) (reason : ExitReason) (levels : ExitLevels) :
    Except String PositionExitSignal := do
  let idempotencyKey ← exitSignalKey s.market s.symbol kind bar.asOf s.positionCycleId
  return { kind, quantityFraction := fraction, referencePrice := price, signalAt := bar.asOf
           reason, idempotencyKey, levels }

def protectiveStop (ctx : Decimal.Context) (config : PositionManagerConfig)
    (s : ManagedPositionState) (highestClose initialAtr : Decimal) : Option Decimal :=
  if s.partialExitCompleted then
    some (max (ctx.add s.entryPrice (ctx.mul config.postPartialFloorAtr initialAtr))
      (ctx.sub highestClose (ctx.mul config.trailingStopAtr initialAtr)))
  else if ctx.sub highestClose s.entryPrice <
      ctx.mul config.earlyTrailingActivationAtr initialAtr then none
  else some (ctx.sub highestClose (ctx.mul config.earlyTrailingStopAtr initialAtr))

def ManagedPositionState.evaluatedAt (s : ManagedPositionState) (asOf : Instant) :
    ManagedPositionState :=
  { s with lastEvaluatedAt := some asOf }

def ManagedPositionState.observed (s : ManagedPositionState) (bar : PositionBar) :
    ManagedPositionState :=
  { s with
    highestClose := max s.highestClose bar.close
    lastEvaluatedAt := some bar.asOf }

/-- A signal for the whole position; the state only moves past the bar. -/
def exitFully (s : ManagedPositionState) (bar : PositionBar) (kind : ExitKind)
    (price : Decimal) (reason : String) (levels : ExitLevels) :
    Except String PositionEvaluation := do
  let state ← (s.evaluatedAt bar.asOf).postInit
  let exit ← signal s bar kind 1 price (.text reason) levels
  return { state, signal := some exit }

def takePartial (ctx : Decimal.Context) (config : PositionManagerConfig)
    (s : ManagedPositionState) (bar : PositionBar) (partialTarget : Decimal)
    (levels : ExitLevels) : Except String PositionEvaluation := do
  let fillReference := if partialTarget ≤ bar.openPrice then bar.openPrice else partialTarget
  let state ← { s.observed bar with partialExitCompleted := true }.postInit
  let exit ← signal s bar .partialSell config.partialFraction fillReference
    (.partialTarget false config.partialProfitAtr (ctx.mul config.partialFraction 100)) levels
  return { state, signal := some exit }

/-- No exit: follow the close, and raise the stop when the protection it
justifies lies above the one the bar was judged by. -/
def keepHolding (ctx : Decimal.Context) (config : PositionManagerConfig)
    (s : ManagedPositionState) (bar : PositionBar) (levels : ExitLevels) :
    Except String PositionEvaluation := do
  let highestClose := max s.highestClose bar.close
  let updated ← match protectiveStop ctx config s highestClose levels.initialAtr with
    | some stop =>
      if levels.currentStop < stop then raiseTrailingStop s stop bar.endsAt else .ok s
    | none => .ok s
  let state ← ManagedPositionState.postInit
    { updated with highestClose, lastEvaluatedAt := some bar.asOf }
  return { state, signal := none }

/-- The ladder of rules, under the levels in force when the bar starts. -/
def evaluateCovered (ctx : Decimal.Context) (config : PositionManagerConfig)
    (s : ManagedPositionState) (bar : PositionBar) (barsHeld : ℤ) (trendIntact : Bool)
    (levels : ExitLevels) : Except String PositionEvaluation :=
  let trailed := levels.initialStop < levels.currentStop
  let partialTarget := ctx.add s.entryPrice (ctx.mul config.partialProfitAtr levels.initialAtr)
  let progress := ctx.sub bar.close s.entryPrice
  if bar.openPrice ≤ levels.currentStop then
    exitFully s bar (if trailed then .trailingStopGap else .stopGap) bar.openPrice
      "시가가 당시 유효한 손절선 아래에서 형성되어 전량 청산합니다." levels
  else if bar.low ≤ levels.currentStop then
    exitFully s bar (if trailed then .trailingStop else .stop) levels.currentStop
      "당일 저가가 당시 유효한 손절선에 닿아 전량 청산합니다." levels
  else if ¬ s.partialExitCompleted ∧ partialTarget ≤ bar.high then
    takePartial ctx config s bar partialTarget levels
  else if ¬ trendIntact then
    exitFully s bar .trendBroken bar.close
      "추세 구조가 훼손되어 잔여수량을 청산합니다." levels
  -- The progress is read from this close, not from the highest one.
  else if config.maxHoldingBars ≤ barsHeld ∧
      progress < ctx.mul config.noProgressAtr levels.initialAtr then
    exitFully s bar .timeStop bar.close
      "최대 보유기간 동안 최소 진전폭을 만들지 못해 청산합니다." levels
  else keepHolding ctx config s bar levels

def evaluatePosition (ctx : Decimal.Context) (config : PositionManagerConfig)
    (s : ManagedPositionState) (bar : PositionBar) (barsHeld : ℤ) (trendIntact : Bool) :
    Except String PositionEvaluation :=
  if bar.asOf ≤ s.entryAt then .error "position bar must be after entry_at"
  else if s.lastEvaluatedAt.any (fun last => bar.asOf ≤ last) then
    .error "position bar must be newer than last_evaluated_at"
  else if barsHeld < 1 then .error "bars_held must be positive"
  else if ¬ exitLevelsCoverObservation s bar.startsAt then do
    -- No stop is known for the bar: it is passed over, not judged in hindsight.
    let state ← (s.evaluatedAt bar.asOf).postInit
    return { state, signal := none }
  else do
    let levels ← exitLevelsForBar s bar
    evaluateCovered ctx config s bar barsHeld trendIntact levels

/-- The loop of `evaluate_position_intraday` over the sorted bars; `firstPartial`
is the partial signal found so far. -/
def intradaySignal (ctx : Decimal.Context) (config : PositionManagerConfig)
    (s : ManagedPositionState) (barInterval : ℤ) (after : Option Instant)
    (firstPartial : Option PositionExitSignal) :
    List PositionBar → Except String (Option PositionExitSignal)
  | [] => .ok firstPartial
  | bar :: rest =>
    if bar.asOf - barInterval < s.entryAt ∨ after.any (fun t => bar.asOf ≤ t) ∨
        ¬ exitLevelsCoverObservation s bar.startsAt then
      intradaySignal ctx config s barInterval after firstPartial rest
    else do
      let levels ← exitLevelsForBar s bar
      let trailed := levels.initialStop < levels.currentStop
      let partialTarget :=
        ctx.add s.entryPrice (ctx.mul config.partialProfitAtr levels.initialAtr)
      if bar.openPrice ≤ levels.currentStop then
        let exit ← signal s bar (if trailed then .trailingStopGap else .stopGap) 1
          bar.openPrice (.text "장중 봉 시가가 당시 유효한 손절선 아래여서 전량 청산합니다.")
          levels
        return some exit
      else if bar.low ≤ levels.currentStop then
        let exit ← signal s bar (if trailed then .trailingStop else .stop) 1
          levels.currentStop
          (.text "장중 저가가 당시 유효한 손절선에 닿아 전량 청산합니다.") levels
        return some exit
      else if firstPartial.isNone ∧ ¬ s.partialExitCompleted ∧ partialTarget ≤ bar.high then
        let exit ← signal s bar .partialSell config.partialFraction
          (if partialTarget ≤ bar.openPrice then bar.openPrice else partialTarget)
          (.partialTarget true config.partialProfitAtr (ctx.mul config.partialFraction 100))
          levels
        intradaySignal ctx config s barInterval after (some exit) rest
      else intradaySignal ctx config s barInterval after firstPartial rest

/-- `evaluate_position_intraday`: the earliest full exit among the completed
buckets, or else the first partial one. -/
def evaluatePositionIntraday (ctx : Decimal.Context) (config : PositionManagerConfig)
    (s : ManagedPositionState) (bars : List PositionBar) (barInterval : ℤ)
    (after : Option Instant) : Except String (Option PositionExitSignal) :=
  if barInterval ≤ 0 then .error "bar_interval must be positive"
  else intradaySignal ctx config s barInterval after none
    (bars.mergeSort (fun a b => a.asOf ≤ b.asOf))

def PositionEvaluation.exitsFully (e : PositionEvaluation) : Bool :=
  e.signal.any (fun exit => exit.kind ≠ .partialSell)

variable {ctx : Decimal.Context} {config : PositionManagerConfig} {s : ManagedPositionState}
  {bar : PositionBar} {barsHeld : ℤ} {trendIntact : Bool}

structure Accepts (s : ManagedPositionState) (bar : PositionBar) (barsHeld : ℤ) : Prop where
  after_entry : s.entryAt < bar.asOf
  newer : ∀ last ∈ s.lastEvaluatedAt, last < bar.asOf
  held : 1 ≤ barsHeld

/-- The signal names the cycle, its own kind and the bar. -/
def PositionExitSignal.Identifies (exit : PositionExitSignal) (s : ManagedPositionState)
    (bar : PositionBar) : Prop :=
  exit.signalAt = bar.asOf ∧
    exit.idempotencyKey = ⟨s.market, s.symbol, s.positionCycleId, exit.kind, bar.asOf⟩

inductive Outcome (ctx : Decimal.Context) (config : PositionManagerConfig)
    (s : ManagedPositionState) (bar : PositionBar) : Except String PositionEvaluation → Prop
  | uncovered : ¬ exitLevelsCoverObservation s bar.startsAt →
      Outcome ctx config s bar (.ok ⟨s.evaluatedAt bar.asOf, none⟩)
  | fullExit (exit : PositionExitSignal) : exitLevelsCoverObservation s bar.startsAt →
      exit.kind ≠ .partialSell → exit.Identifies s bar →
      Outcome ctx config s bar (.ok ⟨s.evaluatedAt bar.asOf, some exit⟩)
  | partialSell (exit : PositionExitSignal) : exitLevelsCoverObservation s bar.startsAt →
      s.partialExitCompleted = false → exit.kind = .partialSell → exit.Identifies s bar →
      Outcome ctx config s bar
        (.ok ⟨{ s.observed bar with partialExitCompleted := true }, some exit⟩)
  | held (levels : ExitLevels) : exitLevelsForBar s bar = .ok levels →
      (∀ stop ∈ protectiveStop ctx config s (max s.highestClose bar.close) levels.initialAtr,
        stop ≤ levels.currentStop) →
      Outcome ctx config s bar (.ok ⟨s.observed bar, none⟩)
  | raised (levels : ExitLevels) (stop : Decimal) (history : List ExitLevelVersion)
      (current : ExitLevelVersion) : exitLevelsForBar s bar = .ok levels →
      protectiveStop ctx config s (max s.highestClose bar.close) levels.initialAtr =
        some stop →
      (s.withLevels history current).Valid →
      (s.withLevels history current).timeline =
        Timeline.splice (bar.endsAt : WithBot Instant) (ExitLevels.raiseTo stop) s.timeline →
      Outcome ctx config s bar (.ok ⟨(s.withLevels history current).observed bar, none⟩)
  | refused : exitLevelsCoverObservation s bar.startsAt → bar.endsAt < s.entryAt →
      Outcome ctx config s bar (.error "trailing stop effective_at must not precede entry_at")

theorem ManagedPositionState.Valid.evaluatedAt (h : s.Valid) (asOf : Instant) :
    (s.evaluatedAt asOf).Valid :=
  ⟨h.symbol_nonempty, h.strategy_nonempty, h.cycle_positive, h.entryPrice_pos,
    h.initialStop_pos, h.currentStop_pos, h.highestClose_pos, h.initialAtr_pos,
    h.history_valid, h.ordered⟩

theorem ManagedPositionState.Valid.observed (h : s.Valid) (bar : PositionBar) :
    (s.observed bar).Valid :=
  ⟨h.symbol_nonempty, h.strategy_nonempty, h.cycle_positive, h.entryPrice_pos,
    h.initialStop_pos, h.currentStop_pos, lt_max_of_lt_left h.highestClose_pos,
    h.initialAtr_pos, h.history_valid, h.ordered⟩

theorem ManagedPositionState.Valid.withPartial (h : s.Valid) (completed : Bool) :
    { s with partialExitCompleted := completed }.Valid :=
  ⟨h.symbol_nonempty, h.strategy_nonempty, h.cycle_positive, h.entryPrice_pos,
    h.initialStop_pos, h.currentStop_pos, h.highestClose_pos, h.initialAtr_pos,
    h.history_valid, h.ordered⟩

theorem exitSignalKey_ok (h : s.Valid) (kind : ExitKind) (at' : Instant) :
    exitSignalKey s.market s.symbol kind at' s.positionCycleId =
      .ok ⟨s.market, s.symbol, s.positionCycleId, kind, at'⟩ := by
  have hcycle : ¬ s.positionCycleId.any (· < 1) = true := by
    cases hid : s.positionCycleId with
    | none => simp
    | some c => simpa using h.cycle_positive c hid
  simp [exitSignalKey, h.symbol_nonempty, hcycle]

variable (bar) in
theorem exitFully_ok (h : s.Valid) (kind : ExitKind) (price : Decimal) (reason : String)
    (levels : ExitLevels) :
    ∃ exit, exitFully s bar kind price reason levels =
      .ok ⟨s.evaluatedAt bar.asOf, some exit⟩ ∧ exit.kind = kind ∧ exit.Identifies s bar := by
  refine ⟨⟨kind, 1, price, bar.asOf, .text reason,
    ⟨s.market, s.symbol, s.positionCycleId, kind, bar.asOf⟩, levels⟩, ?_, rfl, rfl, rfl⟩
  simp [exitFully, signal, exitSignalKey_ok h, (h.evaluatedAt bar.asOf).postInit]

variable (ctx config bar) in
theorem takePartial_ok (h : s.Valid) (partialTarget : Decimal) (levels : ExitLevels) :
    ∃ exit, takePartial ctx config s bar partialTarget levels =
      .ok ⟨{ s.observed bar with partialExitCompleted := true }, some exit⟩ ∧
        exit.kind = .partialSell ∧ exit.Identifies s bar := by
  simp only [takePartial, signal, exitSignalKey_ok h, ((h.observed bar).withPartial true).postInit,
    ok_bind]
  exact ⟨_, rfl, rfl, rfl, rfl⟩

variable {levels : ExitLevels}

/-- The levels a lookup finds passed the checks of their version. -/
theorem levels_valid (h : s.Valid) (hlevels : exitLevelsForBar s bar = .ok levels) :
    0 < levels.initialAtr ∧ 0 < levels.initialStop ∧ 0 < levels.currentStop := by
  rw [exitLevelsForBar_eq] at hlevels
  cases hinForce : Timeline.inForce s.timeline (bar.startsAt : WithBot Instant) with
  | none => simp [hinForce] at hlevels
  | some found =>
    obtain rfl : found = levels := by simpa [hinForce] using hlevels
    obtain ⟨start, hmem, -⟩ := Timeline.exists_of_inForce hinForce
    obtain ⟨v, hv, hentry⟩ := List.mem_map.mp hmem
    obtain rfl : v.toExitLevels = found := congrArg Prod.snd hentry
    have hvalid := h.versions v hv
    exact ⟨hvalid.initialAtr_pos, hvalid.initialStop_pos, hvalid.currentStop_pos⟩

theorem covers_endsAt (h : s.Valid) (hcovered : exitLevelsCoverObservation s bar.startsAt) :
    Timeline.Covers s.timeline (bar.endsAt : WithBot Instant) := by
  obtain ⟨v, hv, hle⟩ := (exitLevelsCoverObservation_iff h _).mp hcovered
  exact ⟨v, hv, hle.trans (WithBot.coe_le_coe.mpr bar.starts_le_ends)⟩

section

variable (h : s.Valid) (hlevels : exitLevelsForBar s bar = .ok levels)
  (hcovered : exitLevelsCoverObservation s bar.startsAt)
include h hlevels hcovered

theorem keepHolding_outcome :
    Outcome ctx config s bar (keepHolding ctx config s bar levels) := by
  have hkept : (∀ stop ∈ protectiveStop ctx config s (max s.highestClose bar.close)
      levels.initialAtr, stop ≤ levels.currentStop) →
        Outcome ctx config s bar (.ok ⟨s.observed bar, none⟩) := .held levels hlevels
  have hplain : (ManagedPositionState.postInit
      { s with highestClose := max s.highestClose bar.close
               lastEvaluatedAt := some bar.asOf }) = .ok (s.observed bar) :=
    (h.observed bar).postInit
  cases hstop : protectiveStop ctx config s (max s.highestClose bar.close) levels.initialAtr with
  | none =>
    simp only [keepHolding, hstop, ok_bind, hplain]
    exact hkept (by simp [hstop])
  | some stop =>
    by_cases hhigher : levels.currentStop < stop
    · have hpos : 0 < stop := (levels_valid h hlevels).2.2.trans hhigher
      by_cases hentry : bar.endsAt < s.entryAt
      · have hraise : raiseTrailingStop s stop bar.endsAt =
            .error "trailing stop effective_at must not precede entry_at" := by
          rw [raiseTrailingStop, if_neg (not_le.mpr hpos), if_pos hentry]
        simp only [keepHolding, hstop, hhigher, if_true, hraise, error_bind]
        exact .refused hcovered hentry
      · obtain ⟨history, current, hraise, hvalid, htimeline⟩ :=
          raiseTrailingStop_splices h hpos (not_lt.mp hentry) (covers_endsAt h hcovered)
        simp only [keepHolding, hstop, hhigher, if_true, hraise, ok_bind]
        rw [show ManagedPositionState.postInit
          { s.withLevels history current with
            highestClose := max s.highestClose bar.close
            lastEvaluatedAt := some bar.asOf } =
          .ok ((s.withLevels history current).observed bar) from (hvalid.observed bar).postInit]
        exact .raised levels stop history current hlevels hstop hvalid htimeline
    · simp only [keepHolding, hstop, hhigher, if_false, ok_bind, hplain]
      exact hkept (by simpa [hstop] using not_lt.mp hhigher)

theorem evaluateCovered_outcome :
    Outcome ctx config s bar
      (evaluateCovered ctx config s bar barsHeld trendIntact levels) := by
  have hexit (kind : ExitKind) (hkind : kind ≠ .partialSell) (price : Decimal)
      (reason : String) :
      Outcome ctx config s bar (exitFully s bar kind price reason levels) := by
    obtain ⟨exit, hok, rfl, hat⟩ := exitFully_ok bar h kind price reason levels
    rw [hok]
    exact .fullExit exit hcovered hkind hat
  simp only [evaluateCovered]
  split
  · exact hexit _ (by split <;> decide) _ _
  split
  · exact hexit _ (by split <;> decide) _ _
  split
  next hpart =>
    obtain ⟨exit, hok, hkind, hat⟩ := takePartial_ok ctx config bar h
      (ctx.add s.entryPrice (ctx.mul config.partialProfitAtr levels.initialAtr))
      levels
    rw [hok]
    exact .partialSell exit hcovered (by simpa using hpart.1) hkind hat
  split
  · exact hexit _ (by decide) _ _
  split
  · exact hexit _ (by decide) _ _
  · exact keepHolding_outcome h hlevels hcovered

end

variable (trendIntact) in
/-- An accepted bar the exit levels do not cover is passed over, every other one judged. -/
theorem evaluatePosition_of_accepts (haccepts : Accepts s bar barsHeld) :
    evaluatePosition ctx config s bar barsHeld trendIntact =
      if ¬ exitLevelsCoverObservation s bar.startsAt then
        (s.evaluatedAt bar.asOf).postInit >>= fun state => pure { state, signal := none }
      else exitLevelsForBar s bar >>=
        evaluateCovered ctx config s bar barsHeld trendIntact := by
  have hnewer : ¬ s.lastEvaluatedAt.any (fun last => bar.asOf ≤ last) = true := by
    cases hlast : s.lastEvaluatedAt with
    | none => simp
    | some last => simpa using haccepts.newer last hlast
  rw [evaluatePosition, if_neg (not_le.mpr haccepts.after_entry), if_neg hnewer,
    if_neg (not_lt.mpr haccepts.held)]

variable (trendIntact) in
theorem evaluatePosition_outcome (h : s.Valid) (haccepts : Accepts s bar barsHeld) :
    Outcome ctx config s bar (evaluatePosition ctx config s bar barsHeld trendIntact) := by
  rw [evaluatePosition_of_accepts trendIntact haccepts]
  by_cases hcovered : exitLevelsCoverObservation s bar.startsAt = true
  · obtain ⟨levels, hlevels⟩ := exists_exitLevelsForBar h hcovered
    rw [if_neg (not_not.mpr hcovered), hlevels, ok_bind]
    exact evaluateCovered_outcome h hlevels hcovered
  · rw [if_pos hcovered, (h.evaluatedAt bar.asOf).postInit, ok_bind]
    exact .uncovered hcovered

variable {e : PositionEvaluation}

theorem accepts_of_evaluatePosition
    (hok : evaluatePosition ctx config s bar barsHeld trendIntact = .ok e) :
    Accepts s bar barsHeld := by
  unfold evaluatePosition at hok
  split at hok
  · cases hok
  split at hok
  · cases hok
  split at hok
  · cases hok
  rename_i hentry hnewer hheld
  refine ⟨not_le.mp hentry, fun last hlast => ?_, not_lt.mp hheld⟩
  simpa [Option.mem_def.mp hlast] using hnewer

theorem exitFully_signals {kind : ExitKind} {price : Decimal} {reason : String}
    (hok : exitFully s bar kind price reason levels = .ok e) :
    e.signal.isSome := by
  obtain ⟨state, -, hok⟩ := bind_ok_iff.mp hok
  obtain ⟨exit, -, hok⟩ := bind_ok_iff.mp hok
  cases hok
  rfl

theorem quiet_passes_rules (hlevels : exitLevelsForBar s bar = .ok levels)
    (hcovered : exitLevelsCoverObservation s bar.startsAt)
    (hok : evaluatePosition ctx config s bar barsHeld trendIntact = .ok e)
    (hquiet : e.signal = none) :
    trendIntact = true ∧ ¬ (config.maxHoldingBars ≤ barsHeld ∧
      ctx.sub bar.close s.entryPrice < ctx.mul config.noProgressAtr levels.initialAtr) := by
  have hnone {kind : ExitKind} {price : Decimal} {reason : String}
      (hexit : exitFully s bar kind price reason levels = .ok e) : False := by
    simpa [hquiet] using exitFully_signals hexit
  have haccepts := accepts_of_evaluatePosition hok
  rw [evaluatePosition_of_accepts _ haccepts, if_neg (not_not.mpr hcovered), hlevels,
    ok_bind] at hok
  simp only [evaluateCovered] at hok
  split at hok
  · exact (hnone hok).elim
  split at hok
  · exact (hnone hok).elim
  split at hok
  · obtain ⟨state, -, hok⟩ := bind_ok_iff.mp hok
    obtain ⟨exit, -, hok⟩ := bind_ok_iff.mp hok
    cases hok
    cases hquiet
  split at hok
  · exact (hnone hok).elim
  split at hok
  · exact (hnone hok).elim
  next htrend htime => exact ⟨by simpa using htrend, htime⟩

end KAssetTrader.Position
