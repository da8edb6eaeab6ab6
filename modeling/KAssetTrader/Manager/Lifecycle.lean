import KAssetTrader.Manager.Tick
import KAssetTrader.Position.Run

/-!
The events that change a managed state under the position manager: a completed
daily bar, a partial exit proved by its recommendation, and a partial exit that
a single share cannot make. A tick is a sequence of such events, so what every
event keeps holds of a managed position over any sequence of ticks.
-/

namespace KAssetTrader.Manager

open Checked Position Timeline

inductive LifecycleEvent where
  | daily (o : Observation)
  | partialSucceeded (now : Instant)
  | partialImpossible (effectiveAt : Instant)

section Events

variable (ctx : Decimal.Context) (config : PositionManagerConfig)

def persistDaily (s : ManagedPositionState) (o : Observation) :
    Except String (PositionEvaluation × ManagedPositionState) := do
  let evaluation ← evaluatePosition ctx config s o.bar o.barsHeld o.trendIntact
  let state ← persistableState s evaluation.state (evaluation.signal.map (·.kind))
  return (evaluation, state)

/-- A partial exit that has succeeded: its floor holds from now on. -/
def completePartial (s : ManagedPositionState) (now : Instant) :
    Except String ManagedPositionState := do
  let completed ← { s with partialExitCompleted := true }.postInit
  raiseToFloor completed (partialFloor ctx config completed) now

def LifecycleEvent.apply (s : ManagedPositionState) :
    LifecycleEvent → Except String ManagedPositionState
  | .daily o => (persistDaily ctx config s o).map Prod.snd
  | .partialSucceeded now => completePartial ctx config s now
  | .partialImpossible effectiveAt => raiseToFloor s (partialFloor ctx config s) effectiveAt

def lifecycle (s : ManagedPositionState) :
    List LifecycleEvent → Except String ManagedPositionState
  | [] => .ok s
  | event :: rest => do
      let next ← event.apply ctx config s
      lifecycle next rest

end Events

section Invariant

variable {ctx : Decimal.Context} {config : PositionManagerConfig}
  {origin s s' : ManagedPositionState} {o : Observation} {evaluation : PositionEvaluation}

theorem raiseToFloor_managed {floor : Decimal} {t : Instant} (h : Managed origin s)
    (hok : raiseToFloor s floor t = .ok s') :
    Managed origin s' ∧ s.currentStop ≤ s'.currentStop ∧ floor ≤ s'.currentStop ∧
      s'.partialExitCompleted = s.partialExitCompleted := by
  unfold raiseToFloor at hok
  split at hok
  · obtain ⟨hcovered, history, current, rfl, hvalid, htimeline⟩ :=
      raiseTrailingStop_ok h.valid hok
    have hcurrent := congrArg ExitLevels.currentStop (withLevels_current h.valid hcovered htimeline)
    refine ⟨h.raised hcovered hvalid htimeline, ?_, ?_, rfl⟩
    · exact (le_max_left _ _).trans hcurrent.ge
    · exact (le_max_right _ _).trans hcurrent.ge
  next hfloor =>
    cases hok
    exact ⟨h, le_rfl, not_lt.mp hfloor, rfl⟩

theorem completePartial_managed {now : Instant} (h : Managed origin s)
    (hok : completePartial ctx config s now = .ok s') :
    Managed origin s' ∧ s.currentStop ≤ s'.currentStop ∧
      partialFloor ctx config s ≤ s'.currentStop ∧ s'.partialExitCompleted = true := by
  obtain ⟨completed, hcompleted, hok⟩ := bind_ok_iff.mp hok
  obtain rfl := ManagedPositionState.eq_of_postInit hcompleted
  obtain ⟨hmanaged, hstop, hfloor, hpart⟩ := raiseToFloor_managed (h.withPartial true) hok
  exact ⟨hmanaged, hstop, hfloor, hpart⟩

theorem persistableState_eq {kind : Option ExitKind}
    (hok : persistableState s evaluation.state kind = .ok s') :
    s' = evaluation.state ∨
      s.partialExitCompleted = false ∧
        s' = { evaluation.state with partialExitCompleted := false } := by
  unfold persistableState at hok
  split at hok
  next hpart => exact .inr ⟨hpart.2, (ManagedPositionState.eq_of_postInit hok).symm⟩
  · exact .inl (Except.ok.inj hok).symm

section

variable (h : Managed origin s) (horigin : origin.Valid)
include h horigin

theorem persistDaily_managed (hok : persistDaily ctx config s o = .ok (evaluation, s')) :
    Managed origin s' ∧ s.currentStop ≤ s'.currentStop := by
  obtain ⟨e, he, hok⟩ := bind_ok_iff.mp hok
  obtain ⟨state, hstate, hok⟩ := bind_ok_iff.mp hok
  cases hok
  obtain ⟨hmanaged, hstop, -⟩ := h.step horigin (accepts_of_evaluatePosition he) he
  rcases persistableState_eq hstate with rfl | ⟨-, rfl⟩
  · exact ⟨hmanaged, hstop⟩
  · exact ⟨hmanaged.withPartial false, hstop⟩

theorem apply_managed {event : LifecycleEvent} (hok : event.apply ctx config s = .ok s') :
    Managed origin s' ∧ s.currentStop ≤ s'.currentStop := by
  cases event with
  | daily o =>
    simp only [LifecycleEvent.apply] at hok
    cases hdaily : persistDaily ctx config s o with
    | error e => rw [hdaily] at hok; cases hok
    | ok result =>
      rw [hdaily] at hok
      cases hok
      exact persistDaily_managed h horigin hdaily
  | partialSucceeded now =>
    obtain ⟨hmanaged, hstop, -⟩ := completePartial_managed h hok
    exact ⟨hmanaged, hstop⟩
  | partialImpossible effectiveAt =>
    obtain ⟨hmanaged, hstop, -⟩ := raiseToFloor_managed h hok
    exact ⟨hmanaged, hstop⟩

theorem lifecycle_managed {events : List LifecycleEvent}
    (hrun : lifecycle ctx config s events = .ok s') :
    Managed origin s' ∧ s.currentStop ≤ s'.currentStop := by
  induction events generalizing s with
  | nil =>
    cases hrun
    exact ⟨h, le_rfl⟩
  | cons event rest ih =>
    obtain ⟨next, hnext, hrest⟩ := bind_ok_iff.mp hrun
    obtain ⟨hmanaged, hstop⟩ := apply_managed h horigin hnext
    obtain ⟨hfinal, hstops⟩ := ih hmanaged hrest
    exact ⟨hfinal, hstop.trans hstops⟩

end

theorem managed_stop_le (h : Managed origin s) {v : WithBot Instant × ExitLevels}
    (hv : v ∈ s.timeline) : v.2.currentStop ≤ s.currentStop := by
  have hrising := h.rising
  rw [timeline_eq] at hv hrising
  rcases List.mem_append.mp hv with hhistory | hcurrent
  · exact (List.pairwise_append.mp hrising).2.2 v hhistory s.currentVersion.entry (by simp)
  · rw [List.mem_singleton.mp hcurrent]
    exact le_rfl

theorem levels_mem_timeline {bar : PositionBar} {levels : ExitLevels}
    (hlevels : exitLevelsForBar s bar = .ok levels) : ∃ start, (start, levels) ∈ s.timeline := by
  rw [exitLevelsForBar_eq] at hlevels
  cases hinForce : inForce s.timeline (bar.startsAt : WithBot Instant) with
  | none => simp [hinForce] at hlevels
  | some found =>
    obtain rfl : found = levels := by simpa [hinForce] using hlevels
    obtain ⟨start, hmem, -⟩ := exists_of_inForce hinForce
    exact ⟨start, hmem⟩

def runnerProtection (ctx : Decimal.Context) (config : PositionManagerConfig)
    (s : ManagedPositionState) : Decimal :=
  max (partialFloor ctx config s)
    (ctx.sub s.highestClose (ctx.mul config.trailingStopAtr s.initialAtr))

theorem runner_protected (h : Managed origin s) (horigin : origin.Valid)
    (hpart : s.partialExitCompleted = true)
    (hcovered : exitLevelsCoverObservation s o.bar.startsAt)
    (hok : persistDaily ctx config s o = .ok (evaluation, s'))
    (hquiet : evaluation.exitsFully = false) :
    runnerProtection ctx config s' ≤ s'.currentStop ∧ o.trendIntact = true ∧
      ¬ (config.maxHoldingBars ≤ o.barsHeld ∧
        ctx.sub o.bar.close s.entryPrice < ctx.mul config.noProgressAtr s.initialAtr) := by
  obtain ⟨hfinal, -⟩ := persistDaily_managed h horigin hok
  obtain ⟨e, he, hok⟩ := bind_ok_iff.mp hok
  obtain ⟨state, hstate, hok⟩ := bind_ok_iff.mp hok
  obtain ⟨rfl, rfl⟩ := Prod.mk.inj (Except.ok.inj hok)
  obtain rfl : state = e.state := by
    rcases persistableState_eq hstate with heq | ⟨hnot, -⟩
    · exact heq
    · simp [hpart] at hnot
  obtain ⟨levels, hlevels⟩ := exists_exitLevelsForBar h.valid hcovered
  obtain ⟨start, hmem⟩ := levels_mem_timeline hlevels
  have hatr : levels.initialAtr = s.initialAtr :=
    (h.levels_kept _ hmem).1.trans h.current.1.symm
  have hstop : levels.currentStop ≤ s.currentStop := managed_stop_le h hmem
  have hprotective : protectiveStop ctx config s (max s.highestClose o.bar.close)
      levels.initialAtr = some (max (partialFloor ctx config s)
        (ctx.sub (max s.highestClose o.bar.close)
          (ctx.mul config.trailingStopAtr s.initialAtr))) := by
    simp [protectiveStop, hpart, hatr, partialFloor]
  have houtcome : Outcome ctx config s o.bar (.ok e) :=
    he ▸ evaluatePosition_outcome _ h.valid (accepts_of_evaluatePosition he)
  have hrules := quiet_passes_rules hlevels hcovered he
  rw [hatr] at hrules
  cases houtcome with
  | uncovered hnot => exact absurd hcovered hnot
  | fullExit exit _ hkind _ => simp [PositionEvaluation.exitsFully, hkind] at hquiet
  | partialSell exit _ hnot _ _ => simp [hpart] at hnot
  | held found hfound hbound =>
    cases hfound.symm.trans hlevels
    exact ⟨(hbound _ hprotective).trans hstop, hrules rfl⟩
  | raised found stop history current hfound hraised hvalid htimeline =>
    cases hfound.symm.trans hlevels
    have hends := covers_endsAt h.valid hcovered
    have hcurrent := congrArg ExitLevels.currentStop (withLevels_current h.valid hends htimeline)
    have hkept : current.initialAtr = s.initialAtr := hfinal.current.1.trans h.current.1.symm
    cases hprotective.symm.trans hraised
    refine ⟨?_, hrules rfl⟩
    change max (ctx.add s.entryPrice (ctx.mul config.postPartialFloorAtr current.initialAtr))
      (ctx.sub (max s.highestClose o.bar.close)
        (ctx.mul config.trailingStopAtr current.initialAtr)) ≤ current.currentStop
    rw [hkept]
    exact (le_max_right _ _).trans hcurrent.ge

theorem asking_partial_keeps (hvalid : s.Valid)
    (hok : persistDaily ctx config s o = .ok (evaluation, s'))
    (hkind : evaluation.signal.map (·.kind) = some .partialSell) :
    s'.currentStop = s.currentStop ∧ s'.partialExitCompleted = false := by
  obtain ⟨e, he, hok⟩ := bind_ok_iff.mp hok
  obtain ⟨state, hstate, hok⟩ := bind_ok_iff.mp hok
  obtain ⟨rfl, rfl⟩ := Prod.mk.inj (Except.ok.inj hok)
  have houtcome : Outcome ctx config s o.bar (.ok e) :=
    he ▸ evaluatePosition_outcome _ hvalid (accepts_of_evaluatePosition he)
  cases houtcome with
  | uncovered => cases hkind
  | fullExit exit _ hnot _ => exact absurd (Option.some.inj hkind) hnot
  | partialSell exit _ hpart _ _ =>
    unfold persistableState at hstate
    rw [if_pos ⟨hkind, hpart⟩] at hstate
    obtain rfl := ManagedPositionState.eq_of_postInit hstate
    exact ⟨rfl, rfl⟩
  | held => cases hkind
  | raised => cases hkind

theorem sizeExit_one_share {service : PositionManagerService} {now : Instant}
    {holding : Holding} {input : TickInput} {exit : PositionExitSignal} {horizon : Horizon}
    {sized : Sized} (h : Managed origin s) (hmarket : holding.market = .krx)
    (hquantity : input.quantity = 1) (hkind : exit.kind = .partialSell)
    (hnone : quantityForSignal service.ctx .krx 1 exit.quantityFraction ≤ 0)
    (hok : sizeExit service now holding input s exit horizon = .ok sized) :
    partialFloor service.ctx service.config s ≤ sized.state.currentStop := by
  unfold sizeExit at hok
  rw [hmarket, hquantity] at hok
  rw [if_pos ⟨hnone, rfl, rfl, hkind⟩] at hok
  obtain ⟨raised, hraised, hok⟩ := bind_ok_iff.mp hok
  have hfloor := (raiseToFloor_managed h hraised).2.2.1
  cases hintraday : input.intraday with
  | none =>
    rw [hintraday] at hok
    cases hok
    exact hfloor
  | some intraday =>
    rw [hintraday] at hok
    obtain ⟨followUp, -, hok⟩ := bind_ok_iff.mp hok
    cases followUp with
    | none =>
      cases hok
      exact hfloor
    | some later =>
      simp only at hok
      split at hok
      · cases hok
        exact hfloor
      · cases hok
        exact hfloor

end Invariant

variable {service : PositionManagerService} {market : Market} {symbol : String}
  {entryPrice initialAtr : Decimal} {entryAt : Instant} {strategyVersion : String}
  {positionCycleId : Option ℤ} {effectiveAt : Option Instant} {strategyStop : Option Decimal}
  {origin s : ManagedPositionState} {events : List LifecycleEvent}

/-- The protection of a managed position over its life. A runner, whose partial
exit has been executed, is protected after every covered bar that does not exit
it and keeps being judged by the trend and the time rule; the floor holds once
the partial exit has succeeded or proved impossible for a single share; no
event lowers the stop; and a bar that only asks for the partial exit leaves it
as it is. -/
theorem managed_protection
    (hinit : initializePosition service.ctx service.config market symbol entryPrice initialAtr
      entryAt strategyVersion positionCycleId effectiveAt strategyStop = .ok origin)
    (hrun : lifecycle service.ctx service.config origin events = .ok s) :
    (∀ o evaluation s',
      persistDaily service.ctx service.config s o = .ok (evaluation, s') →
      evaluation.exitsFully = false → s.partialExitCompleted = true →
      exitLevelsCoverObservation s o.bar.startsAt →
        max (service.ctx.add entryPrice
              (service.ctx.mul service.config.postPartialFloorAtr initialAtr))
            (service.ctx.sub s'.highestClose
              (service.ctx.mul service.config.trailingStopAtr initialAtr)) ≤ s'.currentStop ∧
        o.trendIntact = true ∧
        ¬ (service.config.maxHoldingBars ≤ o.barsHeld ∧
          service.ctx.sub o.bar.close entryPrice <
            service.ctx.mul service.config.noProgressAtr initialAtr)) ∧
    (∀ now s', completePartial service.ctx service.config s now = .ok s' →
      service.ctx.add entryPrice
        (service.ctx.mul service.config.postPartialFloorAtr initialAtr) ≤ s'.currentStop) ∧
    (∀ now holding input exit horizon sized, holding.market = .krx → input.quantity = 1 →
      exit.kind = .partialSell →
      quantityForSignal service.ctx .krx 1 exit.quantityFraction ≤ 0 →
      sizeExit service now holding input s exit horizon = .ok sized →
        service.ctx.add entryPrice
          (service.ctx.mul service.config.postPartialFloorAtr initialAtr) ≤
            sized.state.currentStop) ∧
    (∀ event s', LifecycleEvent.apply service.ctx service.config s event = .ok s' →
      s.currentStop ≤ s'.currentStop) ∧
    (∀ o evaluation s', persistDaily service.ctx service.config s o = .ok (evaluation, s') →
      evaluation.signal.map (·.kind) = some .partialSell →
        s'.currentStop = s.currentStop ∧ s'.partialExitCompleted = false) := by
  obtain ⟨horigin, -, -, -, hprice, -, hatr, -⟩ := initializePosition_spec hinit
  obtain ⟨h, -⟩ := lifecycle_managed (initializePosition_managed hinit) horigin hrun
  have hentry : s.entryPrice = entryPrice := h.entry_kept.1.trans hprice
  have hinitial : s.initialAtr = initialAtr := h.current.1.trans hatr
  have hfloor : partialFloor service.ctx service.config s = service.ctx.add entryPrice
      (service.ctx.mul service.config.postPartialFloorAtr initialAtr) := by
    rw [partialFloor, hentry, hinitial]
  refine ⟨?_, ?_, ?_, fun event s' hok => (apply_managed h horigin hok).2,
    fun o evaluation s' hok hkind => asking_partial_keeps h.valid hok hkind⟩
  · intro o evaluation s' hok hquiet hpart hcovered
    obtain ⟨hfinal, -⟩ := persistDaily_managed h horigin hok
    have hprotected := runner_protected h horigin hpart hcovered hok hquiet
    rw [runnerProtection, partialFloor, hfinal.entry_kept.1.trans hprice,
      hfinal.current.1.trans hatr, hentry, hinitial] at hprotected
    exact hprotected
  · intro now s' hok
    exact hfloor ▸ (completePartial_managed h hok).2.2.1
  · intro now holding input exit horizon sized hmarket hquantity hkind hnone hok
    exact hfloor ▸ sizeExit_one_share h hmarket hquantity hkind hnone hok

/-- A service in exact arithmetic with the default configuration, for a market
whose sessions last from the fourteenth to the twenty-first hour. -/
def exactService : PositionManagerService where
  ctx := .exact
  config := default
  sessionBounds := fun _ d =>
    some (d * day + 14 * 60 * minute, d * day + 21 * 60 * minute)
  sentence := fun
    | .text sentence => sentence
    | .partialTarget _ _ _ => "partial target"
  strategyKey := "breakout"
  strategyVersion := "v1"
  strategyFingerprint := String.ofList (List.replicate 64 'a')

/-- A position that rises until its first partial sell, which is executed. -/
theorem managed_protection_openedAt :
    ∃ s s', lifecycle .exact default (openedAt 0)
        ((risingBars 1 2 one_le_two_us).map LifecycleEvent.daily) = .ok s ∧
      completePartial .exact default s 10 = .ok s' ∧ (100 : Decimal) ≤ s'.currentStop := by
  have hinit : initializePosition exactService.ctx exactService.config .us "AAPL" 100 10 0 "v1"
      (some 1) none none = .ok (openedAt 0) := by decide +kernel
  have hok : (lifecycle .exact default (openedAt 0)
      ((risingBars 1 2 one_le_two_us).map LifecycleEvent.daily) >>= fun s =>
        completePartial .exact default s 10).isOk = true := by decide +kernel
  cases hrun : lifecycle .exact default (openedAt 0)
      ((risingBars 1 2 one_le_two_us).map LifecycleEvent.daily) with
  | error e => rw [hrun] at hok; cases hok
  | ok s =>
    rw [hrun, ok_bind] at hok
    cases hpart : completePartial .exact default s 10 with
    | error e => rw [hpart] at hok; cases hok
    | ok s' =>
      have hfloor := (managed_protection hinit hrun).2.1 10 s' hpart
      refine ⟨s, s', rfl, hpart, ?_⟩
      simpa [exactService, default] using hfloor

/-- A partial exit that stays unexecuted: two bars reach its target, and the
stop is still the initial one, below the protection of their closes. -/
theorem unexecuted_partial_unprotected :
    ∃ s, lifecycle .exact default (openedAt 0)
        ((risingBars 1 2 one_le_two_us).map LifecycleEvent.daily) = .ok s ∧
      s.currentStop = 80 ∧ s.highestClose = 105 ∧
      ¬ max (100 + 0 * 10) (s.highestClose - 3 * 10) ≤ s.currentStop := by
  have hfinal : (lifecycle .exact default (openedAt 0)
      ((risingBars 1 2 one_le_two_us).map LifecycleEvent.daily)).toOption.map
        (fun s => (s.currentStop, s.highestClose)) = some (80, 105) := by decide +kernel
  cases hrun : lifecycle .exact default (openedAt 0)
      ((risingBars 1 2 one_le_two_us).map LifecycleEvent.daily) with
  | error e => rw [hrun] at hfinal; cases hfinal
  | ok s =>
    rw [hrun] at hfinal
    obtain ⟨hstop, hclose⟩ := Prod.mk.inj (Option.some.inj hfinal)
    refine ⟨s, rfl, hstop, hclose, ?_⟩
    rw [hstop, hclose]
    norm_num

end KAssetTrader.Manager
