import KAssetTrader.Position.Evaluate

/-!
A position over its whole life: the accepted bars evaluated one after the
other until the first signal for the whole position. The invariant relates
every state of the run to the state it was opened with.
-/

namespace KAssetTrader.Position

open ManagedPositionState Timeline

structure Observation where
  bar : PositionBar
  barsHeld : ℤ
  trendIntact : Bool

/-- Evaluate the observations in order; the first full exit ends the run. -/
def runPosition (ctx : Decimal.Context) (config : PositionManagerConfig) :
    ManagedPositionState → List Observation → Except String (List PositionEvaluation)
  | _, [] => .ok []
  | s, o :: rest => do
      let evaluation ← evaluatePosition ctx config s o.bar o.barsHeld o.trendIntact
      if evaluation.exitsFully then return [evaluation]
      else
        let later ← runPosition ctx config evaluation.state rest
        return evaluation :: later

/-- Every observation that the run comes to passes the input checks. -/
def Accepted (ctx : Decimal.Context) (config : PositionManagerConfig) :
    ManagedPositionState → List Observation → Prop
  | _, [] => True
  | s, o :: rest =>
    Accepts s o.bar o.barsHeld ∧
      ∀ evaluation,
        evaluatePosition ctx config s o.bar o.barsHeld o.trendIntact = .ok evaluation →
        evaluation.exitsFully = false → Accepted ctx config evaluation.state rest

instance decidableAccepts (s : ManagedPositionState) (bar : PositionBar) (barsHeld : ℤ) :
    Decidable (Accepts s bar barsHeld) :=
  decidable_of_iff (s.entryAt < bar.asOf ∧
      (∀ last ∈ s.lastEvaluatedAt, last < bar.asOf) ∧ 1 ≤ barsHeld)
    ⟨fun ⟨hentry, hnewer, hheld⟩ => ⟨hentry, hnewer, hheld⟩,
      fun h => ⟨h.after_entry, h.newer, h.held⟩⟩

instance decidableAccepted (ctx : Decimal.Context) (config : PositionManagerConfig)
    (s : ManagedPositionState) :
    (observations : List Observation) → Decidable (Accepted ctx config s observations)
  | [] => isTrue trivial
  | o :: rest =>
    match hok : evaluatePosition ctx config s o.bar o.barsHeld o.trendIntact with
    | .error _ =>
      decidable_of_iff (Accepts s o.bar o.barsHeld) (by
        simp only [Accepted, hok]
        exact ⟨fun h => ⟨h, fun _ heq => by cases heq⟩, And.left⟩)
    | .ok evaluation =>
      have := decidableAccepted ctx config evaluation.state rest
      decidable_of_iff (Accepts s o.bar o.barsHeld ∧
          (evaluation.exitsFully = false → Accepted ctx config evaluation.state rest)) (by
        simp only [Accepted, hok, Except.ok.injEq]
        exact ⟨fun h => ⟨h.1, fun _ heq => heq ▸ h.2⟩, fun h => ⟨h.1, h.2 evaluation rfl⟩⟩)

/-- The closes that a run takes into account: of the bars that the levels of
`origin` cover, unless the bar ends the run. -/
def heldCloses (origin : ManagedPositionState) (observations : List Observation)
    (evaluations : List PositionEvaluation) : List Decimal :=
  ((observations.zip evaluations).filter (fun p =>
    exitLevelsCoverObservation origin p.1.bar.startsAt && !p.2.exitsFully)).map
      (·.1.bar.close)

variable {ctx : Decimal.Context} {origin s : ManagedPositionState} {config : PositionManagerConfig}

section Invariant

variable {o : Observation} {evaluation : PositionEvaluation}

structure Managed (origin s : ManagedPositionState) : Prop where
  valid : s.Valid
  rising : Rising (·.currentStop) s.timeline
  levels_kept : ∀ v ∈ s.timeline, v.2.initialAtr = origin.initialAtr ∧
    v.2.initialStop = origin.initialStop ∧ v.2.initialStop ≤ v.2.currentStop
  covers_iff : ∀ k, Covers s.timeline k ↔ Covers origin.timeline k
  entry_kept : s.entryPrice = origin.entryPrice ∧ s.entryAt = origin.entryAt
  identity_kept : s.market = origin.market ∧ s.symbol = origin.symbol ∧
    s.strategyVersion = origin.strategyVersion ∧ s.positionCycleId = origin.positionCycleId

theorem currentVersion_mem (s : ManagedPositionState) : s.currentVersion.entry ∈ s.timeline := by
  simp [timeline_eq]

section

variable (h : Managed origin s)
include h

theorem Managed.current :
    s.initialAtr = origin.initialAtr ∧ s.initialStop = origin.initialStop ∧
      s.initialStop ≤ s.currentStop :=
  h.levels_kept _ (currentVersion_mem s)

theorem Managed.evaluatedAt (asOf : Instant) :
    Managed origin (s.evaluatedAt asOf) :=
  ⟨h.valid.evaluatedAt asOf, h.rising, h.levels_kept, h.covers_iff, h.entry_kept,
    h.identity_kept⟩

theorem Managed.observed (bar : PositionBar) :
    Managed origin (s.observed bar) :=
  ⟨h.valid.observed bar, h.rising, h.levels_kept, h.covers_iff, h.entry_kept,
    h.identity_kept⟩

theorem Managed.withPartial (completed : Bool) :
    Managed origin { s with partialExitCompleted := completed } :=
  ⟨h.valid.withPartial completed, h.rising, h.levels_kept, h.covers_iff, h.entry_kept,
    h.identity_kept⟩

theorem Managed.raised {r : Decimal} {t : Instant} {history : List ExitLevelVersion}
    {current : ExitLevelVersion} (hcovered : Covers s.timeline (t : WithBot Instant))
    (hvalid : (s.withLevels history current).Valid)
    (htimeline : (s.withLevels history current).timeline = splice (t : WithBot Instant)
      (ExitLevels.raiseTo r) s.timeline) :
    Managed origin (s.withLevels history current) where
  valid := hvalid
  rising := by
    rw [htimeline]
    exact splice_rising h.valid.timeline_ordered hcovered h.rising
      (fun levels => le_max_left levels.currentStop r) (fun _ _ hab => max_le_max_right r hab)
  levels_kept := by
    rw [htimeline]
    refine forall_splice (P := fun l : ExitLevels => l.initialAtr = origin.initialAtr ∧
      l.initialStop = origin.initialStop ∧ l.initialStop ≤ l.currentStop) _
      h.valid.timeline_ordered hcovered h.levels_kept ?_
    rintro levels ⟨hatr, hinit, hfloor⟩
    exact ⟨hatr, hinit, hfloor.trans (le_max_left _ _)⟩
  covers_iff k := by
    rw [htimeline, covers_splice_iff _ h.valid.timeline_ordered hcovered, h.covers_iff]
  entry_kept := h.entry_kept
  identity_kept := h.identity_kept

theorem Managed.covers_observation (horigin : origin.Valid) (t : Instant) :
    exitLevelsCoverObservation s t = exitLevelsCoverObservation origin t := by
  rw [Bool.eq_iff_iff, exitLevelsCoverObservation_iff h.valid,
    exitLevelsCoverObservation_iff horigin, h.covers_iff]

end

def nextHighestClose (origin s : ManagedPositionState) (bar : PositionBar)
    (evaluation : PositionEvaluation) : Decimal :=
  if exitLevelsCoverObservation origin bar.startsAt && !evaluation.exitsFully then
    max s.highestClose bar.close
  else s.highestClose

variable (h : Managed origin s) (horigin : origin.Valid) (haccepts : Accepts s o.bar o.barsHeld)
include h horigin haccepts

/-- One evaluation keeps the position managed and never lowers its stop. -/
theorem Managed.step
    (hok : evaluatePosition ctx config s o.bar o.barsHeld o.trendIntact = .ok evaluation) :
    Managed origin evaluation.state ∧ s.currentStop ≤ evaluation.state.currentStop ∧
      evaluation.state.highestClose = nextHighestClose origin s o.bar evaluation := by
  have hcover := h.covers_observation horigin o.bar.startsAt
  have houtcome : Outcome ctx config s o.bar (.ok evaluation) :=
    hok ▸ evaluatePosition_outcome o.trendIntact h.valid haccepts
  have hlooked {levels : ExitLevels} (hlevels : exitLevelsForBar s o.bar = .ok levels) :
      exitLevelsCoverObservation s o.bar.startsAt := by
    by_contra hnot
    have hnone := mt (exitLevelsCoverObservation_iff h.valid _).mpr hnot
    rw [← inForce_isSome_iff, Option.not_isSome_iff_eq_none] at hnone
    simp [exitLevelsForBar_eq, hnone] at hlevels
  cases houtcome with
  | uncovered hnot =>
    refine ⟨h.evaluatedAt _, le_rfl, ?_⟩
    rw [hcover] at hnot
    simp [nextHighestClose, hnot, ManagedPositionState.evaluatedAt]
  | fullExit exit hcovered hkind _ =>
    refine ⟨h.evaluatedAt _, le_rfl, ?_⟩
    simp [nextHighestClose, PositionEvaluation.exitsFully, hkind,
      ManagedPositionState.evaluatedAt]
  | partialSell exit hcovered _ hkind _ =>
    refine ⟨(h.observed _).withPartial true, le_rfl, ?_⟩
    rw [hcover] at hcovered
    simp [nextHighestClose, PositionEvaluation.exitsFully, hkind, hcovered,
      ManagedPositionState.observed]
  | held levels hlevels _ =>
    refine ⟨h.observed _, le_rfl, ?_⟩
    have hcovered := hlooked hlevels
    rw [hcover] at hcovered
    simp [nextHighestClose, PositionEvaluation.exitsFully, hcovered,
      ManagedPositionState.observed]
  | raised levels stop history current hlevels _ hvalid htimeline =>
    have hcovered := hlooked hlevels
    have hends := covers_endsAt h.valid hcovered
    have hcurrent := withLevels_current h.valid hends htimeline
    refine ⟨(h.raised hends hvalid htimeline).observed _, ?_, ?_⟩
    · change s.currentStop ≤ current.currentStop
      rw [hcurrent]
      exact le_max_left _ _
    · rw [hcover] at hcovered
      simp [nextHighestClose, PositionEvaluation.exitsFully, hcovered,
        ManagedPositionState.observed, ManagedPositionState.withLevels]

theorem Managed.step_error {error : String}
    (herror : evaluatePosition ctx config s o.bar o.barsHeld o.trendIntact = .error error) :
    error = "trailing stop effective_at must not precede entry_at" ∧
      exitLevelsCoverObservation origin o.bar.startsAt ∧ o.bar.endsAt < origin.entryAt := by
  have houtcome : Outcome ctx config s o.bar (.error error) :=
    herror ▸ evaluatePosition_outcome o.trendIntact h.valid haccepts
  cases houtcome with
  | refused hcovered hentry =>
    rw [h.covers_observation horigin] at hcovered
    rw [h.entry_kept.2] at hentry
    exact ⟨rfl, hcovered, hentry⟩

end Invariant

section Runs

variable {observations : List Observation} {evaluations : List PositionEvaluation}

def visited (s : ManagedPositionState) (evaluations : List PositionEvaluation) :
    List ManagedPositionState :=
  s :: evaluations.map (·.state)

def finalState (s : ManagedPositionState) (evaluations : List PositionEvaluation) :
    ManagedPositionState :=
  (evaluations.map (·.state)).getLastD s

theorem heldCloses_cons (o : Observation) (rest : List Observation)
    (evaluation : PositionEvaluation) (later : List PositionEvaluation) (start : Decimal) :
    (heldCloses origin (o :: rest) (evaluation :: later)).foldl max start =
      (heldCloses origin rest later).foldl max
        (if exitLevelsCoverObservation origin o.bar.startsAt && !evaluation.exitsFully then
          max start o.bar.close
        else start) := by
  by_cases hheld :
      (exitLevelsCoverObservation origin o.bar.startsAt && !evaluation.exitsFully) = true <;>
    simp [heldCloses, hheld]

variable (horigin : origin.Valid) (h : Managed origin s)
  (haccepted : Accepted ctx config s observations)
include horigin h haccepted

/-- The invariant holds along a whole run, the current stop never falls, and
the highest close follows the closes taken into account. -/
theorem run_managed (hrun : runPosition ctx config s observations = .ok evaluations) :
    (∀ state ∈ visited s evaluations, Managed origin state) ∧
      (visited s evaluations).Pairwise (fun a b => a.currentStop ≤ b.currentStop) ∧
      (finalState s evaluations).highestClose =
        (heldCloses origin observations evaluations).foldl max s.highestClose := by
  induction observations generalizing s evaluations with
  | nil =>
    obtain rfl : [] = evaluations := by simpa [runPosition] using hrun
    exact ⟨by simpa [visited] using h, by simp [visited], rfl⟩
  | cons o rest ih =>
    obtain ⟨haccepts, hrest⟩ := haccepted
    obtain ⟨evaluation, hevaluation, hrun⟩ := Checked.bind_ok_iff.mp hrun
    obtain ⟨hmanaged, hstop, hhighest⟩ := h.step horigin haccepts hevaluation
    cases hfull : evaluation.exitsFully with
    | true =>
      rw [hfull] at hrun
      obtain rfl : [evaluation] = evaluations := Except.ok.inj hrun
      refine ⟨by simpa [visited] using ⟨h, hmanaged⟩, by simpa [visited] using hstop, ?_⟩
      simp [finalState, heldCloses, hfull, hhighest, nextHighestClose]
    | false =>
      rw [hfull] at hrun
      obtain ⟨later, hlater, hrun⟩ := Checked.bind_ok_iff.mp hrun
      obtain rfl : evaluation :: later = evaluations := Except.ok.inj hrun
      obtain ⟨hall, hrise, hclose⟩ :=
        ih hmanaged (hrest evaluation hevaluation hfull) hlater
      refine ⟨?_, ?_, ?_⟩
      · intro state hstate
        rcases List.mem_cons.mp hstate with rfl | hstate
        · exact h
        · exact hall state hstate
      · refine List.pairwise_cons.mpr ⟨fun state hstate => ?_, hrise⟩
        rcases List.mem_cons.mp hstate with rfl | hstate
        · exact hstop
        · exact hstop.trans ((List.pairwise_cons.mp hrise).1 state hstate)
      · rw [heldCloses_cons]
        have hfinal : finalState s (evaluation :: later) =
            finalState evaluation.state later := by
          rw [finalState, List.map_cons, List.getLastD_cons, finalState]
        rw [hfinal, hclose, hhighest]
        rfl

theorem run_error {error : String} (hrun : runPosition ctx config s observations = .error error) :
    error = "trailing stop effective_at must not precede entry_at" ∧
      ∃ o ∈ observations, exitLevelsCoverObservation origin o.bar.startsAt ∧
        o.bar.endsAt < origin.entryAt := by
  induction observations generalizing s with
  | nil => cases hrun
  | cons o rest ih =>
    obtain ⟨haccepts, hrest⟩ := haccepted
    cases hevaluation : evaluatePosition ctx config s o.bar o.barsHeld o.trendIntact with
    | error e =>
      obtain ⟨hmessage, hcovered, hends⟩ := h.step_error horigin haccepts hevaluation
      rw [runPosition, hevaluation, Checked.error_bind] at hrun
      obtain rfl : e = error := Except.error.inj hrun
      exact ⟨hmessage, o, List.mem_cons_self, hcovered, hends⟩
    | ok evaluation =>
      rw [runPosition, hevaluation, Checked.ok_bind] at hrun
      cases hfull : evaluation.exitsFully with
      | true =>
        rw [hfull] at hrun
        cases hrun
      | false =>
        rw [hfull] at hrun
        cases hlater : runPosition ctx config evaluation.state rest with
        | ok later =>
          rw [hlater] at hrun
          cases hrun
        | error e =>
          rw [hlater] at hrun
          obtain rfl : e = error := Except.error.inj hrun
          obtain ⟨hmessage, o', ho', hcovered, hends⟩ :=
            ih (h.step horigin haccepts hevaluation).1
              (hrest evaluation hevaluation hfull) hlater
          exact ⟨hmessage, o', List.mem_cons_of_mem o ho', hcovered, hends⟩

end Runs

variable {market : Market} {symbol : String} {entryPrice initialAtr : Decimal} {entryAt : Instant}
  {strategyVersion : String} {positionCycleId : Option ℤ} {effectiveAt : Option Instant}
  {strategyStop : Option Decimal} {origin : ManagedPositionState}

section

variable
  (hinit : initializePosition ctx config market symbol entryPrice initialAtr entryAt
      strategyVersion positionCycleId effectiveAt strategyStop = .ok origin)
include hinit

theorem initializePosition_spec :
    origin.Valid ∧ origin.exitLevelHistory = [] ∧
      origin.exitLevelsEffectiveAt = some (effectiveAt.getD entryAt) ∧
      origin.currentStop = origin.initialStop ∧ origin.entryPrice = entryPrice ∧
      origin.entryAt = entryAt ∧ origin.initialAtr = initialAtr ∧
      origin.highestClose = entryPrice := by
  simp only [initializePosition] at hinit
  split at hinit
  · cases hinit
  split at hinit
  · cases hinit
  split at hinit
  · cases hinit
  obtain rfl := eq_of_postInit hinit
  refine ⟨(postInit_ok_iff _ (by simp)).mp hinit, ?_⟩
  exact ⟨rfl, rfl, rfl, rfl, rfl, rfl, rfl⟩

theorem initializePosition_managed :
    Managed origin origin := by
  obtain ⟨hvalid, hhistory, -, hstop, -, -, -, -⟩ := initializePosition_spec hinit
  have htimeline : origin.timeline = [origin.currentVersion.entry] := by
    simp [timeline_eq, hhistory]
  refine ⟨hvalid, by simp [htimeline, Rising], ?_, fun _ => Iff.rfl, ⟨rfl, rfl⟩,
    rfl, rfl, rfl, rfl⟩
  intro v hv
  rw [htimeline, List.mem_singleton] at hv
  subst hv
  exact ⟨rfl, rfl, hstop.ge⟩

theorem initializePosition_covers (t : Instant) :
    exitLevelsCoverObservation origin t ↔ effectiveAt.getD entryAt ≤ t := by
  obtain ⟨-, hhistory, heffective, -⟩ := initializePosition_spec hinit
  simp [exitLevelsCoverObservation, hhistory, heffective]

end

/-- A position over its life. The only internal check a run can fail is that a
raise may not start before the entry, on a covered bar that ends before it; the
stop never falls, nor below the initial stop, the stored versions stay in order
with stops that never fall, and the entry and initial levels are kept. -/
theorem initialized_run {observations : List Observation}
    (hinit : initializePosition ctx config market symbol entryPrice initialAtr entryAt
      strategyVersion positionCycleId effectiveAt strategyStop = .ok origin)
    (haccepted : Accepted ctx config origin observations) :
    (∀ error, runPosition ctx config origin observations = .error error →
      error = "trailing stop effective_at must not precede entry_at" ∧
        ∃ o ∈ observations, effectiveAt.getD entryAt ≤ o.bar.startsAt ∧
          o.bar.endsAt < entryAt) ∧
    (∀ evaluations, runPosition ctx config origin observations = .ok evaluations →
      (visited origin evaluations).Pairwise (fun a b => a.currentStop ≤ b.currentStop) ∧
      (∀ s ∈ visited origin evaluations,
        s.Valid ∧ s.initialStop ≤ s.currentStop ∧
        (starts s.versions).Pairwise (· < ·) ∧
        (s.versions.map (·.currentStop)).Pairwise (· ≤ ·) ∧
        s.entryPrice = entryPrice ∧ s.entryAt = entryAt ∧ s.initialAtr = initialAtr ∧
        s.initialStop = origin.initialStop ∧ s.market = origin.market ∧
        s.symbol = origin.symbol ∧ s.strategyVersion = origin.strategyVersion ∧
        s.positionCycleId = origin.positionCycleId) ∧
      (finalState origin evaluations).highestClose =
        (heldCloses origin observations evaluations).foldl max entryPrice) := by
  obtain ⟨hvalid, -, -, -, hprice, hat, hatr, hhighest⟩ := initializePosition_spec hinit
  have hmanaged := initializePosition_managed hinit
  refine ⟨fun error herror => ?_, fun evaluations hrun => ?_⟩
  · obtain ⟨hmessage, o, ho, hcovered, hends⟩ := run_error hvalid hmanaged haccepted herror
    exact ⟨hmessage, o, ho, (initializePosition_covers hinit _).mp hcovered, hat ▸ hends⟩
  · obtain ⟨hall, hstops, hclose⟩ := run_managed hvalid hmanaged haccepted hrun
    refine ⟨hstops, fun s hs => ?_, hhighest ▸ hclose⟩
    have h := hall s hs
    have hrising : (s.versions.map (·.currentStop)).Pairwise (· ≤ ·) := by
      have hr := h.rising
      rw [Rising, timeline, List.pairwise_map] at hr
      exact List.pairwise_map.mpr hr
    exact ⟨h.valid, h.current.2.2, h.valid.ordered, hrising, h.entry_kept.1.trans hprice,
      h.entry_kept.2.trans hat, h.current.1.trans hatr, h.current.2.1, h.identity_kept⟩

def openedAt (effectiveAt : Instant) : ManagedPositionState where
  market := .us
  symbol := "AAPL"
  entryPrice := 100
  initialAtr := 10
  initialStop := 80
  currentStop := 80
  highestClose := 100
  partialExitCompleted := false
  entryAt := 0
  lastEvaluatedAt := none
  strategyVersion := "v1"
  positionCycleId := some 1
  exitLevelsEffectiveAt := some effectiveAt
  exitLevelHistory := []

/-- A rise to the partial target, and then a close that justifies a higher stop,
the second bar ending at `endsAt`. -/
def risingBars (startsAt endsAt : Instant) (h : startsAt ≤ endsAt) : List Observation :=
  [{ bar := { asOf := 5, openPrice := 100, high := 106, low := 95, close := 104
              startsAt, endsAt, starts_le_ends := h }
     barsHeld := 1, trendIntact := true },
   { bar := { asOf := 6, openPrice := 104, high := 106, low := 101, close := 105
              startsAt, endsAt, starts_le_ends := h }
     barsHeld := 2, trendIntact := true }]

theorem one_le_two_us : (1 : Instant) ≤ 2 := by decide

/-- A bar that starts before the levels took effect closes at 120. -/
def uncoveredRise : Observation where
  bar := { asOf := 4, openPrice := 100, high := 120, low := 100, close := 120, startsAt := -2
           endsAt := 4 }
  barsHeld := 1
  trendIntact := true

/-- A position and two bars that rise. -/
theorem initialized_run_openedAt :
    initializePosition .exact default .us "AAPL" 100 10 0 "v1" (some 1) none none =
        .ok (openedAt 0) ∧
      ∃ evaluations, runPosition .exact default (openedAt 0) (risingBars 1 2 one_le_two_us) =
        .ok evaluations ∧
      (visited (openedAt 0) evaluations).Pairwise (fun a b => a.currentStop ≤ b.currentStop) := by
  have hinit : initializePosition .exact default .us "AAPL" 100 10 0 "v1" (some 1) none none =
      .ok (openedAt 0) := by decide +kernel
  have hok : (runPosition .exact default (openedAt 0) (risingBars 1 2 one_le_two_us)).isOk =
    true := by
    decide +kernel
  refine ⟨hinit, ?_⟩
  cases hrun : runPosition .exact default (openedAt 0) (risingBars 1 2 one_le_two_us) with
  | error error => rw [hrun] at hok; cases hok
  | ok evaluations =>
    exact ⟨evaluations, rfl, ((initialized_run hinit (show Accepted .exact default (openedAt 0)
      (risingBars 1 2 one_le_two_us) by decide +kernel)).2 evaluations hrun).1⟩

/-- Levels effective before the entry let a bar that ends before it reach the
trailing raise, which refuses; a bar that is not covered leaves the highest
close behind, and the history holds the levels before the current ones. -/
theorem initialized_run_can_fail :
    (initializePosition .exact default .us "AAPL" 100 10 0 "v1" (some 1) (some (-10)) none =
        .ok (openedAt (-10)) ∧
      Accepted .exact default (openedAt (-10)) (risingBars (-5) (-3) (by decide)) ∧
      runPosition .exact default (openedAt (-10)) (risingBars (-5) (-3) (by decide)) =
        .error "trailing stop effective_at must not precede entry_at") ∧
    (initializePosition .exact default .us "AAPL" 100 10 0 "v1" (some 1) none none =
        .ok (openedAt 0) ∧
      Accepted .exact default (openedAt 0) (uncoveredRise :: risingBars 1 2 one_le_two_us) ∧
      ∃ evaluations,
        runPosition .exact default (openedAt 0) (uncoveredRise :: risingBars 1 2 one_le_two_us) =
          .ok evaluations ∧
        (finalState (openedAt 0) evaluations).highestClose = 105 ∧
        ((finalState (openedAt 0) evaluations).exitLevelHistory.getLast?).map (·.currentStop) =
          some 80 ∧
        (finalState (openedAt 0) evaluations).currentStop = 100) := by
  refine ⟨⟨by decide +kernel, by decide +kernel, by decide +kernel⟩,
    by decide +kernel, by decide +kernel, ?_⟩
  have hfinal : (runPosition .exact default (openedAt 0)
      (uncoveredRise :: risingBars 1 2 one_le_two_us)).toOption.map (fun evaluations =>
        let s := finalState (openedAt 0) evaluations
        (s.highestClose, (s.exitLevelHistory.getLast?).map (·.currentStop), s.currentStop)) =
      some (105, some 80, 100) := by
    decide +kernel
  cases hrun : runPosition .exact default (openedAt 0)
      (uncoveredRise :: risingBars 1 2 one_le_two_us) with
  | error error => rw [hrun] at hfinal; cases hfinal
  | ok evaluations =>
    rw [hrun] at hfinal
    have h := Option.some.inj hfinal
    simp only [Prod.mk.injEq] at h
    exact ⟨evaluations, rfl, h⟩

end KAssetTrader.Position
