import KAssetTrader.Library.Ranking
import KAssetTrader.Position.Evaluate

/-!
What the intraday evaluation returns. Every completed bucket is judged by the levels in
force when it starts, and by nothing else; so the answer is read off the buckets one by one:
the earliest breach of a stop, or else the earliest touch of the partial target.
-/

namespace KAssetTrader.Position

open Timeline Ranking

/-- A bucket that the evaluation looks at, with the levels in force at its start. -/
structure Judged (s : ManagedPositionState) (barInterval : ℤ) (after : Option Instant)
    (bar : PositionBar) (levels : ExitLevels) : Prop where
  after_entry : s.entryAt ≤ bar.asOf - barInterval
  newer : ∀ t ∈ after, t < bar.asOf
  in_force : inForce s.timeline (bar.startsAt : WithBot Instant) = some levels

/-- The bucket opens at the stop or below, or falls to it. -/
def Reaches (bar : PositionBar) (levels : ExitLevels) : Prop :=
  bar.openPrice ≤ levels.currentStop ∨ bar.low ≤ levels.currentStop

/-- A bucket that breaches the stop in force at its start. -/
def Breaches (s : ManagedPositionState) (barInterval : ℤ) (after : Option Instant)
    (bar : PositionBar) : Prop :=
  ∃ levels, Judged s barInterval after bar levels ∧ Reaches bar levels

/-- The signal to sell everything for a bucket, under the levels it was judged by. -/
structure FullExit (s : ManagedPositionState) (barInterval : ℤ) (after : Option Instant)
    (bar : PositionBar) (exit : PositionExitSignal) : Prop where
  kind : exit.kind ≠ .partialSell
  whole : exit.quantityFraction = 1
  identifies : exit.Identifies s bar
  judged : Judged s barInterval after bar exit.levels
  reaches : Reaches bar exit.levels

/-- What the evaluation found among some buckets. -/
structure IntradaySound (ctx : Decimal.Context) (config : PositionManagerConfig)
    (s : ManagedPositionState) (bars : List PositionBar) (barInterval : ℤ)
    (after : Option Instant) (found : Option PositionExitSignal) : Prop where
  order_free : ∀ other : List PositionBar, other.Perm bars →
    evaluatePositionIntraday ctx config s other barInterval after = .ok found
  earliest : (∃ bar ∈ bars, Breaches s barInterval after bar) →
    ∃ bar ∈ bars, (∃ exit, found = some exit ∧ FullExit s barInterval after bar exit) ∧
      ∀ other ∈ bars, Breaches s barInterval after other → bar.asOf ≤ other.asOf
  partial_last : ∀ exit ∈ found, exit.kind = .partialSell →
    ∀ bar ∈ bars, ¬ Breaches s barInterval after bar
  stable : ∀ exit ∈ found, exit.kind ≠ .partialSell → ∀ later : List PositionBar,
    (later.map PositionBar.asOf).Nodup →
    (∀ bar ∈ bars, ∀ next ∈ later, bar.asOf < next.asOf) →
    evaluatePositionIntraday ctx config s (bars ++ later) barInterval after = .ok (some exit)
  judged : ∀ exit ∈ found, ∃ bar ∈ bars, exit.Identifies s bar ∧
    Judged s barInterval after bar exit.levels

section Buckets

variable (ctx : Decimal.Context) (config : PositionManagerConfig) (s : ManagedPositionState)
  (barInterval : ℤ) (after : Option Instant) (bar : PositionBar)

/-- The levels that the loop reads for a bucket, unless it skips the bucket. -/
def readLevels : Option ExitLevels :=
  if bar.asOf - barInterval < s.entryAt ∨ after.any (fun t => bar.asOf ≤ t) ∨
      ¬ exitLevelsCoverObservation s bar.startsAt then none
  else (exitLevelsForBar s bar).toOption

def bucketSignal (kind : ExitKind) (fraction price : Decimal) (reason : ExitReason)
    (levels : ExitLevels) : PositionExitSignal where
  kind := kind
  quantityFraction := fraction
  referencePrice := price
  signalAt := bar.asOf
  reason := reason
  idempotencyKey := ⟨s.market, s.symbol, s.positionCycleId, kind, bar.asOf⟩
  levels := levels

def stopExit (levels : ExitLevels) : Option PositionExitSignal :=
  if bar.openPrice ≤ levels.currentStop then
    some (bucketSignal s bar
      (if levels.initialStop < levels.currentStop then .trailingStopGap else .stopGap) 1
      bar.openPrice (.text "장중 봉 시가가 당시 유효한 손절선 아래여서 전량 청산합니다.") levels)
  else if bar.low ≤ levels.currentStop then
    some (bucketSignal s bar
      (if levels.initialStop < levels.currentStop then .trailingStop else .stop) 1
      levels.currentStop (.text "장중 저가가 당시 유효한 손절선에 닿아 전량 청산합니다.") levels)
  else none

def targetExit (levels : ExitLevels) : Option PositionExitSignal :=
  let partialTarget := ctx.add s.entryPrice (ctx.mul config.partialProfitAtr levels.initialAtr)
  if ¬ s.partialExitCompleted ∧ partialTarget ≤ bar.high then
    some (bucketSignal s bar .partialSell config.partialFraction
      (if partialTarget ≤ bar.openPrice then bar.openPrice else partialTarget)
      (.partialTarget true config.partialProfitAtr (ctx.mul config.partialFraction 100)) levels)
  else none

def fullExitOf : Option PositionExitSignal :=
  (readLevels s barInterval after bar).bind (stopExit s bar)

def partialExitOf : Option PositionExitSignal :=
  (readLevels s barInterval after bar).bind (targetExit ctx config s bar)

variable {ctx config s barInterval after bar}

variable {levels : ExitLevels} {exit : PositionExitSignal}

theorem readLevels_eq_some (h : s.Valid) :
    readLevels s barInterval after bar = some levels ↔
      Judged s barInterval after bar levels := by
  have hlevels := exitLevelsForBar_eq (s := s) bar
  unfold readLevels
  constructor
  · intro hread
    split at hread
    · cases hread
    next hlooked =>
      obtain ⟨hentry, hafter, _⟩ := not_or.mp hlooked |>.imp_right not_or.mp
      refine ⟨not_lt.mp hentry, ?_, ?_⟩
      · intro t ht
        rw [Option.mem_def.mp ht] at hafter
        simpa using hafter
      · rw [hlevels] at hread
        cases hforce : inForce s.timeline (bar.startsAt : WithBot Instant) with
        | none =>
          rw [hforce] at hread
          cases hread
        | some found =>
          rw [hforce] at hread
          exact hread
  · rintro ⟨hentry, hnewer, hforce⟩
    have hcovers : exitLevelsCoverObservation s bar.startsAt = true := by
      rw [exitLevelsCoverObservation_iff h, ← inForce_isSome_iff, hforce]
      rfl
    rw [if_neg, hlevels, hforce]
    · rfl
    · rintro (hearly | hold | huncovered)
      · exact absurd hentry (not_le.mpr hearly)
      · cases hafter : after with
        | none =>
          rw [hafter] at hold
          cases hold
        | some t =>
          rw [hafter] at hold
          have hlt := hnewer t hafter
          exact absurd (of_decide_eq_true hold) (not_le.mpr hlt)
      · exact huncovered hcovers

theorem signal_ok (h : s.Valid) (kind : ExitKind) (fraction price : Decimal)
    (reason : ExitReason) (levels : ExitLevels) :
    signal s bar kind fraction price reason levels =
      .ok (bucketSignal s bar kind fraction price reason levels) := by
  simp only [signal, exitSignalKey_ok h, Checked.ok_bind]
  rfl

/-- The loop reads its answer off the buckets one by one. -/
theorem intradaySignal_eq (h : s.Valid) (firstPartial : Option PositionExitSignal)
    (bars : List PositionBar) :
    intradaySignal ctx config s barInterval after firstPartial bars =
      .ok ((bars.findSome? (fullExitOf s barInterval after)).or
        (firstPartial.or (bars.findSome? (partialExitOf ctx config s barInterval after)))) := by
  induction bars generalizing firstPartial with
  | nil => simp [intradaySignal]
  | cons bar rest ih =>
    unfold intradaySignal
    by_cases hskip : bar.asOf - barInterval < s.entryAt ∨
        after.any (fun t => bar.asOf ≤ t) = true ∨
        ¬ exitLevelsCoverObservation s bar.startsAt = true
    · have hread : readLevels s barInterval after bar = none := if_pos hskip
      rw [if_pos hskip, ih, List.findSome?_cons, List.findSome?_cons, fullExitOf,
        partialExitOf, hread]
      rfl
    · obtain ⟨_, _, hcovered⟩ := not_or.mp hskip |>.imp_right not_or.mp
      have hfound : ∃ levels, exitLevelsForBar s bar = .ok levels :=
        exists_exitLevelsForBar h (not_not.mp hcovered)
      obtain ⟨levels, hlevels⟩ := hfound
      have hread : readLevels s barInterval after bar = some levels := by
        unfold readLevels
        rw [if_neg hskip, hlevels]
        rfl
      rw [if_neg hskip, hlevels, Checked.ok_bind]
      simp only [signal_ok h, Checked.ok_bind]
      rw [List.findSome?_cons, List.findSome?_cons, fullExitOf, partialExitOf, hread,
        Option.bind_some, Option.bind_some]
      by_cases hopen : bar.openPrice ≤ levels.currentStop
      · rw [if_pos hopen, stopExit, if_pos hopen]
        rfl
      · by_cases hlow : bar.low ≤ levels.currentStop
        · rw [if_neg hopen, if_pos hlow, stopExit, if_neg hopen, if_pos hlow]
          rfl
        · rw [if_neg hopen, if_neg hlow, stopExit, if_neg hopen, if_neg hlow]
          dsimp only
          by_cases htarget : ¬ s.partialExitCompleted = true ∧
              ctx.add s.entryPrice (ctx.mul config.partialProfitAtr levels.initialAtr) ≤
                bar.high
          · rw [targetExit, if_pos htarget]
            cases firstPartial with
            | none =>
              rw [if_pos ⟨rfl, htarget⟩, ih]
              rfl
            | some first =>
              have hlater : ¬ ((some first).isNone = true ∧
                  ¬ s.partialExitCompleted = true ∧
                  ctx.add s.entryPrice (ctx.mul config.partialProfitAtr levels.initialAtr) ≤
                    bar.high) := fun hall => nomatch hall.1
              rw [if_neg hlater, ih (some first)]
              simp only [Option.some_or]
          · rw [targetExit, if_neg htarget, if_neg fun hall => htarget hall.2, ih]

variable (ctx config s barInterval after) in
/-- The evaluation as two searches of the buckets in order of time. -/
theorem evaluatePositionIntraday_eq (h : s.Valid) (hinterval : 0 < barInterval)
    (bars : List PositionBar) :
    evaluatePositionIntraday ctx config s bars barInterval after =
      .ok (((sortedBy PositionBar.asOf bars).findSome? (fullExitOf s barInterval after)).or
        ((sortedBy PositionBar.asOf bars).findSome?
          (partialExitOf ctx config s barInterval after))) := by
  unfold evaluatePositionIntraday
  rw [if_neg (not_le.mpr hinterval)]
  exact intradaySignal_eq h none _

theorem stopExit_eq_none :
    stopExit s bar levels = none ↔ ¬ Reaches bar levels := by
  unfold stopExit Reaches
  split
  next hopen => simp [hopen]
  next hopen =>
    split
    next hlow => simp [hlow]
    next hlow => simp [hopen, hlow]

theorem fullExitOf_ne_none (h : s.Valid) :
    fullExitOf s barInterval after bar ≠ none ↔ Breaches s barInterval after bar := by
  unfold fullExitOf Breaches
  constructor
  · intro hsome
    obtain ⟨exit, hexit⟩ := Option.ne_none_iff_exists'.mp hsome
    obtain ⟨levels, hread, hstop⟩ := Option.bind_eq_some_iff.mp hexit
    refine ⟨levels, (readLevels_eq_some h).mp hread, ?_⟩
    by_contra hsafe
    rw [stopExit_eq_none.mpr hsafe] at hstop
    cases hstop
  · rintro ⟨levels, hjudged, hreaches⟩ hnone
    rw [(readLevels_eq_some h).mpr hjudged, Option.bind_some] at hnone
    exact stopExit_eq_none.mp hnone hreaches

theorem fullExit_of_eq_some (h : s.Valid) (hexit : fullExitOf s barInterval after bar = some exit) :
    FullExit s barInterval after bar exit := by
  obtain ⟨levels, hread, hstop⟩ := Option.bind_eq_some_iff.mp hexit
  have hjudged := (readLevels_eq_some h).mp hread
  unfold stopExit at hstop
  split at hstop
  next hopen =>
    cases hstop
    refine ⟨?_, rfl, ⟨rfl, rfl⟩, hjudged, .inl hopen⟩
    dsimp only [bucketSignal]
    split
    · decide
    · decide
  · split at hstop
    next hlow =>
      cases hstop
      refine ⟨?_, rfl, ⟨rfl, rfl⟩, hjudged, .inr hlow⟩
      dsimp only [bucketSignal]
      split
      · decide
      · decide
    · cases hstop

theorem partialExit_of_eq_some (h : s.Valid)
    (hexit : partialExitOf ctx config s barInterval after bar = some exit) :
    exit.kind = .partialSell ∧ exit.Identifies s bar ∧
      Judged s barInterval after bar exit.levels := by
  obtain ⟨levels, hread, htarget⟩ := Option.bind_eq_some_iff.mp hexit
  have hjudged := (readLevels_eq_some h).mp hread
  unfold targetExit at htarget
  dsimp only at htarget
  split at htarget
  · cases htarget
    exact ⟨rfl, ⟨rfl, rfl⟩, hjudged⟩
  · cases htarget

end Buckets

section Levels

variable {s : ManagedPositionState} {barInterval : ℤ} {after : Option Instant}
  {bar : PositionBar}

/-- The levels of a judged bucket are those of a version that took effect before the bucket
started, and no later version had taken effect by then. -/
theorem Judged.version {levels : ExitLevels} (h : Judged s barInterval after bar levels) :
    ∃ v ∈ s.versions, v.toExitLevels = levels ∧
      activation v.effectiveAt ≤ (bar.startsAt : WithBot Instant) := by
  obtain ⟨start, hmem, hle⟩ := exists_of_inForce h.in_force
  obtain ⟨v, hv, hentry⟩ := List.mem_map.mp hmem
  cases hentry
  exact ⟨v, hv, rfl, hle⟩

end Levels

/-- The intraday evaluation of a valid position, over buckets with distinct times: the order
of the buckets does not matter, the earliest breach of a stop comes before every partial
exit and stays the answer as later buckets come, and each bucket is judged by levels that
took effect before it started. -/
theorem intraday_exit_is_earliest (ctx : Decimal.Context) (config : PositionManagerConfig)
    (s : ManagedPositionState) (bars : List PositionBar) (barInterval : ℤ)
    (after : Option Instant) (h : s.Valid) (hinterval : 0 < barInterval)
    (hdistinct : (bars.map PositionBar.asOf).Nodup) :
    (∃ found, evaluatePositionIntraday ctx config s bars barInterval after = .ok found ∧
      IntradaySound ctx config s bars barInterval after found) ∧
    ∀ bar levels, Judged s barInterval after bar levels →
      ∃ v ∈ s.versions, v.toExitLevels = levels ∧
        activation v.effectiveAt ≤ (bar.startsAt : WithBot Instant) := by
  refine ⟨⟨_, evaluatePositionIntraday_eq ctx config s barInterval after h hinterval bars, ?_⟩,
    fun _ _ hjudged => hjudged.version⟩
  constructor
  · intro other hperm
    rw [evaluatePositionIntraday_eq ctx config s barInterval after h hinterval other,
      sortedBy_eq_of_perm hdistinct hperm]
  · rintro ⟨bar, hbar, hbreaches⟩
    cases hfull : (sortedBy PositionBar.asOf bars).findSome?
        (fullExitOf s barInterval after) with
    | none =>
      exact absurd (findSome?_sortedBy_eq_none.mp hfull bar hbar)
        ((fullExitOf_ne_none h).mpr hbreaches)
    | some exit =>
      obtain ⟨bucket, hbucket, hgives, hfirst⟩ := findSome?_sortedBy hfull
      refine ⟨bucket, hbucket, ⟨exit, rfl, fullExit_of_eq_some h hgives⟩, ?_⟩
      intro other hother hbreach
      exact hfirst other hother ((fullExitOf_ne_none h).mpr hbreach)
  · intro exit hexit hkind bar hbar hbreaches
    cases hfull : (sortedBy PositionBar.asOf bars).findSome?
        (fullExitOf s barInterval after) with
    | none =>
      exact (fullExitOf_ne_none h).mpr hbreaches
        (findSome?_sortedBy_eq_none.mp hfull bar hbar)
    | some first =>
      rw [hfull] at hexit
      cases hexit
      obtain ⟨bucket, _, hgives, _⟩ := findSome?_sortedBy hfull
      exact (fullExit_of_eq_some h hgives).kind hkind
  · intro exit hexit hkind later hlater hafter
    rw [evaluatePositionIntraday_eq ctx config s barInterval after h hinterval,
      sortedBy_append hdistinct hlater hafter, List.findSome?_append]
    cases hfull : (sortedBy PositionBar.asOf bars).findSome?
        (fullExitOf s barInterval after) with
    | some first =>
      rw [hfull] at hexit
      cases hexit
      rfl
    | none =>
      rw [hfull] at hexit
      obtain ⟨bucket, _, hgives, _⟩ := findSome?_sortedBy (Option.mem_def.mp hexit)
      exact absurd (partialExit_of_eq_some h hgives).1 hkind
  · intro exit hexit
    cases hfull : (sortedBy PositionBar.asOf bars).findSome?
        (fullExitOf s barInterval after) with
    | some first =>
      rw [hfull] at hexit
      cases hexit
      obtain ⟨bucket, hbucket, hgives, _⟩ := findSome?_sortedBy hfull
      have hfullExit := fullExit_of_eq_some h hgives
      exact ⟨bucket, hbucket, hfullExit.identifies, hfullExit.judged⟩
    | none =>
      rw [hfull] at hexit
      obtain ⟨bucket, hbucket, hgives, _⟩ := findSome?_sortedBy (Option.mem_def.mp hexit)
      obtain ⟨_, hidentifies, hjudged⟩ := partialExit_of_eq_some h hgives
      exact ⟨bucket, hbucket, hidentifies, hjudged⟩

/-- A rise to the partial target, while the stop in force is 10. -/
def riseBucket : PositionBar where
  asOf := 5
  openPrice := 12
  high := 20
  low := 11
  close := 12
  startsAt := 4
  endsAt := 5

/-- A fall below the stop of 10, before the current stop of 5 takes effect. -/
def dipBucket : PositionBar where
  asOf := 9
  openPrice := 12
  high := 12
  low := 9
  close := 12
  startsAt := 8
  endsAt := 9

theorem dipBucket_breaches : Breaches fallingStops 1 none dipBucket := by
  refine ⟨⟨1, 4, 10⟩, ⟨by decide, ?_, by decide +kernel⟩, .inr (by decide +kernel)⟩
  intro t hnone
  cases hnone

/-- A bucket below the stop before one above the target. -/
theorem intraday_exit_is_earliest_of_dip :
    ∃ exit, evaluatePositionIntraday .exact default fallingStops [dipBucket, riseBucket] 1 none =
        .ok (some exit) ∧ exit.kind ≠ .partialSell ∧
      IntradaySound .exact default fallingStops [dipBucket, riseBucket] 1 none (some exit) := by
  obtain ⟨found, hok, hsound⟩ := (intraday_exit_is_earliest .exact default fallingStops
    [dipBucket, riseBucket] 1 none fallingStops_valid (by norm_num) (by decide)).1
  obtain ⟨bar, _, ⟨exit, rfl, hfull⟩, _⟩ :=
    hsound.earliest ⟨dipBucket, List.mem_cons_self, dipBucket_breaches⟩
  exact ⟨exit, hok, hfull.kind, hsound⟩

end KAssetTrader.Position
