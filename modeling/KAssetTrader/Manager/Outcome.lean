import KAssetTrader.Manager.Lifecycle

/-!
What a tick can do, stage by stage: the replay of the daily bars, the signal of
the tick, and the end of the tick. The last theorem puts the stages together:
the state written is reached from the one loaded by lifecycle events, and the
link to the previous recommendation is only given up once that one has ended or
is superseded.
-/

namespace KAssetTrader.Manager

open Checked Position Recommendation

variable {s s' : ManagedPositionState}

section States

variable {ctx : Decimal.Context} {config : PositionManagerConfig}

/-- The columns that a tick never writes are the same. -/
structure SameHolding (s s' : ManagedPositionState) : Prop where
  market : s'.market = s.market
  symbol : s'.symbol = s.symbol
  entryPrice : s'.entryPrice = s.entryPrice
  entryAt : s'.entryAt = s.entryAt
  strategyVersion : s'.strategyVersion = s.strategyVersion
  positionCycleId : s'.positionCycleId = s.positionCycleId

theorem SameHolding.refl (s : ManagedPositionState) : SameHolding s s :=
  ⟨rfl, rfl, rfl, rfl, rfl, rfl⟩

theorem SameHolding.trans {s s' s'' : ManagedPositionState} (h : SameHolding s s')
    (h' : SameHolding s' s'') : SameHolding s s'' :=
  ⟨h'.market.trans h.market, h'.symbol.trans h.symbol, h'.entryPrice.trans h.entryPrice,
    h'.entryAt.trans h.entryAt, h'.strategyVersion.trans h.strategyVersion,
    h'.positionCycleId.trans h.positionCycleId⟩

/-- Reached by lifecycle events, from a valid state to a valid one. -/
structure Evolves (ctx : Decimal.Context) (config : PositionManagerConfig)
    (s s' : ManagedPositionState) : Prop where
  valid : s'.Valid
  same : SameHolding s s'
  events : ∃ events, lifecycle ctx config s events = .ok s'

theorem lifecycle_append (s : ManagedPositionState) (front back : List LifecycleEvent) :
    lifecycle ctx config s (front ++ back) =
      (lifecycle ctx config s front >>= fun t => lifecycle ctx config t back) := by
  induction front generalizing s with
  | nil => rfl
  | cons event rest ih =>
    simp only [List.cons_append, lifecycle]
    cases event.apply ctx config s with
    | error e => rfl
    | ok next => simpa only [ok_bind] using ih next

theorem Evolves.refl (h : s.Valid) : Evolves ctx config s s := ⟨h, .refl s, [], rfl⟩

theorem Evolves.trans {s'' : ManagedPositionState} (h : Evolves ctx config s s')
    (h' : Evolves ctx config s' s'') : Evolves ctx config s s'' := by
  obtain ⟨front, hfront⟩ := h.events
  obtain ⟨back, hback⟩ := h'.events
  refine ⟨h'.valid, h.same.trans h'.same, front ++ back, ?_⟩
  rw [lifecycle_append, hfront, ok_bind, hback]

theorem Evolves.of_event {event : LifecycleEvent} (hvalid : s'.Valid)
    (hsame : SameHolding s s') (hok : event.apply ctx config s = .ok s') :
    Evolves ctx config s s' := by
  refine ⟨hvalid, hsame, [event], ?_⟩
  rw [lifecycle, hok, ok_bind]
  rfl

theorem raiseToFloor_evolves {floor : Decimal} {t : Instant} (h : s.Valid)
    (hok : raiseToFloor s floor t = .ok s') :
    s'.Valid ∧ SameHolding s s' ∧ s'.partialExitCompleted = s.partialExitCompleted := by
  unfold raiseToFloor at hok
  split at hok
  · obtain ⟨-, history, current, rfl, hvalid, -⟩ := raiseTrailingStop_ok h hok
    exact ⟨hvalid, ⟨rfl, rfl, rfl, rfl, rfl, rfl⟩, rfl⟩
  · cases hok
    exact ⟨h, .refl s, rfl⟩

/-- A persisted daily bar: the state evolves by it, the partial flag does not
change, and a signal names the cycle of the state and the bar. -/
theorem persistDaily_evolves {o : Observation} {evaluation : PositionEvaluation} (h : s.Valid)
    (hok : persistDaily ctx config s o = .ok (evaluation, s')) :
    Evolves ctx config s s' ∧ s'.partialExitCompleted = s.partialExitCompleted ∧
      s'.lastEvaluatedAt = some o.bar.asOf ∧
      ∀ exit ∈ evaluation.signal, exit.Identifies s o.bar := by
  have hevent : LifecycleEvent.apply ctx config s (.daily o) = .ok s' := by
    rw [LifecycleEvent.apply, hok]
    rfl
  obtain ⟨e, he, hok⟩ := bind_ok_iff.mp hok
  obtain ⟨state, hstate, hok⟩ := bind_ok_iff.mp hok
  obtain ⟨rfl, rfl⟩ := Prod.mk.inj (Except.ok.inj hok)
  have houtcome : Outcome ctx config s o.bar (.ok e) :=
    he ▸ evaluatePosition_outcome _ h (accepts_of_evaluatePosition he)
  have hquiet (hsignal : e.signal.map (·.kind) ≠ some .partialSell) : state = e.state := by
    unfold persistableState at hstate
    rw [if_neg (fun hpart => hsignal hpart.1)] at hstate
    exact (Except.ok.inj hstate).symm
  cases houtcome with
  | uncovered =>
    obtain rfl := hquiet (by simp)
    exact ⟨.of_event (h.evaluatedAt _) ⟨rfl, rfl, rfl, rfl, rfl, rfl⟩ hevent, rfl, rfl,
      by simp⟩
  | fullExit exit _ hkind hidentifies =>
    obtain rfl := hquiet (by simpa using hkind)
    exact ⟨.of_event (h.evaluatedAt _) ⟨rfl, rfl, rfl, rfl, rfl, rfl⟩ hevent, rfl, rfl,
      by simpa using hidentifies⟩
  | partialSell exit _ hpart hkind hidentifies =>
    unfold persistableState at hstate
    rw [if_pos ⟨by simp [hkind], hpart⟩] at hstate
    obtain rfl := ManagedPositionState.eq_of_postInit hstate
    exact ⟨.of_event (((h.observed _).withPartial true).withPartial false)
      ⟨rfl, rfl, rfl, rfl, rfl, rfl⟩ hevent, hpart.symm, rfl, by simpa using hidentifies⟩
  | held =>
    obtain rfl := hquiet (by simp)
    exact ⟨.of_event (h.observed _) ⟨rfl, rfl, rfl, rfl, rfl, rfl⟩ hevent, rfl, rfl, by simp⟩
  | raised levels stop history current _ _ hvalid _ =>
    obtain rfl := hquiet (by simp)
    exact ⟨.of_event (hvalid.observed _) ⟨rfl, rfl, rfl, rfl, rfl, rfl⟩ hevent, rfl, rfl,
      by simp⟩

end States

variable {service : PositionManagerService}

section Replays

variable {completedRows seen : List DailyCandleRow} {bars : List (DailyCandleRow × PositionBar)}
  {replay result : Replay}

/-- What a replay from `s` has come to. -/
structure Replayed (service : PositionManagerService) (s : ManagedPositionState)
    (replay : Replay) : Prop where
  evolves : Evolves service.ctx service.config s replay.state
  partial_kept : replay.state.partialExitCompleted = s.partialExitCompleted
  firstPartial : ∀ exit ∈ replay.firstPartial, exit.kind = .partialSell ∧
    exit.idempotencyKey.positionCycleId = s.positionCycleId
  fullExit : ∀ exit ∈ replay.fullExit, exit.kind ≠ .partialSell ∧
    exit.idempotencyKey.positionCycleId = s.positionCycleId ∧
    replay.state.lastEvaluatedAt = some exit.signalAt

variable {s : ManagedPositionState} {after : Option Instant}

theorem replayDaily_replayed (h : Replayed service s replay) (hnone : replay.fullExit = none)
    (hok : replayDaily service completedRows seen bars replay = .ok result) :
    Replayed service s result := by
  induction bars generalizing seen replay with
  | nil =>
    cases hok
    exact h
  | cons entry rest ih =>
    obtain ⟨row, bar⟩ := entry
    rw [replayDaily] at hok
    split at hok
    · exact ih h hnone hok
    obtain ⟨evaluation, hevaluation, hok⟩ := bind_ok_iff.mp hok
    obtain ⟨state, hstate, hok⟩ := bind_ok_iff.mp hok
    obtain ⟨o, hbar, hpersist⟩ : ∃ o : Observation, o.bar = bar ∧
        persistDaily service.ctx service.config replay.state o = .ok (evaluation, state) := by
      have hpersist (held : ℤ) (trend : Bool)
          (he : evaluatePosition service.ctx service.config replay.state bar held trend =
            .ok evaluation) :
          persistDaily service.ctx service.config replay.state ⟨bar, held, trend⟩ =
            .ok (evaluation, state) := by
        rw [persistDaily, he, ok_bind, hstate, ok_bind]
        rfl
      exact ⟨⟨bar, _, _⟩, rfl, hpersist _ _ hevaluation⟩
    obtain ⟨hevolves, hpart, hlast, hsignal⟩ := persistDaily_evolves h.evolves.valid hpersist
    have hnext := h.evolves.trans hevolves
    have hkept := hpart.trans h.partial_kept
    cases hexit : evaluation.signal with
    | none =>
      rw [hexit] at hok
      have hreplayed : Replayed service s { replay with state } :=
        ⟨hnext, hkept, h.firstPartial, by simp [hnone]⟩
      exact ih hreplayed hnone hok
    | some exit =>
      obtain ⟨hat, hkey⟩ := hsignal exit hexit
      have hcycle : exit.idempotencyKey.positionCycleId = s.positionCycleId := by
        rw [hkey]
        exact h.evolves.same.positionCycleId
      rw [hexit] at hok
      simp only at hok
      split at hok
      next hkind =>
        have hreplayed : Replayed service s
            { replay with state, firstPartial := replay.firstPartial <|> some exit } := by
          refine ⟨hnext, hkept, fun first hfirst => ?_, by simp [hnone]⟩
          cases hprevious : replay.firstPartial with
          | none =>
            obtain rfl : exit = first := by simpa [hprevious] using hfirst
            exact ⟨hkind, hcycle⟩
          | some previous =>
            obtain rfl : previous = first := by simpa [hprevious] using hfirst
            exact h.firstPartial previous hprevious
        exact ih hreplayed hnone hok
      next hkind =>
        cases hok
        refine ⟨hnext, hkept, h.firstPartial, ?_⟩
        intro first hfirst
        obtain rfl : exit = first := by simpa using hfirst
        exact ⟨hkind, hcycle, by rw [hlast, hat, hbar]⟩

theorem signal_key {bar : PositionBar} {kind : ExitKind} {fraction price : Decimal}
    {reason : ExitReason} {levels : ExitLevels} {exit : PositionExitSignal}
    (hok : signal s bar kind fraction price reason levels = .ok exit) :
    exit.kind = kind ∧ exit.idempotencyKey.positionCycleId = s.positionCycleId := by
  obtain ⟨key, hkey, hok⟩ := bind_ok_iff.mp hok
  cases hok
  unfold exitSignalKey at hkey
  split at hkey
  · cases hkey
  split at hkey
  · cases hkey
  cases hkey
  exact ⟨rfl, rfl⟩

theorem intradaySignal_cycle {ctx : Decimal.Context} {config : PositionManagerConfig}
    {barInterval : ℤ} {firstPartial found : Option PositionExitSignal} {bars : List PositionBar}
    (hfirst : ∀ exit ∈ firstPartial, exit.idempotencyKey.positionCycleId = s.positionCycleId)
    (hok : intradaySignal ctx config s barInterval after firstPartial bars = .ok found) :
    ∀ exit ∈ found, exit.idempotencyKey.positionCycleId = s.positionCycleId := by
  induction bars generalizing firstPartial with
  | nil =>
    cases hok
    exact hfirst
  | cons bar rest ih =>
    rw [intradaySignal] at hok
    split at hok
    · exact ih hfirst hok
    obtain ⟨levels, -, hok⟩ := bind_ok_iff.mp hok
    simp only at hok
    split at hok
    · obtain ⟨exit, hexit, hok⟩ := bind_ok_iff.mp hok
      cases hok
      simpa using (signal_key hexit).2
    split at hok
    · obtain ⟨exit, hexit, hok⟩ := bind_ok_iff.mp hok
      cases hok
      simpa using (signal_key hexit).2
    split at hok
    · obtain ⟨exit, hexit, hok⟩ := bind_ok_iff.mp hok
      exact ih (by simpa using (signal_key hexit).2) hok
    · exact ih hfirst hok

theorem intradayExit_cycle {intraday : CompletedIntradayBars} {found : Option PositionExitSignal}
    (hok : intradayExit service intraday s after = .ok found) :
    ∀ exit ∈ found, exit.idempotencyKey.positionCycleId = s.positionCycleId := by
  obtain ⟨bars, -, hok⟩ := bind_ok_iff.mp hok
  unfold evaluatePositionIntraday at hok
  split at hok
  · cases hok
  · exact intradaySignal_cycle (by simp) hok

theorem evaluateTick_replayed {completed : List (DailyCandleRow × PositionBar)} {usable : Bool}
    {intraday : Option CompletedIntradayBars} {found : Option (PositionExitSignal × Horizon)}
    (h : s.Valid)
    (hok : evaluateTick service completed usable intraday after s = .ok (result, found)) :
    Replayed service s result ∧
      (∀ exit ∈ found, exit.1.idempotencyKey.positionCycleId = s.positionCycleId) ∧
      ∀ exit ∈ result.fullExit, found = some (exit, .daily) := by
  have hstart : Replayed service s { state := s } := ⟨.refl h, rfl, by simp, by simp⟩
  obtain ⟨replay, hreplay, hok⟩ := bind_ok_iff.mp hok
  have hreplayed : Replayed service s replay := by
    cases usable with
    | false =>
      cases hreplay
      exact hstart
    | true => exact replayDaily_replayed hstart rfl hreplay
  have hdaily : ∀ exit ∈ (replay.fullExit <|> replay.firstPartial).map (·, Horizon.daily),
      exit.1.idempotencyKey.positionCycleId = s.positionCycleId := by
    intro exit hexit
    obtain ⟨first, hfirst, rfl⟩ := Option.map_eq_some_iff.mp hexit
    cases hfull : replay.fullExit with
    | some full =>
      obtain rfl : full = first := by simpa [hfull] using hfirst
      exact (hreplayed.fullExit full hfull).2.1
    | none => exact (hreplayed.firstPartial first (by simpa [hfull] using hfirst)).2
  have hfull : ∀ exit ∈ replay.fullExit,
      (replay.fullExit <|> replay.firstPartial).map (·, Horizon.daily) = some (exit, .daily) := by
    intro exit hexit
    rw [Option.mem_def.mp hexit]
    rfl
  have hplain : result = replay → found =
      (replay.fullExit <|> replay.firstPartial).map (·, Horizon.daily) →
      Replayed service s result ∧
        (∀ exit ∈ found, exit.1.idempotencyKey.positionCycleId = s.positionCycleId) ∧
        ∀ exit ∈ result.fullExit, found = some (exit, .daily) := by
    rintro rfl rfl
    exact ⟨hreplayed, hdaily, hfull⟩
  cases intraday with
  | none =>
    cases hok
    exact hplain rfl rfl
  | some intraday =>
    simp only at hok
    split at hok
    next hall =>
      obtain ⟨bucket, hbucket, hok⟩ := bind_ok_iff.mp hok
      cases bucket with
      | none =>
        cases hok
        exact hplain rfl rfl
      | some exit =>
        simp only at hok
        split at hok
        · cases hok
          have hcycle := intradayExit_cycle hbucket exit rfl
          refine ⟨hreplayed, ?_, ?_⟩
          · intro first hfirst
            cases hfirst
            exact hcycle.trans hreplayed.evolves.same.positionCycleId
          · intro full hmem
            rw [hfull full hmem] at hall
            exact absurd (by simpa using hall) (hreplayed.fullExit full hmem).1
        · cases hok
          exact hplain rfl rfl
    · cases hok
      exact hplain rfl rfl

end Replays

variable {holding : Holding} {now : Instant} {input : TickInput}

/-- A recommendation that will not be executed any more, or has been: it
succeeded or failed, was rejected, or expired unclaimed. -/
def Ended (now : Instant) (r : ExitRecommendation) : Prop :=
  r.row.paperExecutionStatus = some .succeeded ∨ r.row.paperExecutionStatus = some .failed ∨
    (r.row.paperExecutionStatus = none ∧
      (r.row.decision = .rejected ∨ ∃ validUntil ∈ r.row.validUntil, validUntil ≤ now))

def ProvesPartial (r : ExitRecommendation) : Prop :=
  r.row.paperExecutionStatus = some .succeeded ∧ r.storedExitKind = some .partialSell

theorem reconcilePrevious_spec {previous : Option ExitRecommendation} {linked : Previous}
    (h : s.Valid) (hok : reconcilePrevious service now s previous = .ok (s', linked)) :
    Evolves service.ctx service.config s s' ∧
      (s'.partialExitCompleted = true → s.partialExitCompleted = true ∨
        ∃ r ∈ previous, ProvesPartial r) ∧
      (linked.pendingActive = false → ∀ r ∈ previous, Ended now r) := by
  cases previous with
  | none =>
    cases hok
    exact ⟨.refl h, Or.inl, by simp⟩
  | some r =>
    simp only [reconcilePrevious] at hok
    split at hok
    · cases hok
    next validUntil hvalidUntil =>
    split at hok
    next hsucceeded =>
      split at hok
      next hkind =>
        obtain ⟨completed, hcompleted, hok⟩ := bind_ok_iff.mp hok
        obtain ⟨raised, hraised, hok⟩ := bind_ok_iff.mp hok
        obtain ⟨rfl, rfl⟩ := Prod.mk.inj (Except.ok.inj hok)
        have hevent : LifecycleEvent.apply service.ctx service.config s
            (.partialSucceeded now) = .ok raised := by
          rw [LifecycleEvent.apply, completePartial, hcompleted, ok_bind, hraised]
        obtain rfl := ManagedPositionState.eq_of_postInit hcompleted
        obtain ⟨hvalid, hsame, -⟩ := raiseToFloor_evolves (h.withPartial true) hraised
        refine ⟨.of_event hvalid ⟨hsame.market, hsame.symbol, hsame.entryPrice,
          hsame.entryAt, hsame.strategyVersion, hsame.positionCycleId⟩ hevent, ?_, ?_⟩
        · exact fun _ => Or.inr ⟨r, rfl, hsucceeded, hkind⟩
        · rintro - r' ⟨⟩
          exact Or.inl hsucceeded
      · cases hok
        refine ⟨.refl h, Or.inl, ?_⟩
        rintro - r' ⟨⟩
        exact Or.inl hsucceeded
    split at hok
    · cases hok
      exact ⟨.refl h, Or.inl, by simp⟩
    split at hok
    next hnotSucceeded hnotClaimed hended =>
      cases hok
      refine ⟨.refl h, Or.inl, ?_⟩
      rintro - r' ⟨⟩
      cases hstatus : r.row.paperExecutionStatus with
      | none =>
        refine Or.inr (Or.inr ⟨hstatus, ?_⟩)
        rcases hended with hrejected | hfailed | hexpired
        · exact Or.inl hrejected
        · simp [hstatus] at hfailed
        · exact Or.inr ⟨validUntil, hvalidUntil, hexpired⟩
      | some status =>
        cases status with
        | claimed => exact absurd hstatus hnotClaimed
        | succeeded => exact absurd hstatus hnotSucceeded
        | failed => exact Or.inr (Or.inl hstatus)
    · cases hok
      exact ⟨.refl h, Or.inl, by simp⟩

theorem sizeExit_spec {exit : PositionExitSignal} {horizon : Horizon} {sized : Sized}
    (h : s.Valid) (hcycle : exit.idempotencyKey.positionCycleId = s.positionCycleId)
    (hok : sizeExit service now holding input s exit horizon = .ok sized) :
    Evolves service.ctx service.config s sized.state ∧
      sized.state.partialExitCompleted = s.partialExitCompleted ∧
      sized.exit.idempotencyKey.positionCycleId = s.positionCycleId := by
  unfold sizeExit at hok
  simp only at hok
  split at hok
  · obtain ⟨raised, hraised, hok⟩ := bind_ok_iff.mp hok
    obtain ⟨hvalid, hsame, hpart⟩ := raiseToFloor_evolves h hraised
    have hevolves : Evolves service.ctx service.config s raised :=
      .of_event hvalid hsame
        (show (LifecycleEvent.partialImpossible _).apply _ _ s = .ok raised from hraised)
    cases hintraday : input.intraday with
    | none =>
      rw [hintraday] at hok
      cases hok
      exact ⟨hevolves, hpart, hcycle⟩
    | some intraday =>
      rw [hintraday] at hok
      obtain ⟨followUp, hfollowUp, hok⟩ := bind_ok_iff.mp hok
      cases followUp with
      | none =>
        cases hok
        exact ⟨hevolves, hpart, hcycle⟩
      | some later =>
        simp only at hok
        split at hok
        · cases hok
          exact ⟨hevolves, hpart,
            (intradayExit_cycle hfollowUp later rfl).trans hsame.positionCycleId⟩
        · cases hok
          exact ⟨hevolves, hpart, hcycle⟩
  · cases hok
    exact ⟨.refl h, rfl, hcycle⟩

theorem applyState_state {row : PositionStateRow} (key : Option RecommendationKey)
    (h : SameHolding row.state s) : (row.applyState s key).state = s := by
  obtain ⟨hmarket, hsymbol, hprice, hentry, hversion, hcycle⟩ := h
  cases s
  simp only [PositionStateRow.applyState, ManagedPositionState.mk.injEq, and_true, true_and]
  exact ⟨hmarket.symm, hsymbol.symm, hprice.symm, hentry.symm, hversion.symm, hcycle.symm⟩

variable {stored : Option PositionStateRow} {find : RecommendationKey → Option ExitRecommendation}

/-- The row that a tick starts from: the stored one of the holding, or a newly
opened one, which links no recommendation. -/
structure Loaded (holding : Holding) (stored : Option PositionStateRow)
    (row : PositionStateRow) : Prop where
  valid : row.state.Valid
  matchesHolding : row.matchesHolding holding = true
  source : (∃ old ∈ stored, old.matchesHolding holding = true ∧ row.state = old.state ∧
      row.lastExitSignalKey = old.lastExitSignalKey) ∨
    (stored.filter (·.matchesHolding holding) = none ∧ row.lastExitSignalKey = none ∧
      row.state.partialExitCompleted = false)

theorem loadState_spec {row loaded : PositionStateRow}
    (hok : loadState service row = .ok loaded) :
    loaded.state.Valid ∧ loaded.state = row.state ∧ loaded.ownerUserId = row.ownerUserId ∧
      loaded.paperAccountId = row.paperAccountId ∧
      loaded.lastExitSignalKey = row.lastExitSignalKey := by
  obtain ⟨history, hhistory, hok⟩ := bind_ok_iff.mp hok
  obtain ⟨rfl, hversions⟩ :=
    mem_of_mapM_ok (fun _ _ => ExitLevelVersion.eq_of_postInit) hhistory
  obtain ⟨state, hstate, hok⟩ := bind_ok_iff.mp hok
  obtain rfl := ManagedPositionState.eq_of_postInit hstate
  cases hok
  refine ⟨?_, rfl, rfl, rfl, rfl⟩
  exact (ManagedPositionState.postInit_ok_iff _ (fun v hv =>
    (v.postInit_ok_iff).mp (hversions v hv))).mp hstate

variable {row : PositionStateRow} {view : TickView} {exit : PositionExitSignal}

theorem loadOrOpen_spec {completedRows : List DailyCandleRow} {usable : Bool}
    (hok : loadOrOpen service now holding input completedRows usable stored = .ok (some row)) :
    Loaded holding stored row := by
  unfold loadOrOpen at hok
  split at hok
  next old hold =>
    obtain ⟨hstored, hmatches⟩ := Option.filter_eq_some_iff.mp hold
    cases hload : loadState service old with
    | error e => rw [hload] at hok; cases hok
    | ok loaded =>
      rw [hload] at hok
      cases Except.ok.inj hok
      obtain ⟨hvalid, hstate, howner, haccount, hkey⟩ := loadState_spec hload
      refine ⟨hvalid, ?_, .inl ⟨old, hstored, hmatches, hstate, hkey⟩⟩
      simpa [PositionStateRow.matchesHolding, hstate, howner, haccount] using hmatches
  next hnone =>
    unfold openState at hok
    split at hok
    · cases hok
    next atr _ =>
      obtain ⟨state, hstate, hok⟩ := bind_ok_iff.mp hok
      cases Except.ok.inj hok
      obtain ⟨hvalid, -⟩ := initializePosition_spec hstate
      have hfields : state.market = holding.market ∧ state.symbol = holding.symbol ∧
          state.positionCycleId = some holding.positionId ∧
          state.partialExitCompleted = false := by
        simp only [initializePosition] at hstate
        split at hstate
        · cases hstate
        split at hstate
        · cases hstate
        split at hstate
        · cases hstate
        obtain rfl := ManagedPositionState.eq_of_postInit hstate
        exact ⟨rfl, rfl, rfl, rfl⟩
      refine ⟨hvalid, ?_, .inr ⟨hnone, rfl, hfields.2.2.2⟩⟩
      simp [PositionStateRow.matchesHolding, hfields, hvalid.strategy_nonempty]

structure Observed (service : PositionManagerService) (now : Instant)
    (find : RecommendationKey → Option ExitRecommendation) (row : PositionStateRow)
    (view : TickView) : Prop where
  row_kept : view.row.ownerUserId = row.ownerUserId ∧
    view.row.paperAccountId = row.paperAccountId ∧
    view.row.lastExitSignalKey = row.lastExitSignalKey
  reconciled : SameHolding row.state view.row.state
  previous_eq : view.previous = row.lastExitSignalKey.bind find
  replayed : Evolves service.ctx service.config row.state view.replay.state
  same : SameHolding view.row.state view.replay.state
  completed : view.replay.state.partialExitCompleted = true →
    row.state.partialExitCompleted = true ∨ ∃ r ∈ view.previous, ProvesPartial r
  ended : view.linked.pendingActive = false → ∀ r ∈ view.previous, Ended now r
  cycle : ∀ exit ∈ view.signal,
    exit.1.idempotencyKey.positionCycleId = row.state.positionCycleId
  fullExit : ∀ exit ∈ view.replay.fullExit, view.signal = some (exit, .daily) ∧
    view.replay.state.lastEvaluatedAt = some exit.signalAt

theorem observeTick_spec (hok : observeTick service now holding input stored find = .ok (some view))
    :
    ∃ row, Loaded holding stored row ∧ Observed service now find row view := by
  obtain ⟨completed, -, hok⟩ := bind_ok_iff.mp hok
  simp only at hok
  split at hok
  · cases hok
  obtain ⟨loaded, hloaded, hok⟩ := bind_ok_iff.mp hok
  cases loaded with
  | none => cases Except.ok.inj hok
  | some row =>
    have hrow := loadOrOpen_spec hloaded
    obtain ⟨⟨state, linked⟩, hreconcile, hok⟩ := bind_ok_iff.mp hok
    obtain ⟨⟨replay, signal⟩, htick, hok⟩ := bind_ok_iff.mp hok
    cases Except.ok.inj hok
    obtain ⟨hevolves, hpart, hended⟩ := reconcilePrevious_spec hrow.valid hreconcile
    obtain ⟨hreplayed, hcycle, hfull⟩ := evaluateTick_replayed hevolves.valid htick
    have hstate : (row.applyState state row.lastExitSignalKey).state = state :=
      applyState_state _ hevolves.same
    refine ⟨row, hrow, ⟨rfl, rfl, rfl⟩, ?_, rfl, hevolves.trans hreplayed.evolves, ?_, ?_,
      hended, ?_, fun exit hexit => ⟨hfull exit hexit, (hreplayed.fullExit exit hexit).2.2⟩⟩
    · rw [hstate]
      exact hevolves.same
    · rw [hstate]
      exact hreplayed.evolves.same
    · intro hcompleted
      exact hpart (hreplayed.partial_kept ▸ hcompleted)
    · intro exit hexit
      exact (hcycle exit hexit).trans hevolves.same.positionCycleId

structure Written (service : PositionManagerService) (now : Instant) (holding : Holding)
    (find : RecommendationKey → Option ExitRecommendation) (row : PositionStateRow)
    (outcome : TickOutcome) : Prop where
  row_kept : outcome.row.ownerUserId = row.ownerUserId ∧
    outcome.row.paperAccountId = row.paperAccountId
  evolves : Evolves service.ctx service.config row.state outcome.row.state
  completed : outcome.row.state.partialExitCompleted = true →
    row.state.partialExitCompleted = true ∨
      ∃ r ∈ row.lastExitSignalKey.bind find, ProvesPartial r
  superseded : ∀ key ∈ outcome.superseded, row.lastExitSignalKey = some key ∧
    ∃ r ∈ find key, r.row.paperExecutionStatus = none
  linked : (outcome.row.lastExitSignalKey = row.lastExitSignalKey ∧ outcome.created = none) ∨
    ∃ key, outcome.row.lastExitSignalKey = some key ∧
      key.cycle = row.state.positionCycleId ∧
      (outcome.superseded = none → ∀ r ∈ row.lastExitSignalKey.bind find, Ended now r) ∧
      ((outcome.created = none ∧ (find key).isSome) ∨
        (find key = none ∧ ∃ r, outcome.created = some r ∧ r.row.id = key ∧
          r.row.paperExecutionStatus = none ∧ r.row.paperExecutionAttemptCount = 0 ∧
          r.row.decision = .pending))

theorem positionRecommendationId_ok {key result : RecommendationKey} {ownerUserId : ℤ}
    (hok : positionRecommendationId key ownerUserId = .ok result) : result = key := by
  unfold positionRecommendationId at hok
  split at hok
  · cases hok
  · exact (Except.ok.inj hok).symm

variable {previous : Option ExitRecommendation} {outcome : TickOutcome}

theorem supersedes_spec {linked : Previous} (h : supersedes linked previous exit = true) :
    ∃ r ∈ previous, r.row.paperExecutionStatus = none := by
  simp only [supersedes, Bool.and_eq_true] at h
  obtain ⟨-, hprevious⟩ := h
  cases previous with
  | none => simp at hprevious
  | some r => exact ⟨r, rfl, by simpa using hprevious⟩

theorem emitExit_spec {horizon : Horizon} (h : Observed service now find row view)
    (hsignal : view.signal = some (exit, horizon))
    (hok : emitExit service now holding input find view.row view.linked view.previous
      view.replay.state exit horizon = .ok outcome) :
    Written service now holding find row outcome := by
  have hcycle : exit.idempotencyKey.positionCycleId = row.state.positionCycleId :=
    h.cycle (exit, horizon) hsignal
  unfold emitExit at hok
  simp only at hok
  split at hok
  · cases hok
    have hstate := applyState_state view.row.lastExitSignalKey h.same
    refine ⟨⟨h.row_kept.1, h.row_kept.2.1⟩, ?_, ?_, by simp, .inl ⟨h.row_kept.2.2, rfl⟩⟩
    · simpa only [hstate] using h.replayed
    · simpa only [hstate, h.previous_eq] using h.completed
  next hopen =>
  obtain ⟨sized, hsized, hok⟩ := bind_ok_iff.mp hok
  obtain ⟨hevolves, hpart, hsizedCycle⟩ := sizeExit_spec h.replayed.valid
    (hcycle.trans h.replayed.same.positionCycleId.symm) hsized
  have hsame : SameHolding view.row.state sized.state := h.same.trans hevolves.same
  have hstate (key : Option RecommendationKey) :
      (view.row.applyState sized.state key).state = sized.state := applyState_state key hsame
  have htotal := h.replayed.trans hevolves
  have hcompleted : sized.state.partialExitCompleted = true →
      row.state.partialExitCompleted = true ∨
        ∃ r ∈ row.lastExitSignalKey.bind find, ProvesPartial r := by
    rw [hpart, ← h.previous_eq]
    exact h.completed
  have hsuperseded : ∀ key ∈ (if supersedes view.linked view.previous exit = true then
      view.row.lastExitSignalKey else none), row.lastExitSignalKey = some key ∧
        ∃ r ∈ find key, r.row.paperExecutionStatus = none := by
    intro key hkey
    split at hkey
    next hsup =>
      rw [h.row_kept.2.2] at hkey
      obtain ⟨r, hr, hnone⟩ := supersedes_spec hsup
      rw [h.previous_eq, Option.mem_def.mp hkey] at hr
      exact ⟨hkey, r, hr, hnone⟩
    · simp at hkey
  have hended : (if supersedes view.linked view.previous exit = true then
      view.row.lastExitSignalKey else none) = none →
        ∀ r ∈ row.lastExitSignalKey.bind find, Ended now r := by
    intro hnone r hr
    rw [← h.previous_eq] at hr
    by_cases hsup : supersedes view.linked view.previous exit = true
    · rw [if_pos hsup, h.row_kept.2.2] at hnone
      rw [h.previous_eq, hnone] at hr
      simp at hr
    · refine h.ended ?_ r hr
      rw [← Bool.not_eq_true]
      exact fun hpending => hopen ⟨hpending, hsup⟩
  split at hok
  · cases hok
    refine ⟨⟨h.row_kept.1, h.row_kept.2.1⟩, ?_, ?_, hsuperseded, .inl ⟨h.row_kept.2.2, rfl⟩⟩
    · simpa only [hstate] using htotal
    · simpa only [hstate] using hcompleted
  obtain ⟨key, hkey, hok⟩ := bind_ok_iff.mp hok
  obtain rfl := positionRecommendationId_ok hkey
  split at hok
  next hfound =>
    cases hok
    refine ⟨⟨h.row_kept.1, h.row_kept.2.1⟩, ?_, ?_, hsuperseded, .inr ⟨_, rfl, ?_, hended,
      .inl ⟨rfl, hfound⟩⟩⟩
    · simpa only [hstate] using htotal
    · simpa only [hstate] using hcompleted
    · exact hsizedCycle.trans h.replayed.same.positionCycleId
  next hfresh =>
    obtain ⟨-, -, hok⟩ := bind_ok_iff.mp hok
    cases hok
    refine ⟨⟨h.row_kept.1, h.row_kept.2.1⟩, ?_, ?_, hsuperseded, .inr ⟨_, rfl, ?_, hended,
      .inr ⟨?_, _, rfl, rfl, rfl, rfl, rfl⟩⟩⟩
    · simpa only [hstate] using htotal
    · simpa only [hstate] using hcompleted
    · exact hsizedCycle.trans h.replayed.same.positionCycleId
    · simpa using hfresh

theorem managePosition_spec
    (hok : managePosition service now holding input stored find = .ok (some outcome)) :
    ∃ row, Loaded holding stored row ∧ Written service now holding find row outcome := by
  obtain ⟨found, hfound, hok⟩ := bind_ok_iff.mp hok
  cases found with
  | none => cases Except.ok.inj hok
  | some view =>
    obtain ⟨row, hrow, h⟩ := observeTick_spec hfound
    refine ⟨row, hrow, ?_⟩
    simp only at hok
    split at hok
    · cases Except.ok.inj hok
      have hstate := applyState_state view.row.lastExitSignalKey h.same
      refine ⟨⟨h.row_kept.1, h.row_kept.2.1⟩, ?_, ?_, by simp, .inl ⟨h.row_kept.2.2, rfl⟩⟩
      · simpa only [hstate] using h.replayed
      · simpa only [hstate, h.previous_eq] using h.completed
    next exit horizon hsignal =>
      cases hemit : emitExit service now holding input find view.row view.linked
          view.previous view.replay.state exit horizon with
      | error e => rw [hemit] at hok; cases hok
      | ok written =>
        rw [hemit] at hok
        cases Except.ok.inj hok
        exact emitExit_spec h hsignal hemit

theorem exitPending_false (hok : exitPending now previous = .ok false) :
    ∀ r ∈ previous, Ended now r := by
  rintro r rfl
  simp only [exitPending] at hok
  split at hok
  · cases hok
  next hnotClaimed =>
  split at hok
  next hended =>
    rcases hended with hsucceeded | hfailed | hrejected
    · exact Or.inl hsucceeded
    · exact Or.inr (Or.inl hfailed)
    · cases hstatus : r.row.paperExecutionStatus with
      | none => exact Or.inr (Or.inr ⟨hstatus, Or.inl hrejected⟩)
      | some status =>
        cases status with
        | claimed => exact absurd hstatus hnotClaimed
        | succeeded => exact Or.inl hstatus
        | failed => exact Or.inr (Or.inl hstatus)
  next hopen =>
  split at hok
  · cases hok
  next validUntil hvalidUntil =>
  refine Or.inr (Or.inr ⟨?_, Or.inr ⟨validUntil, hvalidUntil, ?_⟩⟩)
  · cases hstatus : r.row.paperExecutionStatus with
    | none => rfl
    | some status => cases status <;> simp [hstatus] at hnotClaimed hopen
  · simpa using Except.ok.inj hok

theorem realtimeTrendExit_spec {quantity : Decimal} {triggered : Option Decimal}
    (hok : realtimeTrendExit service now holding quantity triggered stored find = .ok (some
      outcome)) :
    ∃ row, Loaded holding stored row ∧ Written service now holding find row outcome := by
  unfold realtimeTrendExit at hok
  split at hok
  · cases hok
  next row hrow =>
  obtain ⟨hstored, hmatches⟩ := Option.filter_eq_some_iff.mp hrow
  obtain ⟨pending, hpending, hok⟩ := bind_ok_iff.mp hok
  split at hok
  · cases hok
  next hopen =>
  obtain rfl : pending = false := by simpa using hopen
  obtain ⟨loaded, hloaded, hok⟩ := bind_ok_iff.mp hok
  obtain ⟨hvalid, hstate, -⟩ := loadState_spec hloaded
  rw [hstate] at hvalid
  split at hok
  · cases hok
  split at hok
  · cases hok
  obtain ⟨key, hkey, hok⟩ := bind_ok_iff.mp hok
  obtain rfl := positionRecommendationId_ok hkey
  split at hok
  · cases hok
  next hfresh =>
  obtain ⟨-, -, hok⟩ := bind_ok_iff.mp hok
  cases Except.ok.inj hok
  refine ⟨row, ⟨hvalid, hmatches, .inl ⟨row, hstored, hmatches, rfl, rfl⟩⟩, ⟨rfl, rfl⟩,
    .refl hvalid, Or.inl, by simp, .inr ⟨_, rfl, ?_, fun _ => exitPending_false hpending,
    .inr ⟨by simpa using hfresh, _, rfl, rfl, rfl, rfl, rfl⟩⟩⟩
  have hcycle : row.state.positionCycleId = some holding.positionId := by
    simp only [PositionStateRow.matchesHolding, decide_eq_true_eq] at hmatches
    exact hmatches.1
  exact hcycle.symm

end KAssetTrader.Manager
