import KAssetTrader.Backtest.Loop

/-!
What one action of the loop can do to the state, as a relation with a case for
each of its ways. Every state that the loop reaches is the end of a trace of
such steps at instants that do not decrease, and every invariant of the loop is
proved over traces.
-/

namespace KAssetTrader.Backtest

open Dict PortfolioBacktest Position Sizing Checked

structure OpenPrice.IsAt (reference : OpenPrice) (now : Instant) : Prop where
  timestamp : reference.timestamp = now
  positive : 0 < reference.price

def Day.Quoted (day : Day) : Prop := ∀ row ∈ day.current, row.2.Quoted

section Step

variable (engine : Engine) (config : PortfolioBacktestConfig)

inductive Step (now : Instant) (s : RunState) : RunState → Prop
  | same : Step now s s
  | skipEntry {order : PendingEntry} {signal : PortfolioSignal} {reference : OpenPrice}
      {reason : String} :
      s.pendingEntries.get? order.key = some order →
      s.signals[order.signalIndex]? = some signal → reference.IsAt now →
      reason ≠ "position_already_closed" →
      Step now s (s.resolveEntry order (signal.skip reference reason))
  | fillEntry {order : PendingEntry} {signal : PortfolioSignal} {reference : OpenPrice}
      {fillPrice quantity bound lotSize : Decimal} {managerState : ManagedPositionState} :
      s.pendingEntries.get? order.key = some order →
      s.signals[order.signalIndex]? = some signal → reference.IsAt now →
      s.positions.size < config.maxPositions → 0 < fillPrice → 0 < quantity → 0 < lotSize →
      quantity = roundToLot engine.ctx
        (min bound (affordableQuantity engine (config.costFor order.key.market) s.cash fillPrice))
        lotSize →
      Step now s (fillEntry engine config s order signal reference fillPrice quantity managerState)
  | skipExit {order : PendingExit} {signal : PortfolioSignal} {reference : OpenPrice}
      {reason : String} :
      s.pendingExits.get? order.key = some order →
      s.signals[order.signalIndex]? = some signal → reference.IsAt now →
      (reason = "position_already_closed" → s.positions.get? order.key = none) →
      Step now s (s.resolveExit order (signal.skip reference reason))
  | fillExit {order : PendingExit} {signal : PortfolioSignal} {reference : OpenPrice}
      {position : PortfolioPosition} {quantity lotSize : Decimal} :
      s.pendingExits.get? order.key = some order →
      s.signals[order.signalIndex]? = some signal → reference.IsAt now →
      s.positions.get? order.key = some position → 0 < quantity → 0 < lotSize →
      (quantity = position.quantity ∨ order.quantityFraction < 1 ∧
        quantity = roundToLot engine.ctx
          (engine.ctx.mul position.quantity order.quantityFraction) lotSize) →
      Step now s (fillExit engine config s order signal reference position quantity)
  | mark {key : CandidateKey} {close : Decimal} :
      Step now s { s with positions := s.positions.modify key fun position =>
        { position with lastClose := close } }
  | record : Step now s (recordEquity engine s now)
  | manage {key : CandidateKey} {barsHeld : ℤ} {managerState : ManagedPositionState} :
      Step now s (s.manage key barsHeld managerState)
  | queueExit {key : CandidateKey} {barsHeld : ℤ} {managerState : ManagedPositionState}
      {position : PortfolioPosition} {observedBarCount : ℕ} {exit : PositionExitSignal} :
      s.positions.get? key = some position → s.pendingExits.get? key = none →
      position.entryAt < now →
      Step now s (queueExit (s.manage key barsHeld managerState) key now observedBarCount exit)
  | queueEntry {candidate : CandidateRankResult} {observedBarCount : ℕ} {atr : Decimal}
      {rankPosition : ℤ} {regime : MarketRegime} {entry : EntrySignalDecision} :
      s.positions.get? candidate.key = none → s.pendingEntries.get? candidate.key = none →
      Step now s (queueEntry s candidate now observedBarCount atr rankPosition regime entry)

def RunState.initial (cash : Decimal) : RunState := { cash, peakEquity := cash }

/-- The states that steps reach while time passes. -/
inductive Trace : Instant → RunState → Prop
  | start (now : Instant) : Trace now (.initial config.initialCash)
  | step {now : Instant} {s t : RunState} : Trace now s → Step engine config now s t → Trace now t
  | later {now now' : Instant} {s : RunState} : Trace now s → now < now' → Trace now' s

abbrev Steps (now : Instant) : RunState → RunState → Prop :=
  Relation.ReflTransGen (Step engine config now)

end Step

/-- Every pending order is kept under its own key. -/
structure RunState.Keyed (s : RunState) : Prop where
  entry : ∀ key order, s.pendingEntries.get? key = some order → order.key = key
  exit : ∀ key order, s.pendingExits.get? key = some order → order.key = key

variable {engine : Engine} {config : PortfolioBacktestConfig} {now : Instant} {s t : RunState}

/-- What holds at the start, is preserved by every step and is not undone by
the passage of time holds at the end of every trace. -/
theorem Trace.invariant {P : Instant → RunState → Prop}
    (hstart : ∀ now, P now (.initial config.initialCash))
    (hstep : ∀ now s t, P now s → Step engine config now s t → P now t)
    (hlater : ∀ now now' s, P now s → now < now' → P now' s)
    (h : Trace engine config now s) : P now s := by
  induction h with
  | start now => exact hstart now
  | step _ hst ih => exact hstep _ _ _ ih hst
  | later _ hnow ih => exact hlater _ _ _ ih hnow

theorem Trace.steps (h : Trace engine config now s)
    (hsteps : Steps engine config now s t) : Trace engine config now t := by
  induction hsteps with
  | refl => exact h
  | tail _ hst ih => exact .step ih hst

/-- An order is queued under the key of its candidate or of its position. -/
theorem RunState.Keyed.step (h : s.Keyed) (hstep : Step engine config now s t) : t.Keyed := by
  cases hstep with
  | same | mark | record | manage => exact ⟨h.entry, h.exit⟩
  | skipEntry | fillEntry =>
    exact ⟨fun key order horder => h.entry key order (of_get?_erase horder).2, h.exit⟩
  | skipExit | fillExit =>
    exact ⟨h.entry, fun key order horder => h.exit key order (of_get?_erase horder).2⟩
  | queueExit =>
    refine ⟨h.entry, fun key order horder => ?_⟩
    rcases of_get?_set horder with ⟨rfl, rfl⟩ | ⟨_, hold⟩
    · rfl
    · exact h.exit key order hold
  | queueEntry =>
    refine ⟨fun key order horder => ?_, h.exit⟩
    rcases of_get?_set horder with ⟨rfl, rfl⟩ | ⟨_, hold⟩
    · rfl
    · exact h.entry key order hold

theorem sizing_reason_ne (codes : String) :
    "position_sizing:" ++ codes ≠ "position_already_closed" := by
  intro h
  have hlist := congrArg String.toList h
  rw [String.toList_append] at hlist
  simp at hlist

variable {opens : List (CandidateKey × OpenPrice)} {order : PendingEntry} {day : Day}
  {regimes : MarketKey → RegimeAssessment} {loop : Loop} {key : CandidateKey}

theorem executeEntry_cases (h : executeEntry engine config opens s order = .ok t) :
    ∃ reference signal, opens.lookup order.key = some reference ∧
      s.signals[order.signalIndex]? = some signal ∧
      ((∃ reason, reason ≠ "position_already_closed" ∧
          t = s.resolveEntry order (signal.skip reference reason)) ∨
        ∃ fillPrice quantity bound lotSize managerState, s.positions.size < config.maxPositions ∧
          0 < fillPrice ∧ 0 < quantity ∧ 0 < lotSize ∧
          quantity = roundToLot engine.ctx (min bound
            (affordableQuantity engine (config.costFor order.key.market) s.cash fillPrice))
            lotSize ∧
          t = fillEntry engine config s order signal reference fillPrice quantity
            managerState) := by
  unfold executeEntry at h
  split at h
  next reference signal hreference hsignal =>
    refine ⟨reference, signal, hreference, hsignal, ?_⟩
    simp only at h
    split at h
    · exact .inl ⟨_, by decide, (Except.ok.inj h).symm⟩
    next hsize =>
      split at h
      · exact .inl ⟨_, sizing_reason_ne _, (Except.ok.inj h).symm⟩
      · split at h
        · exact .inl ⟨_, by decide, (Except.ok.inj h).symm⟩
        next hquantity =>
          split at h
          · exact .inl ⟨_, by decide, (Except.ok.inj h).symm⟩
          next managerState hmanager =>
            refine .inr ⟨_, _, _, _, managerState, not_le.mp hsize, ?_,
              not_le.mp hquantity, ?_, rfl, (Except.ok.inj h).symm⟩
            · unfold initializePosition at hmanager
              split at hmanager
              · cases hmanager
              next hprice => exact not_le.mp hprice
            · rw [entrySizing, calculatePositionSize_lotSize]
              exact config.positionSizing.lotSize_pos _
  · cases h

theorem executeExit_cases {order : PendingExit}
    (h : executeExit engine config opens s order = .ok t) :
    ∃ reference signal, opens.lookup order.key = some reference ∧
      s.signals[order.signalIndex]? = some signal ∧
      ((∃ reason, (reason = "position_already_closed" → s.positions.get? order.key = none) ∧
          t = s.resolveExit order (signal.skip reference reason)) ∨
        ∃ position quantity lotSize, s.positions.get? order.key = some position ∧ 0 < quantity ∧
          0 < lotSize ∧
          (quantity = position.quantity ∨ order.quantityFraction < 1 ∧
            quantity = roundToLot engine.ctx
              (engine.ctx.mul position.quantity order.quantityFraction) lotSize) ∧
          t = fillExit engine config s order signal reference position quantity) := by
  unfold executeExit at h
  split at h
  next reference signal hreference hsignal =>
    refine ⟨reference, signal, hreference, hsignal, ?_⟩
    simp only at h
    split at h
    next hposition => exact .inl ⟨_, fun _ => hposition, (Except.ok.inj h).symm⟩
    next position hposition =>
      split at h
      · exact .inl ⟨_, fun hreason => absurd hreason (by decide), (Except.ok.inj h).symm⟩
      next hquantity =>
        refine .inr ⟨position, _, config.positionSizing.lotSize
          (executionMarket order.key.market), hposition, not_le.mp hquantity,
          config.positionSizing.lotSize_pos _, ?_, (Except.ok.inj h).symm⟩
        unfold exitQuantity
        split
        · exact .inl rfl
        next hfraction => exact .inr ⟨not_le.mp hfraction, rfl⟩
  · cases h

/-- Queueing an exit is one step of the loop, or none. -/
theorem queuePositionExit_step (h : queuePositionExit engine config day regimes loop key = .ok t) :
    Step engine config day.timestamp loop.state t := by
  unfold queuePositionExit at h
  simp only at h
  split at h
  · cases h
    exact .same
  next position hposition =>
    split at h
    · cases h
      exact .same
    next hguard =>
      obtain ⟨_, hpending, hentry⟩ := not_or.mp hguard |>.imp_right not_or.mp
      obtain ⟨decision, _, h⟩ := bind_ok_iff.mp h
      split at h
      · cases h
      · obtain ⟨bar, _, h⟩ := bind_ok_iff.mp h
        obtain ⟨evaluation, _, h⟩ := bind_ok_iff.mp h
        cases h
        split
        · exact .manage
        · exact .queueExit hposition (Option.not_isSome_iff_eq_none.mp hpending)
            (not_le.mp hentry)

/-- Queueing an entry is one step of the loop, or none. -/
theorem queueCandidate_step {entryPath : PortfolioEntryPath} {candidate : CandidateRankResult}
    (h : queueCandidate engine entryPath day regimes loop candidate = .ok t) :
    Step engine config day.timestamp loop.state t := by
  unfold queueCandidate at h
  simp only at h
  split at h
  · cases h
    exact .same
  next hguard =>
    obtain ⟨_, hposition, hrest⟩ := not_or.mp hguard |>.imp_right not_or.mp
    have hpending := (not_or.mp hrest).1
    split at h
    · obtain ⟨entry, _, h⟩ := bind_ok_iff.mp h
      cases h
      split
      · exact .same
      · exact .queueEntry (Option.not_isSome_iff_eq_none.mp hposition)
          (Option.not_isSome_iff_eq_none.mp hpending)
    · cases h
      exact .same

/-- What an action needs of the state: its order is pending, and its prices are
those of the instant. -/
def Action.Ready (now : Instant) (s : RunState) : Action → Prop
  | .executeExit opens order =>
    (∀ reference, opens.lookup order.key = some reference → reference.IsAt now) ∧
      s.pendingExits.get? order.key = some order
  | .executeEntry opens order =>
    (∀ reference, opens.lookup order.key = some reference → reference.IsAt now) ∧
      s.pendingEntries.get? order.key = some order
  | _ => True

/-- The first action leaves the order of the second one pending. -/
def Action.Independent : Action → Action → Prop
  | .executeExit _ first, .executeExit _ second => first.key ≠ second.key
  | .executeEntry _ first, .executeEntry _ second => first.key ≠ second.key
  | _, .executeExit _ _ => False
  | _, .executeEntry _ _ => False
  | _, _ => True

variable {b : PortfolioBacktest} {prepared : Prepared} {day : Day} {loop loop' : Loop}
  {action later : Action}

/-- An action that is ready when its instant comes is one step of the loop. -/
theorem perform_step (hready : action.Ready day.timestamp loop.state)
    (h : b.perform day loop action = .ok loop') :
    Step b.engine b.config day.timestamp loop.state loop'.state := by
  cases action with
  | executeExit opens order =>
    obtain ⟨hprice, hpending⟩ := hready
    obtain ⟨state, hstate, h⟩ := bind_ok_iff.mp h
    cases h
    obtain ⟨reference, signal, hreference, hsignal, hcases⟩ := executeExit_cases hstate
    have hnow := hprice reference hreference
    rcases hcases with ⟨reason, hclosed, rfl⟩ |
      ⟨position, quantity, lotSize, hposition, hpositive, hlot, hquantity, rfl⟩
    · exact .skipExit hpending hsignal hnow hclosed
    · exact .fillExit hpending hsignal hnow hposition hpositive hlot hquantity
  | executeEntry opens order =>
    obtain ⟨hprice, hpending⟩ := hready
    obtain ⟨state, hstate, h⟩ := bind_ok_iff.mp h
    cases h
    obtain ⟨reference, signal, hreference, hsignal, hcases⟩ := executeEntry_cases hstate
    have hnow := hprice reference hreference
    rcases hcases with ⟨reason, hreason, rfl⟩ |
      ⟨fillPrice, quantity, bound, lotSize, managerState, hsize, hfill, hpositive, hlot,
        hquantity, rfl⟩
    · exact .skipEntry hpending hsignal hnow hreason
    · exact .fillEntry hpending hsignal hnow hsize hfill hpositive hlot hquantity
  | appendBar key bar =>
    cases h
    exact .mark
  | recordEquity =>
    cases h
    exact .record
  | queueExit regimes key =>
    obtain ⟨state, hstate, h⟩ := bind_ok_iff.mp h
    cases h
    exact queuePositionExit_step hstate
  | queueEntry regimes candidate =>
    obtain ⟨state, hstate, h⟩ := bind_ok_iff.mp h
    cases h
    exact queueCandidate_step hstate

theorem executeExit_pending {order : PendingExit}
    (h : executeExit engine config opens s order = .ok t) :
    t.pendingExits = s.pendingExits.erase order.key := by
  obtain ⟨_, _, _, _, ⟨_, _, rfl⟩ | ⟨_, _, _, _, _, _, _, rfl⟩⟩ := executeExit_cases h
  · rfl
  · rfl

theorem executeEntry_pending (h : executeEntry engine config opens s order = .ok t) :
    t.pendingEntries = s.pendingEntries.erase order.key := by
  obtain ⟨_, _, _, _, ⟨_, _, rfl⟩ | ⟨_, _, _, _, _, _, _, _, _, _, rfl⟩⟩ := executeEntry_cases h
  · rfl
  · rfl

theorem Action.Ready.perform (hlater : later.Ready day.timestamp loop.state)
    (hindependent : action.Independent later) (h : b.perform day loop action = .ok loop') :
    later.Ready day.timestamp loop'.state := by
  cases later with
  | executeExit opens order =>
    cases action with
    | executeExit opens' first =>
      obtain ⟨state, hstate, h⟩ := bind_ok_iff.mp h
      cases h
      refine ⟨hlater.1, ?_⟩
      rw [executeExit_pending hstate, get?_erase, if_neg (Ne.symm hindependent)]
      exact hlater.2
    | _ => exact hindependent.elim
  | executeEntry opens order =>
    cases action with
    | executeEntry opens' first =>
      obtain ⟨state, hstate, h⟩ := bind_ok_iff.mp h
      cases h
      refine ⟨hlater.1, ?_⟩
      rw [executeEntry_pending hstate, get?_erase, if_neg (Ne.symm hindependent)]
      exact hlater.2
    | _ => exact hindependent.elim
  | _ => trivial

theorem executionPrices_isAt (hquoted : day.Quoted) {reference : OpenPrice}
    (h : (b.executionPrices day loop).lookup key = some reference) :
    reference.IsAt day.timestamp := by
  have hprices (price : PriceBar → Decimal) (hprice : ∀ row ∈ day.current, 0 < price row.2) :
      (prices price day loop).lookup key = some reference → reference.IsAt day.timestamp := by
    intro hlookup
    obtain ⟨before, after, hsplit, _⟩ := List.lookup_eq_some_iff.mp hlookup
    have hmem : (key, reference) ∈ prices price day loop := by rw [hsplit]; simp
    obtain ⟨row, hrow, heq⟩ := List.mem_map.mp hmem
    cases heq
    exact ⟨rfl, hprice row hrow⟩
  unfold executionPrices at h
  split at h
  · exact hprices _ (fun row hrow => (hquoted row hrow).1) h
  · exact hprices _ (fun row hrow => (hquoted row hrow).2) h

theorem dueExits_pending (config : PortfolioBacktestConfig) (hkeyed : s.Keyed)
    (opens : List (CandidateKey × OpenPrice)) :
    (∀ order ∈ dueExits config opens s, s.pendingExits.get? order.key = some order) ∧
      (dueExits config opens s).Pairwise fun a b => a.key ≠ b.key := by
  constructor
  · intro order horder
    obtain ⟨e, he, rfl⟩ := List.mem_map.mp ((List.mem_insertionSort _).mp horder)
    have hget := (get?_eq_some _).mpr (List.mem_filter.mp he).1
    rw [hkeyed.exit e.1 e.2 hget]
    exact hget
  · refine List.Pairwise.of_map PendingExit.key (fun _ _ hne => hne) ?_
    exact ((List.perm_insertionSort _ _).map _).nodup_iff.mpr
      (nodup_filter_values PendingExit.key hkeyed.exit _)

theorem dueEntries_pending (config : PortfolioBacktestConfig) (hkeyed : s.Keyed)
    (opens : List (CandidateKey × OpenPrice)) :
    (∀ order ∈ dueEntries config opens s, s.pendingEntries.get? order.key = some order) ∧
      (dueEntries config opens s).Pairwise fun a b => a.key ≠ b.key := by
  constructor
  · intro order horder
    obtain ⟨e, he, rfl⟩ := List.mem_map.mp ((List.mem_insertionSort _).mp horder)
    have hget := (get?_eq_some _).mpr (List.mem_filter.mp he).1
    rw [hkeyed.entry e.1 e.2 hget]
    exact hget
  · refine List.Pairwise.of_map PendingEntry.key (fun _ _ hne => hne) ?_
    exact ((List.perm_insertionSort _ _).map _).nodup_iff.mpr
      (nodup_filter_values PendingEntry.key hkeyed.entry _)

theorem actions_ready {phase : Phase} {actions : List Action} (hquoted : day.Quoted)
    (hkeyed : loop.state.Keyed)
    (h : b.actions prepared day loop phase = .ok actions) :
    (∀ action ∈ actions, action.Ready day.timestamp loop.state) ∧
      actions.Pairwise Action.Independent := by
  cases phase with
  | executeExits =>
    cases h
    obtain ⟨hpending, hnodup⟩ :=
      dueExits_pending b.config hkeyed (b.executionPrices day loop)
    constructor
    · intro action haction
      obtain ⟨order, horder, rfl⟩ := List.mem_map.mp haction
      exact ⟨fun reference => executionPrices_isAt hquoted, hpending order horder⟩
    · exact hnodup.map _ fun _ _ hne => hne
  | executeEntries =>
    cases h
    obtain ⟨hpending, hnodup⟩ :=
      dueEntries_pending b.config hkeyed (b.executionPrices day loop)
    constructor
    · intro action haction
      obtain ⟨order, horder, rfl⟩ := List.mem_map.mp haction
      exact ⟨fun reference => executionPrices_isAt hquoted, hpending order horder⟩
    · exact hnodup.map _ fun _ _ hne => hne
  | appendBars =>
    cases h
    exact ⟨List.forall_mem_map.mpr fun _ _ => trivial,
      List.pairwise_map.mpr (List.pairwise_of_forall fun _ _ => trivial)⟩
  | recordEquity =>
    cases h
    exact ⟨List.forall_mem_singleton.mpr trivial, List.pairwise_singleton _ _⟩
  | queueExits =>
    obtain ⟨regimes, _, h⟩ := bind_ok_iff.mp h
    cases h
    exact ⟨List.forall_mem_map.mpr fun _ _ => trivial,
      List.pairwise_map.mpr (List.pairwise_of_forall fun _ _ => trivial)⟩
  | queueEntries =>
    obtain ⟨regimes, _, h⟩ := bind_ok_iff.mp h
    obtain ⟨returns, _, h⟩ := bind_ok_iff.mp h
    obtain ⟨ranked, _, h⟩ := bind_ok_iff.mp h
    cases h
    exact ⟨List.forall_mem_map.mpr fun _ _ => trivial,
      List.pairwise_map.mpr (List.pairwise_of_forall fun _ _ => trivial)⟩

theorem RunState.Keyed.steps (h : s.Keyed) (hsteps : Steps engine config now s t) : t.Keyed := by
  induction hsteps with
  | refl => exact h
  | tail _ hst ih => exact ih.step hst

section

variable (hquoted : day.Quoted) (hkeyed : loop.state.Keyed)
include hquoted hkeyed

theorem visits_steps {phase : Phase} {actions : List Action}
    (h : b.actions prepared day loop phase = .ok actions)
    (hvisits : Visits (b.perform day) loop actions loop') :
    Steps b.engine b.config day.timestamp loop.state loop'.state := by
  obtain ⟨hready, hindependent⟩ := actions_ready hquoted hkeyed h
  obtain ⟨rest, hsteps, _⟩ := hvisits.rest
    (P := fun rest (l : Loop) => Steps b.engine b.config day.timestamp loop.state l.state ∧
      (∀ action ∈ rest, action.Ready day.timestamp l.state) ∧ rest.Pairwise Action.Independent)
    (fun l action rest l' hl hperform => by
      obtain ⟨hsteps, hready, hindependent⟩ := hl
      rw [List.pairwise_cons] at hindependent
      refine ⟨hsteps.tail (perform_step (hready action (by simp)) hperform), ?_,
        hindependent.2⟩
      intro later hlater
      exact (hready later (List.mem_cons_of_mem action hlater)).perform
        (hindependent.1 later hlater) hperform)
    ⟨.refl, hready, hindependent⟩
  exact hsteps

theorem runPhase_steps {phase : Phase} (h : b.runPhase prepared day loop phase = .ok loop') :
    Steps b.engine b.config day.timestamp loop.state loop'.state := by
  obtain ⟨actions, hactions, hrun⟩ := bind_ok_iff.mp h
  exact visits_steps hquoted hkeyed hactions (visits_end hrun)

theorem phases_steps {phases : List Phase}
    (h : phases.foldlM (b.runPhase prepared day) loop = .ok loop') :
    Steps b.engine b.config day.timestamp loop.state loop'.state :=
  foldlM_invariant (P := fun l : Loop =>
      Steps b.engine b.config day.timestamp loop.state l.state)
    (fun _ _ _ _ hsteps hphase => hsteps.trans
      (runPhase_steps hquoted (hkeyed.steps hsteps) hphase))
    .refl h

theorem runDay_steps (h : b.runDay prepared loop day = .ok loop') :
    Steps b.engine b.config day.timestamp loop.state loop'.state :=
  phases_steps hquoted hkeyed h

end

theorem Trace.keyed (h : Trace engine config now s) : s.Keyed := by
  induction h with
  | start => exact ⟨nofun, nofun⟩
  | step _ hst ih => exact ih.step hst
  | later _ _ ih => exact ih

theorem days_pairwise (rows : List (CandidateKey × PriceBar)) :
    (PortfolioBacktest.days rows).Pairwise fun a b => a.timestamp < b.timestamp := by
  have hsorted : (timestamps rows).Pairwise (· ≤ ·) :=
    List.pairwise_insertionSort _ _
  have hnodup : (timestamps rows).Nodup :=
    (List.perm_insertionSort _ _).nodup_iff.mpr (List.nodup_dedup _)
  have hstrict : (timestamps rows).Pairwise (· < ·) :=
    hsorted.imp₂ (fun _ _ hle hne => lt_of_le_of_ne hle hne) hnodup
  exact hstrict.map _ fun _ _ hlt => hlt

theorem prepare_ok (h : b.prepare = .ok prepared) :
    validateCandidates b.candidates = .ok prepared.metadata ∧
      normalizeCandidateBars prepared.metadata b.barsByCandidate = .ok prepared.bars ∧
      normalizeBenchmarks b.benchmarkBarsByMarket = .ok prepared.benchmarks.byMarket ∧
      normalizeCandidateBenchmarks prepared.metadata b.benchmarkBarsByCandidate =
        .ok prepared.benchmarks.byCandidate := by
  obtain ⟨metadata, hmetadata, h⟩ := bind_ok_iff.mp h
  split at h
  · cases h
  · obtain ⟨bars, hbars, h⟩ := bind_ok_iff.mp h
    obtain ⟨byMarket, hmarket, h⟩ := bind_ok_iff.mp h
    obtain ⟨byCandidate, hcandidate, h⟩ := bind_ok_iff.mp h
    split at h
    · cases h
    · cases h
      exact ⟨hmetadata, hbars, hmarket, hcandidate⟩

theorem days_quoted (hprepared : b.prepare = .ok prepared) :
    ∀ day ∈ PortfolioBacktest.days (b.eventRows prepared.bars), day.Quoted := by
  intro day hday row hrow
  obtain ⟨timestamp, _, rfl⟩ := List.mem_map.mp hday
  have hrow := (List.mem_filter.mp ((List.mem_insertionSort _).mp hrow)).1
  obtain ⟨⟨key, bars⟩, hbars, hrow⟩ := List.mem_flatMap.mp hrow
  obtain ⟨bar, hbar, rfl⟩ := List.mem_map.mp hrow
  exact (normalizeCandidateBars_ok (prepare_ok hprepared).2.1).2 _ hbars bar
    (List.mem_filter.mp hbar).1

theorem days_trace {done rest : List Day}
    (hdays : (done ++ rest).Pairwise fun a b => a.timestamp < b.timestamp)
    (hquoted : ∀ day ∈ done ++ rest, day.Quoted)
    (hrun : done.foldlM (b.runDay prepared) (b.start prepared) = .ok loop) :
    ∀ day ∈ rest, Trace b.engine b.config day.timestamp loop.state := by
  have hrest := foldlM_rest (P := fun rest (l : Loop) =>
      (rest.Pairwise fun a b : Day => a.timestamp < b.timestamp) ∧
        (∀ day ∈ rest, day.Quoted) ∧
        ∀ day ∈ rest, Trace b.engine b.config day.timestamp l.state)
    (fun l day rest l' hl hday => by
      obtain ⟨hpairwise, hquoted, htrace⟩ := hl
      rw [List.pairwise_cons] at hpairwise
      obtain ⟨hquotedDay, hquoted⟩ := List.forall_mem_cons.mp hquoted
      have hnow := htrace day (by simp)
      exact ⟨hpairwise.2, hquoted, fun later hlater =>
        .later (hnow.steps (runDay_steps hquotedDay hnow.keyed hday))
          (hpairwise.1 later hlater)⟩)
    ⟨hdays, hquoted, fun day _ => .start _⟩ hrun
  exact hrest.2.2

theorem reaches_trace (h : b.Reaches loop) :
    ∃ now, Trace b.engine b.config now loop.state := by
  obtain ⟨prepared, hprepared, rfl | hvisits⟩ := h
  · exact ⟨0, .start 0⟩
  · obtain ⟨done, day, rest, before, hdays, hbefore, hvisits⟩ := hvisits
    obtain ⟨phasesDone, phase, phasesRest, u, _, hphases, actions, hactions, hvisits⟩ := hvisits
    have hquoted := days_quoted hprepared
    rw [hdays] at hquoted
    have htrace : Trace b.engine b.config day.timestamp before.state :=
      days_trace (hdays ▸ days_pairwise _) hquoted hbefore day (by simp)
    have hday := hquoted day (by simp)
    have hu := htrace.steps (phases_steps hday htrace.keyed hphases)
    exact ⟨day.timestamp, hu.steps (visits_steps hday hu.keyed hactions hvisits)⟩

theorem visitsInside_end {σ α : Type*} {f : σ → α → Except String σ} {inside : σ → α → σ → Prop}
    (hinside : ∀ s a t, f s a = .ok t → inside s a t) {s t : σ} {l : List α} (hl : l ≠ [])
    (h : l.foldlM f s = .ok t) : VisitsInside f inside s l t := by
  obtain ⟨done, last, rfl⟩ := List.eq_nil_or_concat' l |>.resolve_left hl
  rw [List.foldlM_append] at h
  obtain ⟨u, hu, hlast⟩ := bind_ok_iff.mp h
  rw [List.foldlM_cons] at hlast
  obtain ⟨t', ht', hlast⟩ := bind_ok_iff.mp hlast
  cases hlast
  exact ⟨done, last, [], u, rfl, hu, hinside u last _ ht'⟩

theorem phases_ne_nil (timestamp : Instant) : b.phases timestamp ≠ [] := by
  unfold phases
  cases b.config.entryFill with
  | nextOpen => simp
  | signalClose => simp

theorem reaches_end {timestamps : List Instant} (h : b.runLoop = .ok (timestamps, loop)) :
    b.Reaches loop := by
  obtain ⟨prepared, hprepared, h⟩ := bind_ok_iff.mp h
  simp only at h
  split at h
  · cases h
  · obtain ⟨final, hfinal, h⟩ := bind_ok_iff.mp h
    cases h
    refine ⟨prepared, hprepared, ?_⟩
    rcases eq_or_ne (days (b.eventRows prepared.bars)) [] with hnil | hdays
    · rw [hnil] at hfinal
      exact .inl (Except.ok.inj hfinal).symm
    · refine .inr (visitsInside_end (fun loop day loop' hday => ?_) hdays hfinal)
      refine visitsInside_end (fun loop phase loop' hphase => ?_) (phases_ne_nil _) hday
      obtain ⟨actions, hactions, hrun⟩ := bind_ok_iff.mp hphase
      exact ⟨actions, hactions, visits_end hrun⟩

end KAssetTrader.Backtest
