import KAssetTrader.Manager.World

/-!
At most one live exit recommendation per position cycle. A state row links the
last recommendation of its cycle, and a tick gives the link up only once that
recommendation has ended. So every open recommendation is the linked one, as
long as no claim selects a recommendation that the clock has already ended.
The link also proves every completed partial exit. A full exit that a tick finds
while the previous recommendation has not ended makes no second recommendation,
but the state that the replay ended with is persisted.
-/

namespace KAssetTrader.Manager

open World Position Recommendation Transition

section Live

variable {service : PositionManagerService} {portfolio : Portfolio} {w w' : World}
  {positionId : ℤ} {now : Instant} {find : RecommendationKey → Option ExitRecommendation}

section Ticks

variable {holding : Holding} {stored : Option PositionStateRow} {row : PositionStateRow}
  {outcome : TickOutcome}

theorem matchesHolding_iff : row.matchesHolding holding = true ↔
    row.state.positionCycleId = some holding.positionId ∧
      row.ownerUserId = holding.ownerUserId ∧ row.paperAccountId = holding.paperAccountId ∧
      row.state.market = holding.market ∧ row.state.symbol = holding.symbol ∧
      row.state.strategyVersion ≠ "" := by
  simp only [PositionStateRow.matchesHolding, decide_eq_true_eq]

section

variable (h : Written service now holding find row outcome)
include h

theorem Written.matchesHolding (hrow : row.matchesHolding holding = true) :
    outcome.row.matchesHolding holding = true := by
  obtain ⟨hcycle, howner, haccount, hmarket, hsymbol, hversion⟩ := matchesHolding_iff.mp hrow
  have hsame := h.evolves.same
  exact matchesHolding_iff.mpr ⟨hsame.positionCycleId.trans hcycle, h.row_kept.1.trans howner,
    h.row_kept.2.trans haccount, hsame.market.trans hmarket, hsame.symbol.trans hsymbol,
    hsame.strategyVersion ▸ hversion⟩

theorem Written.fresh {r : ExitRecommendation} (hr : outcome.created = some r) :
    find r.row.id = none ∧ r.row.paperExecutionStatus = none ∧
      r.row.paperExecutionAttemptCount = 0 ∧ r.row.id.cycle = row.state.positionCycleId ∧
      outcome.row.lastExitSignalKey = some r.row.id := by
  rcases h.linked with ⟨-, hnone⟩ | ⟨key, hkey, hcycle, -, ⟨hnone, -⟩ |
    ⟨hfresh, r', hr', rfl, hstatus, hcount, -⟩⟩
  · simp [hnone] at hr
  · simp [hnone] at hr
  · obtain rfl : r' = r := Option.some.inj (hr'.symm.trans hr)
    exact ⟨hfresh, hstatus, hcount, hcycle, hkey⟩

theorem Written.link_cycle {p : ℤ} (hcycle : row.state.positionCycleId = some p)
    (hlink : ∀ k ∈ row.lastExitSignalKey, k.cycle = some p) :
    ∀ k ∈ outcome.row.lastExitSignalKey, k.cycle = some p := by
  intro k hk
  rcases h.linked with ⟨hsame, -⟩ | ⟨key, hkey, hkeyCycle, -⟩
  · exact hlink k (hsame ▸ hk)
  · obtain rfl : key = k := Option.some.inj (hkey.symm.trans hk)
    exact hkeyCycle.trans hcycle

end

theorem Loaded.link (h : Loaded holding stored row) {k : RecommendationKey}
    (hk : row.lastExitSignalKey = some k) : ∃ old ∈ stored, old.lastExitSignalKey = some k := by
  rcases h.source with ⟨old, hold, -, -, hkey⟩ | ⟨-, hnone, -⟩
  · exact ⟨old, hold, hkey.symm.trans hk⟩
  · simp [hnone] at hk

theorem Loaded.of_stored (h : Loaded holding stored row) {old : PositionStateRow}
    (hold : stored = some old) (hmatches : old.matchesHolding holding = true) :
    row.lastExitSignalKey = old.lastExitSignalKey := by
  subst hold
  rcases h.source with ⟨old', hold', -, -, hkey⟩ | ⟨hnone, -⟩
  · obtain rfl : old = old' := Option.some.inj hold'
    exact hkey
  · simp [hmatches] at hnone

end Ticks

section Tables

variable {outcome : TickOutcome} {k : RecommendationKey} {e : StoredExit}

theorem World.exitsAfter_cases (h : w.exitsAfter now outcome k = some e) :
    (∃ r, outcome.created = some r ∧ r.row.id = k ∧ e = { exit := r }) ∨
      (outcome.superseded = some k ∧ ∃ e₀, w.exits k = some e₀ ∧ e = e₀.expire now) ∨
      (outcome.superseded ≠ some k ∧ w.exits k = some e) := by
  unfold exitsAfter at h
  split at h
  next r hr =>
    obtain ⟨hcreated, hid⟩ := Option.filter_eq_some_iff.mp hr
    exact .inl ⟨r, hcreated, by simpa using hid, (Option.some.inj h).symm⟩
  · split at h
    next hsuperseded =>
      obtain ⟨e₀, he₀, rfl⟩ := Option.map_eq_some_iff.mp h
      exact .inr (.inl ⟨hsuperseded, e₀, he₀, rfl⟩)
    next hsuperseded => exact .inr (.inr ⟨hsuperseded, h⟩)

theorem World.exitsAfter_kept {holding : Holding} {row : PositionStateRow}
    (h : Written service now holding w.find row outcome) (he : w.exits k = some e)
    (hsuperseded : outcome.superseded ≠ some k) : w.exitsAfter now outcome k = some e := by
  unfold exitsAfter
  split
  next r hr =>
    obtain ⟨hcreated, hid⟩ := Option.filter_eq_some_iff.mp hr
    obtain rfl : r.row.id = k := by simpa using hid
    have hfresh := (h.fresh hcreated).1
    simp [find, he] at hfresh
  · rw [if_neg hsuperseded, he]

end Tables

/-- The tables agree with each other: rows with their holdings, links with
their cycles, completed partial exits with the recommendations that prove them. -/
structure Coherent (portfolio : Portfolio) (w : World) : Prop where
  claims : ∀ k e, w.exits k = some e → Claims e.shared
  matching : ∀ p row, w.rows p = some row → row.matchesHolding (portfolio.holding p) = true
  cycles : ∀ p row, w.rows p = some row → ∀ k ∈ row.lastExitSignalKey, k.cycle = some p
  known : ∀ k e, w.exits k = some e → ∃ p, k.cycle = some p ∧ (w.rows p).isSome
  proved : ∀ p row, w.rows p = some row → row.state.partialExitCompleted = true →
    ∃ k e, w.exits k = some e ∧ k.cycle = some p ∧ ProvesPartial e.exit

/-- Every open recommendation is the one that the row of its cycle links. -/
def Linked (w : World) : Prop :=
  ∀ k e, w.exits k = some e → e.Open w.clock → ∀ p, k.cycle = some p →
    ∃ row, w.rows p = some row ∧ row.lastExitSignalKey = some k

def Produced (service : PositionManagerService) (portfolio : Portfolio) (w : World)
    (positionId : ℤ) (now : Instant) (outcome : TickOutcome) : Prop :=
  ∃ row, Loaded (portfolio.holding positionId) (w.rows positionId) row ∧
    Written service now (portfolio.holding positionId) w.find row outcome

variable {result : Except String (Option TickOutcome)}

theorem Coherent.write (h : Coherent portfolio w)
    (hproduced : ∀ outcome, result = .ok (some outcome) → Produced service portfolio w positionId
      now outcome) :
    Coherent portfolio (w.write positionId now result) := by
  unfold World.write
  split
  swap
  · exact h
  swap
  · exact h
  next outcome =>
  obtain ⟨row, hloaded, hwritten⟩ := hproduced outcome rfl
  have hcycle : row.state.positionCycleId = some positionId := by
    rw [(matchesHolding_iff.mp hloaded.matchesHolding).1, portfolio.holding_id]
  have hrow (p : ℤ) (row' : PositionStateRow)
      (hrow' : Function.update w.rows positionId (some outcome.row) p = some row') :
      (p = positionId ∧ row' = outcome.row) ∨ (p ≠ positionId ∧ w.rows p = some row') := by
    by_cases hp : p = positionId
    · subst hp
      exact .inl ⟨rfl, by simpa using hrow'.symm⟩
    · exact .inr ⟨hp, by simpa [hp] using hrow'⟩
  have hproof (k : RecommendationKey) (e : StoredExit) (he : w.exits k = some e)
      (hproves : ProvesPartial e.exit) : w.exitsAfter now outcome k = some e := by
    refine exitsAfter_kept hwritten he fun hsuperseded => ?_
    obtain ⟨-, r, hr, hnone⟩ := hwritten.superseded k hsuperseded
    obtain rfl : e.exit = r := by simpa [find, he] using hr
    simp [hproves.1] at hnone
  refine ⟨?_, ?_, ?_, ?_, ?_⟩
  · intro k e he
    rcases exitsAfter_cases he with ⟨r, hr, -, rfl⟩ | ⟨-, e₀, he₀, rfl⟩ | ⟨-, he₀⟩
    · obtain ⟨-, hstatus, hcount, -⟩ := hwritten.fresh hr
      exact created_claims ⟨hstatus, hcount, rfl, rfl⟩
    · have hclaims := h.claims k e₀ he₀
      exact ⟨hclaims.attempts_eq, hclaims.attempts_le, hclaims.current, hclaims.approved,
        hclaims.selected⟩
    · exact h.claims k e he₀
  · intro p row' hrow'
    rcases hrow p row' hrow' with ⟨rfl, rfl⟩ | ⟨-, hold⟩
    · exact hwritten.matchesHolding hloaded.matchesHolding
    · exact h.matching p row' hold
  · intro p row' hrow'
    rcases hrow p row' hrow' with ⟨rfl, rfl⟩ | ⟨-, hold⟩
    · refine hwritten.link_cycle hcycle fun k hk => ?_
      obtain ⟨old, hold, hkey⟩ := hloaded.link hk
      exact h.cycles p old hold k hkey
    · exact h.cycles p row' hold
  · intro k e he
    rcases exitsAfter_cases he with ⟨r, hr, rfl, -⟩ | ⟨-, e₀, he₀, -⟩ | ⟨-, he₀⟩
    · exact ⟨positionId, (hwritten.fresh hr).2.2.2.1.trans hcycle, by simp⟩
    all_goals
      obtain ⟨p, hp, hsome⟩ := h.known k _ he₀
      refine ⟨p, hp, ?_⟩
      by_cases hpos : p = positionId
      · simp [hpos]
      · simpa [hpos] using hsome
  · intro p row' hrow' hcompleted
    rcases hrow p row' hrow' with ⟨rfl, rfl⟩ | ⟨-, hold⟩
    · rcases hwritten.completed hcompleted with hbefore | ⟨r, hr, hproves⟩
      · rcases hloaded.source with ⟨old, hold, -, hstate, -⟩ | ⟨-, -, hopened⟩
        · obtain ⟨k, e, he, hk, hproves⟩ := h.proved p old hold (hstate ▸ hbefore)
          exact ⟨k, e, hproof k e he hproves, hk, hproves⟩
        · simp [hopened] at hbefore
      · obtain ⟨k, hk, hr⟩ := Option.bind_eq_some_iff.mp hr
        obtain ⟨e, he, rfl⟩ := Option.map_eq_some_iff.mp hr
        obtain ⟨old, hold, hkey⟩ := hloaded.link hk
        exact ⟨k, e, hproof k e he hproves, h.cycles p old hold k hkey, hproves⟩
    · obtain ⟨k, e, he, hk, hproves⟩ := h.proved p row' hold hcompleted
      exact ⟨k, e, hproof k e he hproves, hk, hproves⟩

/-- A tick on a position, from tables where every open recommendation is linked:
the link is given up only when the linked recommendation is not open any more. -/
theorem Linked.write (h : Linked w) (hcoherent : Coherent portfolio w)
    (hticks : w.Ticks positionId now)
    (hproduced : ∀ outcome, result = .ok (some outcome) → Produced service portfolio w positionId
      now outcome) :
    Linked (w.write positionId now result) := by
  unfold World.write
  split
  swap
  · exact h
  swap
  · exact h
  next outcome =>
  obtain ⟨hnow, -, hunlocked⟩ := hticks
  obtain ⟨row, hloaded, hwritten⟩ := hproduced outcome rfl
  have hcycle : row.state.positionCycleId = some positionId := by
    rw [(matchesHolding_iff.mp hloaded.matchesHolding).1, portfolio.holding_id]
  have hlocked (k : RecommendationKey) (e : StoredExit) (hk : row.lastExitSignalKey = some k)
      (he : w.exits k = some e) : e.locked = none := by
    obtain ⟨old, hold, hkey⟩ := hloaded.link hk
    exact hunlocked e (by simp [previous, Option.mem_def.mp hold, hkey, he])
  intro k e he hopen p hp
  rcases exitsAfter_cases he with ⟨r, hr, rfl, -⟩ | ⟨hsuperseded, e₀, he₀, rfl⟩ |
    ⟨hsuperseded, he₀⟩
  · -- The created recommendation is linked by the row that created it.
    obtain ⟨-, -, -, hrcycle, hlink⟩ := hwritten.fresh hr
    obtain rfl : p = positionId := Option.some.inj (hp.symm.trans (hrcycle.trans hcycle))
    exact ⟨outcome.row, by simp, hlink⟩
  · -- The superseded one is not open any more.
    obtain ⟨hlink, r, hr, hnone⟩ := hwritten.superseded k hsuperseded
    obtain rfl : e₀.exit = r := by simpa [find, he₀] using hr
    exact absurd hopen (StoredExit.expire_not_open hnone (hlocked k e₀ hlink he₀) hnow)
  · obtain ⟨old, hold, hkey⟩ := h k e he₀ hopen p hp
    by_cases hpos : p = positionId
    · subst hpos
      have hlink : row.lastExitSignalKey = some k :=
        (hloaded.of_stored hold (hcoherent.matching p old hold)).trans hkey
      refine ⟨outcome.row, by simp, ?_⟩
      rcases hwritten.linked with ⟨hsame, -⟩ | ⟨key, -, -, hended, -⟩
      · exact hsame.trans hlink
      · -- The link changed, so the linked recommendation had ended.
        have hnone : outcome.superseded = none := by
          cases hsup : outcome.superseded with
          | none => rfl
          | some k' =>
            have hk' := (hwritten.superseded k' hsup).1
            obtain rfl : k' = k := Option.some.inj (hk'.symm.trans hlink)
            exact absurd hsup hsuperseded
        have hfound : e.exit ∈ row.lastExitSignalKey.bind w.find := by
          simp [hlink, find, he₀]
        exact absurd hopen
          ((hended hnone e.exit hfound).not_open now (hlocked k e hlink he₀) hnow)
    · exact ⟨old, by simpa [hpos] using hold, hkey⟩

section Steps

variable {a : WorldAction}

/-- An action on a recommendation moves its shared row, and nothing else. -/
theorem recommendation_step {key : RecommendationKey} {action : RowAction RecommendationKey}
    (h : w.step service portfolio (.recommendation key action) = some w') :
    ∃ e shared, w.exits key = some e ∧ e.shared.step action = some shared ∧
      w' = { w with exits := Function.update w.exits key (some (e.withShared shared)) } := by
  simp only [step] at h
  split at h
  · obtain ⟨e, he, h⟩ := Option.bind_eq_some_iff.mp h
    obtain ⟨shared, hstep, h⟩ := Option.bind_eq_some_iff.mp h
    exact ⟨e, shared, he, hstep, (Option.some.inj h).symm⟩
  · cases h

/-- A tick writes what the evaluation of the position as it is held and stored has produced. -/
theorem tick_step (h : w.step service portfolio a = some w')
    (ha : (∃ now input, a = .manage positionId now input) ∨
      ∃ now quantity triggered, a = .realtime positionId now quantity triggered) :
    ∃ now result, w.Ticks positionId now ∧ w' = w.write positionId now result ∧
      ∀ outcome, result = .ok (some outcome) →
        Produced service portfolio w positionId now outcome := by
  rcases ha with ⟨now, input, rfl⟩ | ⟨now, quantity, triggered, rfl⟩
  · simp only [step] at h
    split at h
    next hticks =>
      exact ⟨now, _, hticks, (Option.some.inj h).symm, fun _ hok => managePosition_spec hok⟩
    · cases h
  · simp only [step] at h
    split at h
    next hticks =>
      exact ⟨now, _, hticks.1, (Option.some.inj h).symm,
        fun _ hok => realtimeTrendExit_spec hok⟩
    · cases h

theorem coherent_start (h : w.Start) : Coherent portfolio w := by
  obtain ⟨hrows, hexits, -⟩ := h
  exact ⟨by simp [hexits], by simp [hrows], by simp [hrows], by simp [hexits],
    by simp [hrows]⟩

/-- No step makes the tables disagree. -/
theorem Coherent.step (hinv : Coherent portfolio w)
    (h : w.step service portfolio a = some w') : Coherent portfolio w' := by
  cases a with
  | wait now =>
    simp only [step] at h
    split at h
    · cases h
      exact ⟨hinv.claims, hinv.matching, hinv.cycles, hinv.known, hinv.proved⟩
    · cases h
  | recommendation key action =>
    obtain ⟨e, shared, he, hstep, rfl⟩ := recommendation_step h
    have hexit (k : RecommendationKey) (e' : StoredExit)
        (he' : Function.update w.exits key (some (e.withShared shared)) k = some e') :
        (k = key ∧ e' = e.withShared shared) ∨ (k ≠ key ∧ w.exits k = some e') := by
      by_cases hk : k = key
      · subst hk
        exact .inl ⟨rfl, by simpa using he'.symm⟩
      · exact .inr ⟨hk, by simpa [hk] using he'⟩
    refine ⟨?_, hinv.matching, hinv.cycles, ?_, ?_⟩
    · intro k e' he'
      rcases hexit k e' he' with ⟨rfl, rfl⟩ | ⟨-, hold⟩
      · exact step_claims (hinv.claims k e he) hstep
      · exact hinv.claims k e' hold
    · intro k e' he'
      rcases hexit k e' he' with ⟨rfl, rfl⟩ | ⟨-, hold⟩
      · exact hinv.known k e he
      · exact hinv.known k e' hold
    · intro p row hrow hcompleted
      obtain ⟨k, e', he', hk, hproves⟩ := hinv.proved p row hrow hcompleted
      by_cases hkey : k = key
      · subst hkey
        obtain rfl : e = e' := Option.some.inj (he.symm.trans he')
        have hsame : shared.row = e.exit.row :=
          (hinv.claims k e he).terminal_step (.inl hproves.1) hstep
        refine ⟨k, e.withShared shared, by simp, hk, ?_⟩
        simpa [ProvesPartial, StoredExit.withShared, hsame,
          ExitRecommendation.storedExitKind] using hproves
      · exact ⟨k, e', by simpa [hkey] using he', hk, hproves⟩
  | manage positionId now input =>
    obtain ⟨_, _, -, rfl, hproduced⟩ := tick_step h (.inl ⟨_, _, rfl⟩)
    exact hinv.write hproduced
  | realtime positionId now quantity triggered =>
    obtain ⟨_, _, -, rfl, hproduced⟩ := tick_step h (.inr ⟨_, _, _, rfl⟩)
    exact hinv.write hproduced
  | close positionId =>
    cases h
    exact ⟨hinv.claims, hinv.matching, hinv.cycles, hinv.known, hinv.proved⟩

/-- A timely claim keeps every open recommendation the one that its row links. -/
theorem Linked.step (hinv : Linked w) (hcoherent : Coherent portfolio w)
    (htimely : w.TimelyClaim a) (h : w.step service portfolio a = some w') : Linked w' := by
  cases a with
  | wait now =>
    simp only [step] at h
    split at h
    next hle =>
      cases h
      exact fun k e he hopen => hinv k e he (hopen.earlier hle)
    · cases h
  | recommendation key action =>
    obtain ⟨e, shared, he, hstep, rfl⟩ := recommendation_step h
    intro k e' he' hopen p hp
    by_cases hk : k = key
    · subst hk
      obtain rfl : e.withShared shared = e' := by simpa using he'
      exact hinv k e he (open_of_step (htimely e he) hstep hopen) p hp
    · exact hinv k e' (by simpa [hk] using he') hopen p hp
  | manage positionId now input =>
    obtain ⟨_, _, hticks, rfl, hproduced⟩ := tick_step h (.inl ⟨_, _, rfl⟩)
    exact hinv.write hcoherent hticks hproduced
  | realtime positionId now quantity triggered =>
    obtain ⟨_, _, hticks, rfl, hproduced⟩ := tick_step h (.inr ⟨_, _, _, rfl⟩)
    exact hinv.write hcoherent hticks hproduced
  | close positionId =>
    cases h
    exact hinv

end Steps

/-- Per position cycle there is at most one live exit recommendation. -/
def World.OneLiveExit (w : World) : Prop :=
  ∀ p k k' e e', w.exits k = some e → w.exits k' = some e' →
    k.cycle = some p → k'.cycle = some p →
    Live e.exit w.clock → Live e'.exit w.clock → k = k'

/-- A completed partial exit of a cycle is proved by a recommendation of the
cycle to sell a part, which has succeeded. -/
def World.PartialProved (w : World) : Prop :=
  ∀ p row, w.rows p = some row → row.state.partialExitCompleted = true →
    ∃ k e, w.exits k = some e ∧ k.cycle = some p ∧
      e.exit.row.paperExecutionStatus = some .succeeded ∧
      e.exit.storedExitKind = some .partialSell

theorem reachable_coherent
    (h : Reachable World.Start (World.step service portfolio) w) : Coherent portfolio w :=
  invariant (fun _ hs => coherent_start hs) (fun _ _ _ hinv _ hst => hinv.step hst) h

theorem timely_linked
    (h : ReachableVia World.Start (World.step service portfolio) World.TimelyClaim w) :
    Linked w := by
  refine invariant_of_reachable (fun _ hs => ?_) (fun _ _ _ hreach hinv htimely hst => ?_) h
  · intro k e he
    simp [hs.2.1] at he
  · exact hinv.step (reachable_coherent (hreach.mono fun _ _ _ => trivial)) htimely hst

/-- Over every interleaving of ticks, realtime exits, reviews, claims and their
ends: a completed partial exit is proved, and as long as every first claim is
timely there is at most one live exit per cycle. -/
theorem one_live_exit :
    (∀ w, ReachableVia World.Start (World.step service portfolio) World.TimelyClaim w →
      w.OneLiveExit) ∧
    ∀ w, Reachable World.Start (World.step service portfolio) w → w.PartialProved := by
  refine ⟨fun w h => ?_, fun w h => (reachable_coherent h).proved⟩
  intro p k k' e e' he he' hk hk' hlive hlive'
  obtain ⟨row, hrow, hlink⟩ := timely_linked h k e he (.inr hlive) p hk
  obtain ⟨row', hrow', hlink'⟩ := timely_linked h k' e' he' (.inr hlive') p hk'
  obtain rfl : row = row' := Option.some.inj (hrow.symm.trans hrow')
  exact Option.some.inj (hlink.symm.trans hlink')

def krxHolding (p : ℤ) : Holding where
  positionId := p
  ownerUserId := 1
  paperAccountId := 1
  market := .krx
  symbol := "005930"
  createdAt := 15 * day

def krxPortfolio : Portfolio := ⟨krxHolding, fun _ => rfl⟩

/-- The tick that opens the state of the holding, after fifteen quiet days. -/
def openingTick : WorldAction :=
  .manage 1 (15 * day)
    { quantity := 10
      avgPrice := 100
      strategyStop := none
      rows := (List.range 15).map fun d => ⟨d * day, 100, 101, 99, 100⟩
      intraday := none }

def beforeOpening : World := ⟨15 * day, fun _ => none, fun _ => none, fun _ => false⟩

def realtimeKey (now : Instant) : RecommendationKey := .realtime 1 (now.fdiv minute) 1

def approvedExit (now : Instant) : List WorldAction :=
  [.realtime 1 now 10 (some 101),
   .recommendation (realtimeKey now)
    (.decide (realtimeRecommendation now (krxHolding 1) 10 101 (realtimeKey now)).row 1
      (realtimeKey now) .approved now)]

/-- A claim that started at `now`. -/
def claimExit (key : RecommendationKey) (now : Instant) : List WorldAction :=
  [.recommendation key (.select 1 now none true),
   .recommendation key (.commitClaim none "worker")]

/-- An exit that is approved and claimed. -/
theorem one_live_exit_claimed :
    ∃ w, run (World.step exactService krxPortfolio) beforeOpening
        (openingTick :: approvedExit (15 * day) ++
          claimExit (realtimeKey (15 * day)) (15 * day)) = some w ∧
      (w.exits (realtimeKey (15 * day))).bind (·.exit.row.paperExecutionStatus) =
        some .claimed ∧ w.OneLiveExit ∧ w.PartialProved := by
  have hstatus : (run (step exactService krxPortfolio) beforeOpening
      (openingTick :: approvedExit (15 * day) ++
        claimExit (realtimeKey (15 * day)) (15 * day))).bind (fun w =>
          (w.exits (realtimeKey (15 * day))).bind (·.exit.row.paperExecutionStatus)) =
      some .claimed := by decide +kernel
  obtain ⟨w, hrun, hclaimed⟩ := Option.bind_eq_some_iff.mp hstatus
  have htimely : Along (step exactService krxPortfolio) World.TimelyClaim beforeOpening
      (openingTick :: approvedExit (15 * day) ++
        claimExit (realtimeKey (15 * day)) (15 * day)) := by decide +kernel
  have hstart : World.Start beforeOpening := ⟨fun _ => rfl, fun _ => rfl, fun _ => rfl⟩
  exact ⟨w, hrun, hclaimed, one_live_exit.1 w ((ReachableVia.start hstart).run htimely hrun),
    one_live_exit.2 w (reachable_of_run hstart hrun)⟩

/-- A claim that started before the recommendation expired, and selects it
after the realtime exits have replaced it: both are live. -/
theorem stale_claim_two_live_exits :
    ∃ w, run (World.step exactService krxPortfolio) beforeOpening
        (openingTick :: approvedExit (15 * day) ++
          [.wait (15 * day + 11 * minute),
           .realtime 1 (15 * day + 11 * minute) 10 (some 101)] ++
          claimExit (realtimeKey (15 * day)) (15 * day)) = some w ∧ ¬ w.OneLiveExit := by
  have hlive : (run (step exactService krxPortfolio) beforeOpening
      (openingTick :: approvedExit (15 * day) ++
        [.wait (15 * day + 11 * minute),
         .realtime 1 (15 * day + 11 * minute) 10 (some 101)] ++
        claimExit (realtimeKey (15 * day)) (15 * day))).any (fun w =>
          (w.exits (realtimeKey (15 * day))).any (fun e => Live e.exit w.clock) &&
            (w.exits (realtimeKey (15 * day + 11 * minute))).any
              (fun e => Live e.exit w.clock)) = true := by decide +kernel
  obtain ⟨w, hrun, hlive⟩ := (Option.any_eq_true _ _).mp hlive
  obtain ⟨hfirst, hsecond⟩ := (Bool.and_eq_true_iff).mp hlive
  obtain ⟨e, he, hlive⟩ := (Option.any_eq_true _ _).mp hfirst
  obtain ⟨e', he', hlive'⟩ := (Option.any_eq_true _ _).mp hsecond
  refine ⟨w, hrun, fun hone => ?_⟩
  have hsame := hone 1 _ _ e e' he he' rfl rfl (of_decide_eq_true hlive)
    (of_decide_eq_true hlive')
  exact absurd hsame (by decide)

end Live

section Blocked

variable (service : PositionManagerService) (portfolio : Portfolio) (w : World)

/-- The full exit of a completed daily bar for which a tick makes no
recommendation, because the previous one is claimed or pending and is not
superseded. -/
def World.blockedExit (positionId : ℤ) (now : Instant) (input : TickInput) :
    Option PositionExitSignal :=
  match observeTick service now (portfolio.holding positionId) input (w.rows positionId)
      w.find with
  | .ok (some view) => view.replay.fullExit.filter fun exit =>
    view.linked.pendingActive && !supersedes view.linked view.previous exit
  | _ => none

/-- After a tick with a blocked exit the persisted last evaluation is before
the bar of the exit. -/
def World.SignalKept : WorldAction → Prop
  | .manage positionId now input => ∀ exit ∈ w.blockedExit service portfolio positionId now input,
      ∀ w', w.step service portfolio (.manage positionId now input) = some w' →
        ∃ row, w'.rows positionId = some row ∧
          ∀ last ∈ row.state.lastEvaluatedAt, last < exit.signalAt
  | _ => True

def World.Unblocked : WorldAction → Prop
  | .manage positionId now input => w.Ticks positionId now →
      w.blockedExit service portfolio positionId now input = none
  | _ => True

instance : (a : WorldAction) → Decidable (w.Unblocked service portfolio a)
  | .manage positionId now input => inferInstanceAs
      (Decidable (w.Ticks positionId now → w.blockedExit service portfolio positionId now input =
        none))
  | .wait .. => isTrue trivial
  | .recommendation .. => isTrue trivial
  | .realtime .. => isTrue trivial
  | .close .. => isTrue trivial

end Blocked

variable {service : PositionManagerService} {portfolio : Portfolio} {w : World}
  {positionId : ℤ} {now : Instant} {input : TickInput}

theorem blockedExit_spec {exit : PositionExitSignal}
    (h : w.blockedExit service portfolio positionId now input = some exit) :
    ∃ view, observeTick service now (portfolio.holding positionId) input (w.rows positionId)
        w.find = .ok (some view) ∧ view.replay.fullExit = some exit ∧
      view.linked.pendingActive = true ∧ supersedes view.linked view.previous exit = false := by
  unfold blockedExit at h
  split at h
  next view hview =>
    obtain ⟨hexit, hpending⟩ := Option.filter_eq_some_iff.mp h
    obtain ⟨hactive, hsupersedes⟩ := Bool.and_eq_true_iff.mp hpending
    exact ⟨view, hview, hexit, hactive, by simpa using hsupersedes⟩
  · cases h

theorem blocked_persists {exit : PositionExitSignal}
    (h : w.blockedExit service portfolio positionId now input = some exit) :
    ∃ outcome, w.managed service portfolio positionId now input = .ok (some outcome) ∧
      outcome.created = none ∧ outcome.row.state.lastEvaluatedAt = some exit.signalAt := by
  obtain ⟨view, hview, hexit, hactive, hsupersedes⟩ := blockedExit_spec h
  obtain ⟨row, -, hobserved⟩ := observeTick_spec hview
  obtain ⟨hsignal, hlast⟩ := hobserved.fullExit exit hexit
  refine ⟨{ row := view.row.applyState view.replay.state view.row.lastExitSignalKey }, ?_, rfl,
    hlast⟩
  rw [managed, managePosition, hview, Checked.ok_bind]
  simp only [hsignal, emitExit, hactive, hsupersedes]
  rfl

/-- One tick keeps its signal exactly when it has no blocked exit. -/
theorem signalKept_iff_unblocked (a : WorldAction) :
    w.SignalKept service portfolio a ↔ w.Unblocked service portfolio a := by
  cases a with
  | manage positionId now input =>
    constructor
    · intro hkept hticks
      by_contra hne
      obtain ⟨exit, hexit⟩ := Option.ne_none_iff_exists'.mp hne
      obtain ⟨outcome, hmanaged, -, hlast⟩ := blocked_persists hexit
      have hstep : w.step service portfolio (.manage positionId now input) =
          some (w.write positionId now (.ok (some outcome))) := by
        rw [step, if_pos hticks, hmanaged]
      obtain ⟨row, hrow, hbefore⟩ := hkept exit hexit _ hstep
      obtain rfl : outcome.row = row := by simpa [write] using hrow
      exact lt_irrefl _ (hbefore exit.signalAt hlast)
    · intro hunblocked exit hexit w' hstep
      by_cases hticks : w.Ticks positionId now
      · simp [hunblocked hticks] at hexit
      · simp [step, hticks] at hstep
  | _ => exact Iff.rfl

/-- A run keeps all its signals exactly when none of its ticks has a blocked
exit: whenever a tick has one, its bar is lost. -/
theorem signals_kept_iff (service : PositionManagerService) (portfolio : Portfolio) (w : World)
    (actions : List WorldAction) :
    Along (World.step service portfolio) (World.SignalKept service portfolio) w actions ↔
      Along (World.step service portfolio) (World.Unblocked service portfolio) w actions :=
  along_congr (fun _ a => signalKept_iff_unblocked a) w actions

/-- A tick after sixteen quiet days and one that falls through the stop. -/
def breachTick : WorldAction :=
  .manage 1 (17 * day)
    { quantity := 10
      avgPrice := 100
      strategyStop := none
      rows := (List.range 16).map (fun d => ⟨d * day, 100, 101, 99, 100⟩) ++
        [⟨16 * day, 95, 95, 90, 91⟩]
      intraday := none }

/-- A realtime exit is claimed; the tick of the breach is blocked by it; the
claim fails; and the next tick finds nothing left to do. -/
def lostExit : List WorldAction :=
  openingTick :: approvedExit (15 * day) ++ claimExit (realtimeKey (15 * day)) (15 * day) ++
    [.wait (17 * day), breachTick,
     .recommendation (realtimeKey (15 * day))
      (.fail 1 (realtimeKey (15 * day)) "worker" "submit_rejected" (17 * day)),
     breachTick]

/-- An exit that is blocked by a live claim is not signalled again once that claim has failed. -/
theorem blocked_exit_is_lost :
    ¬ Along (World.step exactService krxPortfolio) (World.SignalKept exactService krxPortfolio)
        beforeOpening lostExit ∧
      ∃ w, run (World.step exactService krxPortfolio) beforeOpening lostExit = some w ∧
        (w.exits (realtimeKey (15 * day))).bind (·.exit.row.paperExecutionStatus) =
          some .failed ∧
        (w.rows 1).bind (·.lastExitSignalKey) = some (realtimeKey (15 * day)) := by
  constructor
  · rw [along_congr (fun _ a => signalKept_iff_unblocked a)]
    decide +kernel
  · exact exists_run (by decide +kernel)

end KAssetTrader.Manager
