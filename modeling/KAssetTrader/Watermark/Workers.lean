import KAssetTrader.Library.Transition
import KAssetTrader.Watermark.Persist

/-!
Any number of workers, each evaluating a valuation against the state that it has
loaded and persisting the result later. The valuations whose persist has written
are recorded for every key, the latest last; nothing in the code reads the record.
The rows are what the record says of them, whatever the workers have interleaved.
-/

namespace KAssetTrader.Watermark

open Paper Decimal

structure Observation where
  equity : Decimal
  valuationAt : Instant

def ShadowEquityValuation.observation (v : ShadowEquityValuation) : Option Observation :=
  v.valuationAt.map fun valuationAt => ⟨v.equity, valuationAt⟩

inductive Phase where
  | idle
  | loaded (v : ShadowEquityValuation) (thresholds : ShadowHighWatermarkThresholds)
      (previous : Option ShadowHighWatermarkState)

structure World where
  rows : Rows
  accepted : Key → List Observation
  workers : ℕ → Phase

/-- `evaluate_and_persist_shadow_high_watermark` loads the row of the trading day
of its valuation, and none when the market or the time has no trading day. Any
other key may be loaded before the same evaluation. -/
inductive Action where
  | load (worker : ℕ) (v : ShadowEquityValuation) (thresholds : ShadowHighWatermarkThresholds)
      (key : Option Key)
  | persist (worker : ℕ)
  | crash (worker : ℕ)

def World.setWorker (s : World) (worker : ℕ) (phase : Phase) : World :=
  { s with workers := Function.update s.workers worker phase }

def World.persisted (s : World) (v : ShadowEquityValuation) :
    Except PersistError Persisted → World
  | .error _ => s
  | .ok persisted =>
    { s with
      rows := persisted.rows
      accepted :=
        if persisted.wrote then
          Function.update s.accepted persisted.state.key
            (s.accepted persisted.state.key ++ v.observation.toList)
        else s.accepted }

def Start (s : World) : Prop :=
  s.rows = Dict.empty ∧ s.accepted = (fun _ => []) ∧ s.workers = fun _ => .idle

section System

variable (tradingDate : Market → Instant → ℤ)

/-- The key that `evaluate_and_persist_shadow_high_watermark` loads. -/
def ShadowEquityValuation.key (v : ShadowEquityValuation) : Option Key :=
  match Market.ofText v.market, v.valuationAt with
  | some market, some valuationAt =>
    some ⟨v.ownerUserId, v.accountKey, market, tradingDate market valuationAt⟩
  | _, _ => none

/-- The end of a cycle: the evaluation is persisted if that is required. -/
def World.finish (s : World) (v : ShadowEquityValuation)
    (thresholds : ShadowHighWatermarkThresholds) (previous : Option ShadowHighWatermarkState) :
    World :=
  let evaluation := evaluateShadowHighWatermark thresholds tradingDate v previous
  if evaluation.persistenceRequired then
    s.persisted v (persistShadowHighWatermark s.rows evaluation)
  else s

def step (s : World) : Action → Option World
  | .load worker v thresholds key =>
    match s.workers worker with
    | .idle => some (s.setWorker worker (.loaded v thresholds (key.bind s.rows.get?)))
    | .loaded .. => none
  | .persist worker =>
    match s.workers worker with
    | .idle => none
    | .loaded v thresholds previous =>
      some ((s.finish tradingDate v thresholds previous).setWorker worker .idle)
  | .crash worker => some (s.setWorker worker .idle)

abbrev Reachable : World → Prop := Transition.Reachable Start (step tradingDate)

end System

/-- The row of a day, in terms of the valuations that have been accepted for it and
of the value of an equity. -/
structure History (value : Decimal → Decimal) (row : ShadowHighWatermarkState)
    (accepted : List Observation) : Prop where
  version : row.stateVersion = accepted.length
  opening : accepted.head?.map (fun o => value o.equity) = some row.sessionOpeningEquity
  current : accepted.getLast?.map (fun o => value o.equity) = some row.currentEquity
  peak : IsGreatest {x | ∃ o ∈ accepted, x = value o.equity} row.peakEquity
  latest : accepted.getLast?.map (·.valuationAt) = some row.valuationAt
  increasing : accepted.Pairwise fun earlier later => earlier.valuationAt < later.valuationAt

def Checked.observation (c : Checked) : Observation := ⟨c.equity, c.valuationAt⟩

variable {c : Checked} {row : ShadowHighWatermarkState}

section History

variable {previous : ShadowHighWatermarkState} {accepted : List Observation}

theorem History.opened (hrow : RowOf c.opened row) : History column row [c.observation] where
  version := hrow.version
  opening := congrArg some hrow.opening.symm
  current := congrArg some hrow.current.symm
  peak := by
    rw [hrow.peak]
    constructor
    · exact ⟨c.observation, List.mem_singleton_self _, rfl⟩
    · rintro x ⟨o, ho, rfl⟩
      rw [List.mem_singleton.mp ho]
      exact le_rfl
  latest := congrArg some hrow.valuationAt.symm
  increasing := List.pairwise_singleton _ _

theorem column_column (equity : Decimal) : column (column equity) = column equity :=
  column_of_hasPlaces (quantizeHalfUp_hasPlaces 8 equity)

section

variable (h : History column previous accepted)
include h

theorem History.column_peak :
    column previous.peakEquity = previous.peakEquity := by
  obtain ⟨o, _, hpeak⟩ := h.peak.1
  rw [hpeak, column_column]

theorem History.column_opening :
    column previous.sessionOpeningEquity = previous.sessionOpeningEquity := by
  obtain ⟨o, _, hopening⟩ := Option.map_eq_some_iff.mp h.opening
  rw [← hopening, column_column]

theorem History.le_latest {o : Observation} (ho : o ∈ accepted) :
    o.valuationAt ≤ previous.valuationAt := by
  obtain ⟨last, hlast, htime⟩ := Option.map_eq_some_iff.mp h.latest
  rw [← htime]
  obtain ⟨earlier, hsplit⟩ := List.getLast?_eq_some_iff.mp hlast
  subst hsplit
  rcases List.mem_append.mp ho with hearlier | hequal
  · have hpairs := List.pairwise_append.mp h.increasing
    exact (hpairs.2.2 o hearlier last (List.mem_singleton_self _)).le
  · rw [List.mem_singleton.mp hequal]

theorem History.updated (htime : previous.valuationAt < c.valuationAt)
    (hrow : RowOf (c.updated previous) row) :
    History column row (accepted ++ [c.observation]) where
  version := by
    rw [hrow.version, List.length_append, List.length_singleton, ← h.version]
    rfl
  opening := by
    obtain ⟨first, hfirst, hopening⟩ := Option.map_eq_some_iff.mp h.opening
    have hkept : row.sessionOpeningEquity = previous.sessionOpeningEquity :=
      hrow.opening.trans h.column_opening
    rw [List.head?_append, hfirst, hkept, ← hopening]
    rfl
  current := by
    rw [List.getLast?_concat, hrow.current]
    rfl
  peak := by
    have hnonneg := previous.opening_pos.le.trans previous.opening_le
    have hpeak : row.peakEquity = max previous.peakEquity (column c.equity) := by
      calc row.peakEquity = column (max previous.peakEquity c.equity) := hrow.peak
        _ = max (column previous.peakEquity) (column c.equity) :=
            column_max hnonneg c.equity_pos.le
        _ = max previous.peakEquity (column c.equity) := by rw [h.column_peak]
    rw [hpeak]
    constructor
    · rcases max_choice previous.peakEquity (column c.equity) with hmax | hmax
      · obtain ⟨o, ho, hequity⟩ := h.peak.1
        exact ⟨o, List.mem_append_left _ ho, hmax.trans hequity⟩
      · exact ⟨c.observation, by simp, hmax⟩
    · rintro x ⟨o, ho, rfl⟩
      rcases List.mem_append.mp ho with hold | hnew
      · exact (h.peak.2 ⟨o, hold, rfl⟩).trans (le_max_left _ _)
      · rw [List.mem_singleton.mp hnew]
        exact le_max_right _ _
  latest := by
    rw [List.getLast?_concat, hrow.valuationAt]
    rfl
  increasing := by
    apply List.pairwise_append.mpr
    refine ⟨h.increasing, List.pairwise_singleton _ _, ?_⟩
    intro o ho last hlast
    rw [List.mem_singleton.mp hlast]
    exact (h.le_latest ho).trans_lt htime

end

theorem History.exact (h : History column row accepted)
    (hplaces : ∀ o ∈ accepted, HasPlaces 8 o.equity) : History id row accepted := by
  have hvalue : ∀ o ∈ accepted, column o.equity = id o.equity := by
    intro o ho
    exact column_of_hasPlaces (hplaces o ho)
  refine ⟨h.version, ?_, ?_, ?_, h.latest, h.increasing⟩
  · rw [← h.opening]
    apply Option.map_congr
    intro o ho
    exact (hvalue o (List.mem_of_mem_head? ho)).symm
  · rw [← h.current]
    apply Option.map_congr
    intro o ho
    exact (hvalue o (List.mem_of_mem_getLast? ho)).symm
  · convert h.peak using 1
    ext x
    constructor
    · rintro ⟨o, ho, rfl⟩
      exact ⟨o, ho, (hvalue o ho).symm⟩
    · rintro ⟨o, ho, rfl⟩
      exact ⟨o, ho, hvalue o ho⟩

end History

/-- The state that a worker has loaded is the row of its key as it was: the row has
a later version since, or still is that state. -/
def Known (rows : Rows) (previous : ShadowHighWatermarkState) : Prop :=
  ∃ row, rows.get? previous.key = some row ∧ previous.stateVersion ≤ row.stateVersion ∧
    (previous.stateVersion = row.stateVersion → previous = row)

structure World.Kept (s : World) : Prop where
  history : ∀ key row, s.rows.get? key = some row →
    row.key = key ∧ History column row (s.accepted key)
  fresh : ∀ key, s.rows.get? key = none → s.accepted key = []
  known : ∀ worker v thresholds previous,
    s.workers worker = .loaded v thresholds (some previous) → Known s.rows previous

def World.accept (s : World) (c : Checked) (row : ShadowHighWatermarkState) : World :=
  { s with
    rows := s.rows.set c.key row
    accepted := Function.update s.accepted c.key (s.accepted c.key ++ [c.observation]) }

/-- The row that an accepted valuation writes: the first of its day, or the one
after the row that is there. -/
inductive Accepts (rows : Rows) (c : Checked) (e : ShadowHighWatermarkEvaluation) :
    Option ShadowHighWatermarkState → ShadowHighWatermarkState → Prop
  | first {previous : Option ShadowHighWatermarkState} {row : ShadowHighWatermarkState}
      (hnone : rows.get? c.key = none) (hrow : RowOf c.opened row)
      (hreplay : .idempotentReplay ∉ e.reasons) : Accepts rows c e previous row
  | next {old row : ShadowHighWatermarkState} (hold : rows.get? c.key = some old)
      (htime : old.valuationAt < c.valuationAt) (hrow : RowOf (c.updated old) row)
      (hexpected : e.expectedStateVersion = some old.stateVersion)
      (hreplay : .idempotentReplay ∉ e.reasons) : Accepts rows c e (some old) row

variable {tradingDate : Market → Instant → ℤ} {previous : Option ShadowHighWatermarkState}
  {v : ShadowEquityValuation} {thresholds : ShadowHighWatermarkThresholds} {s : World}

theorem observation_of (hof : c.Of tradingDate v) :
    v.observation.toList = [c.observation] := by
  simp [ShadowEquityValuation.observation, Checked.observation, hof.valuationAt, hof.equity]

theorem key_of (hof : c.Of tradingDate v) : v.key tradingDate = some c.key := by
  simp only [ShadowEquityValuation.key, hof.market, hof.valuationAt]
  simp [Checked.key, hof.owner, hof.account, hof.date]

/-- A write of an evaluation is a valuation accepted: the row that is replaced is the
state that was loaded, since their versions agree. -/
theorem Checked.Outcome.accepts {rows : Rows} {e : ShadowHighWatermarkEvaluation}
    {persisted : Persisted} (houtcome : c.Outcome previous e)
    (hknown : ∀ p ∈ previous, Known rows p) (hwrite : Write rows e persisted) :
    (persisted.rows = rows ∧ persisted.wrote = false) ∨
      ∃ row, row.key = c.key ∧ Accepts rows c e previous row ∧
        persisted = ⟨rows.set c.key row, row, true⟩ := by
  cases hwrite with
  | found hstate hrow => exact .inl ⟨rfl, rfl⟩
  | @inserted state row hstate hexpected hrow hstored =>
    right
    cases houtcome with
    | replayed _ _ _ hsome => rw [hexpected] at hsome; cases hsome
    | updated _ _ _ _ hsome => rw [hexpected] at hsome; cases hsome
    | opened hopened _ hreplay =>
      obtain rfl : state = c.opened := Option.some.inj (hstate.symm.trans hopened)
      have hrowOf := rowOf_stored hstored
      exact ⟨row, hrowOf.key, .first hrow hrowOf hreplay, rfl⟩
  | @replaced state old row hstate hexpected hrow hversion hstored =>
    right
    cases houtcome with
    | opened _ hnone => rw [hexpected] at hnone; cases hnone
    | @replayed p _ _ hreplayed hsome =>
      obtain rfl : state = p := Option.some.inj (hstate.symm.trans hreplayed)
      have hsame := Option.some.inj (hsome.symm.trans hexpected)
      omega
    | @updated p hprevious hkey htime hupdated hsome hreplay =>
      obtain rfl : state = c.updated p := Option.some.inj (hstate.symm.trans hupdated)
      have hsame : p.stateVersion = old.stateVersion :=
        Option.some.inj (hsome.symm.trans hexpected)
      have hrowOf := rowOf_stored hstored
      have hrowKey : (c.updated p).key = c.key := hkey
      obtain ⟨known, hget, _, hequal⟩ := hknown p hprevious
      obtain rfl : known = old := by
        rw [hkey, ← hrowKey, hrow] at hget
        exact (Option.some.inj hget).symm
      obtain rfl := hequal hsame
      rw [hrowKey] at hrow ⊢
      rw [hprevious]
      exact ⟨row, hrowOf.key.trans hrowKey, .next hrow htime hrowOf hexpected hreplay, rfl⟩

theorem finish_cases (hknown : ∀ p ∈ previous, Known s.rows p) :
    s.finish tradingDate v thresholds previous = s ∨
      ∃ c row, c.Of tradingDate v ∧
        Accepts s.rows c (evaluateShadowHighWatermark thresholds tradingDate v previous)
          previous row ∧
        s.finish tradingDate v thresholds previous = s.accept c row := by
  unfold World.finish
  dsimp only
  split
  case isFalse => exact .inl rfl
  case isTrue hrequired =>
    cases hpersist : persistShadowHighWatermark s.rows
        (evaluateShadowHighWatermark thresholds tradingDate v previous) with
    | error e => exact .inl rfl
    | ok persisted =>
      obtain ⟨hstatus, hwrite⟩ := persist_write hpersist
      obtain ⟨c, hof, houtcome⟩ := evaluate_outcome thresholds hstatus
      rcases houtcome.accepts hknown hwrite with ⟨hrows, hwrote⟩ | ⟨row, hkey, haccepts, rfl⟩
      · left
        simp [World.persisted, hrows, hwrote]
      · refine .inr ⟨c, row, hof, haccepts, ?_⟩
        simp [World.persisted, World.accept, hkey, observation_of hof]

section Step

variable {t : World} {e : ShadowHighWatermarkEvaluation}

theorem Known.set {p : ShadowHighWatermarkState} (hp : Known s.rows p)
    (haccepts : Accepts s.rows c e previous row) : Known (s.rows.set c.key row) p := by
  obtain ⟨known, hget, hle, hequal⟩ := hp
  by_cases hkey : p.key = c.key
  · cases haccepts with
    | first hnone hrow hreplay =>
      rw [hkey, hnone] at hget
      cases hget
    | @next old _ hold htime hrow _ _ =>
      obtain rfl : old = known := by
        rw [hkey, hold] at hget
        exact Option.some.inj hget
      have hversion : row.stateVersion = old.stateVersion + 1 := hrow.version
      refine ⟨row, ?_, by omega, ?_⟩
      · rw [Dict.get?_set, if_pos hkey]
      · intro hsame
        omega
  · refine ⟨known, ?_, hle, hequal⟩
    rw [Dict.get?_set, if_neg hkey, hget]

theorem World.Kept.accept (hkept : s.Kept) (haccepts : Accepts s.rows c e previous row) :
    (s.accept c row).Kept where
  history := by
    intro key row' hrow'
    simp only [World.accept, Dict.get?_set] at hrow' ⊢
    by_cases hkey : key = c.key
    · subst hkey
      rw [if_pos rfl] at hrow'
      cases hrow'
      rw [Function.update_self]
      cases haccepts with
      | first hnone hrow hreplay =>
        rw [hkept.fresh _ hnone]
        exact ⟨hrow.key, History.opened hrow⟩
      | next hold htime hrow _ _ =>
        obtain ⟨holdKey, hhistory⟩ := hkept.history _ _ hold
        exact ⟨hrow.key.trans holdKey, hhistory.updated htime hrow⟩
    · rw [if_neg hkey] at hrow'
      rw [Function.update_of_ne hkey]
      exact hkept.history key row' hrow'
  fresh := by
    intro key hnone
    simp only [World.accept, Dict.get?_set] at hnone ⊢
    split at hnone
    · cases hnone
    next hkey =>
      rw [Function.update_of_ne hkey]
      exact hkept.fresh key hnone
  known := by
    intro worker v thresholds p hphase
    exact (hkept.known worker v thresholds p hphase).set haccepts

theorem World.Kept.setWorker (hkept : s.Kept) {worker : ℕ} {phase : Phase}
    (hphase : ∀ v thresholds p, phase = .loaded v thresholds (some p) → Known s.rows p) :
    (s.setWorker worker phase).Kept where
  history := hkept.history
  fresh := hkept.fresh
  known := by
    intro other v thresholds p hother
    simp only [World.setWorker, Function.update_apply] at hother
    split at hother
    · exact hphase v thresholds p hother
    · exact hkept.known other v thresholds p hother

theorem World.Kept.load (hkept : s.Kept) {key : Option Key} {p : ShadowHighWatermarkState}
    (hload : key.bind s.rows.get? = some p) : Known s.rows p := by
  obtain ⟨loaded, _, hget⟩ := Option.bind_eq_some_iff.mp hload
  have hkey := (hkept.history loaded p hget).1
  exact ⟨p, by rw [hkey, hget], le_rfl, fun _ => rfl⟩

/-- A worker has loaded no row that is newer than the stored one. -/
theorem World.Kept.step (hkept : s.Kept) {a : Action} (h : step tradingDate s a = some t) :
    t.Kept := by
  cases a with
  | load worker v thresholds key =>
    simp only [Watermark.step] at h
    split at h
    · cases h
      apply hkept.setWorker
      intro _ _ p hphase
      have hload : key.bind s.rows.get? = some p := by
        injection hphase
      exact hkept.load hload
    · cases h
  | persist worker =>
    simp only [Watermark.step] at h
    split at h
    · cases h
    next v thresholds previous hphase =>
      cases h
      have hknown : ∀ p ∈ previous, Known s.rows p := by
        intro p hp
        rw [Option.mem_def.mp hp] at hphase
        exact hkept.known worker v thresholds p hphase
      have hfinish : (s.finish tradingDate v thresholds previous).Kept := by
        rcases finish_cases hknown with hsame | ⟨c, row, _, haccepts, hfinish⟩
        · rw [hsame]
          exact hkept
        · rw [hfinish]
          exact hkept.accept haccepts
      apply hfinish.setWorker
      intro _ _ _ hidle
      cases hidle
  | crash worker =>
    cases h
    apply hkept.setWorker
    intro _ _ _ hidle
    cases hidle

theorem start_kept (h : Start s) : s.Kept := by
  obtain ⟨hrows, haccepted, hworkers⟩ := h
  constructor
  · intro key row hrow
    rw [hrows, Dict.get?_empty] at hrow
    cases hrow
  · intro key _
    rw [haccepted]
  · intro worker v thresholds p hphase
    rw [hworkers] at hphase
    cases hphase

theorem reachable_kept (h : Reachable tradingDate s) : s.Kept :=
  Transition.invariant (fun _ => start_kept) (fun _ _ _ hkept _ hstep => hkept.step hstep) h

end Step

/-- A valuation that must not change the rows: it is rejected, it is a replay, its
time is not later than that of the row of its day, or its evaluation expects another
version than that row has. -/
inductive Ineffective (tradingDate : Market → Instant → ℤ) (rows : Rows)
    (v : ShadowEquityValuation) (e : ShadowHighWatermarkEvaluation) : Prop
  | rejected (hstatus : e.status ≠ .valid)
  | replayed (hreason : .idempotentReplay ∈ e.reasons)
  | stale {key : Key} {row : ShadowHighWatermarkState} (hkey : v.key tradingDate = some key)
      (hrow : rows.get? key = some row)
      (htime : ∀ valuationAt ∈ v.valuationAt, valuationAt ≤ row.valuationAt)
  | lost {key : Key} {row : ShadowHighWatermarkState} (hkey : v.key tradingDate = some key)
      (hrow : rows.get? key = some row) (hversion : e.expectedStateVersion ≠ some row.stateVersion)

structure Opens (v : ShadowEquityValuation) (row : ShadowHighWatermarkState) : Prop where
  opening : row.sessionOpeningEquity = column v.equity
  peak : row.peakEquity = column v.equity
  current : row.currentEquity = column v.equity
  reference : row.referenceEquity = column (v.referenceEquity.getD v.equity)
  version : row.stateVersion = 1

theorem required_valid {e : ShadowHighWatermarkEvaluation} (h : e.persistenceRequired = true) :
    e.status = .valid := by
  unfold ShadowHighWatermarkEvaluation.persistenceRequired at h
  split at h
  · assumption
  · assumption
  · cases h

theorem finish_ineffective (hknown : ∀ p ∈ previous, Known s.rows p)
    (h : Ineffective tradingDate s.rows v
      (evaluateShadowHighWatermark thresholds tradingDate v previous)) :
    s.finish tradingDate v thresholds previous = s := by
  rcases finish_cases hknown with hsame | ⟨c, row, hof, haccepts, hfinish⟩
  · exact hsame
  have hkeyOf := key_of hof
  cases h with
  | rejected hstatus =>
    unfold World.finish
    dsimp only
    split
    next hrequired => exact absurd (required_valid hrequired) hstatus
    · rfl
  | replayed hreason =>
    cases haccepts with
    | first _ _ hreplay => exact absurd hreason hreplay
    | next _ _ _ _ hreplay => exact absurd hreason hreplay
  | stale hkey hrow htime =>
    cases hkey.symm.trans hkeyOf
    cases haccepts with
    | first hnone _ _ =>
      rw [hnone] at hrow
      cases hrow
    | next hold hlater _ _ _ =>
      cases hold.symm.trans hrow
      exact absurd hlater (not_lt.mpr (htime _ hof.valuationAt))
  | lost hkey hrow hversion =>
    cases hkey.symm.trans hkeyOf
    cases haccepts with
    | first hnone _ _ =>
      rw [hnone] at hrow
      cases hrow
    | next hold _ _ hexpected _ =>
      cases hold.symm.trans hrow
      exact absurd hexpected hversion

theorem stored_of_storable {state : ShadowHighWatermarkState} (h : state.Storable) :
    ∃ row, state.stored = some row :=
  ⟨_, dif_pos h⟩

theorem finish_opens (hknown : ∀ p ∈ previous, Known s.rows p) {key : Key}
    (hkey : v.key tradingDate = some key) (hnone : s.rows.get? key = none)
    (hstatus : (evaluateShadowHighWatermark thresholds tradingDate v previous).status = .valid)
    (hstorable : ∀ state ∈ (evaluateShadowHighWatermark thresholds tradingDate v previous).state,
      state.Storable) :
    ∃ row, (s.finish tradingDate v thresholds previous).rows = s.rows.set key row ∧
      Opens v row := by
  obtain ⟨c, hof, houtcome⟩ := evaluate_outcome thresholds hstatus
  cases hkey.symm.trans (key_of hof)
  have habsent : ∀ p, previous = some p → p.key ≠ c.key := by
    intro p hprevious hsame
    obtain ⟨row, hrow, _⟩ := hknown p hprevious
    rw [hsame, hnone] at hrow
    cases hrow
  cases houtcome with
  | replayed hprevious hsame _ _ => exact absurd hsame (habsent _ hprevious)
  | updated hprevious hsame _ _ _ _ => exact absurd hsame (habsent _ hprevious)
  | opened hstate hexpected _ =>
    obtain ⟨row, hstored⟩ := stored_of_storable (hstorable _ hstate)
    have hrow := rowOf_stored hstored
    have hequity : c.opened.referenceEquity = v.referenceEquity.getD v.equity := by
      rw [← hof.reference, ← hof.equity]
      rfl
    refine ⟨row, ?_, ?_⟩
    · have hopened : s.rows.get? c.opened.key = none := hnone
      simp only [World.finish, ShadowHighWatermarkEvaluation.persistenceRequired, hstatus, hstate,
        hexpected, persistShadowHighWatermark, hstored, hopened, World.persisted, if_true]
      rfl
    · refine ⟨?_, ?_, ?_, ?_, hrow.version⟩
      · rw [hrow.opening, ← hof.equity]
        rfl
      · rw [hrow.peak, ← hof.equity]
        rfl
      · rw [hrow.current, ← hof.equity]
        rfl
      · rw [hrow.reference, hequity]

/-- Whatever the workers have interleaved: the row of a day has the greatest, the
first and the last of the equities accepted for it and counts them, in times that
strictly increase. An ineffective valuation changes nothing, and the first one of a
day opens its row. -/
theorem watermark_follows_accepted (tradingDate : Market → Instant → ℤ) {s : World}
    (hreach : Reachable tradingDate s) :
    (∀ key row, s.rows.get? key = some row → row.key = key ∧
      History column row (s.accepted key) ∧
      ((∀ o ∈ s.accepted key, HasPlaces 8 o.equity) → History id row (s.accepted key))) ∧
    (∀ key, s.rows.get? key = none → s.accepted key = []) ∧
    ∀ worker v thresholds previous, s.workers worker = .loaded v thresholds previous →
      ∃ t, step tradingDate s (.persist worker) = some t ∧
        (Ineffective tradingDate s.rows v
            (evaluateShadowHighWatermark thresholds tradingDate v previous) →
          t.rows = s.rows ∧ t.accepted = s.accepted) ∧
        ∀ key, v.key tradingDate = some key → s.rows.get? key = none →
          (evaluateShadowHighWatermark thresholds tradingDate v previous).status = .valid →
          (∀ state ∈ (evaluateShadowHighWatermark thresholds tradingDate v previous).state,
            state.Storable) →
          ∃ row, t.rows = s.rows.set key row ∧ Opens v row := by
  have hkept := reachable_kept hreach
  refine ⟨?_, hkept.fresh, ?_⟩
  · intro key row hrow
    obtain ⟨hkey, hhistory⟩ := hkept.history key row hrow
    exact ⟨hkey, hhistory, hhistory.exact⟩
  · intro worker v thresholds previous hphase
    have hknown : ∀ p ∈ previous, Known s.rows p := by
      intro p hp
      rw [Option.mem_def.mp hp] at hphase
      exact hkept.known worker v thresholds p hphase
    refine ⟨(s.finish tradingDate v thresholds previous).setWorker worker .idle,
      by simp only [step, hphase], ?_, ?_⟩
    · intro hineffective
      rw [finish_ineffective hknown hineffective]
      exact ⟨rfl, rfl⟩
    · intro key hkey hnone hstatus hstorable
      exact finish_opens hknown hkey hnone hstatus hstorable

def sampleThresholds : ShadowHighWatermarkThresholds where
  profitTargetStages := []
  peakDrawdownStages := []
  maximumLossRatio := 1 / 10
  maxValuationAge := 60
  loss_pos := by norm_num
  loss_le_one := by norm_num
  age_pos := by norm_num
  profit_valid := ⟨List.nodup_nil, .nil, .nil⟩
  drawdown_valid := ⟨List.nodup_nil, .nil, .nil⟩

def sampleValuation (equity : Decimal) (at' : Instant) : ShadowEquityValuation :=
  ⟨1, "account", "KRX", equity, some at', some at', "book", none⟩

def sampleKey : Key := ⟨1, "account", .krx, 0⟩

def sampleStart : World := ⟨Dict.empty, fun _ => [], fun _ => .idle⟩

/-- A day opens at 100; two workers then load the same row, and the one that persists
last has lost it. -/
def sampleRace : List Action :=
  [.load 0 (sampleValuation 100 10) sampleThresholds none, .persist 0,
    .load 0 (sampleValuation 104 20) sampleThresholds (some sampleKey),
    .load 1 (sampleValuation 110 15) sampleThresholds (some sampleKey), .persist 0, .persist 1]

def sampleDay : Market → Instant → ℤ := fun _ _ => 0

example : ((Transition.run (step sampleDay) sampleStart sampleRace).bind fun s =>
    (s.rows.get? sampleKey).map fun row => (row.peakEquity, row.currentEquity, row.stateVersion)) =
      some (104, 104, 2) := by
  decide +kernel

/-- Two workers that insert the same row. -/
theorem watermark_follows_accepted_race :
    ∃ s, Transition.run (step sampleDay) sampleStart sampleRace = some s ∧
      ∀ key row, s.rows.get? key = some row → History column row (s.accepted key) := by
  have hrun : (Transition.run (step sampleDay) sampleStart sampleRace).isSome = true := by
    decide +kernel
  obtain ⟨s, hs⟩ := Option.isSome_iff_exists.mp hrun
  have hstart : Start sampleStart := ⟨rfl, rfl, rfl⟩
  have hreach := Transition.reachable_of_run hstart hs
  refine ⟨s, hs, ?_⟩
  intro key row hrow
  exact ((watermark_follows_accepted sampleDay hreach).1 key row hrow).2.1

end KAssetTrader.Watermark
