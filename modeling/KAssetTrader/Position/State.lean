import KAssetTrader.Library.Checked
import KAssetTrader.Library.Decimal
import KAssetTrader.Library.Timeline

/-!
The PAPER position lifecycle: its configuration, the versions of the exit
levels, the managed state and the observed bars, each with the checks its
constructor makes. Instants are aware datetimes already taken to UTC and
decimals are finite, so the constructors' awareness and finiteness checks hold
by the types; market names are an enumeration and texts are already stripped.
-/

namespace KAssetTrader.Position

inductive Market where
  | krx
  | us
  deriving DecidableEq

inductive ExitKind where
  | stop
  | stopGap
  | partialSell
  | trailingStop
  | trailingStopGap
  | timeStop
  | trendBroken
  deriving DecidableEq

/-- `PositionManagerConfig`; the fields past the parameters are the checks of
its constructor. -/
structure PositionManagerConfig where
  initialStopAtr : Decimal := 2
  partialProfitAtr : Decimal := 1 / 2
  partialFraction : Decimal := 3 / 10
  trailingStopAtr : Decimal := 3
  earlyTrailingActivationAtr : Decimal := 1
  earlyTrailingStopAtr : Decimal := 2
  postPartialFloorAtr : Decimal := 0
  maxHoldingBars : ℤ := 2
  noProgressAtr : Decimal := 1 / 2
  atr_positive : 0 < initialStopAtr ∧ 0 < partialProfitAtr ∧ 0 < trailingStopAtr ∧
    0 < earlyTrailingActivationAtr ∧ 0 < earlyTrailingStopAtr ∧ 0 < noProgressAtr := by
      norm_num
  floor_nonneg : 0 ≤ postPartialFloorAtr := by norm_num
  fraction_between : 0 < partialFraction ∧ partialFraction < 1 := by norm_num
  holding_positive : 1 ≤ maxHoldingBars := by norm_num

instance : Inhabited PositionManagerConfig := ⟨{}⟩

structure ExitLevels where
  initialAtr : Decimal
  initialStop : Decimal
  currentStop : Decimal
  deriving DecidableEq

/-- An earlier snapshot with the instant it took effect; `none` is a legacy
snapshot that has always been in force. -/
structure ExitLevelVersion extends ExitLevels where
  effectiveAt : Option Instant
  deriving DecidableEq

def ExitLevelVersion.postInit (v : ExitLevelVersion) : Except String ExitLevelVersion :=
  if v.initialAtr ≤ 0 then .error "exit-level initial_atr must be positive and finite"
  else if v.initialStop ≤ 0 then
    .error "exit-level initial_stop must be positive and finite"
  else if v.currentStop ≤ 0 then
    .error "exit-level current_stop must be positive and finite"
  else .ok v

structure ManagedPositionState where
  market : Market
  symbol : String
  entryPrice : Decimal
  initialAtr : Decimal
  initialStop : Decimal
  currentStop : Decimal
  highestClose : Decimal
  partialExitCompleted : Bool
  entryAt : Instant
  lastEvaluatedAt : Option Instant
  strategyVersion : String
  positionCycleId : Option ℤ
  exitLevelsEffectiveAt : Option Instant
  exitLevelHistory : List ExitLevelVersion
  deriving DecidableEq

/-- The loop over `exit_level_history`: the previous activation after it, or
the reason the history is rejected. `first` holds on the first version only. -/
def checkHistory (previous : Option Instant) (first : Bool) :
    List ExitLevelVersion → Except String (Option Instant)
  | [] => .ok previous
  | version :: rest =>
    match version.effectiveAt with
    | none =>
      if first then checkHistory previous false rest
      else .error "only the first exit-level version may be legacy"
    | some effectiveAt =>
      if previous.any (fun p => effectiveAt ≤ p) then
        .error "exit-level history must be strictly ordered"
      else checkHistory (some effectiveAt) false rest

def checkCurrentVersion (history : List ExitLevelVersion)
    (current previous : Option Instant) : Except String Unit :=
  if history.isEmpty then .ok ()
  else match current with
    | none => .error "current exit-level version needs an effective_at"
    | some effectiveAt =>
      if previous.any (fun p => effectiveAt ≤ p) then
        .error "current exit-level version must follow its history"
      else .ok ()

namespace ManagedPositionState

/-- `ManagedPositionState.__post_init__`, which `replace` runs again. -/
def postInit (s : ManagedPositionState) : Except String ManagedPositionState :=
  if s.symbol = "" ∨ s.strategyVersion = "" then
    .error "symbol and strategy_version are required"
  else if s.positionCycleId.any (· < 1) then .error "position_cycle_id must be positive"
  else if s.entryPrice ≤ 0 then .error "entry_price must be positive and finite"
  else if s.initialStop ≤ 0 then .error "initial_stop must be positive and finite"
  else if s.currentStop ≤ 0 then .error "current_stop must be positive and finite"
  else if s.highestClose ≤ 0 then .error "highest_close must be positive and finite"
  else if s.initialAtr ≤ 0 then .error "initial_atr must be positive and finite"
  else do
    let previous ← checkHistory none true s.exitLevelHistory
    checkCurrentVersion s.exitLevelHistory s.exitLevelsEffectiveAt previous
    return s

def currentVersion (s : ManagedPositionState) : ExitLevelVersion where
  effectiveAt := s.exitLevelsEffectiveAt
  initialAtr := s.initialAtr
  initialStop := s.initialStop
  currentStop := s.currentStop

def versions (s : ManagedPositionState) : List ExitLevelVersion :=
  s.exitLevelHistory ++ [s.currentVersion]

end ManagedPositionState

/-- `PositionBar`, with `starts_at` and `ends_at` already defaulted to `as_of`;
the last four fields are the checks of its constructor. -/
structure PositionBar where
  asOf : Instant
  openPrice : Decimal
  high : Decimal
  low : Decimal
  close : Decimal
  startsAt : Instant := asOf
  endsAt : Instant := asOf
  starts_le_ends : startsAt ≤ endsAt := by norm_num
  prices_positive : 0 < openPrice ∧ 0 < high ∧ 0 < low ∧ 0 < close := by norm_num
  high_bounds : max openPrice (max low close) ≤ high := by norm_num
  low_bounds : low ≤ min openPrice (min high close) := by norm_num

/-- `PositionBar.__post_init__` on given observation bounds. -/
def PositionBar.make (asOf : Instant) (openPrice high low close : Decimal)
    (startsAt endsAt : Instant) : Except String PositionBar :=
  if hends : endsAt < startsAt then .error "bar starts_at must not follow ends_at"
  else if hprices : ¬ (0 < openPrice ∧ 0 < high ∧ 0 < low ∧ 0 < close) then
    .error "bar prices must be positive and finite"
  else if hohlc : high < max openPrice (max low close) ∨ min openPrice (min high close) < low then
    .error "bar OHLC is inconsistent"
  else .ok { asOf, openPrice, high, low, close, startsAt, endsAt
             starts_le_ends := not_lt.mp hends
             prices_positive := not_not.mp hprices
             high_bounds := not_lt.mp (not_or.mp hohlc).1
             low_bounds := not_lt.mp (not_or.mp hohlc).2 }

/-- The material of `exit_signal_key`, whose digest is the key. The digest is
taken to be injective, so the material stands for the key. -/
structure ExitSignalKey where
  market : Market
  symbol : String
  positionCycleId : Option ℤ
  kind : ExitKind
  signalAt : Instant
  deriving DecidableEq

/-- The reason given with a signal: a fixed sentence, or the sentence about the
partial target, in a daily or an intraday bar, with the two numbers it prints. -/
inductive ExitReason where
  | text (sentence : String)
  | partialTarget (intraday : Bool) (partialProfitAtr percent : Decimal)
  deriving DecidableEq

structure PositionExitSignal where
  kind : ExitKind
  quantityFraction : Decimal
  referencePrice : Decimal
  signalAt : Instant
  reason : ExitReason
  idempotencyKey : ExitSignalKey
  levels : ExitLevels
  deriving DecidableEq

structure PositionEvaluation where
  state : ManagedPositionState
  signal : Option PositionExitSignal
  deriving DecidableEq

/-- Instants in the order where a legacy version, without one, precedes all. -/
def activation : Option Instant → WithBot Instant
  | none => ⊥
  | some t => (t : WithBot Instant)

def starts (versions : List ExitLevelVersion) : List (WithBot Instant) :=
  versions.map (fun v => activation v.effectiveAt)

structure ExitLevelVersion.Valid (v : ExitLevelVersion) : Prop where
  initialAtr_pos : 0 < v.initialAtr
  initialStop_pos : 0 < v.initialStop
  currentStop_pos : 0 < v.currentStop

/-- What the constructor of a managed state guarantees, the versions of its
history having passed their own. -/
structure ManagedPositionState.Valid (s : ManagedPositionState) : Prop where
  symbol_nonempty : s.symbol ≠ ""
  strategy_nonempty : s.strategyVersion ≠ ""
  cycle_positive : ∀ c ∈ s.positionCycleId, 1 ≤ c
  entryPrice_pos : 0 < s.entryPrice
  initialStop_pos : 0 < s.initialStop
  currentStop_pos : 0 < s.currentStop
  highestClose_pos : 0 < s.highestClose
  initialAtr_pos : 0 < s.initialAtr
  history_valid : ∀ v ∈ s.exitLevelHistory, v.Valid
  ordered : (starts s.versions).Pairwise (· < ·)

@[simp] theorem activation_none : activation none = ⊥ := rfl

@[simp] theorem activation_some (t : Instant) : activation (some t) = (t : WithBot Instant) :=
  rfl

@[simp] theorem starts_nil : starts [] = [] := rfl

@[simp] theorem starts_cons (v : ExitLevelVersion) (rest : List ExitLevelVersion) :
    starts (v :: rest) = activation v.effectiveAt :: starts rest := rfl

@[simp] theorem activation_lt_some (a : Option Instant) (t : Instant) :
    activation a < (t : WithBot Instant) ↔ ¬ a.any (fun p => t ≤ p) := by
  cases a <;> simp [activation]

theorem ExitLevelVersion.postInit_ok_iff (v : ExitLevelVersion) :
    v.postInit = .ok v ↔ v.Valid := by
  constructor
  · intro h
    unfold postInit at h
    repeat' split at h
    all_goals try cases h
    rename_i hatr hinit hcurrent
    exact ⟨not_le.mp hatr, not_le.mp hinit, not_le.mp hcurrent⟩
  · intro h
    simp [postInit, h.initialAtr_pos.not_ge, h.initialStop_pos.not_ge,
      h.currentStop_pos.not_ge]

theorem ExitLevelVersion.eq_of_postInit {v w : ExitLevelVersion} (h : v.postInit = .ok w) :
    v = w := by
  unfold postInit at h
  repeat' split at h
  all_goals first | exact Except.ok.inj h | cases h

/-- The loop past the first version succeeds exactly on instants that increase
strictly from the previous one, and returns the last of them. -/
theorem checkHistory_rest (previous : Option Instant) (history : List ExitLevelVersion)
    (last : Option Instant) :
    checkHistory previous false history = .ok last ↔
      (activation previous :: starts history).IsChain (· < ·) ∧
        activation last = (starts history).getLastD (activation previous) := by
  induction history generalizing previous with
  | nil =>
    cases previous <;> cases last <;> simp [checkHistory, eq_comm]
  | cons version rest ih =>
    cases heff : version.effectiveAt with
    | none => simp [checkHistory, heff]
    | some effectiveAt =>
      simp only [checkHistory, heff, starts_cons, activation_some,
        List.isChain_cons_cons, activation_lt_some, List.getLastD_cons]
      by_cases hlate : previous.any (fun p => effectiveAt ≤ p) = true
      · simp [hlate]
      · simp [hlate, ih]

theorem checkHistory_all (history : List ExitLevelVersion) (last : Option Instant) :
    checkHistory none true history = .ok last ↔
      (starts history).IsChain (· < ·) ∧
        activation last = (starts history).getLastD ⊥ := by
  cases history with
  | nil => cases last <;> simp [checkHistory]
  | cons version rest =>
    have hrest := checkHistory_rest version.effectiveAt rest last
    cases heff : version.effectiveAt <;> rw [heff] at hrest <;>
      simpa only [checkHistory, heff, if_true, Option.any_none, Bool.false_eq_true, if_false,
        starts_cons, List.getLastD_cons] using hrest

theorem checkCurrentVersion_ok (history : List ExitLevelVersion)
    (current previous : Option Instant) :
    checkCurrentVersion history current previous = .ok () ↔
      history = [] ∨ activation previous < activation current := by
  cases history with
  | nil => simp [checkCurrentVersion]
  | cons version rest =>
    cases current with
    | none => simp [checkCurrentVersion]
    | some t =>
      by_cases hlate : previous.any (fun p => t ≤ p) = true <;>
        simp [checkCurrentVersion, hlate]

namespace ManagedPositionState

variable (s : ManagedPositionState)

theorem starts_versions :
    starts s.versions = starts s.exitLevelHistory ++ [activation s.exitLevelsEffectiveAt] := by
  simp [starts, versions, currentVersion]

theorem versions_checked :
    (∃ previous, checkHistory none true s.exitLevelHistory = .ok previous ∧
      checkCurrentVersion s.exitLevelHistory s.exitLevelsEffectiveAt previous = .ok ()) ↔
    (starts s.versions).Pairwise (· < ·) := by
  rw [← List.isChain_iff_pairwise, starts_versions, List.isChain_append]
  constructor
  · rintro ⟨previous, hhistory, hcurrent⟩
    obtain ⟨hchain, hlast⟩ := (checkHistory_all _ _).mp hhistory
    refine ⟨hchain, List.isChain_singleton _, ?_⟩
    intro x hx y hy
    obtain rfl : activation s.exitLevelsEffectiveAt = y := by simpa using hy
    rcases (checkCurrentVersion_ok _ _ _).mp hcurrent with hnil | hlt
    · simp [hnil, starts] at hx
    · rw [hlast, List.getLastD_eq_getLast?, Option.mem_def.mp hx] at hlt
      exact hlt
  · rintro ⟨hchain, -, hcross⟩
    obtain ⟨previous, hprevious⟩ : ∃ previous : Option Instant,
        activation previous = (starts s.exitLevelHistory).getLastD ⊥ := by
      cases (starts s.exitLevelHistory).getLastD ⊥ with
      | bot => exact ⟨none, rfl⟩
      | coe t => exact ⟨some t, rfl⟩
    refine ⟨previous, (checkHistory_all _ _).mpr ⟨hchain, hprevious⟩,
      (checkCurrentVersion_ok _ _ _).mpr ?_⟩
    cases hhistory : s.exitLevelHistory with
    | nil => exact Or.inl rfl
    | cons version rest =>
      right
      obtain ⟨last, hlast⟩ : ∃ last, (starts s.exitLevelHistory).getLast? = some last :=
        ⟨_, List.getLast?_eq_some_getLast (by simp [hhistory, starts])⟩
      rw [hprevious, List.getLastD_eq_getLast?, hlast]
      exact hcross last hlast _ (by simp)

theorem eq_of_postInit {s s' : ManagedPositionState} (h : s.postInit = .ok s') : s = s' := by
  unfold postInit at h
  repeat' split at h
  all_goals try cases h
  obtain ⟨_, _, h⟩ := Checked.bind_ok_iff.mp h
  obtain ⟨_, _, h⟩ := Checked.bind_ok_iff.mp h
  exact Except.ok.inj h

/-- The constructor accepts a state exactly when it is valid, and changes
nothing. -/
theorem postInit_ok_iff (hversions : ∀ v ∈ s.exitLevelHistory, v.Valid) :
    s.postInit = .ok s ↔ s.Valid := by
  constructor
  · intro h
    unfold postInit at h
    repeat' split at h
    all_goals try cases h
    rename_i hnames hcycle hentry hinit hcurrent hhighest hatr
    obtain ⟨previous, hhistory, h⟩ := Checked.bind_ok_iff.mp h
    obtain ⟨⟨⟩, hcheck, -⟩ := Checked.bind_ok_iff.mp h
    push Not at hnames hentry hinit hcurrent hhighest hatr
    refine ⟨hnames.1, hnames.2, ?_, hentry, hinit, hcurrent, hhighest, hatr,
      hversions, s.versions_checked.mp ⟨previous, hhistory, hcheck⟩⟩
    intro c hc
    simpa [Option.mem_def.mp hc] using hcycle
  · intro h
    obtain ⟨previous, hhistory, hcurrent⟩ := s.versions_checked.mpr h.ordered
    have hcycle : ¬ s.positionCycleId.any (· < 1) = true := by
      cases hid : s.positionCycleId with
      | none => simp
      | some c => simpa using h.cycle_positive c hid
    simp [postInit, h.symbol_nonempty, h.strategy_nonempty, hcycle, h.entryPrice_pos.not_ge,
      h.initialStop_pos.not_ge, h.currentStop_pos.not_ge, h.highestClose_pos.not_ge,
      h.initialAtr_pos.not_ge, hhistory, hcurrent]

variable {s : ManagedPositionState}

theorem Valid.postInit (h : s.Valid) : s.postInit = .ok s :=
  (s.postInit_ok_iff h.history_valid).mpr h

theorem Valid.currentVersion (h : s.Valid) :
    s.currentVersion.Valid :=
  ⟨h.initialAtr_pos, h.initialStop_pos, h.currentStop_pos⟩

theorem Valid.versions (h : s.Valid) :
    ∀ v ∈ s.versions, v.Valid := by
  intro v hv
  rcases List.mem_append.mp hv with hhistory | hcurrent
  · exact h.history_valid v hhistory
  · rw [List.mem_singleton.mp hcurrent]
    exact h.currentVersion

end ManagedPositionState

end KAssetTrader.Position
