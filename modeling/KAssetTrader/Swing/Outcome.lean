import KAssetTrader.Swing.Bars

/-!
The outcome of a signal after a number of sessions: a paper entry at the open of the first
session and a paper exit at the close of the last one. An outcome that is neither pending
nor without a calendar depends on the sessions and bars of its window alone; rounding to
places and to significant digits keeps order, and so do the returns of an outcome.
-/

namespace KAssetTrader.Swing

open Checked

inductive OutcomeStatus where
  | mature
  | pending
  | entryMissing
  | barMissing
  | priceDiscontinuity
  | calendarUnavailable
  | invalidBar
  | entryUntradable
  | exitUntradable
  deriving DecidableEq

/-- The limit on moves and the cost rates, which the configurations check. -/
structure OutcomeConfig where
  maxAbsSessionMove : Decimal
  buyFeeRate : Decimal
  sellFeeRate : Decimal
  sellTaxRate : Decimal
  slippageRate : Decimal
  move_nonneg : 0 ≤ maxAbsSessionMove
  buyFee_nonneg : 0 ≤ buyFeeRate
  sellFee_nonneg : 0 ≤ sellFeeRate
  sellTax_nonneg : 0 ≤ sellTaxRate
  slippage_nonneg : 0 ≤ slippageRate

structure HorizonOutcome where
  horizon : ℕ
  status : OutcomeStatus
  entrySession : Option ℤ := none
  exitSession : Option ℤ := none
  entryOpen : Option Decimal := none
  exitClose : Option Decimal := none
  grossReturn : Option Decimal := none
  netReturn : Option Decimal := none
  mfe : Option Decimal := none
  mae : Option Decimal := none
  zeroVolumeHoldingSessions : ℕ := 0

/-- A price that moved too far from the close before it. -/
def jumps (limit previousClose price : Decimal) : Except Fault Bool := do
  let ratio ← divide price previousClose
  return decide (limit < |context.sub ratio 1|)

/-- The loop over the opens and closes of a path; it stops at the first that moved too far. -/
def discontinuous (limit : Decimal) : Decimal → List ValidBar → Except Fault Bool
  | _, [] => .ok false
  | previousClose, bar :: rest => do
      if ← jumps limit previousClose bar.openPrice then return true
      if ← jumps limit previousClose bar.close then return true
      discontinuous limit bar.close rest

def highest (first : ValidBar) (rest : List ValidBar) : Decimal :=
  rest.foldl (fun top bar => max top bar.high) first.high

def lowest (first : ValidBar) (rest : List ValidBar) : Decimal :=
  rest.foldl (fun bottom bar => min bottom bar.low) first.low

def excess (price entryOpen : Decimal) : Except Fault Decimal := do
  let ratio ← divide price entryOpen
  return context.sub ratio 1

def entryCost (config : OutcomeConfig) (entryOpen : Decimal) : Decimal :=
  context.mul entryOpen (context.add (context.add 1 config.buyFeeRate) config.slippageRate)

def exitProceeds (config : OutcomeConfig) (exitClose : Decimal) : Decimal :=
  context.mul exitClose
    (context.sub (context.sub (context.sub 1 config.sellFeeRate) config.sellTaxRate)
      config.slippageRate)

def matured (config : OutcomeConfig) (reported : HorizonOutcome) (first : ValidBar)
    (rest : List ValidBar) : Except Fault HorizonOutcome := do
  let entryOpen := first.openPrice
  let exitClose := ((first :: rest).getLast (List.cons_ne_nil _ _)).close
  let gross ← excess exitClose entryOpen
  let net ← excess (exitProceeds config exitClose) (entryCost config entryOpen)
  let mfe ← excess (highest first rest) entryOpen
  let mae ← excess (lowest first rest) entryOpen
  return { reported with
    status := .mature
    entryOpen := some entryOpen
    exitClose := some exitClose
    grossReturn := some (← quantizeSix gross)
    netReturn := some (← quantizeSix net)
    mfe := some (← quantizeSix mfe)
    mae := some (← quantizeSix mae)
    zeroVolumeHoldingSessions := (first :: rest).countP fun bar => bar.volume = 0 }

def evaluatePath (config : OutcomeConfig) (signalClose : Decimal) (reported : HorizonOutcome)
    (path : List SwingBar) : Except Fault HorizonOutcome :=
  match path.mapM SwingBar.valid? with
  | none => .ok { reported with status := .invalidBar }
  | some [] => .error .index
  | some (first :: rest) => do
      if first.volume = 0 then return { reported with status := .entryUntradable }
      if ((first :: rest).getLast (List.cons_ne_nil _ _)).volume = 0 then
        return { reported with status := .exitUntradable }
      if ← discontinuous config.maxAbsSessionMove signalClose (first :: rest) then
        return { reported with status := .priceDiscontinuity }
      matured config reported first rest

def evaluateOutcome (config : OutcomeConfig) (horizon : ℕ) (signalClose : Decimal)
    (forwardSessions : List ℤ) (lastFinalSession : Option ℤ) (barsByDate : ℤ → Option SwingBar) :
    Except Fault HorizonOutcome :=
  if forwardSessions.length < horizon then .ok { horizon, status := .calendarUnavailable }
  else match forwardSessions.take horizon with
  | [] => .error .index
  | entrySession :: later =>
    let window := entrySession :: later
    let exitSession := window.getLast (List.cons_ne_nil _ _)
    let blocked (status : OutcomeStatus) : HorizonOutcome :=
      { horizon, status, entrySession := some entrySession, exitSession := some exitSession }
    match lastFinalSession with
    | none => .ok (blocked .pending)
    | some final =>
      if final < exitSession then .ok (blocked .pending)
      else if (barsByDate entrySession).isNone then .ok (blocked .entryMissing)
      else match window.mapM barsByDate with
      | none => .ok (blocked .barMissing)
      | some path => evaluatePath config signalClose (blocked .mature) path

variable {signalClose : Decimal} {outcome : HorizonOutcome} {forwardSessions : List ℤ}
  {config : OutcomeConfig} {horizon : ℕ} {bars : ℤ → Option SwingBar}

section Window

variable {laterSessions : List ℤ} {final laterFinal : ℤ} {laterBars : ℤ → Option SwingBar}

theorem mapM_bars_congr {window : List ℤ} (h : ∀ day ∈ window, laterBars day = bars day) :
    window.mapM laterBars = window.mapM bars := by
  induction window with
  | nil => rfl
  | cons day rest ih =>
    have hrest := ih fun day hday => h day (List.mem_cons_of_mem _ hday)
    rw [List.mapM_cons, List.mapM_cons, hrest, h day List.mem_cons_self]

theorem take_of_prefix (hgrows : forwardSessions <+: laterSessions)
    (hlength : horizon ≤ forwardSessions.length) :
    laterSessions.take horizon = forwardSessions.take horizon := by
  obtain ⟨more, rfl⟩ := hgrows
  exact List.take_append_of_le_length hlength

/-- An outcome that is decided stays as it is when more sessions become final and the calendar
grows, as long as the bars of its window do. -/
theorem evaluateOutcome_final {lastFinal : Option ℤ}
    (h : evaluateOutcome config horizon signalClose forwardSessions lastFinal bars = .ok outcome)
    (hpending : outcome.status ≠ .pending) (hcalendar : outcome.status ≠ .calendarUnavailable)
    (hfinal : ∀ final, lastFinal = some final → final ≤ laterFinal)
    (hgrows : forwardSessions <+: laterSessions)
    (hbars : ∀ day ∈ forwardSessions.take horizon, laterBars day = bars day) :
    evaluateOutcome config horizon signalClose laterSessions (some laterFinal) laterBars =
      .ok outcome := by
  unfold evaluateOutcome at h
  split at h
  · cases h
    exact absurd rfl hcalendar
  next hlength =>
  rw [not_lt] at hlength
  have hlonger : ¬ laterSessions.length < horizon := not_lt.mpr (hlength.trans hgrows.length_le)
  unfold evaluateOutcome
  rw [if_neg hlonger, take_of_prefix hgrows hlength]
  split at h
  · cases h
  next entrySession later hwindow =>
  rw [hwindow] at hbars
  cases lastFinal with
  | none =>
    cases h
    exact absurd rfl hpending
  | some final =>
    have hle : final ≤ laterFinal := hfinal final rfl
    simp only at h ⊢
    split at h
    · cases h
      exact absurd rfl hpending
    next hdone =>
    have hdoneLater : ¬ laterFinal < (entrySession :: later).getLast (List.cons_ne_nil _ _) := by
      omega
    rw [if_neg hdoneLater, hbars entrySession List.mem_cons_self, mapM_bars_congr hbars]
    exact h

end Window

variable {entryOpen : Decimal} {rest : List ValidBar} {first : ValidBar}

section Order

variable {x y : Decimal} {more : List ValidBar}

theorem excess_ok (h : excess x entryOpen = .ok y) :
    y = context.round (context.round (x / entryOpen) - 1) := by
  unfold excess at h
  obtain ⟨ratio, hratio, h⟩ := bind_ok_iff.mp h
  rw [divide_ok hratio] at h
  exact (Except.ok.inj h).symm

theorem excess_mono {x' y' : Decimal} (hentry : 0 < entryOpen) (hx : excess x entryOpen = .ok x')
    (hy : excess y entryOpen = .ok y') (h : x ≤ y) : x' ≤ y' := by
  rw [excess_ok hx, excess_ok hy]
  apply round_mono
  have hratio : context.round (x / entryOpen) ≤ context.round (y / entryOpen) := by
    apply round_mono
    gcongr
  linarith

theorem excess_self (hentry : 0 < entryOpen) : excess entryOpen entryOpen = .ok 0 := by
  unfold excess divide
  rw [if_neg hentry.ne', ok_bind]
  have hone : context.div entryOpen entryOpen = 1 := by
    rw [Decimal.Context.div, div_self hentry.ne', round_one]
  rw [hone, Decimal.Context.sub, sub_self, round_zero]
  rfl

theorem quantizeSix_zero : quantizeSix 0 = .ok 0 := by decide +kernel

theorem le_foldl_max (rest : List ValidBar) (top : Decimal) :
    top ≤ rest.foldl (fun top bar => max top bar.high) top ∧
      ∀ bar ∈ rest, bar.high ≤ rest.foldl (fun top bar => max top bar.high) top := by
  induction rest generalizing top with
  | nil => exact ⟨le_rfl, nofun⟩
  | cons bar rest ih =>
    obtain ⟨htop, hrest⟩ := ih (max top bar.high)
    refine ⟨(le_max_left _ _).trans htop, ?_⟩
    intro other hmem
    rcases List.mem_cons.mp hmem with rfl | hmem
    · exact (le_max_right _ _).trans htop
    · exact hrest other hmem

theorem foldl_min_le (rest : List ValidBar) (bottom : Decimal) :
    rest.foldl (fun bottom bar => min bottom bar.low) bottom ≤ bottom ∧
      ∀ bar ∈ rest, rest.foldl (fun bottom bar => min bottom bar.low) bottom ≤ bar.low := by
  induction rest generalizing bottom with
  | nil => exact ⟨le_rfl, nofun⟩
  | cons bar rest ih =>
    obtain ⟨hbottom, hrest⟩ := ih (min bottom bar.low)
    refine ⟨hbottom.trans (min_le_left _ _), ?_⟩
    intro other hmem
    rcases List.mem_cons.mp hmem with rfl | hmem
    · exact hbottom.trans (min_le_right _ _)
    · exact hrest other hmem

theorem high_le_highest {bar : ValidBar} (h : bar ∈ first :: rest) :
    bar.high ≤ highest first rest := by
  obtain ⟨hfirst, hrest⟩ := le_foldl_max rest first.high
  rcases List.mem_cons.mp h with rfl | h
  · exact hfirst
  · exact hrest bar h

theorem lowest_le_low {bar : ValidBar} (h : bar ∈ first :: rest) :
    lowest first rest ≤ bar.low := by
  obtain ⟨hfirst, hrest⟩ := foldl_min_le rest first.low
  rcases List.mem_cons.mp h with rfl | h
  · exact hfirst
  · exact hrest bar h

theorem highest_append : highest first rest ≤ highest first (rest ++ more) := by
  unfold highest
  rw [List.foldl_append]
  exact (le_foldl_max more _).1

theorem lowest_append : lowest first (rest ++ more) ≤ lowest first rest := by
  unfold lowest
  rw [List.foldl_append]
  exact (foldl_min_le more _).1

end Order

section Costs

variable (config : OutcomeConfig) {exitClose : Decimal}

theorem one_le_add {x rate : Decimal} (hx : 1 ≤ x) (hrate : 0 ≤ rate) :
    1 ≤ context.add x rate :=
  calc (1 : Decimal) = context.round 1 := round_one.symm
    _ ≤ context.round (x + rate) := round_mono (by linarith)

theorem sub_le_one {x rate : Decimal} (hx : x ≤ 1) (hrate : 0 ≤ rate) :
    context.sub x rate ≤ 1 :=
  calc context.round (x - rate) ≤ context.round 1 := round_mono (by linarith)
    _ = 1 := round_one

theorem one_le_entryRate :
    1 ≤ context.add (context.add 1 config.buyFeeRate) config.slippageRate :=
  one_le_add (one_le_add le_rfl config.buyFee_nonneg) config.slippage_nonneg

theorem exitRate_le_one :
    context.sub (context.sub (context.sub 1 config.sellFeeRate) config.sellTaxRate)
      config.slippageRate ≤ 1 :=
  sub_le_one (sub_le_one (sub_le_one le_rfl config.sellFee_nonneg) config.sellTax_nonneg)
    config.slippage_nonneg

theorem le_entryCost (hentry : 0 < entryOpen) (hfits : Fits entryOpen) :
    entryOpen ≤ entryCost config entryOpen := by
  rw [← hfits]
  apply round_mono
  rw [hfits]
  exact le_mul_of_one_le_right hentry.le (one_le_entryRate config)

theorem exitProceeds_le (hexit : 0 < exitClose) (hfits : Fits exitClose) :
    exitProceeds config exitClose ≤ exitClose := by
  rw [← hfits]
  apply round_mono
  rw [hfits]
  exact mul_le_of_le_one_right hexit.le (exitRate_le_one config)

theorem net_ratio_le (hentry : 0 < entryOpen) (hexit : 0 < exitClose) (hentryFits : Fits entryOpen)
    (hexitFits : Fits exitClose) :
    exitProceeds config exitClose / entryCost config entryOpen ≤ exitClose / entryOpen := by
  have hcost := le_entryCost config hentry hentryFits
  have hproceeds := exitProceeds_le config hexit hexitFits
  rcases le_or_gt 0 (exitProceeds config exitClose) with hpos | hneg
  · exact div_le_div₀ hexit.le hproceeds hentry hcost
  · exact (div_nonpos_of_nonpos_of_nonneg hneg.le (hentry.le.trans hcost)).trans
      (div_nonneg hexit.le hentry.le)

end Costs

section Mature

variable {lastFinal : Option ℤ}

theorem evaluateOutcome_mature
    (h : evaluateOutcome config horizon signalClose forwardSessions lastFinal bars = .ok outcome)
    (hmature : outcome.status = .mature) :
    ∃ path first rest reported, (forwardSessions.take horizon).mapM bars = some path ∧
      path.mapM SwingBar.valid? = some (first :: rest) ∧
      matured config reported first rest = .ok outcome := by
  unfold evaluateOutcome at h
  split at h
  · cases h
    cases hmature
  split at h
  · cases h
  next entrySession later hwindow =>
  rw [hwindow]
  split at h
  · cases h
    cases hmature
  simp only at h
  split at h
  · cases h
    cases hmature
  split at h
  · cases h
    cases hmature
  split at h
  · cases h
    cases hmature
  next path hpath =>
  unfold evaluatePath at h
  split at h
  · cases h
    cases hmature
  · cases h
  next first rest hvalid =>
  split at h
  · cases h
    cases hmature
  split at h
  · cases h
    cases hmature
  obtain ⟨jumped, -, h⟩ := bind_ok_iff.mp h
  split at h
  · cases h
    cases hmature
  · exact ⟨path, first, rest, _, hpath, hvalid, h⟩

/-- The reported returns, before they are cut to six places. -/
structure Returns (config : OutcomeConfig) (first : ValidBar) (rest : List ValidBar)
    (outcome : HorizonOutcome) where
  gross : Decimal
  net : Decimal
  up : Decimal
  down : Decimal
  grossReturn : Decimal
  netReturn : Decimal
  mfe : Decimal
  mae : Decimal
  gross_eq : excess ((first :: rest).getLast (List.cons_ne_nil _ _)).close first.openPrice =
    .ok gross
  net_eq : excess (exitProceeds config ((first :: rest).getLast (List.cons_ne_nil _ _)).close)
    (entryCost config first.openPrice) = .ok net
  up_eq : excess (highest first rest) first.openPrice = .ok up
  down_eq : excess (lowest first rest) first.openPrice = .ok down
  grossReturn_eq : quantizeSix gross = .ok grossReturn
  netReturn_eq : quantizeSix net = .ok netReturn
  mfe_eq : quantizeSix up = .ok mfe
  mae_eq : quantizeSix down = .ok mae
  entryOpen_reported : outcome.entryOpen = some first.openPrice
  exitClose_reported :
    outcome.exitClose = some ((first :: rest).getLast (List.cons_ne_nil _ _)).close
  gross_reported : outcome.grossReturn = some grossReturn
  net_reported : outcome.netReturn = some netReturn
  mfe_reported : outcome.mfe = some mfe
  mae_reported : outcome.mae = some mae

theorem matured_returns {reported : HorizonOutcome}
    (h : matured config reported first rest = .ok outcome) :
    Nonempty (Returns config first rest outcome) := by
  unfold matured at h
  obtain ⟨gross, hgross, h⟩ := bind_ok_iff.mp h
  obtain ⟨net, hnet, h⟩ := bind_ok_iff.mp h
  obtain ⟨up, hup, h⟩ := bind_ok_iff.mp h
  obtain ⟨down, hdown, h⟩ := bind_ok_iff.mp h
  obtain ⟨grossReturn, hgrossReturn, h⟩ := bind_ok_iff.mp h
  obtain ⟨netReturn, hnetReturn, h⟩ := bind_ok_iff.mp h
  obtain ⟨mfe, hmfe, h⟩ := bind_ok_iff.mp h
  obtain ⟨mae, hmae, h⟩ := bind_ok_iff.mp h
  cases h
  exact ⟨{
    gross, net, up, down, grossReturn, netReturn, mfe, mae
    gross_eq := hgross, net_eq := hnet, up_eq := hup, down_eq := hdown
    grossReturn_eq := hgrossReturn, netReturn_eq := hnetReturn, mfe_eq := hmfe, mae_eq := hmae
    entryOpen_reported := rfl, exitClose_reported := rfl, gross_reported := rfl
    net_reported := rfl, mfe_reported := rfl, mae_reported := rfl }⟩

theorem mapM_append_some {α β : Type} {f : α → Option β} {xs ys : List α} {results : List β}
    (h : (xs ++ ys).mapM f = some results) :
    ∃ front back, xs.mapM f = some front ∧ ys.mapM f = some back ∧ results = front ++ back := by
  rw [List.mapM_append] at h
  obtain ⟨front, hfront, h⟩ := Option.bind_eq_some_iff.mp h
  obtain ⟨back, hback, h⟩ := Option.bind_eq_some_iff.mp h
  exact ⟨front, back, hfront, hback, (Option.some.inj h).symm⟩

theorem longer_path {shorter longer : ℕ} {moreSessions : List ℤ} {moreBars : ℤ → Option SwingBar}
    {path morePath : List SwingBar} {valid moreValid : List ValidBar} (hle : shorter ≤ longer)
    (hsame : moreSessions.take shorter = forwardSessions.take shorter)
    (hbars : ∀ day ∈ forwardSessions.take shorter, moreBars day = bars day)
    (hpath : (forwardSessions.take shorter).mapM bars = some path)
    (hvalid : path.mapM SwingBar.valid? = some valid)
    (hmorePath : (moreSessions.take longer).mapM moreBars = some morePath)
    (hmoreValid : morePath.mapM SwingBar.valid? = some moreValid) :
    ∃ more, moreValid = valid ++ more := by
  have hsplit : moreSessions.take longer =
      forwardSessions.take shorter ++ (moreSessions.drop shorter).take (longer - shorter) := by
    rw [← hsame, ← List.take_add, Nat.add_sub_cancel' hle]
  rw [hsplit] at hmorePath
  obtain ⟨front, back, hfront, -, rfl⟩ := mapM_append_some hmorePath
  rw [mapM_bars_congr hbars, hpath] at hfront
  cases hfront
  obtain ⟨validFront, more, hvalidFront, -, rfl⟩ := mapM_append_some hmoreValid
  rw [hvalid] at hvalidFront
  cases hvalidFront
  exact ⟨more, rfl⟩

theorem Returns.ordered (r : Returns config first rest outcome) :
    r.mae ≤ min 0 r.grossReturn ∧ max 0 r.grossReturn ≤ r.mfe ∧
      (Fits first.openPrice → Fits ((first :: rest).getLast (List.cons_ne_nil _ _)).close →
        r.netReturn ≤ r.grossReturn) := by
  have hentry := first.open_pos
  have hlast := List.getLast_mem (List.cons_ne_nil first rest)
  have hfirst : first ∈ first :: rest := List.mem_cons_self
  refine ⟨le_min ?_ ?_, max_le ?_ ?_, ?_⟩
  · have hlow := (lowest_le_low hfirst).trans first.low_le_open
    exact quantizeSix_mono r.mae_eq quantizeSix_zero
      (excess_mono hentry r.down_eq (excess_self hentry) hlow)
  · have hlow := (lowest_le_low hlast).trans (ValidBar.low_le_close _)
    exact quantizeSix_mono r.mae_eq r.grossReturn_eq
      (excess_mono hentry r.down_eq r.gross_eq hlow)
  · have hhigh := first.open_le_high.trans (high_le_highest hfirst)
    exact quantizeSix_mono quantizeSix_zero r.mfe_eq
      (excess_mono hentry (excess_self hentry) r.up_eq hhigh)
  · have hhigh := (ValidBar.close_le_high _).trans (high_le_highest hlast)
    exact quantizeSix_mono r.grossReturn_eq r.mfe_eq
      (excess_mono hentry r.gross_eq r.up_eq hhigh)
  · intro hentryFits hexitFits
    have hratio := net_ratio_le config hentry (ValidBar.close_pos _) hentryFits hexitFits
    apply quantizeSix_mono r.netReturn_eq r.grossReturn_eq
    rw [excess_ok r.net_eq, excess_ok r.gross_eq]
    exact round_mono (sub_le_sub_right (round_mono hratio) 1)

end Mature

/-- An outcome that is decided stays the same for every later final session and longer calendar
with the same bars on its window. The returns of a mature outcome are in order, the net one
where the entry and exit prices have no more digits than the working context; and the extremes
of a longer horizon enclose those of a shorter one. -/
theorem outcomes_settled (config : OutcomeConfig) (signalClose : Decimal) :
    (∀ horizon forwardSessions laterSessions lastFinal laterFinal bars laterBars outcome,
      evaluateOutcome config horizon signalClose forwardSessions lastFinal bars = .ok outcome →
      outcome.status ≠ .pending → outcome.status ≠ .calendarUnavailable →
      (∀ final, lastFinal = some final → final ≤ laterFinal) →
      forwardSessions <+: laterSessions →
      (∀ day ∈ forwardSessions.take horizon, laterBars day = bars day) →
      evaluateOutcome config horizon signalClose laterSessions (some laterFinal) laterBars =
        .ok outcome) ∧
    (∀ horizon forwardSessions lastFinal bars outcome,
      evaluateOutcome config horizon signalClose forwardSessions lastFinal bars = .ok outcome →
      outcome.status = .mature →
      ∃ entryOpen exitClose gross net mfe mae, outcome.entryOpen = some entryOpen ∧
        outcome.exitClose = some exitClose ∧ outcome.grossReturn = some gross ∧
        outcome.netReturn = some net ∧ outcome.mfe = some mfe ∧ outcome.mae = some mae ∧
        mae ≤ min 0 gross ∧ max 0 gross ≤ mfe ∧
        (Fits entryOpen → Fits exitClose → net ≤ gross)) ∧
    (∀ shorter longer forwardSessions moreSessions lastFinal laterFinal bars moreBars
        outcome further, shorter < longer →
      moreSessions.take shorter = forwardSessions.take shorter →
      (∀ day ∈ forwardSessions.take shorter, moreBars day = bars day) →
      evaluateOutcome config shorter signalClose forwardSessions lastFinal bars = .ok outcome →
      evaluateOutcome config longer signalClose moreSessions laterFinal moreBars = .ok further →
      outcome.status = .mature → further.status = .mature →
      ∃ mfe furtherMfe mae furtherMae, outcome.mfe = some mfe ∧ further.mfe = some furtherMfe ∧
        outcome.mae = some mae ∧ further.mae = some furtherMae ∧
        mfe ≤ furtherMfe ∧ furtherMae ≤ mae) := by
  refine ⟨?_, ?_, ?_⟩
  · intro horizon forwardSessions laterSessions lastFinal laterFinal bars laterBars outcome h
      hpending hcalendar hfinal hgrows hbars
    exact evaluateOutcome_final h hpending hcalendar hfinal hgrows hbars
  · intro horizon forwardSessions lastFinal bars outcome h hmature
    obtain ⟨path, first, rest, reported, -, -, hmatured⟩ := evaluateOutcome_mature h hmature
    obtain ⟨r⟩ := matured_returns hmatured
    obtain ⟨hmae, hmfe, hnet⟩ := r.ordered
    exact ⟨_, _, _, _, _, _, r.entryOpen_reported, r.exitClose_reported, r.gross_reported,
      r.net_reported, r.mfe_reported, r.mae_reported, hmae, hmfe, hnet⟩
  · intro shorter longer forwardSessions moreSessions lastFinal laterFinal bars moreBars outcome
      further hlt hsame hbars h hfurther hmature hfurtherMature
    obtain ⟨path, first, rest, _, hpath, hvalid, hmatured⟩ := evaluateOutcome_mature h hmature
    obtain ⟨morePath, head, tail, _, hmorePath, hmoreValid, hmoreMatured⟩ :=
      evaluateOutcome_mature hfurther hfurtherMature
    obtain ⟨more, hmore⟩ :=
      longer_path hlt.le hsame hbars hpath hvalid hmorePath hmoreValid
    obtain ⟨rfl, rfl⟩ := List.cons.inj hmore
    obtain ⟨r⟩ := matured_returns hmatured
    obtain ⟨further⟩ := matured_returns hmoreMatured
    have hentry := head.open_pos
    refine ⟨_, _, _, _, r.mfe_reported, further.mfe_reported, r.mae_reported,
      further.mae_reported, ?_, ?_⟩
    · exact quantizeSix_mono r.mfe_eq further.mfe_eq
        (excess_mono hentry r.up_eq further.up_eq highest_append)
    · exact quantizeSix_mono further.mae_eq r.mae_eq
        (excess_mono hentry further.down_eq r.down_eq lowest_append)

/-- The default cost rates, and a limit of thirty-five per cent on moves. -/
def usualCosts : OutcomeConfig where
  maxAbsSessionMove := 35 / 100
  buyFeeRate := 15 / 100000
  sellFeeRate := 15 / 100000
  sellTaxRate := 18 / 10000
  slippageRate := 1 / 1000
  move_nonneg := by norm_num
  buyFee_nonneg := by norm_num
  sellFee_nonneg := by norm_num
  sellTax_nonneg := by norm_num
  slippage_nonneg := by norm_num

/-- A bar around a price, wider on later days. -/
def risingBar (day : ℤ) : Option SwingBar := some {
  sessionDate := day
  openPrice := .finite (100 + day)
  high := .finite (102 + 2 * day)
  low := .finite (99 - day)
  close := .finite (101 + day)
  volume := .finite 10 }

/-- A bar that rises over two days. -/
theorem outcomes_settled_two_days :
    ∃ outcome further, evaluateOutcome usualCosts 1 100 [1] (some 1) risingBar = .ok outcome ∧
      evaluateOutcome usualCosts 2 100 [1, 2] (some 2) risingBar = .ok further ∧
      evaluateOutcome usualCosts 1 100 [1, 2] (some 2) risingBar = .ok outcome ∧
      (∃ gross net, outcome.grossReturn = some gross ∧ outcome.netReturn = some net ∧
        net ≤ gross) ∧
      ∃ mfe furtherMfe, outcome.mfe = some mfe ∧ further.mfe = some furtherMfe ∧
        mfe ≤ furtherMfe := by
  obtain ⟨outcome, houtcome, hmature, hentry, hexit⟩ := Checked.exists_ok_of_check
    (P := fun o : HorizonOutcome => o.status = .mature ∧ o.entryOpen = some 101 ∧
      o.exitClose = some 102)
    (show ((evaluateOutcome usualCosts 1 100 [1] (some 1) risingBar).toOption.any _) = true by
      decide +kernel)
  obtain ⟨further, hfurther, hfurtherMature⟩ := Checked.exists_ok_of_check
    (P := fun o : HorizonOutcome => o.status = .mature)
    (show ((evaluateOutcome usualCosts 2 100 [1, 2] (some 2) risingBar).toOption.any _) = true by
      decide +kernel)
  obtain ⟨hfinal, hordered, hextremes⟩ := outcomes_settled usualCosts 100
  refine ⟨outcome, further, houtcome, hfurther, ?_, ?_, ?_⟩
  · exact hfinal 1 [1] [1, 2] (some 1) 2 risingBar risingBar outcome houtcome
      (by rw [hmature]; decide)
      (by rw [hmature]; decide) (by simp) ⟨[2], rfl⟩ fun day _ => rfl
  · obtain ⟨entryOpen, exitClose, gross, net, mfe, mae, hopen, hclose, hgross, hnet, -, -, -, -,
      hle⟩ := hordered 1 [1] (some 1) risingBar outcome houtcome hmature
    cases hentry.symm.trans hopen
    cases hexit.symm.trans hclose
    exact ⟨gross, net, hgross, hnet, hle (by decide +kernel) (by decide +kernel)⟩
  · obtain ⟨mfe, furtherMfe, mae, furtherMae, hmfe, hfurtherMfe, -, -, hle, -⟩ :=
      hextremes 1 2 [1] [1, 2] (some 1) (some 2) risingBar risingBar outcome further (by decide)
        rfl (fun day _ => rfl) houtcome hfurther hmature hfurtherMature
    exact ⟨mfe, furtherMfe, hmfe, hfurtherMfe, hle⟩

def costless : OutcomeConfig where
  maxAbsSessionMove := 35 / 100
  buyFeeRate := 0
  sellFeeRate := 0
  sellTaxRate := 0
  slippageRate := 0
  move_nonneg := by norm_num
  buyFee_nonneg := le_rfl
  sellFee_nonneg := le_rfl
  sellTax_nonneg := le_rfl
  slippage_nonneg := le_rfl

/-- A bar that opens with twenty-nine digits and closes half a millionth below one. -/
def longOpen : SwingBar where
  sessionDate := 1
  openPrice := .finite (1 + 4 / 10 ^ 28)
  high := .finite 2
  low := .finite (1 / 2)
  close := .finite (1 - 5 / 10 ^ 7)
  volume := .finite 1

/-- The ratio of the gross return keeps the digits of the open that the cost of the entry
loses, so that it is rounded down by a millionth and the net return is not. -/
theorem net_above_gross :
    ∃ outcome gross net,
      evaluateOutcome costless 1 1 [1] (some 1) (fun _ => some longOpen) = .ok outcome ∧
      outcome.status = .mature ∧ outcome.grossReturn = some gross ∧
      outcome.netReturn = some net ∧ gross < net := by
  obtain ⟨outcome, houtcome, hmature, hgross, hnet⟩ := Checked.exists_ok_of_check
    (P := fun o : HorizonOutcome => o.status = .mature ∧ o.grossReturn = some (-1 / 10 ^ 6) ∧
      o.netReturn = some 0)
    (show ((evaluateOutcome costless 1 1 [1] (some 1)
      fun _ => some longOpen).toOption.any _) = true by decide +kernel)
  exact ⟨outcome, -1 / 10 ^ 6, 0, houtcome, hmature, hgross, hnet, by norm_num⟩

end KAssetTrader.Swing
