import KAssetTrader.Position.Evaluate
import KAssetTrader.Recommendation.Row

/-!
One tick of the position manager over one holding. The stored state is loaded
or opened, the previous exit recommendation of the cycle is reconciled, the
completed daily bars not yet evaluated are replayed, the completed intraday
buckets are read against the stored levels, and at most one recommendation is
created. An exception inside a tick undoes all of it.
-/

namespace KAssetTrader.Manager

open Position Recommendation

structure DailyCandleRow where
  timeUtc : Instant
  openPrice : Decimal
  high : Decimal
  low : Decimal
  close : Decimal

structure IntradayBar where
  timestamp : Instant
  openPrice : Decimal
  high : Decimal
  low : Decimal
  close : Decimal

/-- `CompletedIntradayBars`, as far as an evaluation reads it. -/
structure CompletedIntradayBars where
  bars : List IntradayBar
  barInterval : ℤ

/-- The id of an exit recommendation: `position_recommendation_id` of the signal
key, or of the minute of a realtime exit. -/
inductive RecommendationKey where
  | exit (signalKey : ExitSignalKey) (ownerUserId : ℤ)
  | realtime (positionId minute ownerUserId : ℤ)
  deriving DecidableEq

/-- The check of `position_recommendation_id`. -/
def positionRecommendationId (key : RecommendationKey) (ownerUserId : ℤ) :
    Except String RecommendationKey :=
  if ownerUserId < 1 then .error "signal_key and positive owner_user_id are required"
  else .ok key

def RecommendationKey.cycle : RecommendationKey → Option ℤ
  | .exit signalKey _ => signalKey.positionCycleId
  | .realtime positionId _ _ => some positionId

/-- The `exitKind` of the evidence. -/
inductive StoredExitKind where
  | ladder (kind : ExitKind)
  | realtimeTrendExit
  deriving DecidableEq

structure ExitRecommendation where
  row : AIRecommendation RecommendationKey
  exitKind : StoredExitKind
  barAsOf : Option Instant
  suggestedQuantity : Decimal
  referencePrice : Decimal

def ExitRecommendation.storedExitKind (r : ExitRecommendation) : Option ExitKind :=
  match r.exitKind with
  | .ladder kind => some kind
  | .realtimeTrendExit => none

/-- An open row of the position states: the managed state, the recommendation
it last made, and the promotion identity of the strategy. -/
structure PositionStateRow where
  ownerUserId : ℤ
  paperAccountId : ℤ
  state : ManagedPositionState
  lastExitSignalKey : Option RecommendationKey
  strategyKey : String
  strategyFingerprint : String

structure Holding where
  positionId : ℤ
  ownerUserId : ℤ
  paperAccountId : ℤ
  market : Market
  symbol : String
  createdAt : Instant

structure TickInput where
  quantity : Decimal
  avgPrice : Decimal
  strategyStop : Option Decimal
  rows : List DailyCandleRow
  intraday : Option CompletedIntradayBars

/-- `PaperPositionManagerService`: its arithmetic, configuration and strategy
identity, and the exchange calendar. -/
structure PositionManagerService where
  ctx : Decimal.Context
  config : PositionManagerConfig
  /-- `regular_session_bounds` of a market on a day of the UTC time line. -/
  sessionBounds : Market → ℤ → Option (Instant × Instant)
  /-- The sentence of a reason. -/
  sentence : ExitReason → String
  strategyKey : String
  strategyVersion : String
  strategyFingerprint : String

def day : ℤ := 24 * 60 * 60 * 1000000

def maxBarAge : ℤ := 4 * day

def signalLifetime : ℤ := 4 * day

def realtimeExitLifetime : ℤ := 10 * 60 * 1000000

variable (service : PositionManagerService)

def dailyPositionBar (market : Market) (row : DailyCandleRow) :
    Except String (Option PositionBar) :=
  match service.sessionBounds market (row.timeUtc.fdiv day) with
  | none => .ok none
  | some (opensAt, closesAt) =>
    some <$> PositionBar.make row.timeUtc row.openPrice row.high row.low row.close
      opensAt closesAt

def completedDaily (market : Market) (now : Instant) :
    List DailyCandleRow → Except String (List (DailyCandleRow × PositionBar))
  | [] => .ok []
  | row :: rest => do
      let bar ← dailyPositionBar service market row
      let later ← completedDaily market now rest
      match bar with
      | some bar => if bar.endsAt ≤ now then return (row, bar) :: later else return later
      | none => return later

def sortedRows (rows : List DailyCandleRow) : List DailyCandleRow :=
  rows.insertionSort (fun a b => a.timeUtc ≤ b.timeUtc)

def trueRanges (ctx : Decimal.Context) (previousClose : Decimal) :
    List DailyCandleRow → List Decimal
  | [] => []
  | row :: rest =>
    max (ctx.sub row.high row.low)
        (max |ctx.sub row.high previousClose| |ctx.sub row.low previousClose|) ::
      trueRanges ctx row.close rest

/-- `_average_true_range`, of fourteen rows. -/
def averageTrueRange (ctx : Decimal.Context) (rows : List DailyCandleRow) : Option Decimal :=
  let ordered := sortedRows rows
  if ordered.length < 15 then none
  else match ordered with
    | [] => none
    | first :: rest =>
      let ranges := trueRanges ctx first.close rest
      let result := ctx.div (ctx.sum (ranges.drop (ranges.length - 14))) 14
      if 0 < result then some result else none

/-- `_trend_intact`, over twenty rows. -/
def trendIntact (ctx : Decimal.Context) (rows : List DailyCandleRow) : Bool :=
  let ordered := sortedRows rows
  if ordered.length < 20 then true
  else
    let closes := (ordered.drop (ordered.length - 20)).map (·.close)
    ctx.div (ctx.sum closes) 20 ≤ closes.getLastD 0

/-- `_persistable_state`: a partial exit is not completed by its signal. -/
def persistableState (previous evaluated : ManagedPositionState)
    (signalKind : Option ExitKind) : Except String ManagedPositionState :=
  if signalKind = some .partialSell ∧ previous.partialExitCompleted = false then
    { evaluated with partialExitCompleted := false }.postInit
  else .ok evaluated

structure Replay where
  state : ManagedPositionState
  firstPartial : Option PositionExitSignal := none
  fullExit : Option PositionExitSignal := none

/-- The replay of the completed bars, in order: `seen` are the rows before them.
It stops at the first full exit. -/
def replayDaily (completedRows : List DailyCandleRow) (seen : List DailyCandleRow) :
    List (DailyCandleRow × PositionBar) → Replay → Except String Replay
  | [], replay => .ok replay
  | (row, bar) :: rest, replay =>
    if bar.asOf ≤ replay.state.entryAt ∨
        replay.state.lastEvaluatedAt.any (fun last => bar.asOf ≤ last) then
      replayDaily completedRows (seen ++ [row]) rest replay
    else do
      let barsHeld := completedRows.countP (fun candidate =>
        replay.state.entryAt < candidate.timeUtc ∧ candidate.timeUtc ≤ bar.asOf)
      let evaluation ← evaluatePosition service.ctx service.config replay.state bar
        (max 1 (barsHeld : ℤ)) (trendIntact service.ctx (seen ++ [row]))
      let state ← persistableState replay.state evaluation.state
        (evaluation.signal.map (·.kind))
      match evaluation.signal with
      | none => replayDaily completedRows (seen ++ [row]) rest { replay with state }
      | some exit =>
        if exit.kind = .partialSell then
          replayDaily completedRows (seen ++ [row]) rest
            { replay with state, firstPartial := replay.firstPartial <|> some exit }
        else return { replay with state, fullExit := some exit }

/-- What a tick learns from the previous recommendation of the cycle. -/
structure Previous where
  pendingActive : Bool := false
  pendingKind : Option ExitKind := none
  retryAfter : Option Instant := none

def raiseToFloor (s : ManagedPositionState) (floor : Decimal) (effectiveAt : Instant) :
    Except String ManagedPositionState :=
  if s.currentStop < floor then raiseTrailingStop s floor effectiveAt else .ok s

def partialFloor (ctx : Decimal.Context) (config : PositionManagerConfig)
    (s : ManagedPositionState) : Decimal :=
  ctx.add s.entryPrice (ctx.mul config.postPartialFloorAtr s.initialAtr)

/-- The previous recommendation, when the row links one, and the state after a
partial exit it proves. -/
def reconcilePrevious (service : PositionManagerService) (now : Instant)
    (state : ManagedPositionState) (previous : Option ExitRecommendation) :
    Except String (ManagedPositionState × Previous) :=
  match previous with
  | none => .ok (state, {})
  | some previous =>
    match previous.row.validUntil with
    | none => .error "'NoneType' object has no attribute 'tzinfo'"
    | some validUntil =>
      if previous.row.paperExecutionStatus = some .succeeded then
        if previous.storedExitKind = some .partialSell then do
          let completed ← { state with partialExitCompleted := true }.postInit
          let raised ← raiseToFloor completed
            (partialFloor service.ctx service.config completed) now
          return (raised, {})
        else .ok (state, {})
      else if previous.row.paperExecutionStatus = some .claimed then
        -- Its result is not known yet, also after it expired.
        .ok (state, { pendingActive := true, pendingKind := previous.storedExitKind })
      else if previous.row.decision = .rejected ∨
          previous.row.paperExecutionStatus = some .failed ∨ validUntil ≤ now then
        .ok (state, { retryAfter := previous.barAsOf })
      else .ok (state, { pendingActive := true, pendingKind := previous.storedExitKind })

/-- `_quantity_for_signal`: rounded down to whole shares or to four places. -/
def quantityForSignal (ctx : Decimal.Context) (market : Market)
    (heldQuantity fraction : Decimal) : Decimal :=
  let raw := max 0 (min heldQuantity (ctx.mul heldQuantity fraction))
  match market with
  | .krx =>
    let quantity := Decimal.truncate raw
    if fraction < 1 ∧ 2 ≤ heldQuantity then
      min (ctx.sub heldQuantity 1) (max 1 quantity)
    else quantity
  | .us => Decimal.truncate (raw * 10000) / 10000

/-- `_state_matches_position_cycle`. -/
def PositionStateRow.matchesHolding (row : PositionStateRow) (holding : Holding) : Bool :=
  row.state.positionCycleId = some holding.positionId ∧
    row.ownerUserId = holding.ownerUserId ∧ row.paperAccountId = holding.paperAccountId ∧
    row.state.market = holding.market ∧ row.state.symbol = holding.symbol ∧
    row.state.strategyVersion ≠ ""

def PositionStateRow.applyState (row : PositionStateRow) (s : ManagedPositionState)
    (signalKey : Option RecommendationKey) : PositionStateRow :=
  { row with
    state := { row.state with
      initialAtr := s.initialAtr
      initialStop := s.initialStop
      currentStop := s.currentStop
      highestClose := s.highestClose
      partialExitCompleted := s.partialExitCompleted
      lastEvaluatedAt := s.lastEvaluatedAt
      exitLevelsEffectiveAt := s.exitLevelsEffectiveAt
      exitLevelHistory := s.exitLevelHistory }
    lastExitSignalKey := signalKey }

def isFingerprint (text : String) : Bool :=
  text.length = 64 && text.toList.all (fun c => c ∈ "0123456789abcdef".toList)

/-- `_strategy_provenance_evidence` raises on an incomplete identity. -/
def strategyProvenance (row : PositionStateRow) : Except String Unit :=
  if row.strategyKey = "" ∨ row.state.strategyVersion = "" ∨
      ¬ isFingerprint row.strategyFingerprint then
    .error "position strategy promotion identity is incomplete"
  else .ok ()

/-- A holding not yet managed: its state is opened from the average true range,
or not at all. -/
def openState (now : Instant) (holding : Holding) (input : TickInput)
    (completedRows : List DailyCandleRow) (dailyUsable : Bool) :
    Except String (Option PositionStateRow) :=
  match if dailyUsable then averageTrueRange service.ctx completedRows else none with
  | none => .ok none
  | some atr => do
      let state ← initializePosition service.ctx service.config holding.market holding.symbol
        input.avgPrice atr holding.createdAt service.strategyVersion
        (some holding.positionId) (some now) input.strategyStop
      return some
        { ownerUserId := holding.ownerUserId
          paperAccountId := holding.paperAccountId
          state
          lastExitSignalKey := none
          strategyKey := service.strategyKey
          strategyFingerprint := service.strategyFingerprint }

/-- A stored state as read, with the promotion identity that it lacks. -/
def loadState (row : PositionStateRow) : Except String PositionStateRow := do
  let exitLevelHistory ← row.state.exitLevelHistory.mapM ExitLevelVersion.postInit
  let state ← { row.state with exitLevelHistory }.postInit
  let strategyKey :=
    if row.strategyKey = "" ∧ state.strategyVersion = service.strategyVersion then
      service.strategyKey
    else row.strategyKey
  let strategyFingerprint :=
    if row.strategyFingerprint = "" ∧ strategyKey = service.strategyKey ∧
        state.strategyVersion = service.strategyVersion then
      service.strategyFingerprint
    else row.strategyFingerprint
  return { row with state, strategyKey, strategyFingerprint }

def loadOrOpen (now : Instant) (holding : Holding) (input : TickInput)
    (completedRows : List DailyCandleRow) (dailyUsable : Bool)
    (stored : Option PositionStateRow) : Except String (Option PositionStateRow) :=
  match stored.filter (·.matchesHolding holding) with
  | some row => some <$> loadState service row
  | none => openState service now holding input completedRows dailyUsable

inductive Horizon where
  | daily
  | intraday

def intradayPositionBars (intraday : CompletedIntradayBars) :
    Except String (List PositionBar) :=
  intraday.bars.mapM fun bar =>
    PositionBar.make (bar.timestamp + intraday.barInterval) bar.openPrice bar.high bar.low
      bar.close bar.timestamp (bar.timestamp + intraday.barInterval)

def intradayExit (intraday : CompletedIntradayBars) (state : ManagedPositionState)
    (after : Option Instant) : Except String (Option PositionExitSignal) := do
  let bars ← intradayPositionBars intraday
  evaluatePositionIntraday service.ctx service.config state bars intraday.barInterval after

def replayTick (completed : List (DailyCandleRow × PositionBar)) (dailyUsable : Bool)
    (state : ManagedPositionState) : Except String Replay :=
  if dailyUsable then replayDaily service (completed.map (·.1)) [] completed { state }
  else .ok { state }

/-- The replayed state and the signal of the tick: a full exit of a daily bar,
else a full exit of an intraday one, else a partial exit. -/
def evaluateTick (completed : List (DailyCandleRow × PositionBar)) (dailyUsable : Bool)
    (intraday : Option CompletedIntradayBars) (after : Option Instant)
    (state : ManagedPositionState) :
    Except String (Replay × Option (PositionExitSignal × Horizon)) := do
  let replay ← replayTick service completed dailyUsable state
  let daily := (replay.fullExit <|> replay.firstPartial).map (·, Horizon.daily)
  match intraday with
  | none => return (replay, daily)
  | some intraday =>
    if daily.all (fun exit => exit.1.kind = .partialSell) then
      let found ← intradayExit service intraday replay.state after
      match found with
      | none => return (replay, daily)
      | some exit =>
        if daily.isNone ∨ exit.kind ≠ .partialSell then
          return (replay, some (exit, .intraday))
        else return (replay, daily)
    else return (replay, daily)

/-- What a tick writes: the state row, the validity of the recommendation it
supersedes, and a new recommendation. -/
structure TickOutcome where
  row : PositionStateRow
  superseded : Option RecommendationKey := none
  created : Option ExitRecommendation := none

/-- A full exit replaces a partial or realtime exit that is not claimed yet. -/
def supersedes (linked : Previous) (previous : Option ExitRecommendation)
    (exit : PositionExitSignal) : Bool :=
  linked.pendingActive &&
    (linked.pendingKind == some .partialSell ||
      previous.any (·.exitKind == .realtimeTrendExit)) &&
    exit.kind != .partialSell && previous.any (·.row.paperExecutionStatus == none)

def exitRecommendation (now : Instant) (holding : Holding) (exit : PositionExitSignal)
    (quantity : Decimal) : ExitRecommendation where
  row :=
    { ownerUserId := holding.ownerUserId
      id := .exit exit.idempotencyKey holding.ownerUserId
      action := .sell
      rationale := [service.sentence exit.reason]
      source := some "kasset-automation"
      createdAt := now
      validUntil := some (now + signalLifetime)
      updatedAt := now }
  exitKind := .ladder exit.kind
  barAsOf := some exit.signalAt
  suggestedQuantity := quantity
  referencePrice := exit.referencePrice

/-- A signal with the state to persist and the quantity to sell. -/
structure Sized where
  state : ManagedPositionState
  exit : PositionExitSignal
  quantity : Decimal

/-- One share cannot be sold in part: its stop is raised to the floor instead,
and a full exit in a later bucket of the window sells it. -/
def sizeExit (now : Instant) (holding : Holding) (input : TickInput)
    (state : ManagedPositionState) (exit : PositionExitSignal) (horizon : Horizon) :
    Except String Sized :=
  let quantity :=
    quantityForSignal service.ctx holding.market input.quantity exit.quantityFraction
  if quantity ≤ 0 ∧ holding.market = .krx ∧ input.quantity = 1 ∧ exit.kind = .partialSell then do
    let raised ← raiseToFloor state (partialFloor service.ctx service.config state)
      (match horizon with
        | .intraday => exit.signalAt
        | .daily => now)
    match input.intraday with
    | none => return { state := raised, exit, quantity }
    | some intraday =>
      let followUp ← intradayExit service intraday raised (some exit.signalAt)
      match followUp with
      | none => return { state := raised, exit, quantity }
      | some later =>
        if later.kind ≠ .partialSell then
          return { state := raised, exit := later, quantity := 1 }
        else return { state := raised, exit, quantity }
  else .ok { state, exit, quantity }

def emitExit (now : Instant) (holding : Holding) (input : TickInput)
    (find : RecommendationKey → Option ExitRecommendation) (row : PositionStateRow)
    (linked : Previous) (previous : Option ExitRecommendation)
    (state : ManagedPositionState) (exit : PositionExitSignal) (horizon : Horizon) :
    Except String TickOutcome :=
  let supersede := supersedes linked previous exit
  if linked.pendingActive ∧ ¬ supersede then
    -- The previous recommendation has not ended: no second exit is made.
    .ok { row := row.applyState state row.lastExitSignalKey }
  else do
    let superseded := if supersede then row.lastExitSignalKey else none
    let sized ← sizeExit service now holding input state exit horizon
    if sized.quantity ≤ 0 then
      return { row := row.applyState sized.state row.lastExitSignalKey, superseded }
    else
      let key ← positionRecommendationId (.exit sized.exit.idempotencyKey holding.ownerUserId)
        holding.ownerUserId
      let row := row.applyState sized.state (some key)
      if (find key).isSome then return { row, superseded }
      else
        strategyProvenance row
        return { row, superseded
                 created := some (exitRecommendation service now holding sized.exit
                  sized.quantity) }

/-- Whether the completed daily bars are recent enough to be used. -/
def dailyUsable (now : Instant) (completed : List (DailyCandleRow × PositionBar)) : Bool :=
  completed.getLast?.any (fun latest => now - latest.2.endsAt ≤ maxBarAge)

/-- What a tick has found before it ends: the state row with the reconciled
state, the previous recommendation, the replay and the signal. -/
structure TickView where
  row : PositionStateRow
  previous : Option ExitRecommendation
  linked : Previous
  replay : Replay
  signal : Option (PositionExitSignal × Horizon)

/-- `_manage_position` up to its signal: `stored` is the open state row of the
holding, and `find` reads the recommendations. -/
def observeTick (now : Instant) (holding : Holding) (input : TickInput)
    (stored : Option PositionStateRow)
    (find : RecommendationKey → Option ExitRecommendation) :
    Except String (Option TickView) := do
  let completed ← completedDaily service holding.market now (sortedRows input.rows)
  let usable := dailyUsable now completed
  if holding.positionId < 1 then .error "position_cycle_id must be positive"
  else
    let loaded ←
      loadOrOpen service now holding input (completed.map (·.1)) usable stored
    match loaded with
    | none => return none
    | some row =>
      let previous := row.lastExitSignalKey.bind find
      let (state, linked) ← reconcilePrevious service now row.state previous
      let (replay, signal) ←
        evaluateTick service completed usable input.intraday linked.retryAfter state
      return some
        { row := row.applyState state row.lastExitSignalKey, previous, linked, replay, signal }

/-- `_manage_position`. Without a state nothing is written. -/
def managePosition (now : Instant) (holding : Holding) (input : TickInput)
    (stored : Option PositionStateRow)
    (find : RecommendationKey → Option ExitRecommendation) :
    Except String (Option TickOutcome) := do
  let view ← observeTick service now holding input stored find
  match view with
  | none => return none
  | some view =>
    match view.signal with
    | none =>
      return some
        { row := view.row.applyState view.replay.state view.row.lastExitSignalKey }
    | some (exit, horizon) =>
      some <$> emitExit service now holding input find view.row view.linked view.previous
        view.replay.state exit horizon

def exitPending (now : Instant) (previous : Option ExitRecommendation) : Except String Bool :=
  match previous with
  | none => .ok false
  | some previous =>
    if previous.row.paperExecutionStatus = some .claimed then .ok true
    else if previous.row.paperExecutionStatus = some .succeeded ∨
        previous.row.paperExecutionStatus = some .failed ∨
        previous.row.decision = .rejected then .ok false
    else match previous.row.validUntil with
      | none => .error "'NoneType' object has no attribute 'tzinfo'"
      | some validUntil => .ok (now < validUntil)

def minute : ℤ := 60 * 1000000

def realtimeRecommendation (now : Instant) (holding : Holding)
    (quantity referencePrice : Decimal) (key : RecommendationKey) : ExitRecommendation where
  row :=
    { ownerUserId := holding.ownerUserId
      id := key
      action := .sell
      rationale := ["평가익 구간에서 60초 체결강도가 100 아래로 내려가고 가격이 " ++
        "하락하며 당일 VWAP와 완료 5분봉 MA5 아래로 내려가 먼저 " ++
        "정리합니다. 기존 손절선은 바꾸지 않습니다."]
      source := some "kasset-automation"
      createdAt := now
      validUntil := some (now + realtimeExitLifetime)
      updatedAt := now }
  exitKind := .realtimeTrendExit
  barAsOf := none
  suggestedQuantity := quantity
  referencePrice

/-- `_realtime_trend_exit`: `triggered` is the reference price of the decision
on the tape, when it triggers. -/
def realtimeTrendExit (now : Instant) (holding : Holding) (quantity : Decimal)
    (triggered : Option Decimal) (stored : Option PositionStateRow)
    (find : RecommendationKey → Option ExitRecommendation) :
    Except String (Option TickOutcome) :=
  match stored.filter (·.matchesHolding holding) with
  | none => .ok none
  | some row => do
      let pending ← exitPending now (row.lastExitSignalKey.bind find)
      if pending then return none
      else
        let _ ← loadState service row
        match triggered with
        | none => return none
        | some referencePrice =>
          if Decimal.truncate quantity ≤ 0 then return none
          else
            let key ← positionRecommendationId
              (.realtime holding.positionId (now.fdiv minute) holding.ownerUserId)
              holding.ownerUserId
            if (find key).isSome then return none
            else
              strategyProvenance row
              return some
                { row := { row with lastExitSignalKey := some key }
                  created := some (realtimeRecommendation now holding
                    (Decimal.truncate quantity) referencePrice key) }

end KAssetTrader.Manager
