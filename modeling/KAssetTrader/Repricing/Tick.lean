import KAssetTrader.Repricing.ClaimTable

/-!
One repricing tick: poll, selection, one claimed and judged fire after the other, and
the loop that writes the terminals at the end. The tick is a state machine whose steps
are its reads and writes of the claim store and the answers it gets from outside: the
judgement of a session, and what `order_proposal_create` did.
-/

namespace KAssetTrader.Repricing

open Unicode (strip)

/-- The subset of a watch event that the flow needs. -/
structure CandidateEvent where
  eventUuid : EventUuid
  symbol : String
  market : String
  outcome : String
  deliveryStatus : String
  deliveredAt : Option Instant

inductive ConsumptionState where
  | unclaimed
  | claimed
  | consumed
  | quarantined
  deriving DecidableEq

def stateFor (rows : Claims) (event : EventUuid) (now : Instant) : ConsumptionState :=
  match currentRow rows event with
  | none => .unclaimed
  | some (_, row) =>
    match row.state with
    | .expiredUnprocessed => .unclaimed
    | .awaitingReconcile => .quarantined
    | .proposalCreated | .rejectedWithReason => .consumed
    | .started => if now < row.leaseExpiresAt then .claimed else .unclaimed

/-- `dedupe_candidates`: the first occurrence of an event wins. -/
def dedupeCandidates : List CandidateEvent → List CandidateEvent
  | [] => []
  | event :: rest => event :: (dedupeCandidates rest).filter (·.eventUuid ≠ event.eventUuid)

/-- The order of the selection: oldest delivery first, undelivered last. -/
def CandidateEvent.before (a b : CandidateEvent) : Bool :=
  match a.deliveredAt, b.deliveredAt with
  | some s, some t => decide (s < t ∨ (s = t ∧ a.eventUuid ≤ b.eventUuid))
  | some _, none => true
  | none, some _ => false
  | none, none => decide (a.eventUuid ≤ b.eventUuid)

/-- Why an event may be skipped before the store is asked about it. -/
def CandidateEvent.outOfScope (event : CandidateEvent) (market : String) : Bool :=
  decide (event.market ≠ market ∨ event.deliveryStatus ≠ "delivered" ∨
    event.outcome ≠ "review_required")

/-- How far `select_candidates` has come. -/
structure Selecting where
  rest : List CandidateEvent
  inFlight : List String
  selected : List CandidateEvent

/-- One turn of the loop of `select_candidates`. -/
def Selecting.turn (s : Selecting) (rows : Claims) (now : Instant) (market : String)
    (roundCap : ℕ) : Selecting :=
  match s.rest with
  | [] => s
  | event :: rest =>
    if event.outOfScope market || decide (stateFor rows event.eventUuid now ≠ .unclaimed) ||
        decide (event.symbol ∈ s.inFlight) || decide (roundCap ≤ s.selected.length) then
      { s with rest := rest }
    else
      { rest := rest
        inFlight := event.symbol :: s.inFlight
        selected := s.selected ++ [event] }

inductive Judgement where
  /-- the judge raised, or its answer is no judgement of this event -/
  | refused
  | decline (reason : String)
  | draft (symbol : String)

/-- What `order_proposal_create` said, as far as it said anything. -/
inductive CreateResponse where
  | raised
  | notMapping
  | refused
  | succeeded (proposalId : Option String)

/-- Whether the call committed a proposal, and its response. A refusal comes from before
the commit and a success from after it. -/
structure CreateReply where
  commits : Bool
  response : CreateResponse
  honest : (response = .refused → commits = false) ∧
    (∀ proposalId, response = .succeeded proposalId → commits = true)

inductive ChainError where
  | judgementRefused
  | failure
  | ambiguous
  | boundaryViolation

def proposalCreated (proposalId : String) (h : present (some proposalId) = true) :
    SessionOutcome where
  state := .proposalCreated
  proposalId := some proposalId
  complete := by simp [isComplete, h]

def rejected (reason : String) (h : present (some reason) = true) : SessionOutcome where
  state := .rejectedWithReason
  rejectionReason := some reason
  complete := by simp [isComplete, h]

def interpretCreateResponse : CreateResponse → Except ChainError SessionOutcome
  | .raised | .notMapping => .error .ambiguous
  | .refused => .error .failure
  | .succeeded proposalId =>
    if h : present (some (strip (proposalId.getD ""))) = true then
      .ok (proposalCreated (strip (proposalId.getD "")) h)
    else .error .ambiguous

/-- A judgement that ends the session without a create. -/
def interpretDecline (reason : String) : Except ChainError SessionOutcome :=
  if h : present (some reason) = true then .ok (rejected reason h) else .error .judgementRefused

inductive SpawnDisposition where
  | started
  | notStarted
  | ambiguous

/-- What `_attempt_spawn` makes of an exception of the spawner. -/
def ChainError.disposition : ChainError → SpawnDisposition
  | .judgementRefused | .failure => .notStarted
  | .ambiguous | .boundaryViolation => .ambiguous

inductive TickPhase where
  | selecting (selecting : Selecting)
  | claiming (rest : List CandidateEvent)
  | judging (event : CandidateEvent) (handle : ClaimHandle) (rest : List CandidateEvent)
  | creating (event : CandidateEvent) (handle : ClaimHandle) (rest : List CandidateEvent)
  | releasing (handle : ClaimHandle) (rest : List CandidateEvent)
  | quarantining (handle : ClaimHandle) (rest : List CandidateEvent)
  | finalising (outcomes : List (EventUuid × SessionOutcome))

/-- A tick under way, with the outcomes that its spawner has recorded and the handles of
the sessions it has started. -/
structure Tick where
  now : Instant
  market : String
  roundCap : ℕ
  phase : TickPhase
  sessionOutcomes : Dict EventUuid SessionOutcome := Dict.empty
  handles : Dict EventUuid ClaimHandle := Dict.empty

/-- The next event of the tick, or the loop that writes the terminals. -/
def Tick.resume (tick : Tick) (rest : List CandidateEvent) : Tick :=
  { tick with
    phase :=
      match rest with
      | [] => .finalising tick.sessionOutcomes.entries
      | event :: rest => .claiming (event :: rest) }

def Tick.reconcile (tick : Tick) (event : EventUuid) : SpawnDisposition :=
  if (tick.sessionOutcomes.get? event).isSome then .started else .ambiguous

def Tick.settle (tick : Tick) (event : CandidateEvent) (handle : ClaimHandle)
    (rest : List CandidateEvent) : SpawnDisposition → Tick
  | .started =>
    ({ tick with handles := tick.handles.set event.eventUuid handle }).resume rest
  | .notStarted => { tick with phase := .releasing handle rest }
  | .ambiguous => { tick with phase := .quarantining handle rest }

/-- The end of a spawn: its outcome is recorded, or its exception is classified, and an
ambiguous one is reconciled. -/
def Tick.conclude (tick : Tick) (event : CandidateEvent) (handle : ClaimHandle)
    (rest : List CandidateEvent) : Except ChainError SessionOutcome → Tick
  | .ok outcome =>
    ({ tick with sessionOutcomes := tick.sessionOutcomes.set event.eventUuid outcome }).settle
      event handle rest .started
  | .error error =>
    tick.settle event handle rest
      (match error.disposition with
      | .ambiguous => tick.reconcile event.eventUuid
      | disposition => disposition)

/-- The judge has answered. A draft goes on to the create, unless it is for another
symbol. -/
def Tick.judged (tick : Tick) (event : CandidateEvent) (handle : ClaimHandle)
    (rest : List CandidateEvent) : Judgement → Tick
  | .refused => tick.conclude event handle rest (.error .judgementRefused)
  | .decline reason => tick.conclude event handle rest (interpretDecline reason)
  | .draft symbol =>
    if symbol = event.symbol then { tick with phase := .creating event handle rest }
    else tick.conclude event handle rest (.error .boundaryViolation)

/-- A create that committed a proposal, under the claim of a token. -/
structure Commit where
  eventUuid : EventUuid
  ownerToken : ℕ

/-- The claim table and the ticks under way. The creates that committed are recorded;
nothing in the code reads the record. -/
structure RepricingWorld where
  rows : Claims := Dict.empty
  nextId : ℕ := 1
  tokens : List ℕ := []
  ticks : Dict ℕ Tick := Dict.empty
  commits : List Commit := []

inductive RepricingAction where
  /-- a tick starts, with what its poll saw and the symbols that are in flight -/
  | begin (tick : ℕ) (now : Instant) (market : String) (roundCap : ℕ)
      (polled : List CandidateEvent)
  | select (tick : ℕ)
  | claim (tick ownerToken : ℕ)
  | claimUnavailable (tick : ℕ)
  | judge (tick : ℕ) (judgement : Judgement)
  | create (tick : ℕ) (reply : CreateReply)
  | release (tick : ℕ)
  | quarantine (tick : ℕ) (now : Instant)
  | quarantineUnavailable (tick : ℕ)
  | finalise (tick : ℕ) (now : Instant)
  /-- an exception out of the tick, or the end of its process -/
  | crash (tick : ℕ)
  | sweep (now : Instant)

def defaultLease : ℤ := 30 * 60 * 1000000

def Tick.call (tick : Tick) (event : CandidateEvent) : ClaimCall where
  eventUuid := event.eventUuid
  symbol := event.symbol
  market := event.market
  claimedBy := "rob1286-watch-trigger-repricing"
  now := tick.now
  lease := defaultLease

/-- `try_claim` as one step: what a store whose claims are exclusive and final does. -/
def tryClaim (rows : Claims) (nextId : ℕ) (call : ClaimCall) (ownerToken : ℕ) :
    Option (Claims × ClaimHandle) :=
  match readLatest rows call with
  | none => none
  | some (.expiring call id generation) =>
    (commitClaim rows nextId call (generation + 1) (some id) ownerToken).toOption.map
      (·, call.handle (generation + 1) ownerToken)
  | some (.inserting call generation expired) =>
    (commitClaim rows nextId call generation expired ownerToken).toOption.map
      (·, call.handle generation ownerToken)

def RepricingWorld.setTick (w : RepricingWorld) (id : ℕ) (tick : Tick) : RepricingWorld :=
  { w with ticks := w.ticks.set id tick }

def RepricingWorld.endTick (w : RepricingWorld) (id : ℕ) : RepricingWorld :=
  { w with ticks := w.ticks.erase id }

def RepricingWorld.onTick (w : RepricingWorld) (id : ℕ)
    (next : Tick → Option RepricingWorld) : Option RepricingWorld :=
  (w.ticks.get? id).bind next

def RepricingWorld.step (w : RepricingWorld) : RepricingAction → Option RepricingWorld
  | .begin id now market roundCap polled =>
    if w.ticks.get? id = none then
      some (w.setTick id
        { now, market, roundCap
          phase := .selecting
            { rest := (dedupeCandidates polled).insertionSort (·.before · = true)
              inFlight := activeSymbols w.rows now
              selected := [] } })
    else none
  | .select id => w.onTick id fun tick =>
    match tick.phase with
    | .selecting selecting =>
      match selecting.rest with
      | [] => some (w.setTick id (tick.resume selecting.selected))
      | _ :: _ => some (w.setTick id
          { tick with
            phase := .selecting (selecting.turn w.rows tick.now tick.market tick.roundCap) })
    | _ => none
  | .claim id ownerToken => w.onTick id fun tick =>
    match tick.phase with
    | .claiming (event :: rest) =>
      if ownerToken ∈ w.tokens then none
      else
        match tryClaim w.rows w.nextId (tick.call event) ownerToken with
        | none => some { w.setTick id (tick.resume rest) with nextId := w.nextId + 1 }
        | some (rows, handle) => some
            { w.setTick id { tick with phase := .judging event handle rest } with
              rows := rows
              nextId := w.nextId + 1
              tokens := ownerToken :: w.tokens }
    | _ => none
  | .claimUnavailable id => w.onTick id fun tick =>
    match tick.phase with
    | .claiming (_ :: rest) => some (w.setTick id (tick.resume rest))
    | _ => none
  | .judge id judgement => w.onTick id fun tick =>
    match tick.phase with
    | .judging event handle rest => some (w.setTick id (tick.judged event handle rest judgement))
    | _ => none
  | .create id reply => w.onTick id fun tick =>
    match tick.phase with
    | .creating event handle rest => some
        { w.setTick id
            (tick.conclude event handle rest (interpretCreateResponse reply.response)) with
          commits :=
            if reply.commits then ⟨event.eventUuid, handle.ownerToken⟩ :: w.commits
            else w.commits }
    | _ => none
  | .release id => w.onTick id fun tick =>
    match tick.phase with
    | .releasing handle rest =>
      match release w.rows handle with
      -- the exception leaves the tick, before the loop that writes the terminals
      | .error _ => some (w.endTick id)
      | .ok rows => some { w.setTick id (tick.resume rest) with rows := rows }
    | _ => none
  | .quarantine id now => w.onTick id fun tick =>
    match tick.phase with
    | .quarantining handle rest =>
      match finalise w.rows handle awaitingReconcile now with
      | .error _ => some (w.setTick id (tick.resume rest))
      | .ok rows => some { w.setTick id (tick.resume rest) with rows := rows }
    | _ => none
  | .quarantineUnavailable id => w.onTick id fun tick =>
    match tick.phase with
    | .quarantining _ rest => some (w.setTick id (tick.resume rest))
    | _ => none
  | .finalise id now => w.onTick id fun tick =>
    match tick.phase with
    | .finalising [] => some (w.endTick id)
    | .finalising ((event, outcome) :: outcomes) =>
      let next := { tick with phase := .finalising outcomes }
      match tick.handles.get? event with
      | none => some (w.setTick id next)
      | some handle =>
        match finalise w.rows handle outcome now with
        | .error _ => some (w.setTick id next)
        | .ok rows => some { w.setTick id next with rows := rows }
    | _ => none
  | .crash id => some (w.endTick id)
  | .sweep now => some { w with rows := sweepExpired w.rows now }

end KAssetTrader.Repricing
