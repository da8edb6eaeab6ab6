import KAssetTrader.Library.Dict
import KAssetTrader.NhPlug.Assignment
import KAssetTrader.NhPlug.Lease

/-!
The control ticks of the nh-stream runner. A tick loads the demand, plans which session
carries which symbol, and then goes through the sessions one by one: a session may have lost
its reader or fallen silent, a connection or a message may fail, and a session that is lost
in the middle forgets its symbols and their tape windows. Connections and windows are told
apart by serial numbers.
-/

namespace KAssetTrader.NhPlug

open Transition

def silentSessionSeconds : ℤ := 60

/-- `BACKOFF_INITIAL_SECONDS`. -/
def backoffInitial : ℤ := 1

/-- `BACKOFF_MAX_SECONDS`. -/
def backoffMax : ℤ := 30

def demandRefreshSeconds : ℤ := 15

def closedSessionPollSeconds : ℤ := 15

def publishIntervalSeconds : ℤ := 1

/-- `_Slot`. The reader task exists exactly as long as the connection. -/
structure NhSlot where
  subscribed : List String
  ws : Option ℕ
  lastFrameAt : ℤ
  connectedAt : ℤ
  backoff : ℤ
  retryAt : ℤ

def NhSlot.fresh : NhSlot := ⟨[], none, 0, 0, backoffInitial, 0⟩

/-- The tape windows, and the next serial number. -/
structure NhTape where
  windows : Dict String ℕ
  nextSerial : ℕ

/-- What one session meets while a tick goes through it. `frameAt` and `acked` are what its
reader has read since the last time; the moments are the clock at a drop before the
subscriptions, after the attempt to connect, and at a drop while subscribing. -/
structure SlotInputs where
  frameAt : Option ℤ
  acked : Bool
  readerDone : Bool
  lostAt : ℤ
  connects : Bool
  connectAt : ℤ
  sends : String → Bool
  ackedSince : Bool
  failedAt : ℤ

structure NhSession where
  slot : NhSlot
  tape : NhTape

namespace NhSession

variable (s : NhSession)

def readAck (acked : Bool) : NhSession :=
  if acked then { s with slot := { s.slot with backoff := backoffInitial } } else s

def readFrame : Option ℤ → NhSession
  | none => s
  | some frameAt => { s with slot := { s.slot with lastFrameAt := frameAt } }

/-- `retry_at` and `backoff` after a connection ended or failed. -/
def backOff (now : ℤ) : NhSession :=
  { s with
    slot :=
      { s.slot with
        retryAt := now + s.slot.backoff
        backoff := min (s.slot.backoff * 2) backoffMax } }

def dropConnection (now : ℤ) : NhSession :=
  { slot := { (s.backOff now).slot with subscribed := [], ws := none }
    tape := { s.tape with windows := s.slot.subscribed.foldl Dict.erase s.tape.windows } }

/-- One round of `_unsubscribe`; a message that fails is ignored. -/
def unsubscribeOne (symbol : String) : NhSession :=
  { slot := { s.slot with subscribed := s.slot.subscribed.erase symbol }
    tape := { s.tape with windows := s.tape.windows.erase symbol } }

def unsubscribe (symbols : List String) : NhSession :=
  symbols.foldl unsubscribeOne s

/-- The part of `_subscribe` after a message was sent. -/
def subscribeOne (symbol : String) : NhSession :=
  { slot := { s.slot with subscribed := s.slot.subscribed ++ [symbol] }
    tape :=
      { windows := s.tape.windows.set symbol s.tape.nextSerial
        nextSerial := s.tape.nextSerial + 1 } }

/-- `_subscribe`: the first message that fails ends the connection. -/
def subscribe (inputs : SlotInputs) : NhSession → List String → NhSession
  | s, [] => s
  | s, symbol :: rest =>
    if inputs.sends symbol then (s.subscribeOne symbol).subscribe inputs rest
    else (s.readAck inputs.ackedSince).dropConnection inputs.failedAt

def connect (inputs : SlotInputs) : NhSession :=
  if inputs.connects then
    { slot :=
        { s.slot with
          ws := some s.tape.nextSerial
          connectedAt := inputs.connectAt
          lastFrameAt := 0
          subscribed := [] }
      tape := { s.tape with nextSerial := s.tape.nextSerial + 1 } }
  else
    { s.backOff inputs.connectAt with
      slot := { (s.backOff inputs.connectAt).slot with ws := none } }

def applyPlan (inputs : SlotInputs) (wanted : List String) : NhSession :=
  let removed := s.slot.subscribed.filter fun symbol => symbol ∉ wanted
  let added := wanted.filter fun symbol => symbol ∉ s.slot.subscribed
  (s.unsubscribe removed).subscribe inputs added

/-- A session whose reader has stopped, or that is silent, is dropped. -/
def checkAlive (now : ℤ) (inputs : SlotInputs) : NhSession :=
  let s := (s.readFrame inputs.frameAt).readAck inputs.acked
  let s := if s.slot.ws.isSome ∧ inputs.readerDone then s.dropConnection inputs.lostAt else s
  if s.slot.ws.isSome ∧ s.slot.subscribed ≠ [] ∧
      silentSessionSeconds < now - max s.slot.lastFrameAt s.slot.connectedAt then
    s.dropConnection inputs.lostAt
  else s

/-- One round of `_reconcile_slots`. -/
def reconcile (now : ℤ) (inputs : SlotInputs) (wanted : List String) : NhSession :=
  let s := s.checkAlive now inputs
  if wanted = [] then
    if s.slot.ws.isSome then
      (s.unsubscribe s.slot.subscribed).dropConnection inputs.lostAt
    else s
  else if s.slot.ws.isSome then s.applyPlan inputs wanted
  else if now < s.slot.retryAt then s
  else
    let s := s.connect inputs
    if s.slot.ws.isSome then s.applyPlan inputs wanted else s

/-- The slot as `_close_all` leaves it: the close is no failure, so nothing backs off. -/
def close (now : ℤ) : NhSlot :=
  if s.slot.ws.isSome ∨ s.slot.subscribed ≠ [] then
    { ((s.unsubscribe s.slot.subscribed).dropConnection now).slot with
      backoff := backoffInitial
      retryAt := 0 }
  else s.slot

end NhSession

structure SlotJob where
  slot : NhSlot
  wanted : List String
  inputs : SlotInputs

/-- The loop of `_reconcile_slots`. -/
def reconcileSlots (now : ℤ) : List SlotJob → NhTape → List NhSlot × NhTape
  | [], tape => ([], tape)
  | job :: rest, tape =>
    let done := NhSession.reconcile ⟨job.slot, tape⟩ now job.inputs job.wanted
    let (slots, tape) := reconcileSlots now rest done.tape
    (done.slot :: slots, tape)

/-- The runner. `demanded` is the whole demand that `desired` was taken from. -/
structure NhRunner where
  slots : List NhSlot
  tape : NhTape
  desired : Demand
  nextDemandAt : ℤ
  demanded : Demand

/-- What a tick meets: the lease, the calendar, the clock, the loaded demand unless the load
fails, and what each slot meets. -/
structure TickInputs where
  holdsLease : Bool
  sessionOpen : Bool
  loadAt : ℤ
  demand : Option Demand
  reconcileAt : ℤ
  closedAt : ℤ
  slots : ℕ → SlotInputs

namespace NhRunner

variable (w : NhRunner)

def start : NhRunner where
  slots := List.replicate maxSessions .fresh
  tape := ⟨Dict.empty, 0⟩
  desired := .empty
  nextDemandAt := 0
  demanded := .empty

def closeAll (now : ℤ) : NhRunner where
  slots := w.slots.map fun slot => NhSession.close ⟨slot, w.tape⟩ now
  tape := { w.tape with windows := Dict.empty }
  desired := .empty
  nextDemandAt := 0
  demanded := .empty

/-- The demand is loaded again when it is due; a load that fails keeps the old one. -/
def loadDemand (inputs : TickInputs) : NhRunner :=
  if w.nextDemandAt ≤ inputs.loadAt then
    let w := { w with nextDemandAt := inputs.loadAt + demandRefreshSeconds }
    match inputs.demand with
    | none => w
    | some demand => { w with desired := demand.first maxSymbols, demanded := demand }
  else w

/-- `_assignment`. -/
def plan : List (List String) :=
  assignment w.desired.symbols (w.slots.map NhSlot.subscribed)

def jobs (inputs : ℕ → SlotInputs) : List SlotJob :=
  (w.slots.zip w.plan).mapIdx fun i pair => ⟨pair.1, pair.2, inputs i⟩

def reconcile (inputs : TickInputs) : NhRunner :=
  let done := reconcileSlots inputs.reconcileAt (w.jobs inputs.slots) w.tape
  { w with slots := done.1, tape := done.2 }

/-- `tick`: the seconds until the next one, and what it leaves. -/
def tick (inputs : TickInputs) : ℤ × NhRunner :=
  if inputs.holdsLease = false then (leaseRenewSeconds, w.closeAll inputs.closedAt)
  else if inputs.sessionOpen = false then
    (closedSessionPollSeconds, w.closeAll inputs.closedAt)
  else (publishIntervalSeconds, (w.loadDemand inputs).reconcile inputs)

def step (inputs : TickInputs) : Option NhRunner := some (w.tick inputs).2

end NhRunner

def RunnerStart (w : NhRunner) : Prop := w = NhRunner.start

/-- After a tick: no symbol is in two sessions, no session is over its capacity, and the
windows are those of the subscribed symbols. -/
structure RunnerSound (w : NhRunner) : Prop where
  disjoint : w.slots.Pairwise fun a b => ∀ symbol ∈ a.subscribed, symbol ∉ b.subscribed
  nodup : ∀ slot ∈ w.slots, slot.subscribed.Nodup
  capacity : ∀ slot ∈ w.slots, slot.subscribed.length ≤ symbolsPerSession
  windows : ∀ symbol, (w.tape.windows.get? symbol).isSome = true ↔
    ∃ slot ∈ w.slots, symbol ∈ slot.subscribed
  budget : w.desired = w.demanded.first maxSymbols

/-- Every session that the plan gives symbols to has ended the tick with a connection. A
session whose connection or subscription failed has none, and neither has one that still
waits to connect again. -/
def AllConnected (before after : NhRunner) : Prop :=
  ∀ (i : ℕ) (wanted : List String),
    (assignment after.desired.symbols (before.slots.map NhSlot.subscribed))[i]? =
      some wanted → wanted ≠ [] →
    ∃ slot : NhSlot, after.slots[i]? = some slot ∧ slot.ws.isSome = true

structure TickSound (before after : NhRunner) : Prop where
  unmoved : ∀ (i : ℕ) (slot slot' : NhSlot), before.slots[i]? = some slot →
    after.slots[i]? = some slot' → ∀ connection, slot.ws = some connection →
    slot'.ws = some connection → ∀ symbol ∈ slot.subscribed, symbol ∈ after.desired.symbols →
    symbol ∈ slot'.subscribed ∧
      after.tape.windows.get? symbol = before.tape.windows.get? symbol
  complete : AllConnected before after → ∀ symbol,
    (∃ slot ∈ after.slots, symbol ∈ slot.subscribed) ↔
      symbol ∈ (after.demanded.first maxSymbols).symbols

end KAssetTrader.NhPlug
