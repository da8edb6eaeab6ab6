import KAssetTrader.Library.Transition
import KAssetTrader.Stream.TossProtocol

/-!
`TossUpstreamOwner`: the one process that holds the connection to the provider. It keeps
the set that an ack confirmed and at most one declaration that waits for its answer. The
provider applies the declarations in the order sent, each as a whole, and answers in that
order; an answer may be late or lost.
-/

namespace KAssetTrader.Stream

/-- `DECLARE_ACK_TIMEOUT_SECONDS`. -/
def declareAckTimeout : Moment := 5000000

/-- `REJECT_COOLDOWN_SECONDS`. -/
def rejectCooldown : Moment := 1800000000

/-- `TossUpstreamOwner`, with the two times that its session keeps. The declaration in
flight has its id, the keys wanted, and the time it was sent. -/
structure TossUpstreamOwner where
  capacity : ℤ := maxUpstreamTopics
  reconcileInterval : Moment := 1000000
  confirmed : Finset String := ∅
  inflight : Option (ℕ × Finset String × Moment) := none
  rejected : Dict String Moment := Dict.empty
  declareSequence : ℕ := 0
  nextReconcile : Moment := 0
  declareBlockedUntil : Moment := 0

/-- How `reconcile` ends: it waits for an answer, publishes LIVE, declares, or raises. -/
inductive Reconciled where
  | waits
  | live (owner : TossUpstreamOwner) (budget : TopicBudget)
  | declares (owner : TossUpstreamOwner) (budget : TopicBudget) (frame : DeclareFrame)
  | fails (owner : TossUpstreamOwner)

def providerKey (key : String) : Option String :=
  match parseTopic key with
  | .ok topic => some topic.upstreamKey
  | .error _ => none

namespace TossUpstreamOwner

/-- A declaration is in flight, and younger than the timeout. -/
def awaitsAnswer (owner : TossUpstreamOwner) (now : Moment) : Bool :=
  match owner.inflight with
  | some (_, _, sentAt) => decide (now - sentAt < declareAckTimeout)
  | none => false

/-- The rejected topics whose cooldown has not ended. -/
def blocked (owner : TossUpstreamOwner) (now : Moment) : Dict String Moment :=
  owner.rejected.filter fun _ tillTime => decide (now < tillTime)

def budget (owner : TossUpstreamOwner) (now : Moment) (demand : Dict String ℤ) : TopicBudget :=
  allocateTopics demand owner.capacity (owner.blocked now).keys

/-- The provider's keys of the topics; none where `parse_topic` raises. -/
def upstreamKeys : List String → Option (List String)
  | [] => some []
  | key :: rest =>
    match providerKey key, upstreamKeys rest with
    | some target, some targets => some (target :: targets)
    | _, _ => none

/-- `reconcile`. It reads the clock first, and again for the budget. -/
def reconcile (owner : TossUpstreamOwner) (now budgetNow : Moment) (demand : Dict String ℤ) :
    Reconciled :=
  if owner.awaitsAnswer now then .waits
  else
    let budget := owner.budget budgetNow demand
    let desired := budget.streaming.toFinset
    let owner := { owner with inflight := none, rejected := owner.blocked budgetNow }
    if desired = owner.confirmed then .live owner budget
    else
      let sequence := owner.declareSequence + 1
      let owner := { owner with declareSequence := sequence }
      match upstreamKeys budget.streaming with
      | none => .fails owner
      | some keys =>
        match declareFrame (keys.insertionSort (· ≤ ·)) sequence with
        | none => .fails owner
        | some frame =>
          .declares { owner with inflight := some (sequence, desired, now) } budget frame

/-- The declaration in flight, unless an answer with this id is for it. -/
def settle (owner : TossUpstreamOwner) (requestId : Option ℕ) :
    Option (ℕ × Finset String × Moment) :=
  match owner.inflight with
  | some (sequence, desired, sentAt) =>
    if requestId = none ∨ requestId = some sequence then none
    else some (sequence, desired, sentAt)
  | none => none

def reject (tillTime : Moment) (rejected : Dict String Moment) (target : String) :
    Dict String Moment :=
  match downstreamKey target with
  | some key => rejected.set key tillTime
  | none => rejected

def applyAck (owner : TossUpstreamOwner) (ack : SubscriptionsAck) (now : Moment) :
    TossUpstreamOwner :=
  { owner with
    rejected := ack.rejected.foldl (reject (now + rejectCooldown)) owner.rejected
    inflight := owner.settle ack.requestId
    confirmed := (ack.subscribed.filterMap downstreamKey).toFinset }

def shrinkCapacity (owner : TossUpstreamOwner) : TossUpstreamOwner :=
  let ceiling : ℤ := if owner.confirmed = ∅ then owner.capacity else owner.confirmed.card
  { owner with capacity := max 1 (min owner.capacity ceiling - 1) }

/-- `_apply_error` with what the session does about its outcome; none where the session
ends. -/
def applyError (owner : TossUpstreamOwner) (error : UpstreamError) (now : Moment) :
    Option TossUpstreamOwner :=
  let owner := { owner with inflight := owner.settle error.requestId }
  match classifyError error.code with
  | .fatal | .blocked | .connectionLimit | .reconnect => none
  | .capacity =>
    some { owner.shrinkCapacity with
      nextReconcile := now + max owner.reconcileInterval declareMinInterval }
  | .throttle => some { owner with declareBlockedUntil := now + rateLimitBackoff }
  | .retry => some owner

end TossUpstreamOwner

inductive UpstreamAnswer where
  | ack (ack : SubscriptionsAck)
  | error (error : UpstreamError)

def UpstreamAnswer.requestId : UpstreamAnswer → Option ℕ
  | .ack found => found.requestId
  | .error found => found.requestId

structure PublishedLive where
  demand : Dict String ℤ
  capacity : ℤ
  budget : TopicBudget
  subscription : List String

/-- A declaration that was sent, with the declarations before it that had no answer then,
and the rejections that had been read. -/
structure SentDeclaration where
  frame : DeclareFrame
  demand : Dict String ℤ
  capacity : ℤ
  budget : TopicBudget
  sentAt : Moment
  budgetAt : Moment
  unanswered : List (ℕ × Moment)
  rejections : List (String × Moment)

/-- The owner and the provider: the declarations under way, the subscription of the
connection, and the answers under way. The rest is not in the code: the declarations that
the provider applied last and whose ack was read last, those sent with no answer read, the
rejections that were read with the end of their cooldown, and what was published and
sent. -/
structure UpstreamWorld where
  owner : TossUpstreamOwner := {}
  online : Bool := false
  clock : Moment := 0
  transit : List DeclareFrame := []
  subscription : List String := []
  answers : List UpstreamAnswer := []
  applied : Option ℕ := none
  acked : Option ℕ := none
  waiting : List (ℕ × Moment) := []
  rejections : List (String × Moment) := []
  published : List PublishedLive := []
  sent : List SentDeclaration := []

/-- A session begins; the owner reconciles a demand, by three readings of the clock; the
provider applies the next declaration or refuses it, and its answer may be lost; the owner
reads an answer; the session ends. -/
inductive UpstreamAction where
  | connect
  | reconcile (loopNow now budgetNow : Moment) (demand : Dict String ℤ)
  | accept (rejected : List String) (answered : Bool)
  | refuse (code : String) (answered : Bool)
  | receive (now : Moment)
  | disconnect

namespace UpstreamWorld

def connect (w : UpstreamWorld) : UpstreamWorld :=
  { w with
    owner := { w.owner with nextReconcile := 0, declareBlockedUntil := 0 }
    online := true
    transit := []
    subscription := []
    answers := []
    applied := none
    acked := none
    waiting := [] }

def disconnect (w : UpstreamWorld) : UpstreamWorld :=
  { w with owner := { w.owner with confirmed := ∅, inflight := none }, online := false }

def reconcile (w : UpstreamWorld) (now budgetNow : Moment) (demand : Dict String ℤ) :
    UpstreamWorld :=
  match w.owner.reconcile now budgetNow demand with
  | .waits => w
  | .live owner budget =>
    { w with
      owner := owner
      published := w.published ++
        [{ demand, capacity := owner.capacity, budget, subscription := w.subscription }] }
  | .declares owner budget frame =>
    { w with
      owner := owner
      transit := w.transit ++ [frame]
      waiting := w.waiting ++ [(frame.requestId, now)]
      sent := w.sent ++
        [{ frame, demand, capacity := owner.capacity, budget, sentAt := now,
           budgetAt := budgetNow, unanswered := w.waiting, rejections := w.rejections }] }
  | .fails owner => { w with owner := owner }.disconnect

def receive (w : UpstreamWorld) (answer : UpstreamAnswer) (now : Moment) : UpstreamWorld :=
  let w := { w with
    waiting := w.waiting.filter fun d => decide (some d.1 ≠ answer.requestId) }
  match answer with
  | .ack ack =>
    { w with
      owner := w.owner.applyAck ack now
      acked := ack.requestId
      rejections := w.rejections ++ ack.rejected.map fun target =>
        (target, now + rejectCooldown) }
  | .error error =>
    match w.owner.applyError error now with
    | some owner => { w with owner := owner }
    | none => w.disconnect

def step (w : UpstreamWorld) : UpstreamAction → Option UpstreamWorld
  | .connect => if w.online then none else some w.connect
  | .reconcile loopNow now budgetNow demand =>
    if w.online = true ∧ w.clock ≤ loopNow ∧ loopNow ≤ now ∧ now ≤ budgetNow ∧
        w.owner.nextReconcile ≤ loopNow ∧ w.owner.declareBlockedUntil ≤ loopNow ∧
        (∀ key ∈ demand.keys, IsTopicKey key) then
      let w := { w with clock := budgetNow }.reconcile now budgetNow demand
      some { w with
        owner := { w.owner with nextReconcile := loopNow + w.owner.reconcileInterval } }
    else none
  | .accept rejected answered =>
    match w.transit with
    | [] => none
    | frame :: rest =>
      if ∀ target ∈ rejected, target ∈ frame.requested then
        let subscribed := frame.requested.filter fun target => decide (target ∉ rejected)
        let answer := .ack { requestId := some frame.requestId, subscribed, rejected }
        some { w with
          transit := rest
          subscription := subscribed
          applied := some frame.requestId
          answers := if answered then w.answers ++ [answer] else w.answers }
      else none
  | .refuse code answered =>
    match w.transit with
    | [] => none
    | frame :: rest =>
      let answer := .error { code, requestId := some frame.requestId }
      some { w with
        transit := rest
        answers := if answered then w.answers ++ [answer] else w.answers }
  | .receive now =>
    match w.answers with
    | [] => none
    | answer :: rest =>
      if w.online = true ∧ w.clock ≤ now then
        some ({ w with answers := rest, clock := now }.receive answer now)
      else none
  | .disconnect => if w.online then some w.disconnect else none

end UpstreamWorld

end KAssetTrader.Stream
