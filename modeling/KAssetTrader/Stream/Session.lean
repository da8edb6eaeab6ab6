import KAssetTrader.Library.Transition
import KAssetTrader.Stream.Topics

/-!
`StreamSession`: the subscriptions of one client, and its send pipeline. The mailbox
keeps the latest message of each topic. A flush takes the mailbox and awaits one send
after another, while the other calls change the session.
-/

namespace KAssetTrader.Stream

/-- `StreamSession`, without its transport and its wake event. -/
structure StreamSession where
  maxTopics : ℕ := maxClientTopics
  controlLimit : ℕ := 16
  topics : Dict String Topic := Dict.empty
  pending : Dict String Message := Dict.empty
  control : List String := []
  closed : Bool := false
  conflated : ℕ := 0

namespace StreamSession

/-- What `declare` has read so far. -/
structure Declared where
  accepted : Dict String Topic := Dict.empty
  rejected : List (String × RejectCode) := []

/-- One requested topic of `declare`. -/
def Declared.add (maxTopics : ℕ) (declared : Declared) (raw : RawTopic) : Declared :=
  match raw.parse with
  | .error rejection => { declared with rejected := declared.rejected ++ [rejection] }
  | .ok topic =>
    if (declared.accepted.get? topic.key).isSome then declared
    else if max 1 maxTopics ≤ declared.accepted.size then
      { declared with rejected := declared.rejected ++ [(topic.key, .tooMany)] }
    else { declared with accepted := declared.accepted.set topic.key topic }

def declared (session : StreamSession) (requested : List RawTopic) : Declared :=
  requested.foldl (Declared.add session.maxTopics) {}

def released (session : StreamSession) (requested : List RawTopic) : List String :=
  session.topics.keys.filter fun key =>
    decide (key ∉ (session.declared requested).accepted.keys)

/-- `declare`: the session after it. -/
def declare (session : StreamSession) (requested : List RawTopic) : StreamSession :=
  { session with
    topics := (session.declared requested).accepted
    pending := session.pending.filter fun key _ => decide (key ∉ session.released requested) }

def offer (session : StreamSession) (key : String) (message : Message) : StreamSession :=
  if session.closed = true ∨ (session.topics.get? key).isNone = true then session
  else
    { session with
      conflated := session.conflated + if (session.pending.get? key).isSome then 1 else 0
      pending := session.pending.set key message }

def offerStatus (session : StreamSession) (message : Message) : StreamSession :=
  if session.closed then session
  else { session with pending := session.pending.set statusMailboxKey message }

/-- `push_control`: the oldest message makes room. -/
def pushControl (session : StreamSession) (message : String) : StreamSession :=
  if session.closed then session
  else
    let queue := session.control ++ [message]
    { session with control := queue.drop (queue.length - max 1 session.controlLimit) }

def close (session : StreamSession) : StreamSession :=
  { session with
    closed := true, pending := Dict.empty, control := [], topics := Dict.empty }

end StreamSession

section Declarations

variable {session : StreamSession} {requested : List RawTopic} {key : String} {topic : Topic}

theorem declare_topics (h : (session.declare requested).topics.get? key = some topic) :
    key = topic.key := by
  have hfold : ∀ (requested : List RawTopic) (declared : StreamSession.Declared),
      (∀ key topic, declared.accepted.get? key = some topic → key = topic.key) →
      ∀ key topic, (requested.foldl (StreamSession.Declared.add session.maxTopics)
        declared).accepted.get? key = some topic → key = topic.key := by
    intro requested
    induction requested with
    | nil => exact fun _ hkept => hkept
    | cons raw rest ih =>
      intro declared hkept
      apply ih
      unfold StreamSession.Declared.add
      split
      · exact hkept
      next found _ =>
        split
        · exact hkept
        · split
          · exact hkept
          · intro other value hvalue
            rcases Dict.of_get?_set hvalue with ⟨rfl, rfl⟩ | ⟨_, hvalue⟩
            · rfl
            · exact hkept other value hvalue
  exact hfold requested {} nofun key topic h

theorem key_ne_status (topic : Topic) : topic.key ≠ statusMailboxKey := by
  intro h
  have hhead := congrArg (fun text : String => text.toList.head?) h
  cases hkind : topic.kind <;>
    simp [Topic.key, TopicKind.text, statusMailboxKey, hkind] at hhead

end Declarations

/-- Where the sender is: between two flushes, suspended in the send of a control message,
suspended in the send of a data message with the rest of the batch to send, or ended by a
send that failed. -/
inductive Sender where
  | waiting
  | sendingControl
  | sendingBatch (rest : List (String × Message))
  | ended

/-- A message that has been handed to the transport: the key of its mailbox, none for a
control message, and whether the client may still get it. -/
structure Delivery where
  key : Option String
  message : Message
  current : Bool

/-- A session with its sender. The rest is not in the code: `offered` and `delivered` keep
what was offered and what was sent, `lastOffer` the last offer of each topic in its
current subscription, and `quiet` says that nothing was offered since the last flush
began. -/
structure Pipeline where
  session : StreamSession := {}
  sender : Sender := .waiting
  offered : List (String × Message) := []
  delivered : List Delivery := []
  lastOffer : Dict String Message := Dict.empty
  quiet : Bool := false

inductive PipelineAction where
  | declare (requested : List RawTopic)
  | offer (key : String) (message : Message)
  | offerStatus (upstream : UpstreamState) (reason : Option String) (pollingTopics : List String)
  | pushControl (message : String)
  | close
  | flush
  | sent
  | sendFailed

namespace Pipeline

/-- A data message is current while its topic is subscribed, a status until the close. -/
def isCurrent (session : StreamSession) (key : String) : Bool :=
  !session.closed && ((session.topics.get? key).isSome || key == statusMailboxKey)

def sendBatch (p : Pipeline) : List (String × Message) → Pipeline
  | [] => { p with sender := .waiting }
  | (key, message) :: rest =>
    { p with
      sender := .sendingBatch rest
      delivered := p.delivered ++ [⟨some key, message, isCurrent p.session key⟩] }

/-- The loop over the control messages up to its next send, and after it the batch. -/
def sendControl (p : Pipeline) : Pipeline :=
  match p.session.control with
  | message :: rest =>
    { p with
      session := { p.session with control := rest }
      sender := .sendingControl
      delivered := p.delivered ++ [⟨none, .text message, !p.session.closed⟩] }
  | [] =>
    let batch := p.session.pending.entries
    sendBatch { p with session := { p.session with pending := Dict.empty } } batch

def step (p : Pipeline) : PipelineAction → Option Pipeline
  | .declare requested =>
    let session := p.session.declare requested
    some { p with
      session := session
      lastOffer := p.lastOffer.filter fun key _ => (session.topics.get? key).isSome }
  | .offer key message =>
    let accepted := p.session.closed = false ∧ (p.session.topics.get? key).isSome = true
    some { p with
      session := p.session.offer key message
      offered := p.offered ++ [(key, message)]
      lastOffer := if accepted then p.lastOffer.set key message else p.lastOffer
      quiet := false }
  | .offerStatus upstream reason pollingTopics =>
    let message := .status upstream reason pollingTopics
    some { p with
      session := p.session.offerStatus message
      offered := p.offered ++ [(statusMailboxKey, message)]
      quiet := false }
  | .pushControl message => some { p with session := p.session.pushControl message }
  | .close => some { p with session := p.session.close, lastOffer := Dict.empty }
  | .flush =>
    -- One flush at a time: only the loop of the sender calls it.
    match p.sender with
    | .waiting => some (sendControl { p with quiet := true })
    | _ => none
  | .sent =>
    match p.sender with
    | .sendingControl => some (sendControl p)
    | .sendingBatch rest => some (sendBatch p rest)
    | _ => none
  | .sendFailed =>
    match p.sender with
    | .sendingControl | .sendingBatch _ => some { p with sender := .ended }
    | _ => none

end Pipeline

end KAssetTrader.Stream
