import KAssetTrader.Stream.Session

/-!
`MarketStreamRuntime`: the sessions of one process, the demand for each topic, and the
baselines. A declaration and a tick both look a baseline up, which awaits a lock, the
resolver of the baseline and the resolver of the market session; other calls run at each
of these points.
-/

namespace KAssetTrader.Stream

/-- `BASELINE_TTL_SECONDS`, in microseconds. -/
def baselineTtl : Moment := 300000000

/-- Where a lookup stands: before its look at the cache, at the lock of its topic, in the
resolver of the baseline, in the resolver of the market session, or at its end. `again`
marks the second look, after a boundary of the market session. -/
inductive LookupPhase where
  | entering (again : Bool)
  | locking (again : Bool)
  | resolving (again : Bool) (cached : Option Quote)
  | atBoundary (baseline : Quote)
  | ready (baseline : Option Quote)

/-- The baselines with the time of each, the market session that each topic was last seen
in, and the locks with their holders. -/
structure BaselineCache where
  baselines : Dict String (Moment × Quote) := Dict.empty
  marketStates : Dict String MarketSessionState := Dict.empty
  locks : Dict String ℕ := Dict.empty

/-- The end of `_baseline`: the first one goes on to the boundary of the session. -/
def LookupPhase.found (again : Bool) : Option Quote → LookupPhase
  | none => .ready none
  | some quote => if again then .ready (some quote) else .atBoundary quote

def BaselineCache.fresh (cache : BaselineCache) (key : String) (now : Moment) : Option Quote :=
  match cache.baselines.get? key with
  | some (stored, quote) => if now - stored < baselineTtl then some quote else none
  | none => none

/-- What a lookup is answered: the time, the quote that the baseline resolver returns (or
that it raised), or the market session (or that its resolver raised). -/
inductive LookupInput where
  | clock (now : Moment)
  | baseline (answer : Option (Option Quote)) (now : Moment)
  | marketSession (answer : Option (Option MarketSessionState))

/-- One step of `_baseline` and `_baseline_at_session_boundary` for a topic. -/
def BaselineCache.lookup (cache : BaselineCache) (id : ℕ) (key : String) :
    LookupPhase → LookupInput → Option (BaselineCache × LookupPhase)
  | .entering again, .clock now =>
    match cache.fresh key now with
    | some quote => some (cache, .found again (some quote))
    | none => some (cache, .locking again)
  | .locking again, .clock now =>
    if (cache.locks.get? key).isSome then none
    else match cache.fresh key now with
    | some quote => some (cache, .found again (some quote))
    | none =>
      some ({ cache with locks := cache.locks.set key id },
        .resolving again ((cache.baselines.get? key).map (·.2)))
  | .resolving again cached, .baseline answer now =>
    let cache := { cache with locks := cache.locks.erase key }
    match answer with
    | none => some (cache, .found again cached)
    | some none => some (cache, .found again none)
    | some (some quote) =>
      some ({ cache with baselines := cache.baselines.set key (now, quote) },
        .found again (some quote))
  | .atBoundary baseline, .marketSession answer =>
    match answer with
    | none | some none => some (cache, .ready (some baseline))
    | some (some state) =>
      let previous := cache.marketStates.get? key
      let cache := { cache with marketStates := cache.marketStates.set key state }
      let unchanged := match previous with
        | none => baseline.session == some state
        | some previous => previous == state
      if unchanged then some (cache, .ready (some baseline))
      else some ({ cache with baselines := cache.baselines.erase key }, .entering true)
  | _, _ => none

/-- What waits for a lookup: a declaration of a session, with the keys that it has still
to look up after this one, or a tick with its listeners. -/
inductive Waiter where
  | declaration (session : ℕ) (rest : List String)
  | tick (listeners : List ℕ) (price : Decimal) (asOf : Moment)

structure StreamTask where
  key : String
  waiter : Waiter
  phase : LookupPhase

/-- A session of the process, and whether it is registered. -/
structure Connection where
  session : StreamSession
  registered : Bool := true

structure QuoteOffer where
  quote : Quote
  fromTick : Bool

/-- The runtime. `offers` keeps the quotes that a session took for each topic in its
current subscription, which the code does not. -/
structure StreamRuntime where
  connections : Dict ℕ Connection := Dict.empty
  demand : Dict String ℤ := Dict.empty
  cache : BaselineCache := {}
  isLive : Bool := false
  streaming : List String := []
  demoted : List String := []
  rejected : List String := []
  reason : Option String := some "UPSTREAM_UNAVAILABLE"
  tasks : Dict ℕ StreamTask := Dict.empty
  offers : Dict (ℕ × String) (List QuoteOffer) := Dict.empty

structure StateEvent where
  isLive : Bool
  streaming : List String
  demoted : List String
  rejected : List String
  reason : Option String

inductive RuntimeAction where
  | register (id : ℕ) (maxTopics : ℕ)
  | unregister (id : ℕ)
  | declare (task : ℕ) (id : ℕ) (requested : List RawTopic)
  | state (event : StateEvent)
  | trade (task : ℕ) (key : String) (price : Decimal) (asOf : Moment)
  | orderbook (key : String) (body : String)
  | lookup (task : ℕ) (input : LookupInput)
  | deliver (task : ℕ)

namespace StreamRuntime

/-- `_release` of one key. -/
def releaseOne (demand : Dict String ℤ) (key : String) : Dict String ℤ :=
  let remaining := (demand.get? key).getD 0 - 1
  if 0 < remaining then demand.set key remaining else demand.erase key

def release (demand : Dict String ℤ) (keys : List String) : Dict String ℤ :=
  keys.foldl releaseOne demand

def addOne (demand : Dict String ℤ) (key : String) : Dict String ℤ :=
  demand.set key ((demand.get? key).getD 0 + 1)

/-- The message of `_notify_status`. -/
def statusFor (w : StreamRuntime) (session : StreamSession) : Message :=
  let topics := session.topics.keys.insertionSort (· ≤ ·)
  if w.isLive = false then
    .status .degraded (some (w.reason.getD "UPSTREAM_UNAVAILABLE")) topics
  else
    let polling := topics.filter fun key => decide (key ∉ w.streaming)
    let reason : Option String :=
      if polling = [] then none
      else if polling.any fun key => decide (key ∈ w.rejected) then
        some "TOPIC_REJECTED_BY_PROVIDER"
      else if polling.any fun key => decide (key ∈ w.demoted) then some "TOPIC_BUDGET_EXCEEDED"
      else some "UPSTREAM_SYNCING"
    .status .live reason polling

/-- `_notify_status`. -/
def notify (w : StreamRuntime) (session : StreamSession) : StreamSession :=
  session.offerStatus (w.statusFor session)

def modifySession (w : StreamRuntime) (id : ℕ) (f : StreamSession → StreamSession) :
    StreamRuntime :=
  { w with connections := w.connections.modify id fun c => { c with session := f c.session } }

/-- The first key with a quote to look up, and the keys after it. -/
def nextQuote (session : StreamSession) : List String → Option (String × List String)
  | [] => none
  | key :: rest =>
    match session.topics.get? key with
    | some topic => if topic.kind = .quote then some (key, rest) else nextQuote session rest
    | none => nextQuote session rest

def awaitNext (w : StreamRuntime) (task id : ℕ) (session : StreamSession) (keys : List String) :
    StreamRuntime :=
  match nextQuote session keys with
  | some (key, rest) =>
    { w with
      tasks := w.tasks.set task
        { key, waiter := .declaration id rest, phase := .entering false } }
  | none => { w with tasks := w.tasks.erase task }

/-- `declare`, up to its first await. -/
def declare (w : StreamRuntime) (task id : ℕ) (connection : Connection)
    (requested : List RawTopic) : StreamRuntime :=
  let before := connection.session
  let after := before.declare requested
  let added := (after.topics.keys.filter fun key => decide (key ∉ before.topics.keys))
  let session := w.notify after
  let demand := added.foldl addOne (release w.demand (before.released requested))
  let w := { w with
    connections := w.connections.set id { connection with session := session }
    demand := demand
    offers := w.offers.filter fun place _ =>
      decide (place.1 = id → place.2 ∈ before.topics.keys ∧ place.2 ∈ after.topics.keys) }
  w.awaitNext task id session (added.insertionSort (· ≤ ·))

def unregister (w : StreamRuntime) (id : ℕ) (connection : Connection) : StreamRuntime :=
  { w with
    connections := w.connections.set id
      { session := connection.session.close, registered := false }
    demand := release w.demand connection.session.topics.keys
    offers := w.offers.filter fun place _ => decide (place.1 ≠ id) }

def listeners (w : StreamRuntime) (key : String) : List ℕ :=
  (w.connections.entries.filter fun e =>
    e.2.registered && (e.2.session.topics.get? key).isSome).map (·.1)

/-- `session.offer` of a quote to a session. -/
def offerQuote (key : String) (offer : QuoteOffer) (w : StreamRuntime) (id : ℕ) : StreamRuntime :=
  match w.connections.get? id with
  | none => w
  | some connection =>
    let taken := connection.session.closed = false ∧
      (connection.session.topics.get? key).isSome = true
    { w.modifySession id (·.offer key (.quote key offer.quote)) with
      offers := if taken then
          w.offers.set (id, key) (((w.offers.get? (id, key)).getD []) ++ [offer])
        else w.offers }

def offerAll (w : StreamRuntime) (key : String) (message : Message) : List ℕ → StreamRuntime
  | [] => w
  | id :: rest => offerAll (w.modifySession id (·.offer key message)) key message rest

/-- What a lookup that is ready does: a declaration offers the baseline to its session and
goes on, a tick is offered on top of it to its listeners. -/
def deliver (w : StreamRuntime) (task : ℕ) (t : StreamTask) (baseline : Option Quote) :
    StreamRuntime :=
  match t.waiter with
  | .declaration id rest =>
    let w := match baseline with
      | some quote => offerQuote t.key ⟨quote, false⟩ w id
      | none => w
    match w.connections.get? id with
    | some connection => w.awaitNext task id connection.session rest
    | none => { w with tasks := w.tasks.erase task }
  | .tick listeners price asOf =>
    let w := match baseline with
      | some quote => listeners.foldl (offerQuote t.key ⟨quoteFromTick quote price asOf, true⟩) w
      | none => w
    { w with tasks := w.tasks.erase task }

def step (w : StreamRuntime) : RuntimeAction → Option StreamRuntime
  | .register id maxTopics =>
    match w.connections.get? id with
    | none =>
      let connection : Connection := { session := { maxTopics } }
      some { w with connections := w.connections.set id connection }
    | some connection =>
      let connection := { connection with registered := true }
      some { w with connections := w.connections.set id connection }
  | .unregister id =>
    match w.connections.get? id with
    | none => some w
    | some connection =>
      if connection.registered then some (w.unregister id connection) else some w
  | .declare task id requested =>
    match w.connections.get? id with
    | none => none
    | some connection =>
      -- A connection declares only while it is registered.
      if connection.registered = true ∧ (w.tasks.get? task).isNone = true then
        some (w.declare task id connection requested)
      else none
  | .state event =>
    let w := { w with
      isLive := event.isLive, streaming := event.streaming, demoted := event.demoted,
      rejected := event.rejected, reason := event.reason }
    some { w with
      connections := w.connections.mapValues fun _ connection =>
        if connection.registered then
          { connection with session := w.notify connection.session }
        else connection }
  | .trade task key price asOf =>
    if (w.tasks.get? task).isSome then none
    else match w.listeners key, parseTopic key with
    | [], _ => some w
    | _, .error _ => some w
    | listeners, .ok _ =>
      let t : StreamTask :=
        { key, waiter := .tick listeners price asOf, phase := .entering false }
      some { w with tasks := w.tasks.set task t }
  | .orderbook key body => some (w.offerAll key (.text body) (w.listeners key))
  | .lookup task input =>
    match w.tasks.get? task with
    | none => none
    | some t =>
      match w.cache.lookup task t.key t.phase input with
      | none => none
      | some (cache, phase) =>
        let t := { t with phase := phase }
        some { w with cache := cache, tasks := w.tasks.set task t }
  | .deliver task =>
    match w.tasks.get? task with
    | none => none
    | some t =>
      match t.phase with
      | .ready baseline => some (w.deliver task t baseline)
      | _ => none

end StreamRuntime

end KAssetTrader.Stream
