import KAssetTrader.Inbox.Rows
import KAssetTrader.Library.Dict
import KAssetTrader.Library.Transition

/-!
The inbox with any number of tasks and deliveries at work. A task holds the
advisory lock of its job and makes one commit at a time; it may die between any two
of them, which frees the lock. A delivery inserts a row, or reads the row that kept
its insert out through a session of its own. Handler runs and attempts begun are
counted for every job, and the delivery that inserted a row is remembered; nothing
in the code reads these records.
-/

namespace KAssetTrader.Inbox

abbrev JobId := ℕ

/-- Where a task is in `_run_locked`; `seen` is the row that it has read last. -/
inductive Phase where
  | idle
  | locked (job : JobId) (claimant : Claimant) (now : Instant)
  | read (job : JobId) (claimant : Claimant) (now : Instant) (seen : Job)
  | begun (job : JobId) (now : Instant) (attemptCount : ℤ)
  | attempted (job : JobId) (now : Instant) (seen : Job) (attemptCount : ℤ)
  | entered (job : JobId) (now : Instant) (seen : Job)
  | handling (job : JobId) (now : Instant) (seen : Job)
  | recorded (job : JobId) (now : Instant) (seen : Job) (terminalState : InboxState)
  deriving DecidableEq

def Phase.job : Phase → Option JobId
  | .idle => none
  | .locked job _ _ => some job
  | .read job _ _ _ => some job
  | .begun job _ _ => some job
  | .attempted job _ _ _ => some job
  | .entered job _ _ => some job
  | .handling job _ _ => some job
  | .recorded job _ _ _ => some job

/-- `IngressResult`, or a failure that the caller answers with a 503. -/
inductive Report where
  | rejected (reason : String)
  | unavailable
  | queued (job : JobId)
  | duplicate (job : JobId)
  | conflict
  deriving DecidableEq

/-- Where a delivery is in `ingest_callback_update`. -/
inductive Delivery where
  | idle
  | inserting (a : Admitted) (now : Instant)
  | colliding (a : Admitted)
  | committed (a : Admitted) (job : JobId)
  | reported (a : Option Admitted) (report : Report)

structure Origin where
  delivery : ℕ
  envelope : Envelope

structure World where
  jobs : Dict JobId Job
  locks : JobId → Option ℕ
  tasks : ℕ → Phase
  deliveries : ℕ → Delivery
  invocations : JobId → ℕ
  attempts : JobId → ℕ
  origins : JobId → Option Origin

/-- What happens to a task after its attempt was begun: the settings and the
notifier of the moment. -/
structure Surroundings where
  allowed : String → Bool
  notifier : Bool

inductive Commit where
  | done
  | failed
  | lost

inductive Action where
  | acquire (task : ℕ) (job : JobId) (claimant : Claimant) (now : Instant)
  | get (task : ℕ)
  | claim (task : ℕ)
  | reread (task : ℕ)
  | prepare (task : ℕ) (surroundings : Surroundings)
  | invoke (task : ℕ)
  | handled (task : ℕ) (result : HandlerResult)
  | apply (task : ℕ)
  | crash (task : ℕ)
  | deliver (delivery : ℕ) (update : Update) (now : Instant)
  | insert (delivery : ℕ) (job : JobId) (commit : Commit)
  | resolve (delivery : ℕ) (answered : Bool)
  | kick (delivery : ℕ)
  | drop (delivery : ℕ)

namespace World

variable (s : World)

def become (task : ℕ) (phase : Phase) : World :=
  { s with tasks := Function.update s.tasks task phase }

def release (task : ℕ) (job : JobId) : World :=
  { s with
    tasks := Function.update s.tasks task .idle
    locks := Function.update s.locks job none }

def write (job : JobId) (row : Job) : World := { s with jobs := s.jobs.set job row }

/-- `_terminate`: the last commit of a task. -/
def terminate (task : ℕ) (job : JobId) (seen : Job) (now : Instant) (terminalState : InboxState)
    (outcome : Option String) (errorClass : ErrorClass) : World :=
  match s.jobs.get? job with
  | none => s.release task job
  | some row =>
    (s.write job (row.finalize seen now terminalState outcome (some errorClass))).release task job

def claimed (task : ℕ) (job : JobId) (claimant : Claimant) (now : Instant) (seen : Job) : World :=
  match seen.classifyClaim now claimant with
  | .skip => s.release task job
  | .malformed => s.terminate task job seen now .deadLetter none .attemptBudgetInvalid
  | .ambiguous => s.terminate task job seen now .deadLetter none .handlerAmbiguous
  | .exhausted => s.terminate task job seen now .deadLetter none .attemptsExhausted
  | .repair =>
    match s.jobs.get? job, seen.terminalStatePending with
    | some row, some terminalState =>
      (s.write job (row.finalizeKept seen now terminalState)).release task job
    | _, _ => s.release task job
  | .run =>
    match (s.jobs.get? job).bind fun row => row.beginAttempt seen now with
    | none => s.release task job
    | some row =>
      { (s.write job row).become task (.begun job now (seen.attemptCount + 1)) with
        attempts := Function.update s.attempts job (s.attempts job + 1) }

/-- From the attempt that was begun to the mark that the core is entered. -/
def prepared (task : ℕ) (job : JobId) (now : Instant) (seen : Job) (attemptCount : ℤ)
    (around : Surroundings) : World :=
  match rebuildNormalized seen.envelope with
  | none => s.terminate task job seen now .discarded none .envelopeInvalid
  | some callback =>
    if ¬ around.allowed callback.chatIdKey then
      s.terminate task job seen now .discarded (some "chat_not_allowed") .chatRevoked
    else if around.notifier then
      match s.jobs.get? job with
      | none => s.release task job
      | some row => (s.write job (row.markHandlerEntered now)).become task
          (.entered job now (seen.markHandlerEntered now))
    else if maxAttempts ≤ attemptCount then
      s.terminate task job seen now .deadLetter none .attemptsExhausted
    else
      match (s.jobs.get? job).bind fun row => row.scheduleRetry seen now with
      | some row => (s.write job row).release task job
      | none =>
        -- the refused retry reads the row once more
        s.terminate task job ((s.jobs.get? job).getD seen) now .deadLetter none
          .handlerAmbiguous

/-- From the return of the callback core to the commit of its verdict. -/
def returned (normalizeOutcome : Option String → Option String) (task : ℕ) (job : JobId)
    (now : Instant) (seen : Job) (result : HandlerResult) : World :=
  let record := fun (terminalState : InboxState) (errorClass : Option ErrorClass)
      (outcome : Option String) =>
    match s.jobs.get? job with
    | none => s.release task job
    | some row =>
      (s.write job (row.recordHandlerVerdict now terminalState outcome errorClass)).become task
        (.recorded job now (seen.recordHandlerVerdict now terminalState outcome errorClass)
          terminalState)
  match result with
  | .raised => s.terminate task job seen now .deadLetter none .handlerException
  | .notADict => record .deadLetter (some .handlerAmbiguous) none
  | .dict handled reason =>
    let (terminalState, errorClass, outcome) := classifyVerdict handled reason
    record terminalState errorClass (normalizeOutcome outcome)

def setDelivery (delivery : ℕ) (phase : Delivery) : World :=
  { s with deliveries := Function.update s.deliveries delivery phase }

def Collides (job : JobId) (identity : DeliveryIdentity) : Prop :=
  job ∈ s.jobs.keys ∨ ∃ row ∈ s.jobs.values, row.updateDigest = identity

instance (job : JobId) (identity : DeliveryIdentity) : Decidable (s.Collides job identity) :=
  inferInstanceAs (Decidable (_ ∨ _))

def find (identity : DeliveryIdentity) : Option (JobId × Job) :=
  s.jobs.entries.find? fun e => e.2.updateDigest = identity

def inserted (delivery : ℕ) (a : Admitted) (now : Instant) (job : JobId) : World :=
  { s.write job (enqueued a now) with
    origins := Function.update s.origins job (some ⟨delivery, a.envelope⟩) }

def resolved (a : Admitted) : Report :=
  match s.find a.identity with
  | none => .unavailable
  | some (job, row) =>
    if row.state.Terminal then .duplicate job
    else if envelopeMatchesRow row a.envelope then .duplicate job
    else .conflict

end World

variable (allowed : String → Bool) (normalizeOutcome : Option String → Option String)

def step (s : World) : Action → Option World
  | .acquire task job claimant now =>
    match s.tasks task, s.locks job with
    | .idle, none => some
        { s.become task (.locked job claimant now) with
          locks := Function.update s.locks job (some task) }
    | .idle, some _ => some s
    | _, _ => none
  | .get task =>
    match s.tasks task with
    | .locked job claimant now => some
        (match s.jobs.get? job with
        | none => s.release task job
        | some row => s.become task (.read job claimant now row))
    | _ => none
  | .claim task =>
    match s.tasks task with
    | .read job claimant now seen => some (s.claimed task job claimant now seen)
    | _ => none
  | .reread task =>
    match s.tasks task with
    | .begun job now attemptCount => some
        (match s.jobs.get? job with
        | none => s.release task job
        | some row => s.become task (.attempted job now row attemptCount))
    | _ => none
  | .prepare task around =>
    match s.tasks task with
    | .attempted job now seen attemptCount => some
        (s.prepared task job now seen attemptCount around)
    | _ => none
  | .invoke task =>
    match s.tasks task with
    | .entered job now seen => some
        { s.become task (.handling job now seen) with
          invocations := Function.update s.invocations job (s.invocations job + 1) }
    | _ => none
  | .handled task result =>
    match s.tasks task with
    | .handling job now seen => some (s.returned normalizeOutcome task job now seen result)
    | _ => none
  | .apply task =>
    match s.tasks task with
    | .recorded job now seen terminalState => some
        (match s.jobs.get? job with
        | none => s.release task job
        | some row => (s.write job (row.finalizeKept seen now terminalState)).release task job)
    | _ => none
  | .crash task =>
    match (s.tasks task).job with
    | some job => some (s.release task job)
    | none => none
  | .deliver delivery update now =>
    match s.deliveries delivery with
    | .idle => some (s.setDelivery delivery
        (match admission allowed update with
        | .error reason => .reported none (.rejected reason)
        | .ok a => .inserting a now))
    | _ => none
  | .insert delivery job commit =>
    match s.deliveries delivery with
    | .inserting a now => some
        (if s.Collides job a.identity then s.setDelivery delivery (.colliding a)
        else
          match commit with
          | .done => (s.inserted delivery a now job).setDelivery delivery (.committed a job)
          | .failed => s.setDelivery delivery (.reported (some a) .unavailable)
          | .lost => (s.inserted delivery a now job).setDelivery delivery
              (.reported (some a) .unavailable))
    | _ => none
  | .resolve delivery answered =>
    match s.deliveries delivery with
    | .colliding a => some (s.setDelivery delivery
        (.reported (some a) (if answered then s.resolved a else .unavailable)))
    | _ => none
  | .kick delivery =>
    match s.deliveries delivery with
    | .committed a job => some (s.setDelivery delivery (.reported (some a) (.queued job)))
    | _ => none
  | .drop delivery =>
    match s.deliveries delivery with
    | .reported _ _ => none
    | .inserting a _ | .colliding a | .committed a _ =>
      some (s.setDelivery delivery (.reported (some a) .unavailable))
    | .idle => some (s.setDelivery delivery (.reported none .unavailable))

/-- No row yet, and nothing under way. -/
structure Start (s : World) : Prop where
  jobs : s.jobs = Dict.empty
  locks : ∀ job, s.locks job = none
  tasks : ∀ task, s.tasks task = .idle
  deliveries : ∀ delivery, s.deliveries delivery = .idle
  invocations : ∀ job, s.invocations job = 0
  attempts : ∀ job, s.attempts job = 0
  origins : ∀ job, s.origins job = none

abbrev Reachable : World → Prop :=
  Transition.Reachable Start (step allowed normalizeOutcome)

end KAssetTrader.Inbox
