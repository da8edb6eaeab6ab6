import KAssetTrader.Inbox.Turns

/-!
The callback core runs once for a job at most, whatever tasks, sweeps and deliveries
interleave and wherever they die. What a step can do to a delivery is listed as well;
of the rows, a delivery can only insert a new one.
-/

namespace KAssetTrader.Inbox

def Delivery.admitted : Delivery → Option Admitted
  | .idle => none
  | .inserting a _ => some a
  | .colliding a => some a
  | .committed a _ => some a
  | .reported a _ => a

inductive DeliveryMove (allowed : String → Bool) (s t : World) (delivery : ℕ) : Prop
  | admitted {a : Admitted} {now : Instant} (hbefore : s.deliveries delivery = .idle)
      (hadmission : ∃ update, admission allowed update = .ok a)
      (hjobs : t.jobs = s.jobs) (horigins : t.origins = s.origins)
      (hafter : t.deliveries delivery = .inserting a now)
  | collided {a : Admitted} {now : Instant} (hbefore : s.deliveries delivery = .inserting a now)
      (hjobs : t.jobs = s.jobs) (horigins : t.origins = s.origins)
      (hafter : t.deliveries delivery = .colliding a)
  | inserted {a : Admitted} {now : Instant} {job : JobId}
      (hbefore : s.deliveries delivery = .inserting a now) (hnew : ¬ s.Collides job a.identity)
      (hjobs : t.jobs = s.jobs.set job (enqueued a now))
      (horigins : t.origins = Function.update s.origins job (some ⟨delivery, a.envelope⟩))
      (hafter : t.deliveries delivery = .committed a job ∨
        t.deliveries delivery = .reported (some a) .unavailable)
  | queued {a : Admitted} {job : JobId} (hbefore : s.deliveries delivery = .committed a job)
      (hjobs : t.jobs = s.jobs) (horigins : t.origins = s.origins)
      (hafter : t.deliveries delivery = .reported (some a) (.queued job))
  | answered {a : Option Admitted} {report : Report} (hreport : ∀ job, report ≠ .queued job)
      (hbefore : a = none ∨ a = (s.deliveries delivery).admitted)
      (hjobs : t.jobs = s.jobs) (horigins : t.origins = s.origins)
      (hafter : t.deliveries delivery = .reported a report)

/-- A delivery leaves the tasks and the counts alone, and every other delivery. -/
structure DeliveryFrame (s t : World) (delivery : ℕ) : Prop where
  locks : t.locks = s.locks
  tasks : t.tasks = s.tasks
  attempts : t.attempts = s.attempts
  invocations : t.invocations = s.invocations
  others : ∀ other ≠ delivery, t.deliveries other = s.deliveries other

variable {allowed : String → Bool} {s t : World}

section Deliveries

variable {delivery : ℕ}

theorem resolved_ne_queued (a : Admitted) (job : JobId) : s.resolved a ≠ .queued job := by
  unfold World.resolved
  split
  · simp
  · split_ifs <;> simp

theorem deliveryFrame_setDelivery (phase : Delivery) :
    DeliveryFrame s (s.setDelivery delivery phase) delivery :=
  ⟨rfl, rfl, rfl, rfl, fun _ hne => Function.update_of_ne hne _ _⟩

theorem setDelivery_self (phase : Delivery) :
    (s.setDelivery delivery phase).deliveries delivery = phase := Function.update_self _ _ _

/-- A step that is not of a task moves one delivery. -/
theorem delivery_step
    {normalizeOutcome : Option String → Option String} {a : Action} (htask : a.task = none)
    (h : step allowed normalizeOutcome s a = some t) :
    ∃ delivery, DeliveryFrame s t delivery ∧ DeliveryMove allowed s t delivery := by
  cases a with
  | acquire | get | claim | reread | prepare | invoke | handled | apply | crash => cases htask
  | deliver delivery update now =>
    simp only [step] at h
    split at h
    next hidle =>
      cases h
      refine ⟨delivery, deliveryFrame_setDelivery _, ?_⟩
      cases hadmission : admission allowed update with
      | error reason =>
        exact .answered (fun _ => by simp) (.inl rfl) rfl rfl (setDelivery_self _)
      | ok a => exact .admitted hidle ⟨update, hadmission⟩ rfl rfl (setDelivery_self _)
    · cases h
  | insert delivery job commit =>
    simp only [step] at h
    split at h
    next a now hinserting =>
      cases h
      refine ⟨delivery, ?_⟩
      split
      · exact ⟨deliveryFrame_setDelivery _,
          .collided hinserting rfl rfl (setDelivery_self _)⟩
      next hnew =>
        cases commit with
        | done =>
          exact ⟨⟨rfl, rfl, rfl, rfl, fun _ hne => Function.update_of_ne hne _ _⟩,
            .inserted hinserting hnew rfl rfl (.inl (setDelivery_self _))⟩
        | failed =>
          exact ⟨deliveryFrame_setDelivery _,
            .answered (fun _ => by simp) (.inr (by rw [hinserting]; rfl)) rfl rfl
              (setDelivery_self _)⟩
        | lost =>
          exact ⟨⟨rfl, rfl, rfl, rfl, fun _ hne => Function.update_of_ne hne _ _⟩,
            .inserted hinserting hnew rfl rfl (.inr (setDelivery_self _))⟩
    · cases h
  | resolve delivery answered =>
    simp only [step] at h
    split at h
    next a hcolliding =>
      cases h
      refine ⟨delivery, deliveryFrame_setDelivery _,
        .answered ?_ (.inr (by rw [hcolliding]; rfl)) rfl rfl (setDelivery_self _)⟩
      intro job
      split
      · exact resolved_ne_queued a job
      · simp
    · cases h
  | kick delivery =>
    simp only [step] at h
    split at h
    next a job hcommitted =>
      cases h
      exact ⟨delivery, deliveryFrame_setDelivery _,
        .queued hcommitted rfl rfl (setDelivery_self _)⟩
    · cases h
  | drop delivery =>
    simp only [step] at h
    split at h
    · cases h
    all_goals
      next hphase =>
        cases h
        exact ⟨delivery, deliveryFrame_setDelivery _,
          .answered (fun _ => by simp) (.inr (by rw [hphase]; rfl)) rfl rfl
            (setDelivery_self _)⟩

theorem DeliveryMove.tables (h : DeliveryMove allowed s t delivery) :
    t.jobs = s.jobs ∧ t.origins = s.origins ∨
      ∃ a now job, (s.deliveries delivery).admitted = some a ∧ ¬ s.Collides job a.identity ∧
        t.jobs = s.jobs.set job (enqueued a now) ∧
        t.origins = Function.update s.origins job (some ⟨delivery, a.envelope⟩) := by
  cases h with
  | admitted _ _ hjobs horigins => exact .inl ⟨hjobs, horigins⟩
  | collided _ hjobs horigins => exact .inl ⟨hjobs, horigins⟩
  | queued _ hjobs horigins => exact .inl ⟨hjobs, horigins⟩
  | answered _ _ hjobs horigins => exact .inl ⟨hjobs, horigins⟩
  | @inserted a now job hbefore hnew hjobs horigins =>
    exact .inr ⟨a, now, job, by rw [hbefore]; rfl, hnew, hjobs, horigins⟩

/-- The rows after a step of a delivery: as before, or with one new row. -/
theorem DeliveryMove.jobs (h : DeliveryMove allowed s t delivery) :
    t.jobs = s.jobs ∨ ∃ a now job, ¬ s.Collides job a.identity ∧
      t.jobs = s.jobs.set job (enqueued a now) := by
  rcases h.tables with ⟨hjobs, _⟩ | ⟨a, now, job, _, hnew, hjobs, _⟩
  · exact .inl hjobs
  · exact .inr ⟨a, now, job, hnew, hjobs⟩

variable {job : JobId} {row : Job}

theorem get?_of_not_collides {identity : DeliveryIdentity} (hnew : ¬ s.Collides job identity) :
    s.jobs.get? job = none :=
  s.jobs.get?_eq_none.mpr fun hmem => hnew (.inl hmem)

theorem DeliveryMove.get? (h : DeliveryMove allowed s t delivery)
    (hrow : s.jobs.get? job = some row) : t.jobs.get? job = some row := by
  rcases h.jobs with hjobs | ⟨a, now, new, hnew, hjobs⟩
  · rw [hjobs, hrow]
  · rw [hjobs, Dict.get?_set, if_neg, hrow]
    rintro rfl
    rw [get?_of_not_collides hnew] at hrow
    cases hrow

theorem DeliveryMove.of_get? (h : DeliveryMove allowed s t delivery)
    (hrow : t.jobs.get? job = some row) :
    s.jobs.get? job = some row ∨
      s.jobs.get? job = none ∧ ∃ a now, row = enqueued a now := by
  rcases h.jobs with hjobs | ⟨a, now, new, hnew, hjobs⟩
  · rw [hjobs] at hrow
    exact .inl hrow
  · rw [hjobs, Dict.get?_set] at hrow
    split at hrow
    next hjob =>
      subst hjob
      exact .inr ⟨get?_of_not_collides hnew, a, now, (Option.some.inj hrow).symm⟩
    · exact .inl hrow

theorem enqueued_kept (a : Admitted) (now : Instant) : RowKept (enqueued a now) 0 0 where
  budget := rfl
  count := rfl
  bound := by omega
  once := by omega
  fresh := fun _ => rfl
  completed := fun _ => rfl
  verdict := fun _ => rfl
  decided := fun _ hnone => by cases hnone
  queued := fun _ => rfl
  scrubbed := fun hterminal => absurd (show InboxState.pending.Terminal from hterminal) (by decide)

theorem World.Kept.deliver (hkept : s.Kept) (hframe : DeliveryFrame s t delivery)
    (h : DeliveryMove allowed s t delivery) : t.Kept where
  locked := by
    intro task job hjob
    rw [hframe.tasks] at hjob
    rw [hframe.locks]
    exact hkept.locked task job hjob
  phases := by
    intro task
    rw [hframe.tasks]
    have hphase := hkept.phases task
    generalize s.tasks task = phase at hphase
    cases phase with
    | idle => trivial
    | locked => trivial
    | read => exact h.get? hphase
    | begun =>
      obtain ⟨row, hrow, hrest⟩ := hphase
      exact ⟨row, h.get? hrow, hrest⟩
    | attempted => exact ⟨h.get? hphase.1, hphase.2⟩
    | entered job =>
      refine ⟨h.get? hphase.1, hphase.2.1, ?_⟩
      rw [hframe.invocations]
      exact hphase.2.2
    | handling job =>
      refine ⟨h.get? hphase.1, hphase.2.1, ?_⟩
      rw [hframe.invocations]
      exact hphase.2.2
    | recorded => exact ⟨h.get? hphase.1, hphase.2⟩
  rows := by
    intro job row hrow
    rw [hframe.attempts, hframe.invocations]
    rcases h.of_get? hrow with hold | ⟨hnone, a, now, rfl⟩
    · exact hkept.rows job row hold
    · obtain ⟨hattempts, hinvocations⟩ := hkept.absent job hnone
      rw [hattempts, hinvocations]
      exact enqueued_kept a now
  absent := by
    intro job hnone
    rw [hframe.attempts, hframe.invocations]
    apply hkept.absent job
    cases hbefore : s.jobs.get? job with
    | none => rfl
    | some row =>
      rw [h.get? hbefore] at hnone
      cases hnone

end Deliveries

variable {a : Action} {normalizeOutcome : Option String → Option String}

/-- Deliveries and turns keep the rows, the locks and the tasks in step. -/
theorem World.Kept.step (hkept : s.Kept) (h : step allowed normalizeOutcome s a = some t) :
    t.Kept := by
  cases htask : a.task with
  | some task =>
    rcases task_step hkept htask h with rfl | ⟨job, hturn⟩
    · exact hkept
    · exact hkept.turn hturn
  | none =>
    obtain ⟨delivery, hframe, hmove⟩ := delivery_step htask h
    exact hkept.deliver hframe hmove

theorem start_kept (h : Start s) : s.Kept where
  locked := by
    intro task job hjob
    rw [h.tasks] at hjob
    cases hjob
  phases := by
    intro task
    rw [h.tasks]
    trivial
  rows := by
    intro job row hrow
    rw [h.jobs, Dict.get?_empty] at hrow
    cases hrow
  absent := fun job _ => ⟨h.attempts job, h.invocations job⟩

theorem reachable_kept (h : Reachable allowed normalizeOutcome s) : s.Kept :=
  Transition.invariant (fun _ => start_kept) (fun _ _ _ hkept _ hstep => hkept.step hstep) h

/-- What a step may do to a row: the marks of the core stay, a terminal row stays as
it is, and an attempt is counted exactly when one begins, on a row without a mark. -/
structure Progress (row row' : Job) (attempts attempts' : ℕ) : Prop where
  entered : ∀ time, row.handlerEnteredAt = some time → row'.handlerEnteredAt = some time
  completed : ∀ time, row.handlerCompletedAt = some time → row'.handlerCompletedAt = some time
  terminal : row.state.Terminal → row' = row
  attempt : attempts' = attempts ∧ row'.attemptCount = row.attemptCount ∨
    attempts' = attempts + 1 ∧ row'.attemptCount = row.attemptCount + 1 ∧
      row.handlerEnteredAt = none

theorem Progress.refl (row : Job) (attempts : ℕ) : Progress row row attempts attempts :=
  ⟨fun _ h => h, fun _ h => h, fun _ => rfl, .inl ⟨rfl, rfl⟩⟩

theorem RowKept.progress {row row' : Job} {attempts attempts' invocations invocations' : ℕ}
    (hkept : RowKept row attempts invocations)
    (h : Rewrites (some row) (some row') attempts attempts' invocations invocations') :
    Progress row row' attempts attempts' := by
  cases h with
  | same => exact .refl _ _
  | invoked now hrow => exact .refl _ _
  | began now hbegin =>
    obtain ⟨_, _, hentered, hactive, rfl⟩ := beginAttempt_spec hbegin
    refine ⟨fun _ h => h, fun _ h => h, fun hterminal => absurd hterminal hactive, ?_⟩
    refine .inr ⟨rfl, ?_, hentered⟩
    show clampAttemptCount row.attemptCount + 1 = _
    rw [hkept.clamp]
  | entered now hrow =>
    refine ⟨?_, fun _ h => h, fun hterminal => absurd hterminal hrow.active, .inl ⟨rfl, rfl⟩⟩
    intro time htime
    rw [hrow.entered] at htime
    cases htime
  | decided entered now hrow =>
    refine ⟨fun _ h => h, ?_, fun hterminal => absurd hterminal hrow.active, .inl ⟨rfl, rfl⟩⟩
    intro time htime
    rw [hrow.completed] at htime
    cases htime
  | finished now hactive =>
    exact ⟨fun _ h => h, fun _ h => h, fun hterminal => absurd hterminal hactive,
      .inl ⟨rfl, hkept.clamp⟩⟩
  | retried now hretry =>
    obtain ⟨hrow, _, rfl⟩ := scheduleRetry_spec hretry
    exact ⟨fun _ h => h, fun _ h => h, fun hterminal => absurd hterminal hrow.active,
      .inl ⟨rfl, rfl⟩⟩

/-- A run of the core that a step begins on a job is the first one, and the task that
begins it has committed the mark of the row itself. -/
structure Invokes (s : World) (job : JobId) : Prop where
  first : s.invocations job = 0
  marked : ∃ task now seen, s.tasks task = .entered job now seen ∧
    ∃ row, s.jobs.get? job = some row ∧ row.handlerEnteredAt = some now

section Steps

variable {job : JobId}

theorem World.Kept.progress (hkept : s.Kept) (h : Inbox.step allowed normalizeOutcome s a = some t)
    {row : Job} (hrow : s.jobs.get? job = some row) :
    ∃ row', t.jobs.get? job = some row' ∧ Progress row row' (s.attempts job) (t.attempts job) := by
  cases htask : a.task with
  | none =>
    obtain ⟨delivery, hframe, hmove⟩ := delivery_step htask h
    refine ⟨row, hmove.get? hrow, ?_⟩
    rw [hframe.attempts]
    exact .refl _ _
  | some task =>
    rcases task_step hkept htask h with rfl | ⟨own, hturn⟩
    · exact ⟨row, hrow, .refl _ _⟩
    · by_cases hjob : job = own
      · subst hjob
        have hrewrites := hturn.row
        cases hafter : t.jobs.get? job with
        | none =>
          rw [hrow, hafter] at hrewrites
          cases hrewrites
        | some row' =>
          rw [hrow, hafter] at hrewrites
          exact ⟨row', rfl, (hkept.rows job row hrow).progress hrewrites⟩
      · refine ⟨row, (hturn.jobs job hjob).trans hrow, ?_⟩
        rw [(hturn.counts job hjob).1]
        exact .refl _ _

theorem World.Kept.invokes (hkept : s.Kept) (h : Inbox.step allowed normalizeOutcome s a = some t)
    (hcount : t.invocations job ≠ s.invocations job) : Invokes s job := by
  cases htask : a.task with
  | none =>
    obtain ⟨delivery, hframe, _⟩ := delivery_step htask h
    exact absurd (congrFun hframe.invocations job) hcount
  | some task =>
    rcases task_step hkept htask h with rfl | ⟨own, hturn⟩
    · exact absurd rfl hcount
    · have hjob : job = own := by
        by_contra hne
        exact hcount (hturn.counts job hne).2
      subst hjob
      rcases hturn.invokes with hsame | ⟨now, seen, hentered⟩
      · exact absurd hsame hcount
      · have hphase := hkept.phases task
        rw [hentered] at hphase
        obtain ⟨hrow, hmark, hzero⟩ := hphase
        exact ⟨hzero, task, now, seen, hentered, seen, hrow, hmark.entered⟩

theorem World.Kept.marked_ends (hkept : s.Kept) {task : ℕ} {claimant : Claimant} {now : Instant}
    {seen : Job} (hread : s.tasks task = .read job claimant now seen)
    (hmark : seen.handlerEnteredAt ≠ none)
    (h : Inbox.step allowed normalizeOutcome s (.claim task) = some t) : t.tasks task = .idle := by
  have hrow : s.jobs.get? job = some seen := by
    have hphase := hkept.phases task
    rwa [hread] at hphase
  have hends : ∀ world : World, (world.release task job).tasks task = .idle :=
    fun _ => Function.update_self _ _ _
  simp only [Inbox.step, hread, Option.some.injEq] at h
  subst h
  unfold World.claimed
  cases seen.classifyClaim now claimant with
  | skip => exact hends _
  | malformed | ambiguous | exhausted =>
    simp only [World.terminate, hrow]
    exact hends _
  | repair =>
    simp only [hrow]
    cases seen.terminalStatePending <;> exact hends _
  | run =>
    simp only [hrow, Option.bind_some]
    cases hbegin : seen.beginAttempt seen now with
    | none => exact hends _
    | some row' => exact absurd (beginAttempt_spec hbegin).2.2.1 hmark

end Steps

/-- Whatever interleaves and wherever it dies, the core runs once for a job at most:
only the task that has marked the row runs it, and a task that finds a mark ends. No
row takes more than three attempts, a row that waits for a retry has no mark, and a
terminal row has no column of its envelope left. A step moves each row forward only. -/
theorem core_runs_once (allowed : String → Bool)
    (normalizeOutcome : Option String → Option String) {s : World}
    (hreach : Reachable allowed normalizeOutcome s) :
    (∀ job, s.invocations job ≤ 1) ∧
    (∀ job row, s.jobs.get? job = some row →
      row.attemptCount = s.attempts job ∧ s.attempts job ≤ 3 ∧
        (row.state = .retryWait → row.handlerEnteredAt = none) ∧
        (row.state.Terminal → row.envelope = .scrubbed)) ∧
    (∀ task job claimant now seen, s.tasks task = .read job claimant now seen →
      seen.handlerEnteredAt ≠ none →
      ∀ t, step allowed normalizeOutcome s (.claim task) = some t → t.tasks task = .idle) ∧
    ∀ a t, step allowed normalizeOutcome s a = some t → ∀ job,
      (∀ row, s.jobs.get? job = some row → ∃ row', t.jobs.get? job = some row' ∧
        Progress row row' (s.attempts job) (t.attempts job)) ∧
      (t.invocations job ≠ s.invocations job →
        Invokes s job ∧ t.invocations job = s.invocations job + 1) := by
  have hkept := reachable_kept hreach
  have honce : ∀ s : World, s.Kept → ∀ job, s.invocations job ≤ 1 := by
    intro s hkept job
    cases hrow : s.jobs.get? job with
    | none =>
      have habsent := (hkept.absent job hrow).2
      omega
    | some row => exact (hkept.rows job row hrow).once
  refine ⟨honce s hkept, ?_, ?_, ?_⟩
  · intro job row hrow
    have hkeptRow := hkept.rows job row hrow
    exact ⟨hkeptRow.count, hkeptRow.bound, fun hretry => hkeptRow.queued (.inr hretry),
      hkeptRow.scrubbed⟩
  · intro task job claimant now seen hread hmark t hstep
    exact hkept.marked_ends hread hmark hstep
  · intro a t hstep job
    refine ⟨fun row hrow => hkept.progress hstep hrow, ?_⟩
    intro hcount
    have hinvokes := hkept.invokes hstep hcount
    have hafter := honce t (hkept.step hstep) job
    have hfirst := hinvokes.first
    exact ⟨hinvokes, by omega⟩

def sampleClick (updateId : ℤ) : Update where
  isCallback := true
  updateId := .int updateId
  queryId := .text "query"
  chatId := .int 7
  messageId := .null
  fromId := some (.int 42)
  data := some ⟨.op, "0a1b2c3d", 1, 1, "abcdefghijkl", "nonce"⟩

def emptyInbox : World where
  jobs := Dict.empty
  locks := fun _ => none
  tasks := fun _ => .idle
  deliveries := fun _ => .idle
  invocations := fun _ => 0
  attempts := fun _ => 0
  origins := fun _ => none

theorem emptyInbox_start : Start emptyInbox :=
  ⟨rfl, fun _ => rfl, fun _ => rfl, fun _ => rfl, fun _ => rfl, fun _ => rfl, fun _ => rfl⟩

/-- A worker runs the core to the end. -/
def sampleSuccess : List Action :=
  [.deliver 0 (sampleClick 5) 0, .insert 0 100 .done, .acquire 0 100 .worker 1, .get 0, .claim 0,
    .reread 0, .prepare 0 ⟨fun _ => true, true⟩, .invoke 0, .handled 0 (.dict true none), .apply 0]

/-- A job that succeeds on its first attempt. -/
theorem core_runs_once_success :
    ∃ s, Transition.run (step (fun _ => true) id) emptyInbox sampleSuccess = some s ∧
      s.invocations 100 = 1 ∧ ∀ job, s.invocations job ≤ 1 := by
  have hrun : (Transition.run (step (fun _ => true) id) emptyInbox sampleSuccess).map
      (fun s => s.invocations 100) = some 1 := by decide +kernel
  obtain ⟨s, hs, hone⟩ := Option.map_eq_some_iff.mp hrun
  have hreach := Transition.reachable_of_run emptyInbox_start hs
  exact ⟨s, hs, hone, (core_runs_once (fun _ => true) id hreach).1⟩

/-- No two tasks ever work on one job, whatever crashes and sweeps come between; and what a task
has read of its job is the row as it is stored, until the task itself writes it. -/
theorem one_task_per_job (allowed : String → Bool)
    (normalizeOutcome : Option String → Option String) {s : World}
    (hreach : Reachable allowed normalizeOutcome s) :
    (∀ task other job, (s.tasks task).job = some job → (s.tasks other).job = some job →
      task = other) ∧ ∀ task, PhaseHolds s (s.tasks task) := by
  have hkept := reachable_kept hreach
  refine ⟨fun task other job htask hother => ?_, hkept.phases⟩
  exact Option.some.inj ((hkept.locked task job htask).symm.trans (hkept.locked other job hother))

/-- The task of a job while the core runs. -/
theorem one_task_per_job_invoked :
    ∃ s, Transition.run (step (fun _ => true) id) emptyInbox (sampleSuccess.take 8) = some s ∧
      ∀ other, (s.tasks other).job = some 100 → other = 0 := by
  obtain ⟨s, hs, hzero⟩ := (Option.any_eq_true _ _).mp
    (show ((Transition.run (step (fun _ => true) id) emptyInbox (sampleSuccess.take 8)).any
      fun s => decide ((s.tasks 0).job = some 100)) = true by decide +kernel)
  have hreach := Transition.reachable_of_run emptyInbox_start hs
  exact ⟨s, hs, fun other hother => (one_task_per_job (fun _ => true) id hreach).1 other 0 100
    hother (of_decide_eq_true hzero)⟩

end KAssetTrader.Inbox
