import KAssetTrader.Inbox.System

/-!
What one step of a task does. It touches its own job and its own lock, and writes
one of six things to the row: an attempt, the mark of the core, a verdict, a terminal
state, a retry, or nothing. Every invariant of the inbox follows from this list.
-/

namespace KAssetTrader.Inbox

open World

namespace Job

variable (row : Job)

/-- A row that an attempt is under way for, before the core is entered. -/
structure Running : Prop where
  state : row.state = .processing
  entered : row.handlerEnteredAt = none
  completed : row.handlerCompletedAt = none
  verdict : row.terminalStatePending = none

/-- A row whose core was entered at a time, and has no verdict yet. -/
structure Entered (now : Instant) : Prop where
  state : row.state = .processing
  entered : row.handlerEnteredAt = some now
  completed : row.handlerCompletedAt = none
  verdict : row.terminalStatePending = none

def finished (now : Instant) (terminalState : InboxState) (outcome : Option String)
    (errorClass : Option ErrorClass) : Job :=
  row.finalize row now terminalState outcome errorClass

theorem finalizeKept_eq (now : Instant) (terminalState : InboxState) :
    row.finalizeKept row now terminalState =
      row.finished now terminalState row.outcome row.errorClass := rfl

end Job

/-- What a step writes to the row of a job, and how it counts. -/
inductive Rewrites : Option Job → Option Job → ℕ → ℕ → ℕ → ℕ → Prop
  | absent {a i : ℕ} : Rewrites none none a a i i
  | same {row : Job} {a i : ℕ} : Rewrites (some row) (some row) a a i i
  | began {row row' : Job} {a i : ℕ} (now : Instant)
      (hbegin : row.beginAttempt row now = some row') :
      Rewrites (some row) (some row') a (a + 1) i i
  | entered {row : Job} {a i : ℕ} (now : Instant) (hrow : row.Running) :
      Rewrites (some row) (some (row.markHandlerEntered now)) a a i i
  | invoked {row : Job} {a : ℕ} (now : Instant) (hrow : row.Entered now) :
      Rewrites (some row) (some row) a a 0 1
  | decided {row : Job} {a i : ℕ} (entered now : Instant) (hrow : row.Entered entered)
      (terminalState : InboxState) (hterminal : terminalState.Terminal)
      (errorClass : Option ErrorClass) (outcome : Option String) :
      Rewrites (some row)
        (some (row.recordHandlerVerdict now terminalState outcome errorClass)) a a i i
  | finished {row : Job} {a i : ℕ} (now : Instant) (hactive : ¬ row.state.Terminal)
      (terminalState : InboxState) (hterminal : terminalState.Terminal)
      (outcome : Option String) (errorClass : Option ErrorClass) :
      Rewrites (some row) (some (row.finished now terminalState outcome errorClass)) a a i i
  | retried {row row' : Job} {a i : ℕ} (now : Instant)
      (hretry : row.scheduleRetry row now = some row') :
      Rewrites (some row) (some row') a a i i

/-- What the row of its job is while a task is in a phase. -/
def PhaseHolds (s : World) : Phase → Prop
  | .idle => True
  | .locked _ _ _ => True
  | .read job _ _ seen => s.jobs.get? job = some seen
  | .begun job _ attemptCount =>
    ∃ row, s.jobs.get? job = some row ∧ row.Running ∧ row.attemptCount = attemptCount
  | .attempted job _ seen attemptCount =>
    s.jobs.get? job = some seen ∧ seen.Running ∧ seen.attemptCount = attemptCount
  | .entered job now seen =>
    s.jobs.get? job = some seen ∧ seen.Entered now ∧ s.invocations job = 0
  | .handling job now seen =>
    s.jobs.get? job = some seen ∧ seen.Entered now ∧ s.invocations job = 1
  | .recorded job _ seen terminalState =>
    s.jobs.get? job = some seen ∧ seen.state = .processing ∧ terminalState.Terminal

structure RowKept (row : Job) (attempts invocations : ℕ) : Prop where
  budget : row.maxAttempts = 3
  count : row.attemptCount = attempts
  bound : attempts ≤ 3
  once : invocations ≤ 1
  fresh : row.handlerEnteredAt = none → invocations = 0
  completed : row.handlerEnteredAt = none → row.handlerCompletedAt = none
  verdict : row.handlerCompletedAt = none → row.terminalStatePending = none
  decided : ∀ terminalState ∈ row.terminalStatePending, terminalState.Terminal
  queued : row.state = .pending ∨ row.state = .retryWait → row.handlerEnteredAt = none
  scrubbed : row.state.Terminal → row.envelope = .scrubbed

structure World.Kept (s : World) : Prop where
  locked : ∀ task job, (s.tasks task).job = some job → s.locks job = some task
  phases : ∀ task, PhaseHolds s (s.tasks task)
  rows : ∀ job row, s.jobs.get? job = some row →
    RowKept row (s.attempts job) (s.invocations job)
  absent : ∀ job, s.jobs.get? job = none → s.attempts job = 0 ∧ s.invocations job = 0

structure Turn (s t : World) (task : ℕ) (job : JobId) : Prop where
  held : s.locks job = some task ∨ s.locks job = none
  jobs : ∀ other ≠ job, t.jobs.get? other = s.jobs.get? other
  locks : ∀ other ≠ job, t.locks other = s.locks other
  tasks : ∀ other ≠ task, t.tasks other = s.tasks other
  counts : ∀ other ≠ job,
    t.attempts other = s.attempts other ∧ t.invocations other = s.invocations other
  deliveries : t.deliveries = s.deliveries
  origins : t.origins = s.origins
  phase : (t.tasks task).job = none ∨
    (t.tasks task).job = some job ∧ t.locks job = some task
  holds : PhaseHolds t (t.tasks task)
  row : Rewrites (s.jobs.get? job) (t.jobs.get? job) (s.attempts job) (t.attempts job)
    (s.invocations job) (t.invocations job)
  invokes : t.invocations job = s.invocations job ∨
    ∃ now seen, s.tasks task = .entered job now seen

section Rows

variable {row row' : Job} {attempts attempts' invocations invocations' : ℕ} {now : Instant}

theorem RowKept.clamp (h : RowKept row attempts invocations) :
    clampAttemptCount row.attemptCount = row.attemptCount := by
  have hcount := h.count
  have hbound := h.bound
  simp only [clampAttemptCount, maxAttempts]
  omega

theorem beginAttempt_spec {seen : Job} (h : row.beginAttempt seen now = some row') :
    row.attemptCount = seen.attemptCount ∧ row.attemptCount < 3 ∧
      row.handlerEnteredAt = none ∧ ¬ row.state.Terminal ∧
      row' = { row with
        state := .processing
        attemptCount := clampAttemptCount seen.attemptCount + 1
        startedAt := some now } := by
  unfold Job.beginAttempt at h
  split at h
  next hrow =>
    obtain ⟨hseen, _, _, _, hlt, hentered, hstate⟩ := hrow
    refine ⟨hseen, hlt, hentered, ?_, (Option.some.inj h).symm⟩
    rcases hstate with hstate | hstate | hstate <;> rw [hstate] <;> decide
  · cases h

theorem scheduleRetry_spec {seen : Job} (h : row.scheduleRetry seen now = some row') :
    row.Running ∧ row.attemptCount < 3 ∧
      row' = { row with
        state := .retryWait
        availableAt := now + retryBackoff seen.attemptCount
        outcome := none
        errorClass := some .preCoreFailure } := by
  unfold Job.scheduleRetry at h
  split at h
  next hrow =>
    obtain ⟨hstate, _, _, _, hentered, hcompleted, hverdict, _, hlt⟩ := hrow
    exact ⟨⟨hstate, hentered, hcompleted, hverdict⟩, hlt, (Option.some.inj h).symm⟩
  · cases h

theorem RowKept.rewrites (hkept : RowKept row attempts invocations)
    (h : Rewrites (some row) (some row') attempts attempts' invocations invocations') :
    RowKept row' attempts' invocations' := by
  cases h with
  | same => exact hkept
  | began now hbegin =>
    obtain ⟨_, hlt, hentered, _, rfl⟩ := beginAttempt_spec hbegin
    have hcount := hkept.count
    refine { hkept with
      count := ?_, bound := by omega, queued := fun _ => hentered, scrubbed := ?_ }
    · show clampAttemptCount row.attemptCount + 1 = _
      rw [hkept.clamp, hcount]
      push_cast
      rfl
    · intro hterminal
      exact absurd (show InboxState.processing.Terminal from hterminal) (by decide)
  | entered now hrow =>
    have hstate := hrow.state
    refine { hkept with fresh := ?_, completed := ?_, queued := ?_ }
    · intro hnone
      cases hnone
    · intro hnone
      cases hnone
    · intro hqueued
      simp [Job.markHandlerEntered, hstate] at hqueued
  | invoked now hrow =>
    have hentered := hrow.entered
    have hfresh : row.handlerEnteredAt = none → 1 = 0 := by
      intro hnone
      rw [hnone] at hentered
      cases hentered
    exact { hkept with once := le_rfl, fresh := hfresh }
  | decided entered now hrow terminalState hterminal errorClass outcome =>
    have hentered := hrow.entered
    refine { hkept with completed := ?_, verdict := ?_, decided := ?_ }
    · intro hnone
      exact absurd (hentered.symm.trans hnone) (by simp)
    · intro hnone
      cases hnone
    · intro state hstate
      cases hstate
      exact hterminal
  | finished now hactive terminalState hterminal outcome errorClass =>
    refine { hkept with
      budget := rfl, count := ?_, verdict := fun _ => rfl, decided := ?_, queued := ?_
      scrubbed := fun _ => rfl }
    · exact hkept.clamp.trans hkept.count
    · intro state hstate
      cases hstate
    · intro hqueued
      have hqueued : terminalState = .pending ∨ terminalState = .retryWait := hqueued
      rcases hqueued with rfl | rfl
      · exact absurd hterminal (by decide)
      · exact absurd hterminal (by decide)
  | retried now hretry =>
    obtain ⟨hrow, _, rfl⟩ := scheduleRetry_spec hretry
    refine { hkept with queued := fun _ => hrow.entered, scrubbed := ?_ }
    intro hterminal
    exact absurd (show InboxState.retryWait.Terminal from hterminal) (by decide)

end Rows

section Turn

variable {s t : World} {task : ℕ} {job : JobId}

theorem PhaseHolds.frame {phase : Phase} (h : PhaseHolds s phase)
    (hjobs : ∀ other ≠ job, t.jobs.get? other = s.jobs.get? other)
    (hcounts : ∀ other ≠ job,
      t.attempts other = s.attempts other ∧ t.invocations other = s.invocations other)
    (hother : phase.job ≠ some job) : PhaseHolds t phase := by
  have hne : ∀ other, phase.job = some other → other ≠ job := by
    intro other hphase heq
    exact hother (heq ▸ hphase)
  cases phase with
  | idle => trivial
  | locked => trivial
  | read other _ _ _ => exact (hjobs other (hne other rfl)).trans h
  | begun other _ _ =>
    obtain ⟨row, hrow, hrest⟩ := h
    exact ⟨row, (hjobs other (hne other rfl)).trans hrow, hrest⟩
  | attempted other _ _ _ => exact ⟨(hjobs other (hne other rfl)).trans h.1, h.2⟩
  | entered other _ _ =>
    exact ⟨(hjobs other (hne other rfl)).trans h.1, h.2.1,
      (hcounts other (hne other rfl)).2.trans h.2.2⟩
  | handling other _ _ =>
    exact ⟨(hjobs other (hne other rfl)).trans h.1, h.2.1,
      (hcounts other (hne other rfl)).2.trans h.2.2⟩
  | recorded other _ _ _ => exact ⟨(hjobs other (hne other rfl)).trans h.1, h.2⟩

theorem World.Kept.turn (hkept : s.Kept) (h : Turn s t task job) : t.Kept where
  locked := by
    intro other otherJob hjob
    by_cases htask : other = task
    · subst htask
      rcases h.phase with hnone | ⟨hsome, hlock⟩
      · rw [hnone] at hjob
        cases hjob
      · cases hsome.symm.trans hjob
        exact hlock
    · rw [h.tasks other htask] at hjob
      have hheld := hkept.locked other otherJob hjob
      have hne : otherJob ≠ job := by
        rintro rfl
        rcases h.held with hlock | hlock
        · exact htask (Option.some.inj (hheld.symm.trans hlock))
        · rw [hlock] at hheld
          cases hheld
      rw [h.locks otherJob hne]
      exact hheld
  phases := by
    intro other
    by_cases htask : other = task
    · subst htask
      exact h.holds
    · rw [h.tasks other htask]
      apply (hkept.phases other).frame h.jobs h.counts
      intro hjob
      have hheld := hkept.locked other job hjob
      rcases h.held with hlock | hlock
      · exact htask (Option.some.inj (hheld.symm.trans hlock))
      · rw [hlock] at hheld
        cases hheld
  rows := by
    intro other row hrow
    by_cases hjob : other = job
    · subst hjob
      have hrewrites := h.row
      cases hbefore : s.jobs.get? other with
      | none =>
        rw [hbefore, hrow] at hrewrites
        cases hrewrites
      | some before =>
        rw [hbefore, hrow] at hrewrites
        exact (hkept.rows other before hbefore).rewrites hrewrites
    · obtain ⟨hattempts, hinvocations⟩ := h.counts other hjob
      rw [h.jobs other hjob] at hrow
      rw [hattempts, hinvocations]
      exact hkept.rows other row hrow
  absent := by
    intro other hnone
    by_cases hjob : other = job
    · subst hjob
      have hrewrites := h.row
      rw [hnone] at hrewrites
      cases hbefore : s.jobs.get? other with
      | none =>
        have habsent := hkept.absent other hbefore
        rw [hbefore] at hrewrites
        generalize s.attempts other = a, t.attempts other = a', s.invocations other = i,
          t.invocations other = i' at hrewrites habsent ⊢
        cases hrewrites
        exact habsent
      | some before =>
        rw [hbefore] at hrewrites
        cases hrewrites
    · obtain ⟨hattempts, hinvocations⟩ := h.counts other hjob
      rw [h.jobs other hjob] at hnone
      rw [hattempts, hinvocations]
      exact hkept.absent other hnone

theorem Rewrites.refl (row : Option Job) (a i : ℕ) : Rewrites row row a a i i := by
  cases row with
  | none => exact .absent
  | some row => exact .same

variable {row row' seen : Job} {now : Instant} {phase : Phase}

section

variable (hheld : s.locks job = some task)
include hheld

theorem turn_release :
    Turn s (s.release task job) task job where
  held := .inl hheld
  jobs := fun _ _ => rfl
  locks := fun other hne => Function.update_of_ne hne _ _
  tasks := fun other hne => Function.update_of_ne hne _ _
  counts := fun _ _ => ⟨rfl, rfl⟩
  deliveries := rfl
  origins := rfl
  phase := .inl (by simp [World.release, Phase.job])
  holds := by simp [World.release, PhaseHolds]
  row := Rewrites.refl _ _ _
  invokes := .inl rfl

theorem turn_become (hjob : phase.job = some job) (hholds : PhaseHolds s phase) :
    Turn s (s.become task phase) task job where
  held := .inl hheld
  jobs := fun _ _ => rfl
  locks := fun _ _ => rfl
  tasks := fun other hne => Function.update_of_ne hne _ _
  counts := fun _ _ => ⟨rfl, rfl⟩
  deliveries := rfl
  origins := rfl
  phase := .inr ⟨by simp [World.become, hjob], hheld⟩
  holds := by
    have hsame : PhaseHolds (s.become task phase) phase := by
      cases phase <;> exact hholds
    simpa [become] using hsame
  row := Rewrites.refl _ _ _
  invokes := .inl rfl

variable (hrow : s.jobs.get? job = some row)
  (hrewrites : Rewrites (some row) (some row') (s.attempts job) (s.attempts job) (s.invocations
      job) (s.invocations job))
include hrow hrewrites

theorem turn_write_release :
    Turn s ((s.write job row').release task job) task job where
  held := .inl hheld
  jobs := by
    intro other hne
    simp [release, write, Dict.get?_set, hne]
  locks := fun other hne => Function.update_of_ne hne _ _
  tasks := fun other hne => Function.update_of_ne hne _ _
  counts := fun _ _ => ⟨rfl, rfl⟩
  deliveries := rfl
  origins := rfl
  phase := .inl (by simp [release, Phase.job])
  holds := by simp [release, PhaseHolds]
  row := by
    simpa [release, write, Dict.get?_set, hrow] using hrewrites
  invokes := .inl rfl

theorem turn_write_become (hjob : phase.job = some job)
    (hholds : PhaseHolds (s.write job row') phase) :
    Turn s ((s.write job row').become task phase) task job where
  held := .inl hheld
  jobs := by
    intro other hne
    simp [become, write, Dict.get?_set, hne]
  locks := fun _ _ => rfl
  tasks := fun other hne => Function.update_of_ne hne _ _
  counts := fun _ _ => ⟨rfl, rfl⟩
  deliveries := rfl
  origins := rfl
  phase := .inr ⟨by simp [become, hjob], hheld⟩
  holds := by
    have hsame : PhaseHolds ((s.write job row').become task phase) phase := by
      cases phase <;> exact hholds
    simpa [become] using hsame
  row := by
    simpa [become, write, Dict.get?_set, hrow] using hrewrites
  invokes := .inl rfl

end

theorem write_get? : (s.write job row').jobs.get? job = some row' := by
  simp [write, Dict.get?_set]

theorem turn_terminate {terminalState : InboxState} {outcome : Option String}
    {errorClass : ErrorClass} (hheld : s.locks job = some task)
    (hrow : s.jobs.get? job = some row) (hactive : ¬ row.state.Terminal)
    (hterminal : terminalState.Terminal) :
    Turn s (s.terminate task job row now terminalState outcome errorClass) task job := by
  simp only [terminate, hrow]
  exact turn_write_release hheld hrow (.finished now hactive terminalState hterminal _ _)

theorem Job.Running.active (h : row.Running) : ¬ row.state.Terminal := by
  rw [h.state]
  decide

theorem Job.Entered.active (h : row.Entered now) : ¬ row.state.Terminal := by
  rw [h.state]
  decide

variable {claimant : Claimant}

theorem claimable_active {state : InboxState} (h : claimant.claimable state = true) :
    ¬ state.Terminal := by
  cases claimant <;> cases state <;> revert h <;> decide

theorem classifyClaim_active (h : row.classifyClaim now claimant ≠ .skip) :
    ¬ row.state.Terminal := by
  unfold Job.classifyClaim at h
  split at h
  · exact absurd rfl h
  next hclaimable => exact claimable_active (not_not.mp hclaimable)

theorem beginAttempt_running (hkept : RowKept row (s.attempts job) (s.invocations job))
    (h : row.beginAttempt row now = some row') :
    row'.Running ∧ row'.attemptCount = row.attemptCount + 1 := by
  obtain ⟨_, _, hentered, _, rfl⟩ := beginAttempt_spec h
  have hcompleted := hkept.completed hentered
  refine ⟨⟨rfl, hentered, hcompleted, hkept.verdict hcompleted⟩, ?_⟩
  show clampAttemptCount row.attemptCount + 1 = _
  rw [hkept.clamp]

theorem turn_claimed (hkept : s.Kept) (hheld : s.locks job = some task)
    (hrow : s.jobs.get? job = some row) :
    Turn s (s.claimed task job claimant now row) task job := by
  unfold claimed
  have hactive : row.classifyClaim now claimant ≠ .skip → ¬ row.state.Terminal :=
    classifyClaim_active
  cases hdecision : row.classifyClaim now claimant with
  | skip => exact turn_release hheld
  | malformed =>
    exact turn_terminate hheld hrow (hactive (by rw [hdecision]; decide)) (by decide)
  | ambiguous =>
    exact turn_terminate hheld hrow (hactive (by rw [hdecision]; decide)) (by decide)
  | exhausted =>
    exact turn_terminate hheld hrow (hactive (by rw [hdecision]; decide)) (by decide)
  | repair =>
    simp only [hrow]
    cases hverdict : row.terminalStatePending with
    | none => exact turn_release hheld
    | some terminalState =>
      have hterminal := (hkept.rows job row hrow).decided terminalState hverdict
      apply turn_write_release hheld hrow
      rw [row.finalizeKept_eq]
      exact .finished now (hactive (by rw [hdecision]; decide)) terminalState hterminal _ _
  | run =>
    simp only [hrow, Option.bind_some]
    cases hbegin : row.beginAttempt row now with
    | none => exact turn_release hheld
    | some row' =>
      obtain ⟨hrunning, hcount⟩ := beginAttempt_running (hkept.rows job row hrow) hbegin
      refine
        { held := .inl hheld, jobs := ?_, locks := fun _ _ => rfl
          tasks := fun other hne => Function.update_of_ne hne _ _, counts := ?_
          deliveries := rfl, origins := rfl
          phase := .inr ⟨by simp [become, Phase.job], hheld⟩, holds := ?_, row := ?_
          invokes := .inl rfl }
      · intro other hne
        simp [become, write, Dict.get?_set, hne]
      · intro other hne
        exact ⟨Function.update_of_ne hne _ _, rfl⟩
      · simp only [become, Function.update_self]
        exact ⟨row', write_get?, hrunning, hcount⟩
      · simpa [become, write, Dict.get?_set, hrow] using .began now hbegin

theorem turn_prepared {around : Surroundings} {attemptCount : ℤ} (hkept : s.Kept)
    (hheld : s.locks job = some task) (hrow : s.jobs.get? job = some row)
    (hrunning : row.Running) :
    Turn s (s.prepared task job now row attemptCount around) task job := by
  have hends : ∀ (terminalState : InboxState) (outcome : Option String) (errorClass : ErrorClass),
      terminalState.Terminal →
      Turn s (s.terminate task job row now terminalState outcome errorClass) task job :=
    fun _ _ _ hterminal => turn_terminate hheld hrow hrunning.active hterminal
  unfold prepared
  cases rebuildNormalized row.envelope with
  | none => exact hends _ _ _ (by decide)
  | some callback =>
  dsimp only
  split_ifs
  · simp only [hrow]
    apply turn_write_become hheld hrow (.entered now hrunning) rfl
    refine ⟨write_get?, ⟨hrunning.state, rfl, hrunning.completed, hrunning.verdict⟩, ?_⟩
    exact (hkept.rows job row hrow).fresh hrunning.entered
  · exact hends _ _ _ (by decide)
  · simp only [hrow, Option.bind_some]
    cases hretry : row.scheduleRetry row now with
    | some row' => exact turn_write_release hheld hrow (.retried now hretry)
    | none => exact hends _ _ _ (by decide)
  · exact hends _ _ _ (by decide)

theorem classifyVerdict_terminal (handled : Bool) (reason : Option String) :
    (classifyVerdict handled reason).1.Terminal := by
  unfold classifyVerdict
  split_ifs
  · exact .inl rfl
  · exact .inr (.inr rfl)
  · exact .inr (.inl rfl)

theorem turn_returned {normalizeOutcome : Option String → Option String}
    {result : HandlerResult} (hheld : s.locks job = some task)
    (hrow : s.jobs.get? job = some row) (hentered : row.Entered now) :
    Turn s (s.returned normalizeOutcome task job now row result) task job := by
  have hrecord : ∀ (terminalState : InboxState) (errorClass : Option ErrorClass)
      (outcome : Option String), terminalState.Terminal →
      Turn s ((s.write job (row.recordHandlerVerdict now terminalState outcome
        errorClass)).become task (.recorded job now
          (row.recordHandlerVerdict now terminalState outcome errorClass) terminalState))
        task job := by
    intro terminalState errorClass outcome hterminal
    apply turn_write_become hheld hrow (.decided now now hentered terminalState hterminal _ _) rfl
    exact ⟨write_get?, hentered.state, hterminal⟩
  unfold returned
  cases result with
  | raised => exact turn_terminate hheld hrow hentered.active (by decide)
  | notADict =>
    simp only [hrow]
    exact hrecord _ _ _ (by decide)
  | dict handled reason =>
    simp only [hrow]
    exact hrecord _ _ _ (classifyVerdict_terminal handled reason)

end Turn

def Action.task : Action → Option ℕ
  | .acquire task _ _ _ => some task
  | .get task => some task
  | .claim task => some task
  | .reread task => some task
  | .prepare task _ => some task
  | .invoke task => some task
  | .handled task _ => some task
  | .apply task => some task
  | .crash task => some task
  | _ => none

/-- A step of a task does nothing, or it is one turn of one job. -/
theorem task_step {allowed : String → Bool} {normalizeOutcome : Option String → Option String}
    {s t : World} {a : Action} {task : ℕ} (hkept : s.Kept) (htask : a.task = some task)
    (h : step allowed normalizeOutcome s a = some t) : t = s ∨ ∃ job, Turn s t task job := by
  have hheld : ∀ job, (s.tasks task).job = some job → s.locks job = some task :=
    hkept.locked task
  have hphase := hkept.phases task
  cases a with
  | acquire task' job claimant now =>
    cases htask
    simp only [step] at h
    split at h
    next hidle hfree =>
      cases h
      refine .inr ⟨job, ?_⟩
      refine
        { held := .inr hfree, jobs := fun _ _ => rfl
          locks := fun other hne => Function.update_of_ne hne _ _
          tasks := fun other hne => Function.update_of_ne hne _ _
          counts := fun _ _ => ⟨rfl, rfl⟩, deliveries := rfl, origins := rfl
          phase := .inr ?_, holds := ?_, row := Rewrites.refl _ _ _
          invokes := .inl rfl }
      · simp [become, Phase.job]
      · simp [become, PhaseHolds]
    · exact .inl (Option.some.inj h).symm
    · cases h
  | get task' =>
    cases htask
    simp only [step] at h
    split at h
    next job claimant now hlocked =>
      cases h
      rw [hlocked] at hheld
      refine .inr ⟨job, ?_⟩
      cases hrow : s.jobs.get? job with
      | none => exact turn_release (hheld job rfl)
      | some row => exact turn_become (hheld job rfl) rfl hrow
    · cases h
  | claim task' =>
    cases htask
    simp only [step] at h
    split at h
    next job claimant now seen hread =>
      cases h
      rw [hread] at hheld hphase
      exact .inr ⟨job, turn_claimed hkept (hheld job rfl) hphase⟩
    · cases h
  | reread task' =>
    cases htask
    simp only [step] at h
    split at h
    next job now attemptCount hbegun =>
      cases h
      rw [hbegun] at hheld hphase
      obtain ⟨row, hrow, hrunning, hcount⟩ := hphase
      refine .inr ⟨job, ?_⟩
      simp only [hrow]
      exact turn_become (hheld job rfl) rfl ⟨hrow, hrunning, hcount⟩
    · cases h
  | prepare task' around =>
    cases htask
    simp only [step] at h
    split at h
    next job now seen attemptCount hattempted =>
      cases h
      rw [hattempted] at hheld hphase
      exact .inr ⟨job, turn_prepared hkept (hheld job rfl) hphase.1 hphase.2.1⟩
    · cases h
  | invoke task' =>
    cases htask
    simp only [step] at h
    split at h
    next job now seen hentered =>
      cases h
      rw [hentered] at hheld hphase
      obtain ⟨hrow, hrunning, hzero⟩ := hphase
      refine .inr ⟨job, ?_⟩
      refine
        { held := .inl (hheld job rfl), jobs := fun _ _ => rfl, locks := fun _ _ => rfl
          tasks := fun other hne => Function.update_of_ne hne _ _, counts := ?_
          deliveries := rfl, origins := rfl, phase := .inr ?_, holds := ?_, row := ?_
          invokes := .inr ⟨now, seen, hentered⟩ }
      · intro other hne
        exact ⟨rfl, Function.update_of_ne hne _ _⟩
      · exact ⟨by simp [become, Phase.job], hheld job rfl⟩
      · simp only [become, Function.update_self]
        exact ⟨hrow, hrunning, by simp [hzero]⟩
      · simp only [become, hrow, Function.update_self, hzero]
        exact .invoked now hrunning
    · cases h
  | handled task' result =>
    cases htask
    simp only [step] at h
    split at h
    next job now seen hhandling =>
      cases h
      rw [hhandling] at hheld hphase
      exact .inr ⟨job, turn_returned (hheld job rfl) hphase.1 hphase.2.1⟩
    · cases h
  | apply task' =>
    cases htask
    simp only [step] at h
    split at h
    next job now seen terminalState hrecorded =>
      cases h
      rw [hrecorded] at hheld hphase
      obtain ⟨hrow, hstate, hterminal⟩ := hphase
      refine .inr ⟨job, ?_⟩
      simp only [hrow]
      apply turn_write_release (hheld job rfl) hrow
      rw [seen.finalizeKept_eq]
      refine .finished now ?_ terminalState hterminal _ _
      rw [hstate]
      decide
    · cases h
  | crash task' =>
    cases htask
    simp only [step] at h
    split at h
    next job hjob =>
      cases h
      exact .inr ⟨job, turn_release (hheld job hjob)⟩
    · cases h
  | deliver | insert | resolve | kick | drop => cases htask

end KAssetTrader.Inbox
