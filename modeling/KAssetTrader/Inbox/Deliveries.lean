import KAssetTrader.Inbox.Once

/-!
Deliveries of one identity: one row, and one that is reported as queued. A delivery
that finds the row of its identity changes nothing and is answered by what it finds.
An active row still has the envelope that was inserted, so that a redelivery matches
it exactly when it repeats every column.
-/

namespace KAssetTrader.Inbox

/-- A delivery that has committed a row, whether it is reported yet or not. -/
def Delivery.Queues (d : Delivery) (a : Admitted) (job : JobId) : Prop :=
  d = .committed a job ∨ d = .reported (some a) (.queued job)

section Invariant

variable (allowed : String → Bool)

/-- What every step keeps of rows, deliveries and the record of who inserted a row. -/
structure World.Deduplicated (s : World) : Prop where
  unique : ∀ job job' row row', s.jobs.get? job = some row → s.jobs.get? job' = some row' →
    row.updateDigest = row'.updateDigest → job = job'
  origins : ∀ job row, s.jobs.get? job = some row → ∃ origin, s.origins job = some origin ∧
    (¬ row.state.Terminal → row.envelope = origin.envelope)
  identity : ∀ job row query, s.jobs.get? job = some row →
    row.envelope.callbackQueryId = some query → row.updateDigest = .callbackQueryId query
  admitted : ∀ delivery a, (s.deliveries delivery).admitted = some a →
    ∃ update, admission allowed update = .ok a
  queued : ∀ delivery a job, (s.deliveries delivery).Queues a job →
    ∃ row origin, s.jobs.get? job = some row ∧ row.updateDigest = a.identity ∧
      s.origins job = some origin ∧ origin.delivery = delivery

end Invariant

section Rows

variable {row row' : Job} {attempts attempts' invocations invocations' : ℕ}

theorem Rewrites.envelope
    (h : Rewrites (some row) (some row') attempts attempts' invocations invocations') :
    row'.updateDigest = row.updateDigest ∧
      (row'.envelope = row.envelope ∧ (¬ row'.state.Terminal → ¬ row.state.Terminal) ∨
        row'.envelope = .scrubbed ∧ row'.state.Terminal) := by
  cases h with
  | same | invoked => exact ⟨rfl, .inl ⟨rfl, id⟩⟩
  | began now hbegin =>
    obtain ⟨_, _, _, hactive, rfl⟩ := beginAttempt_spec hbegin
    exact ⟨rfl, .inl ⟨rfl, fun _ => hactive⟩⟩
  | entered now hrow => exact ⟨rfl, .inl ⟨rfl, fun _ => hrow.active⟩⟩
  | decided entered now hrow => exact ⟨rfl, .inl ⟨rfl, fun _ => hrow.active⟩⟩
  | finished now hactive terminalState hterminal =>
    exact ⟨rfl, .inr ⟨rfl, hterminal⟩⟩
  | retried now hretry =>
    obtain ⟨hrow, _, rfl⟩ := scheduleRetry_spec hretry
    exact ⟨rfl, .inl ⟨rfl, fun _ => hrow.active⟩⟩

end Rows

section Steps

variable {allowed : String → Bool} {s t : World} {task delivery : ℕ} {job : JobId}

variable {other : JobId} {row : Job} {identity : DeliveryIdentity} {a : Admitted}

theorem Turn.row_before (h : Turn s t task job) {row' : Job} (hrow' : t.jobs.get? other = some row')
    :
    ∃ row, s.jobs.get? other = some row ∧ row'.updateDigest = row.updateDigest ∧
      (row'.envelope = row.envelope ∧ (¬ row'.state.Terminal → ¬ row.state.Terminal) ∨
        row'.envelope = .scrubbed ∧ row'.state.Terminal) := by
  by_cases hjob : other = job
  · subst hjob
    have hrewrites := h.row
    cases hrow : s.jobs.get? other with
    | none =>
      rw [hrow, hrow'] at hrewrites
      cases hrewrites
    | some row =>
      rw [hrow, hrow'] at hrewrites
      exact ⟨row, rfl, hrewrites.envelope⟩
  · rw [h.jobs other hjob] at hrow'
    exact ⟨row', hrow', rfl, .inl ⟨rfl, id⟩⟩

theorem Turn.row_after (h : Turn s t task job) (hrow : s.jobs.get? other = some row) :
    ∃ row', t.jobs.get? other = some row' ∧ row'.updateDigest = row.updateDigest := by
  by_cases hjob : other = job
  · subst hjob
    have hrewrites := h.row
    cases hrow' : t.jobs.get? other with
    | none =>
      rw [hrow, hrow'] at hrewrites
      cases hrewrites
    | some row' =>
      rw [hrow, hrow'] at hrewrites
      exact ⟨row', rfl, hrewrites.envelope.1⟩
  · exact ⟨row, (h.jobs other hjob).trans hrow, rfl⟩

theorem World.Deduplicated.turn (hkept : s.Deduplicated allowed) (h : Turn s t task job) :
    t.Deduplicated allowed where
  unique := by
    intro first second row row' hrow hrow' hdigest
    obtain ⟨before, hbefore, hsame, _⟩ := h.row_before hrow
    obtain ⟨before', hbefore', hsame', _⟩ := h.row_before hrow'
    exact hkept.unique first second before before' hbefore hbefore'
      (hsame.symm.trans (hdigest.trans hsame'))
  origins := by
    intro other row' hrow'
    obtain ⟨row, hrow, _, henvelope⟩ := h.row_before hrow'
    obtain ⟨origin, horigin, hactive⟩ := hkept.origins other row hrow
    refine ⟨origin, by rw [h.origins, horigin], ?_⟩
    intro hstate
    rcases henvelope with ⟨hsame, hbefore⟩ | ⟨_, hterminal⟩
    · rw [hsame]
      exact hactive (hbefore hstate)
    · exact absurd hterminal hstate
  identity := by
    intro other row' query hrow' hquery
    obtain ⟨row, hrow, hdigest, henvelope⟩ := h.row_before hrow'
    rcases henvelope with ⟨hsame, _⟩ | ⟨hscrubbed, _⟩
    · rw [hdigest]
      exact hkept.identity other row query hrow (by rw [← hsame, hquery])
    · rw [hscrubbed] at hquery
      cases hquery
  admitted := by
    intro other a hadmitted
    rw [h.deliveries] at hadmitted
    exact hkept.admitted other a hadmitted
  queued := by
    intro other a queuedJob hqueues
    rw [h.deliveries] at hqueues
    obtain ⟨row, origin, hrow, hdigest, horigin, hdelivery⟩ :=
      hkept.queued other a queuedJob hqueues
    obtain ⟨row', hrow', hsame⟩ := h.row_after hrow
    exact ⟨row', origin, hrow', hsame.trans hdigest, by rw [h.origins, horigin], hdelivery⟩

theorem digest_ne_of_not_collides (hnew : ¬ s.Collides job identity)
    (hrow : s.jobs.get? other = some row) : row.updateDigest ≠ identity := by
  intro hdigest
  apply hnew
  exact .inr ⟨row, List.mem_map.mpr ⟨_, s.jobs.get?_eq_some.mp hrow, rfl⟩, hdigest⟩

theorem Delivery.Queues.admitted {d : Delivery} (h : d.Queues a job) :
    d.admitted = some a := by
  rcases h with h | h <;> rw [h] <;> rfl

theorem DeliveryMove.admitted_after (h : DeliveryMove allowed s t delivery)
    (hafter : (t.deliveries delivery).admitted = some a) :
    (s.deliveries delivery).admitted = some a ∨ ∃ update, admission allowed update = .ok a := by
  cases h with
  | admitted _ hadmission _ _ hphase =>
    rw [hphase] at hafter
    cases hafter
    exact .inr hadmission
  | collided hbefore _ _ hphase =>
    rw [hphase] at hafter
    rw [hbefore]
    exact .inl hafter
  | inserted hbefore _ _ _ hphase =>
    rw [hbefore]
    rcases hphase with hphase | hphase <;> rw [hphase] at hafter <;> exact .inl hafter
  | queued hbefore _ _ hphase =>
    rw [hphase] at hafter
    rw [hbefore]
    exact .inl hafter
  | answered _ hbefore _ _ hphase =>
    rw [hphase] at hafter
    rcases hbefore with rfl | rfl
    · cases hafter
    · exact .inl hafter

theorem DeliveryMove.queues_after (h : DeliveryMove allowed s t delivery)
    (hafter : (t.deliveries delivery).Queues a job) :
    (s.deliveries delivery).Queues a job ∧ t.jobs = s.jobs ∧ t.origins = s.origins ∨
      ¬ s.Collides job a.identity ∧ (∃ now, t.jobs = s.jobs.set job (enqueued a now)) ∧
        t.origins = Function.update s.origins job (some ⟨delivery, a.envelope⟩) := by
  unfold Delivery.Queues at hafter ⊢
  cases h with
  | admitted _ _ _ _ hphase => simp [hphase] at hafter
  | collided _ _ _ hphase => simp [hphase] at hafter
  | inserted hbefore hnew hjobs horigins hphase =>
    rcases hphase with hphase | hphase
    · rw [hphase] at hafter
      simp only [Delivery.committed.injEq, reduceCtorEq, or_false] at hafter
      obtain ⟨rfl, rfl⟩ := hafter
      exact .inr ⟨hnew, ⟨_, hjobs⟩, horigins⟩
    · simp [hphase] at hafter
  | queued hbefore hjobs horigins hphase =>
    rw [hphase] at hafter
    simp only [reduceCtorEq, Delivery.reported.injEq, Option.some.injEq, Report.queued.injEq,
      false_or] at hafter
    obtain ⟨rfl, rfl⟩ := hafter
    exact .inl ⟨.inl hbefore, hjobs, horigins⟩
  | answered hreport _ _ _ hphase =>
    rw [hphase] at hafter
    simp only [reduceCtorEq, Delivery.reported.injEq, false_or] at hafter
    exact absurd hafter.2 (hreport job)

/-- A step of a delivery leaves one row to each update. -/
theorem World.Deduplicated.deliver (hkept : s.Deduplicated allowed)
    (hframe : DeliveryFrame s t delivery) (h : DeliveryMove allowed s t delivery) :
    t.Deduplicated allowed := by
  have hadmitted : ∀ other a, (t.deliveries other).admitted = some a →
      ∃ update, admission allowed update = .ok a := by
    intro other a ha
    by_cases hother : other = delivery
    · subst hother
      rcases h.admitted_after ha with hbefore | hnew
      · exact hkept.admitted other a hbefore
      · exact hnew
    · rw [hframe.others other hother] at ha
      exact hkept.admitted other a ha
  rcases h.tables with ⟨hjobs, horigins⟩ | ⟨a, now, job, ha, hnew, hjobs, horigins⟩
  · refine ⟨?_, ?_, ?_, hadmitted, ?_⟩
    · rw [hjobs]
      exact hkept.unique
    · rw [hjobs, horigins]
      exact hkept.origins
    · rw [hjobs]
      exact hkept.identity
    · intro other b queuedJob hqueues
      rw [hjobs, horigins]
      by_cases hother : other = delivery
      · subst hother
        rcases h.queues_after hqueues with ⟨hbefore, _⟩ | ⟨hnew, ⟨now, hset⟩, _⟩
        · exact hkept.queued other b queuedJob hbefore
        · have hnone := get?_of_not_collides hnew
          rw [← hjobs, hset, Dict.get?_set, if_pos rfl] at hnone
          cases hnone
      · rw [hframe.others other hother] at hqueues
        exact hkept.queued other b queuedJob hqueues
  · have hrow : ∀ {other row}, t.jobs.get? other = some row →
        other = job ∧ row = enqueued a now ∨ other ≠ job ∧ s.jobs.get? other = some row := by
      intro other row hrow
      rw [hjobs, Dict.get?_set] at hrow
      split at hrow
      next hother => exact .inl ⟨hother, (Option.some.inj hrow).symm⟩
      next hother => exact .inr ⟨hother, hrow⟩
    refine ⟨?_, ?_, ?_, hadmitted, ?_⟩
    · intro first second row row' hfirst hsecond hdigest
      rcases hrow hfirst with ⟨rfl, rfl⟩ | ⟨_, hfirst⟩ <;>
        rcases hrow hsecond with ⟨rfl, rfl⟩ | ⟨_, hsecond⟩
      · rfl
      · exact absurd hdigest.symm (digest_ne_of_not_collides hnew hsecond)
      · exact absurd hdigest (digest_ne_of_not_collides hnew hfirst)
      · exact hkept.unique first second row row' hfirst hsecond hdigest
    · intro other row hother
      rw [horigins]
      rcases hrow hother with ⟨rfl, rfl⟩ | ⟨hne, hother⟩
      · exact ⟨_, Function.update_self _ _ _, fun _ => rfl⟩
      · rw [Function.update_of_ne hne]
        exact hkept.origins other row hother
    · intro other row query hother hquery
      rcases hrow hother with ⟨rfl, rfl⟩ | ⟨_, hother⟩
      · obtain ⟨update, hadmission⟩ := hkept.admitted delivery a ha
        exact admission_query hadmission hquery
      · exact hkept.identity other row query hother hquery
    · intro other b queuedJob hqueues
      have hold : ∀ row, s.jobs.get? queuedJob = some row → queuedJob ≠ job := by
        rintro row hget rfl
        rw [get?_of_not_collides hnew] at hget
        cases hget
      by_cases hother : other = delivery
      · subst hother
        rcases h.queues_after hqueues with ⟨_, hsame, _⟩ | ⟨_, ⟨now', hset⟩, hrecord⟩
        · have hnone := get?_of_not_collides hnew
          rw [← hsame, hjobs, Dict.get?_set, if_pos rfl] at hnone
          cases hnone
        · refine ⟨enqueued b now', ⟨other, b.envelope⟩, ?_, rfl, ?_, rfl⟩
          · rw [hset, Dict.get?_set, if_pos rfl]
          · rw [hrecord, Function.update_self]
      · rw [hframe.others other hother] at hqueues
        obtain ⟨row, origin, hget, hdigest, horigin, hdelivery⟩ :=
          hkept.queued other b queuedJob hqueues
        have hne := hold row hget
        refine ⟨row, origin, ?_, hdigest, ?_, hdelivery⟩
        · rw [hjobs, Dict.get?_set, if_neg hne, hget]
        · rw [horigins, Function.update_of_ne hne, horigin]

theorem start_deduplicated (h : Start s) : s.Deduplicated allowed where
  unique := by
    intro first second row row' hrow
    rw [h.jobs, Dict.get?_empty] at hrow
    cases hrow
  origins := by
    intro other row hrow
    rw [h.jobs, Dict.get?_empty] at hrow
    cases hrow
  identity := by
    intro other row query hrow
    rw [h.jobs, Dict.get?_empty] at hrow
    cases hrow
  admitted := by
    intro other a ha
    rw [h.deliveries] at ha
    cases ha
  queued := by
    intro other a queuedJob hqueues
    have hadmitted := hqueues.admitted
    rw [h.deliveries] at hadmitted
    cases hadmitted

variable {normalizeOutcome : Option String → Option String}

/-- A delivery inserts a row only under an identity that no row has. -/
theorem World.Deduplicated.step {a : Action} (hkept : s.Kept) (hdedup : s.Deduplicated allowed)
    (h : step allowed normalizeOutcome s a = some t) : t.Deduplicated allowed := by
  cases htask : a.task with
  | some task =>
    rcases task_step hkept htask h with rfl | ⟨job, hturn⟩
    · exact hdedup
    · exact hdedup.turn hturn
  | none =>
    obtain ⟨delivery, hframe, hmove⟩ := delivery_step htask h
    exact hdedup.deliver hframe hmove

theorem reachable_deduplicated (h : Reachable allowed normalizeOutcome s) :
    s.Deduplicated allowed :=
  Transition.invariant_of_reachable (fun _ => start_deduplicated)
    (fun _ _ _ hreach hdedup _ hstep => hdedup.step (reachable_kept hreach) hstep) h

theorem World.Deduplicated.find (hdedup : s.Deduplicated allowed)
    (hrow : s.jobs.get? job = some row) (hdigest : row.updateDigest = identity) :
    s.find identity = some (job, row) := by
  have hmem : (job, row) ∈ s.jobs.entries := s.jobs.get?_eq_some.mp hrow
  cases hfind : s.find identity with
  | none =>
    have hnone := List.find?_eq_none.mp hfind (job, row) hmem
    exact absurd hdigest (by simpa using hnone)
  | some found =>
    obtain ⟨other, otherRow⟩ := found
    have hget : s.jobs.get? other = some otherRow :=
      s.jobs.get?_eq_some.mpr (List.mem_of_find?_eq_some hfind)
    have hsame : otherRow.updateDigest = identity := by
      simpa using List.find?_some hfind
    obtain rfl := hdedup.unique other job otherRow row hget hrow (hsame.trans hdigest.symm)
    rw [hget] at hrow
    rw [Option.some.inj hrow]

/-- A delivery that has collided is answered by the row of its identity: a terminal
one, or one inserted with the same columns, makes it a duplicate. -/
theorem World.Deduplicated.resolved (hdedup : s.Deduplicated allowed)
    (hrow : s.jobs.get? job = some row) (hdigest : row.updateDigest = a.identity) :
    ∃ origin, s.origins job = some origin ∧
      s.resolved a = if row.state.Terminal ∨ a.envelope = origin.envelope then .duplicate job
        else .conflict := by
  obtain ⟨origin, horigin, hactive⟩ := hdedup.origins job row hrow
  refine ⟨origin, horigin, ?_⟩
  simp only [World.resolved, hdedup.find hrow hdigest, envelopeMatchesRow, decide_eq_true_eq]
  by_cases hterminal : row.state.Terminal
  · simp [hterminal]
  · simp [hterminal, hactive hterminal, eq_comm]

theorem World.Deduplicated.collides {new : JobId} (hrow : s.jobs.get? job = some row)
    (hdigest : row.updateDigest = identity) :
    s.Collides new identity := by
  by_contra hnew
  exact digest_ne_of_not_collides hnew hrow hdigest

end Steps

/-- Deliveries and tasks interleave as they may: an identity has one row, and one
delivery of it at most is queued, after its row was committed. A redelivery finds that
row: it is a duplicate when it repeats what was inserted or the row is terminal, else a
conflict, and it changes and queues nothing. A terminal row stays as it is. -/
theorem deliveries_deduplicated (allowed : String → Bool)
    (normalizeOutcome : Option String → Option String) {s : World}
    (hreach : Reachable allowed normalizeOutcome s) :
    (∀ job job' row row', s.jobs.get? job = some row → s.jobs.get? job' = some row' →
      row.updateDigest = row'.updateDigest → job = job') ∧
    (∀ job row query, s.jobs.get? job = some row → row.envelope.callbackQueryId = some query →
      row.updateDigest = .callbackQueryId query) ∧
    (∀ delivery a job, s.deliveries delivery = .reported (some a) (.queued job) →
      (∃ row, s.jobs.get? job = some row ∧ row.updateDigest = a.identity) ∧
      ∀ delivery' a' job', s.deliveries delivery' = .reported (some a') (.queued job') →
        a'.identity = a.identity → delivery' = delivery) ∧
    (∀ delivery a now job row, s.deliveries delivery = .inserting a now →
      s.jobs.get? job = some row → row.updateDigest = a.identity → ∀ new commit,
        step allowed normalizeOutcome s (.insert delivery new commit) =
          some (s.setDelivery delivery (.colliding a))) ∧
    (∀ delivery a job row, s.deliveries delivery = .colliding a →
      s.jobs.get? job = some row → row.updateDigest = a.identity →
      ∃ origin, s.origins job = some origin ∧
        step allowed normalizeOutcome s (.resolve delivery true) =
          some (s.setDelivery delivery (.reported (some a)
            (if row.state.Terminal ∨ a.envelope = origin.envelope then .duplicate job
              else .conflict)))) ∧
    ∀ act t, step allowed normalizeOutcome s act = some t →
      (∀ job row, s.jobs.get? job = some row → row.state.Terminal →
        t.jobs.get? job = some row) ∧
      ∀ delivery a job, (t.deliveries delivery).Queues a job →
        (s.deliveries delivery).Queues a job ∨
          ∀ job' row, s.jobs.get? job' = some row → row.updateDigest ≠ a.identity := by
  have hkept := reachable_kept hreach
  have hdedup := reachable_deduplicated hreach
  refine ⟨hdedup.unique, hdedup.identity, ?_, ?_, ?_, ?_⟩
  · intro delivery a job hqueued
    obtain ⟨row, origin, hrow, hdigest, horigin, hdelivery⟩ :=
      hdedup.queued delivery a job (.inr hqueued)
    refine ⟨⟨row, hrow, hdigest⟩, ?_⟩
    intro delivery' a' job' hqueued' hidentity
    obtain ⟨row', origin', hrow', hdigest', horigin', hdelivery'⟩ :=
      hdedup.queued delivery' a' job' (.inr hqueued')
    obtain rfl := hdedup.unique job' job row' row hrow' hrow
      (hdigest'.trans (hidentity.trans hdigest.symm))
    rw [horigin] at horigin'
    rw [← hdelivery', ← hdelivery, Option.some.inj horigin']
  · intro delivery a now job row hinserting hrow hdigest new commit
    have hcollides : s.Collides new a.identity := World.Deduplicated.collides hrow hdigest
    simp only [step, hinserting, hcollides, if_true]
  · intro delivery a job row hcolliding hrow hdigest
    obtain ⟨origin, horigin, hresolved⟩ := hdedup.resolved hrow hdigest
    refine ⟨origin, horigin, ?_⟩
    simp only [step, hcolliding, if_true, hresolved]
  · intro act t hstep
    refine ⟨?_, ?_⟩
    · intro job row hrow hterminal
      obtain ⟨row', hrow', hprogress⟩ := hkept.progress hstep hrow
      rw [hrow', hprogress.terminal hterminal]
    · intro delivery a job hqueues
      cases htask : act.task with
      | some task =>
        rcases task_step hkept htask hstep with rfl | ⟨own, hturn⟩
        · exact .inl hqueues
        · rw [hturn.deliveries] at hqueues
          exact .inl hqueues
      | none =>
        obtain ⟨moving, hframe, hmove⟩ := delivery_step htask hstep
        by_cases hdelivery : delivery = moving
        · subst hdelivery
          rcases hmove.queues_after hqueues with ⟨hbefore, _⟩ | ⟨hnew, _⟩
          · exact .inl hbefore
          · exact .inr fun job' row hrow => digest_ne_of_not_collides hnew hrow
        · rw [hframe.others delivery hdelivery] at hqueues
          exact .inl hqueues

/-- One click is delivered three times, the last time under another update id. -/
def sampleRedelivery : List Action :=
  [.deliver 0 (sampleClick 5) 0, .deliver 1 (sampleClick 5) 0, .deliver 2 (sampleClick 6) 0,
    .insert 0 100 .done, .insert 1 101 .done, .kick 0, .insert 2 102 .done, .resolve 1 true,
    .resolve 2 true]

/-- A click that is delivered twice. -/
theorem deliveries_deduplicated_click :
    ∃ s, Transition.run (step (fun _ => true) id) emptyInbox sampleRedelivery = some s ∧
      ∀ delivery a job, s.deliveries delivery = .reported (some a) (.queued job) →
        ∃ row, s.jobs.get? job = some row ∧ row.updateDigest = a.identity := by
  have hrun : (Transition.run (step (fun _ => true) id) emptyInbox sampleRedelivery).isSome =
      true := by decide +kernel
  obtain ⟨s, hs⟩ := Option.isSome_iff_exists.mp hrun
  have hreach := Transition.reachable_of_run emptyInbox_start hs
  refine ⟨s, hs, ?_⟩
  intro delivery a job hqueued
  exact ((deliveries_deduplicated (fun _ => true) id hreach).2.2.1 delivery a job hqueued).1

example : ((Transition.run (step (fun _ => true) id) emptyInbox sampleRedelivery).map fun s =>
    [s.deliveries 0, s.deliveries 1, s.deliveries 2].map fun d =>
      match d with
      | .reported _ report => some report
      | _ => none) =
    some [some (.queued 100), some (.duplicate 100), some .conflict] := by
  decide +kernel

end KAssetTrader.Inbox
